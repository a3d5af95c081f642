import SyncedBookmarks.Proofs.Exchange
import SyncedBookmarks.Proofs.Rebuilding

namespace SyncedBookmarks

/-! A client that has never been synced hands all that it has to an empty server, and a fresh one
takes it up from there: in the end both have the same. -/

namespace Shared

/-- A server that takes everything at one time, and hands it out in an order of its own. -/
def storage (order : List StoredRecord → List StoredRecord) (time : Timestamp) : Storage Shared where
  fetch _ since shared := (.ok (order (shared.newer since)), shared)
  upload _ sent shared :=
    (.ok { modified := time, success := sent.map (·.id) }, shared.write time sent)

theorem newer_zero {shared : Shared} {time : Timestamp} (htime : Binary64.zero < time)
    {sent : List StoredRecord} (h : shared.records = sent.map (·.stamped time)) :
    shared.newer Binary64.zero = sent.map (·.stamped time) := by
  rw [← h, newer, List.filter_eq_self, h]
  intro stored hstored
  rw [modified_of_mem_stamped hstored]
  exact decide_eq_true htime

end Shared

namespace Tree

/-- Whether the roots are in place and all that is synced can be taken up elsewhere. -/
structure Presentable (tree : Tree) : Prop where
  roots : tree.RootsInPlace
  portable : tree.Portable

/-- Whether the same items are synced in two trees. -/
def SameIds (first second : Tree) : Prop :=
  ∃ guids others, BookmarkStore.allIds first = .ok guids ∧ BookmarkStore.allIds second = .ok others ∧
    ∀ guid, guid ∈ others ↔ guid ∈ guids

end Tree

namespace BookmarkStore

open SyncedBookmarks.Action SyncedBookmarks.Tree

/-- The record that is made of a plain item, or of none, is what the tree tells. -/
theorem newRecord_eq_answer {store : BookmarkStore} (h : store.tree.WellFormed) {guid : String}
    (htells : store.tree.Tells guid) : store.newRecord guid = .ok (store.tree.answer guid) := by
  have hwell : store.clearCache.tree.WellFormed := h
  obtain ⟨record, next, hresult, rfl, -⟩ :=
    yields_createRecord_answer hwell (coherent_of_empty rfl) htells
  exact congrArg Prod.fst hresult

/-- No orphan moves while none of their parents is there. -/
theorem yields_reparentOrphans_still {store : BookmarkStore}
    (hstill : ∀ orphan ∈ store.tree.annotated AnnotationName.intendedParent,
      store.tree.idOfGuid? (intendedParent orphan.2) = none) :
    reparentOrphans.Yields store fun _ next => next = store := by
  refine yields_reparentOrphans rfl ?_
  rintro orphan horphan state rfl
  refine (yields_read (P := fun parent next => parent = none ∧ next = state)
    ⟨hstill orphan horphan, rfl⟩).bind ?_
  rintro _ _ ⟨rfl, rfl⟩
  exact yields_pure rfl

/-- The moving of orphans gives no item another name. -/
theorem yields_reparentOrphans_named {store : BookmarkStore} (h : store.tree.WellFormed) :
    reparentOrphans.Yields store fun _ next =>
      ∀ guid, next.tree.idOfGuid? guid = store.tree.idOfGuid? guid := by
  have hall := yields_reparentOrphans (P := fun next => next.tree.WellFormed ∧
    (∀ id, (store.tree.known? id).isSome → (next.tree.known? id).isSome) ∧
      ∀ guid, next.tree.idOfGuid? guid = store.tree.idOfGuid? guid)
    ⟨h, fun _ hid => hid, fun _ => rfl⟩
  refine (hall ?_).imp fun _ _ hlast => hlast.2.2
  rintro orphan horphan state ⟨hwell, hthere, hnamed⟩
  obtain ⟨found, hfound, -⟩ := (mem_annotated_iff h).mp horphan
  obtain ⟨row, hrow⟩ := Option.isSome_iff_exists.mp (hthere orphan.1 (hfound ▸ rfl))
  refine (yields_reparent hwell hrow orphan.2).imp ?_
  rintro _ next ⟨hreparented, -⟩
  cases hreparented with
  | moved parent hparent hrewritten =>
      refine ⟨hrewritten.wellFormed, fun id hid => ?_, fun guid => ?_⟩
      · rw [hrewritten.known?]
        split
        · rfl
        · exact hthere id hid
      · exact (hrewritten.idOfGuid? hwell hrow rfl guid).trans (hnamed guid)
  | refused hsame =>
      rw [hsame]
      exact ⟨hwell, hthere, hnamed⟩

end BookmarkStore

namespace Client

open SyncedBookmarks.Action SyncedBookmarks.BookmarkStore SyncedBookmarks.Tree

/-- Whether a client was never synced, and all that it has to tell is of what is synced or gone. -/
structure Unsynced (client : Client) : Prop where
  reachable : client.Reachable
  first : client.lastSync ≤ Binary64.zero
  ignored : ∀ guid ∈ client.tracker.ignored, guid ∈ RootGuid.all
  pending : ∀ guid ∈ client.tracker.changed,
    (∃ guids, allIds client.tree = .ok guids ∧ guid ∈ guids) ∨ client.tree.idOfGuid? guid = none

/-- Whether two clients have the same items synced and make the same record of each. -/
structure Agree (first second : Client) : Prop where
  sameIds : first.tree.SameIds second.tree
  record : ∀ guids, allIds first.tree = .ok guids → ∀ guid ∈ guids, ∃ record,
    ((createRecord guid).result first.store).1 = .ok record ∧
      ((createRecord guid).result second.store).1 = .ok record

/-! ### The first pass -/

theorem tree_settled (keys : KeyBundle) (since : Timestamp) (records : List StoredRecord)
    (client : Client) : (client.settled keys since records).tree =
      (reparentOrphans.result (client.receiveAll keys ⟨{}, since⟩ records).2.store).2.tree :=
  rfl

/-- Where no orphan finds its parent, nothing moves. -/
theorem tree_caughtUp_of_still {client : Client} (h : client.WellFormed)
    (hstill : ∀ orphan ∈ client.tree.annotated AnnotationName.intendedParent,
      client.tree.idOfGuid? (intendedParent orphan.2) = none) (keys : KeyBundle) :
    (client.caughtUp keys []).tree = client.tree := by
  have hbegun := (startPass_eq h).2
  rw [← hbegun.tree] at hstill ⊢
  obtain ⟨_, next, hresult, rfl⟩ := yields_reparentOrphans_still hstill
  rw [caughtUp, tree_settled, receiveAll, hresult]
  rfl

theorem idOfGuid?_caughtUp {client : Client} (h : client.WellFormed) (keys : KeyBundle)
    (guid : String) :
    (client.caughtUp keys []).tree.idOfGuid? guid = client.tree.idOfGuid? guid := by
  have hbegun := (startPass_eq h).2
  obtain ⟨_, next, hresult, hnamed⟩ :=
    yields_reparentOrphans_named hbegun.wellFormed.store.tree
  rw [caughtUp, tree_settled, receiveAll, hresult, ← hbegun.tree]
  exact hnamed guid

/-- What a client has handed over in its first pass: the record of each synced item, and a tombstone
for each changed one that is gone. -/
structure Handed (keys : KeyBundle) (client : Client) (tree : Tree) (guids : List String)
    (sent : List StoredRecord) : Prop where
  once : (sent.map (·.id)).Nodup
  mem_iff : ∀ guid, guid ∈ sent.map (·.id) ↔
    guid ∈ guids ∨ guid ∈ client.tracker.changed ∧ tree.idOfGuid? guid = none
  opens : ∀ stored ∈ sent, stored.openRecord keys = .ok (tree.answer stored.id)

theorem tells_of_lists {tree : Tree} (h : tree.WellFormed) (hportable : tree.Portable)
    {guids : List String} (hlists : tree.Lists guids) {guid : String} (hguid : guid ∈ guids) :
    tree.Tells guid := by
  obtain ⟨id, row, folder, hsynced, hrow, rfl, hname, -⟩ := hlists.exists_row h hguid
  intro other found hfound heq
  obtain rfl := h.guid_inj id other row found hrow hfound heq.symm
  obtain rfl := Option.some.inj (hrow.symm.trans hfound)
  exact ⟨hportable.plain id row hsynced hrow, folder, hname⟩

theorem tells_of_none {tree : Tree} (h : tree.WellFormed) {guid : String}
    (hnone : tree.idOfGuid? guid = none) : tree.Tells guid :=
  fun id row hrow heq => absurd heq (h.idOfGuid?_eq_none_iff.mp hnone id row hrow)

/-- No root is among what is synced. -/
theorem notMem_all_of_lists {tree : Tree} (h : tree.WellFormed) (hroots : tree.RootsInPlace)
    {guids : List String} (hlists : tree.Lists guids) {guid : String} (hguid : guid ∈ guids) :
    guid ∉ RootGuid.all := by
  obtain ⟨id, row, -, hsynced, hrow, rfl, -⟩ := hlists.exists_row h hguid
  exact hsynced.guid_notMem h hroots hrow

/-- A client that was never synced hands over all that was synced before the pass and is there after
it. -/
theorem handed_of_discharges {keys : KeyBundle} {client : Client} (h : client.Unsynced)
    {tree : Tree} (htree : (client.caughtUp keys []).tree = tree) (hpresentable : tree.Presentable)
    {guids : List String} (hids : allIds client.tree = .ok guids) (hlists : tree.Lists guids)
    {sent : List StoredRecord} (hsent : Discharges keys [] client sent) :
    Handed keys client tree guids sent := by
  have hwell := h.reachable.wellFormed
  have hcaughtUp : tree.WellFormed := htree ▸ (caughtUp_spec hwell keys []).wellFormed.store.tree
  have hmem : ∀ guid, guid ∈ sent.map (·.id) ↔
      guid ∈ guids ∨ guid ∈ client.tracker.changed ∧ tree.idOfGuid? guid = none := by
    intro guid
    rw [hsent.mem_iff, htree]
    constructor
    · rintro ⟨⟨hchanged | ⟨-, -, _, hother, hguid⟩, -⟩, -⟩
      · rcases h.pending guid hchanged with ⟨_, hother, hguid⟩ | hnone
        · exact .inl (Except.ok.inj (hother.symm.trans hids) ▸ hguid)
        · exact .inr ⟨hchanged, htree ▸ (idOfGuid?_caughtUp hwell keys guid).trans hnone⟩
      · exact .inl (Except.ok.inj (hother.symm.trans hids) ▸ hguid)
    · rintro (hguid | ⟨hchanged, hnone⟩)
      · have hapart := notMem_all_of_lists hcaughtUp hpresentable.roots hlists hguid
        refine ⟨⟨.inr ⟨h.first, fun hmem => hapart (h.ignored guid hmem), guids, hids, hguid⟩,
          List.not_mem_nil⟩, ?_⟩
        intro hplaces
        obtain ⟨row, hrow, rfl⟩ := hcaughtUp.idOfGuid?_iff.mp hplaces
        exact hpresentable.roots.named.ne_of_guid places_mem_rootNames hrow hapart rfl
      · exact ⟨⟨.inl hchanged, List.not_mem_nil⟩, by simp [hnone]⟩
  refine ⟨hsent.once, hmem, ?_⟩
  intro stored hstored
  obtain ⟨record, hopen, hnew⟩ := hsent.opens stored hstored
  have htells : tree.Tells stored.id := by
    rcases (hmem stored.id).mp (List.mem_map_of_mem hstored) with hguid | ⟨-, hnone⟩
    · exact tells_of_lists hcaughtUp hpresentable.portable hlists hguid
    · exact tells_of_none hcaughtUp hnone
  subst htree
  have hsame := Except.ok.inj (hnew.symm.trans (newRecord_eq_answer hcaughtUp htells))
  exact hopen.trans (congrArg Except.ok hsame)

/-! ### The second pass -/

theorem tree_receiveOne {keys : KeyBundle} {stored : StoredRecord} {record : Record}
    (h : stored.openRecord keys = .ok record) (progress : Progress) (client : Client) :
    (client.receiveOne keys progress stored).2.tree =
      ((applyIncoming record).result client.store).2.tree := by
  rw [receiveOne_of_opened h]
  rfl

section Receiving

variable {keys : KeyBundle} {guids : List String} {records : List Record}
  (hrecords : Record.Consistent records) (hids : ∀ record ∈ records, record.id ∈ guids)
  (hroots : ∀ guid ∈ guids, guid ∉ RootGuid.all)

/-- Whether what is stored is one of some records, or a tombstone apart from them. -/
def Awaited (keys : KeyBundle) (guids : List String) (records : List Record)
    (stored : StoredRecord) : Prop :=
  stored.id ∈ guids ∧ ∃ record, stored.openRecord keys = .ok record ∧
    (record ∈ records ∨ stored.id ∉ records.map (·.id) ∧ record = Record.tombstone stored.id)

include hrecords hids hroots

/-- In whatever order the records are given, all are drawn. -/
theorem redrawing_receiveAll (given : List StoredRecord) (client : Client) (progress : Progress)
    (done : List Record) (h : Redrawing guids records done client.tree)
    (hgiven : ∀ stored ∈ given, Awaited keys guids records stored)
    (hnodup : (given.map (·.id)).Nodup) (hfresh : ∀ stored ∈ given, stored.id ∉ done.map (·.id)) :
    ∃ all, Redrawing guids records all (client.receiveAll keys progress given).2.tree ∧
      ∀ record ∈ records, record ∈ done ∨ record.id ∈ given.map (·.id) → record ∈ all := by
  induction given generalizing client progress done with
  | nil => exact ⟨done, h, fun record _ hrecord => hrecord.resolve_right List.not_mem_nil⟩
  | cons stored rest ih =>
      obtain ⟨hguid, record, hopen, hkind⟩ := hgiven stored List.mem_cons_self
      obtain ⟨hapart, hnodup⟩ := List.nodup_cons.mp hnodup
      have hlater := fun other hother => hgiven other (List.mem_cons_of_mem _ hother)
      have hid := StoredRecord.id_of_openRecord hopen
      have hnew := hfresh stored List.mem_cons_self
      have htree := tree_receiveOne hopen progress client
      rw [receiveAll]
      generalize client.receiveOne keys progress stored = first at htree ⊢
      obtain ⟨middle, next⟩ := first
      -- A record is drawn, and a tombstone is of an item that is not there.
      rcases hkind with hrecord | ⟨hother, rfl⟩
      · obtain ⟨_, store, hresult, hdrawn⟩ := h.step hids hrecords hrecord (hid ▸ hnew)
        rw [hresult] at htree
        rw [← htree] at hdrawn
        have hstill : ∀ other ∈ rest, other.id ∉ (done ++ [record]).map (·.id) := by
          intro other hother
          rw [List.map_append, List.mem_append, not_or]
          refine ⟨hfresh other (List.mem_cons_of_mem _ hother), ?_⟩
          rw [List.map_singleton, List.mem_singleton, hid]
          exact fun heq => hapart (List.mem_map.mpr ⟨other, hother, heq⟩)
        obtain ⟨all, hall, hmem⟩ := ih next middle _ hdrawn hlater hnodup hstill
        refine ⟨all, hall, fun other hother hcase => hmem other hother ?_⟩
        rcases hcase with hdone | hcase
        · exact .inl (List.mem_append_left _ hdone)
        · rcases List.mem_cons.mp hcase with hsame | hmore
          · rw [List.inj_on_of_nodup_map hrecords.distinct hother hrecord (hsame.trans hid.symm)]
            exact .inl (List.mem_append_right _ List.mem_cons_self)
          · exact .inr hmore
      · obtain ⟨_, store, hresult, hsame⟩ := yields_applyIncoming_tombstone
          (hroots stored.id hguid) (h.free stored.id hguid hnew)
        rw [hresult] at htree
        have hstill : Redrawing guids records done next.tree := by
          rw [htree, hsame]
          exact h
        obtain ⟨all, hall, hmem⟩ := ih next middle done hstill hlater hnodup
          fun other hmore => hfresh other (List.mem_cons_of_mem _ hmore)
        refine ⟨all, hall, fun other hmore hcase => hmem other hmore ?_⟩
        refine hcase.imp_right fun hlisted => (List.mem_cons.mp hlisted).resolve_left ?_
        exact fun heq => hother (List.mem_map.mpr ⟨other, hmore, heq⟩)

/-- A client with a fresh tree that is given all records has what they tell of. -/
theorem mirrors_caughtUp {client : Client} (h : client.WellFormed) {source : GuidSource}
    (htree : client.tree = Tree.fresh source)
    (hnever : ∀ guid ∈ guids, (Tree.fresh source).NeverMakes guid) {given : List StoredRecord}
    (hgiven : ∀ stored ∈ given, Awaited keys guids records stored)
    (hnodup : (given.map (·.id)).Nodup) (hall : ∀ record ∈ records, record.id ∈ given.map (·.id)) :
    (client.caughtUp keys given).tree.Mirrors records := by
  have hstart : Redrawing guids records [] client.begun.tree := by
    rw [(startPass_eq h).2.tree, htree]
    exact redrawing_fresh hrecords hids hroots hnever
  obtain ⟨done, hdrawn, hmem⟩ := redrawing_receiveAll hrecords hids hroots given client.begun
    ⟨{}, client.lastSync⟩ [] hstart hgiven hnodup fun _ _ => List.not_mem_nil
  obtain ⟨_, last, hresult, hmirrors⟩ := yields_reparentOrphans_mirrors hdrawn hrecords
    fun record hrecord => hmem record hrecord (.inr (hall record hrecord))
  rw [caughtUp, tree_settled, hresult]
  exact hmirrors

end Receiving

/-! ### Both passes -/

theorem parcel_eq_nil {client : Client} (h : client.WellFormed) {keys : KeyBundle}
    (hkeys : keys.encryptionKey.length = Aead.keyLength) (hnone : ∀ guid, ¬ client.Owes guid)
    (given : List StoredRecord) : client.parcel keys given = [] := by
  rw [List.eq_nil_iff_forall_not_mem]
  intro stored hstored
  have howes := ((discharges_parcel h hkeys given).mem_iff stored.id).mp
    (List.mem_map_of_mem hstored)
  exact hnone stored.id howes.1.1

/-- The pass of a client that has nothing to send. -/
theorem sync_of_not_owes {client : Client} (h : client.WellFormed) {keys : KeyBundle}
    (hkeys : keys.encryptionKey.length = Aead.keyLength) (hnone : ∀ guid, ¬ client.Owes guid)
    (storage : Storage σ) (state : σ) {given : List StoredRecord}
    (hfetch : (storage.fetch client.collection client.lastSync state).1 = .ok given) :
    ∃ summary next last, client.sync storage keys state = (.ok summary, next, last) ∧
      next.tree = (client.caughtUp keys given).tree := by
  have hparcel := parcel_eq_nil h hkeys hnone given
  obtain ⟨progress, ready, next, -, hquiet, hfinished, hsync⟩ :=
    sync_idle h storage keys state hfetch hparcel
  exact ⟨_, next, _, hsync, hfinished.tree.trans hquiet.tree⟩

theorem tree_onTracker (step : Tracker → Tracker) (client : Client) :
    (client.onTracker step).tree = client.tree :=
  rfl

/-- The first pass puts on the server all that the client sends. -/
theorem sync_first {client : Client} (h : client.WellFormed) (keys : KeyBundle)
    {order : List StoredRecord → List StoredRecord} (horder : ∀ records, (order records).Perm records)
    (time : Timestamp) :
    ∃ summary next last,
      client.sync (Shared.storage order time) keys {} = (.ok summary, next, last) ∧
      next.tree = (client.caughtUp keys []).tree ∧
      last.records = (client.parcel keys []).map (·.stamped time) := by
  have hfetch : ((Shared.storage order time).fetch client.collection client.lastSync {}).1 =
      .ok [] := congrArg Except.ok (horder []).eq_nil
  have hupload : ∀ records shared, ((Shared.storage order time).upload client.collection records
      shared).1 = .ok { modified := time, success := records.map (·.id) } := fun _ _ => rfl
  by_cases hparcel : client.parcel keys [] = []
  · obtain ⟨progress, ready, next, -, hquiet, hfinished, hsync⟩ :=
      sync_idle h (Shared.storage order time) keys {} hfetch hparcel
    refine ⟨_, next, _, hsync, hfinished.tree.trans hquiet.tree, ?_⟩
    rw [hparcel]
    rfl
  · obtain ⟨progress, ready, next, -, hquiet, hfinished, hsync⟩ :=
      sync_uploaded h (Shared.storage order time) keys {} hfetch hparcel (hupload _ _)
    have hnext := hfinished.tree.trans (tree_onTracker _ ready)
    -- A name for the parcel, which nothing below looks into.
    generalize client.parcel keys [] = sent at hsync
    exact ⟨_, next, _, hsync, hnext.trans hquiet.tree, rfl⟩

/-- Where no orphan finds its parent, the first pass leaves the tree as it is. -/
theorem tree_sync_of_still {client : Client} (h : client.WellFormed)
    (hstill : ∀ orphan ∈ client.tree.annotated AnnotationName.intendedParent,
      client.tree.idOfGuid? (intendedParent orphan.2) = none) (keys : KeyBundle)
    {order : List StoredRecord → List StoredRecord} (horder : ∀ records, (order records).Perm records)
    (time : Timestamp) :
    (client.sync (Shared.storage order time) keys {}).2.1.tree = client.tree := by
  obtain ⟨summary, next, last, hsync, htree, -⟩ := sync_first h keys horder time
  rw [hsync]
  exact htree.trans (tree_caughtUp_of_still h hstill keys)

theorem not_synced_fresh {source : GuidSource} (id : Int) : ¬ (Tree.fresh source).Synced id := by
  intro hsynced
  obtain ⟨parent, habove, -⟩ := hsynced.exists_parent
  obtain ⟨row, hrow, -⟩ := known?_of_above? habove
  refine hsynced.guid_notMem (Tree.wellFormed_fresh source) (rootsInPlace_fresh source) hrow ?_
  obtain ⟨guid, _, _, hmem, rfl⟩ := exists_root_of_fresh hrow
  exact mem_all_of_rootNames hmem

/-- A fresh client is given all that was sent. -/
theorem fetch_fresh (order : List StoredRecord → List StoredRecord) {time : Timestamp}
    (htime : Binary64.zero < time) {last : Shared} {sent : List StoredRecord}
    (h : last.records = sent.map (·.stamped time)) (collection : String)
    (generators : Option (List String)) (journaled : Bool) (source : GuidSource) :
    ((Shared.storage order time).fetch collection
      (fresh collection generators journaled source).lastSync last).1 =
        .ok (order (sent.map (·.stamped time))) := by
  rw [← Shared.newer_zero htime h]
  cases journaled <;> rfl

theorem not_owes_fresh (collection : String) (generators : Option (List String)) (journaled : Bool)
    (source : GuidSource) (guid : String) :
    ¬ (fresh collection generators journaled source).Owes guid := by
  rintro (hchanged | ⟨-, -, guids, hids, hguid⟩)
  · cases journaled <;> cases hchanged
  · obtain ⟨found, hfound, hmem⟩ := allIds_spec (Tree.wellFormed_fresh source)
    rw [← Except.ok.inj (hfound.symm.trans hids), hmem] at hguid
    obtain ⟨id, hsynced, -⟩ := hguid
    exact not_synced_fresh id hsynced

theorem result_createRecord {client : Client} (h : client.WellFormed)
    (hcoherent : client.store.Coherent) {guid : String} (htells : client.tree.Tells guid) :
    ((createRecord guid).result client.store).1 = .ok (client.tree.answer guid) := by
  obtain ⟨record, next, hresult, rfl, -⟩ :=
    yields_createRecord_answer h.store.tree hcoherent htells
  exact congrArg Prod.fst hresult

/-- Clients agree when one mirrors the records of the other. -/
theorem agree_of_mirrors {first second : Client} (h : first.WellFormed ∧ first.store.Coherent)
    (h' : second.WellFormed ∧ second.store.Coherent) (hportable : first.tree.Portable)
    {guids : List String} (hlists : first.tree.Lists guids)
    (hmirrors : second.tree.Mirrors (guids.dedup.map first.tree.answer)) : first.Agree second := by
  have hwell : first.tree.WellFormed := h.1.store.tree
  obtain ⟨listed, hlisted, hmem⟩ : ∃ listed, allIds first.tree = .ok listed ∧
    first.tree.Lists listed := allIds_spec hwell
  obtain ⟨others, hothers, hmem'⟩ : ∃ others, allIds second.tree = .ok others ∧
    second.tree.Lists others := allIds_spec h'.1.store.tree
  have hnames : (guids.dedup.map first.tree.answer).map (·.id) = guids.dedup := by
    rw [List.map_map, (funext (id_answer hwell) : Record.id ∘ first.tree.answer = id), List.map_id]
  refine ⟨⟨listed, others, hlisted, hothers, fun guid => ?_⟩, fun _ hfound guid hguid => ?_⟩
  · rw [hmem guid, ← hlists guid, hmem' guid, ← hmirrors.lists guid, hnames, List.mem_dedup]
  · obtain rfl := Except.ok.inj (hlisted.symm.trans hfound)
    have hrecord : first.tree.answer guid ∈ guids.dedup.map first.tree.answer :=
      List.mem_map_of_mem (List.mem_dedup.mpr ((hlists guid).mpr ((hmem guid).mp hguid)))
    have htells := hmirrors.tells _ hrecord
    have hsame := hmirrors.answer _ hrecord
    rw [id_answer hwell] at htells hsame
    have hsecond := result_createRecord h'.1 h'.2 htells
    rw [hsame] at hsecond
    exact ⟨_, result_createRecord h.1 h.2 (tells_of_lists hwell hportable hmem hguid), hsecond⟩

/-- Given what was handed over, in whatever order, a fresh client mirrors it. -/
theorem mirrors_handed {client : Client} (h : client.Unsynced) {tree : Tree}
    (hwell : tree.WellFormed) (hpresentable : tree.Presentable) {guids : List String}
    (hids : allIds client.tree = .ok guids) (hlists : tree.Lists guids) {keys : KeyBundle}
    {sent given : List StoredRecord} (hsent : Handed keys client tree guids sent) {time : Timestamp}
    (hgiven : given.Perm (sent.map (·.stamped time))) {other : Client} (hother : other.WellFormed)
    {source : GuidSource} (htree : other.tree = Tree.fresh source)
    (hnever : ∀ guid, client.Owes guid → (Tree.fresh source).NeverMakes guid) :
    (other.caughtUp keys given).tree.Mirrors (guids.dedup.map tree.answer) := by
  have hdedup : tree.Lists guids.dedup := fun guid => List.mem_dedup.trans (hlists guid)
  have hrecords := hdedup.consistent (List.nodup_dedup guids) hwell hpresentable.roots
    hpresentable.portable
  have hapart : ∀ guid ∈ guids, guid ∉ RootGuid.all := fun guid =>
    notMem_all_of_lists hwell hpresentable.roots hlists
  have hnames : ∀ record ∈ guids.dedup.map tree.answer, record.id ∈ guids := by
    intro record hrecord
    obtain ⟨guid, hguid, rfl⟩ := List.mem_map.mp hrecord
    rw [id_answer hwell]
    exact List.mem_dedup.mp hguid
  have hgivenIds : (given.map (·.id)).Perm (sent.map (·.id)) := by
    have hmap := hgiven.map (·.id)
    rwa [List.map_map] at hmap
  have hnamed : ∀ record ∈ guids.dedup.map tree.answer, record.id ∈ sent.map (·.id) :=
    fun record hrecord => (hsent.mem_iff _).mpr (.inl (hnames record hrecord))
  refine mirrors_caughtUp hrecords hnamed ?_ hother htree ?_ ?_ ?_ ?_
  · intro guid hguid
    rcases (hsent.mem_iff guid).mp hguid with hlisted | ⟨-, hnone⟩
    · exact hapart guid hlisted
    · intro hroot
      obtain ⟨root, hmem⟩ := exists_root_of_mem_all hroot
      have hname := hpresentable.roots.named root guid hmem
      rw [guidOf?_eq_known?, Option.map_eq_some_iff] at hname
      obtain ⟨row, hrow, rfl⟩ := hname
      exact hwell.idOfGuid?_eq_none_iff.mp hnone root row hrow rfl
  · intro guid hguid
    refine hnever guid ?_
    rcases (hsent.mem_iff guid).mp hguid with hlisted | ⟨hchanged, -⟩
    · exact .inr ⟨h.first, fun hmem => hapart guid hlisted (h.ignored guid hmem), guids, hids,
        hlisted⟩
    · exact .inl hchanged
  · intro stored hstored
    obtain ⟨original, horiginal, rfl⟩ := List.mem_map.mp (hgiven.mem_iff.mp hstored)
    have hmem : original.id ∈ sent.map (·.id) := List.mem_map_of_mem horiginal
    refine ⟨hmem, _, hsent.opens original horiginal, ?_⟩
    rcases (hsent.mem_iff original.id).mp hmem with hlisted | ⟨-, hnone⟩
    · exact .inl (List.mem_map_of_mem (List.mem_dedup.mpr hlisted))
    · refine .inr ⟨?_, answer_of_none hnone⟩
      intro hlisted
      obtain ⟨record, hrecord, hname⟩ := List.mem_map.mp hlisted
      obtain ⟨id, row, -, -, hrow, hguid, -⟩ := hlists.exists_row hwell (hnames record hrecord)
      exact hwell.idOfGuid?_eq_none_iff.mp hnone id row hrow (hguid.trans hname)
  · exact hgivenIds.nodup_iff.mpr hsent.once
  · exact fun record hrecord => hgivenIds.mem_iff.mpr (hnamed record hrecord)

/-- A fresh client has what another handed over in its first pass, whatever the order in which it is
given it, when that pass leaves the other presentable and with the same items synced. -/
theorem fresh_agrees {client : Client} (h : client.Unsynced) {keys : KeyBundle}
    (hkeys : keys.encryptionKey.length = Aead.keyLength)
    {order : List StoredRecord → List StoredRecord} (horder : ∀ records, (order records).Perm records)
    {time : Timestamp} (htime : Binary64.zero < time) (generators : Option (List String))
    (journaled : Bool) {source : GuidSource}
    (hnever : ∀ guid, client.Owes guid → (Tree.fresh source).NeverMakes guid) :
    let storage := Shared.storage order time
    let first := client.sync storage keys {}
    let second := (fresh client.collection generators journaled source).sync storage keys first.2.2
    (∃ summary, first.1 = .ok summary) ∧ (∃ summary, second.1 = .ok summary) ∧
      (first.2.1.tree.Presentable → client.tree.SameIds first.2.1.tree →
        first.2.1.Agree second.2.1) := by
  have hwell := h.reachable.wellFormed
  obtain ⟨summary, next, last, hsync, htree, hlast⟩ := sync_first hwell keys horder time
  have hdischarges := discharges_parcel hwell hkeys []
  -- What is sent matters by what it discharges only.
  generalize client.parcel keys [] = sent at hlast hdischarges
  have hother := wellFormed_fresh client.collection generators journaled source
  obtain ⟨tally, final, ended, hsecond, hfinal⟩ := sync_of_not_owes hother hkeys
    (not_owes_fresh client.collection generators journaled source) (Shared.storage order time) last
    (fetch_fresh order htime hlast client.collection generators journaled source)
  have hfirst := sync_ordered hwell (Shared.storage order time) keys {}
  have hordered := sync_ordered hother (Shared.storage order time) keys last
  rw [hsync] at hfirst
  rw [hsecond] at hordered
  dsimp only
  rw [hsync]
  dsimp only
  rw [hsecond]
  refine ⟨⟨summary, rfl⟩, ⟨tally, rfl⟩, ?_⟩
  rintro hpresentable ⟨guids, others, hids, hothers, hsame⟩
  have hnext : next.tree.WellFormed := hfirst.1.store.tree
  obtain ⟨listed, hlisted, hmem⟩ := allIds_spec hnext
  obtain rfl := Except.ok.inj (hlisted.symm.trans hothers)
  have hlists : next.tree.Lists guids := fun guid => (hsame guid).symm.trans (hmem guid)
  have hhanded := handed_of_discharges h htree.symm hpresentable hids hlists hdischarges
  have hmirrors := mirrors_handed h hnext hpresentable hids hlists hhanded
    (horder (sent.map (·.stamped time))) hother rfl hnever
  rw [← hfinal] at hmirrors
  exact agree_of_mirrors hfirst hordered hpresentable.portable hlists hmirrors

/-! ### A tagged bookmark in a folder -/

/-- Whether a tree with few rows is presentable can be read off them. -/
theorem presentable_of_rows {tree : Tree}
    (hnamed : ∀ root ∈ rootNames, (tree.rows.find? (·.id == root.1)).map (·.guid) = some root.2)
    (habove : ∀ root ∈ [RootId.menu, RootId.toolbar, RootId.tags, RootId.unfiled],
      (tree.rows.find? (·.id == root)).bind (·.parent) = some RootId.places)
    (hquery : ∀ row ∈ tree.rows, isQuery (row.url.getD "") = false)
    (hheld : ∀ row ∈ tree.rows, row.url ≠ some holdingUri)
    (hannotations : ∀ row ∈ tree.rows, row.annotationOf? AnnotationName.generatorUri = none ∧
      row.annotationOf? AnnotationName.description ≠ some "" ∧
      row.annotationOf? AnnotationName.feedUri = none)
    (htags : ∀ row ∈ tree.rows, row.parent = some RootId.tags → row.title ≠ some "")
    (hdistinct : ∀ first ∈ tree.rows, ∀ second ∈ tree.rows, first.parent = some RootId.tags →
      second.parent = some RootId.tags → first.title = second.title → first.id = second.id) :
    tree.Presentable where
  roots := ⟨fun id guid hmem => hnamed (id, guid) hmem, habove⟩
  portable := by
    refine ⟨?_, ?_, ?_, ?_, ?_, ?_⟩
    · rintro id _ - hrow -
      obtain ⟨found, hmem, rfl, rfl⟩ := exists_mem_of_known? hrow
      exact ⟨hquery found hmem, (hannotations found hmem).1⟩
    · rintro id _ - hrow
      obtain ⟨found, hmem, rfl, rfl⟩ := exists_mem_of_known? hrow
      exact hheld found hmem
    · rintro id _ - hrow
      obtain ⟨found, hmem, rfl, rfl⟩ := exists_mem_of_known? hrow
      exact (hannotations found hmem).2.1
    · rintro id _ - hrow - feed hfeed
      obtain ⟨found, hmem, rfl, rfl⟩ := exists_mem_of_known? hrow
      cases (hannotations found hmem).2.2.symm.trans hfeed
    · rintro id _ hrow hparent -
      obtain ⟨found, hmem, rfl, rfl⟩ := exists_mem_of_known? hrow
      exact htags found hmem hparent
    · rintro first second _ _ hrow hparent - hrow' hparent' - htitle
      obtain ⟨found, hmem, rfl, rfl⟩ := exists_mem_of_known? hrow
      obtain ⟨other, hother, rfl, rfl⟩ := exists_mem_of_known? hrow'
      exact hdistinct found hmem other hother hparent hparent' htitle

/-- A client with a bookmark in a folder and a tag on it, where nothing is marked as changed. -/
def filed : Client :=
  ClientCall.runAll (fresh "bookmarks" none false .numbered)
    [.locally (.store (.mutate (.createFolder RootId.menu "A" Places.atEnd))),
      .locally (.store (.mutate (.setGuid 6 "a"))),
      .locally (.store (.mutate (.insertBookmark 6 "about:blank" Places.atEnd (some "B")))),
      .locally (.store (.mutate (.setGuid 7 "b"))),
      .locally (.store (.mutate (.tagUri "about:blank" ["t"]))), .locally .unmarkAll]

theorem reachable_filed : filed.Reachable :=
  ⟨"bookmarks", none, false, .numbered, _, rfl⟩

theorem rows_filed : filed.tree.rows =
    (Tree.fresh .numbered).rows ++
      [Tree.root 6 "a" (some RootId.menu) 0 "A",
        { id := 7, guid := "b", parent := some 6, position := 0
          typeCode := ItemType.bookmark.code, title := some "B", url := some "about:blank" },
        Tree.root 8 (GuidSource.numberedCandidate 8 0) (some RootId.tags) 0 "t",
        { id := 9, guid := GuidSource.numberedCandidate 9 0, parent := some 8, position := 0
          typeCode := ItemType.bookmark.code, title := none, url := some "about:blank" }] := by
  cbv

theorem ids_filed : allIds filed.tree = .ok ["a", "b"] := by
  cbv

theorem unsynced_of_unmarked {client : Client} (h : client.Reachable)
    (hfirst : client.lastSync ≤ Binary64.zero) (hignored : client.tracker.ignored = RootGuid.all)
    (hchanged : client.tracker.changed = []) : client.Unsynced where
  reachable := h
  first := hfirst
  ignored := fun _ hguid => hignored ▸ hguid
  pending := fun _ hguid => absurd (hchanged ▸ hguid) List.not_mem_nil

theorem mem_of_owes {client : Client} (hchanged : client.tracker.changed = []) {guids : List String}
    (hids : allIds client.tree = .ok guids) {guid : String} (howes : client.Owes guid) :
    guid ∈ guids := by
  rcases howes with hmarked | ⟨-, -, _, hother, hguid⟩
  · exact absurd (hchanged ▸ hmarked) List.not_mem_nil
  · exact Except.ok.inj (hother.symm.trans hids) ▸ hguid

theorem unsynced_filed : filed.Unsynced :=
  unsynced_of_unmarked reachable_filed (by decide +kernel) (by cbv) (by cbv)

theorem presentable_filed : filed.tree.Presentable := by
  apply presentable_of_rows <;> rw [rows_filed]
  · decide
  · decide
  · decide +kernel
  · decide
  · decide
  · decide
  · decide

theorem never_filed (guid : String) (h : filed.Owes guid) :
    (Tree.fresh .numbered).NeverMakes guid := by
  have hmem := mem_of_owes (by cbv) ids_filed h
  refine neverMakes_of_numbered rfl ?_
  simp only [List.mem_cons, List.not_mem_nil, or_false] at hmem
  rcases hmem with rfl | rfl <;> decide

theorem still_filed : filed.tree.annotated AnnotationName.intendedParent = [] := by
  cbv

/-- Another client has the folder and the bookmark although it is given them the other way round. -/
theorem filed_agrees :
    filed.Unsynced ∧ blankKeys.encryptionKey.length = Aead.keyLength ∧
      (∀ records : List StoredRecord, records.reverse.Perm records) ∧
      Binary64.zero < Binary64.ofNat 1 ∧
      (∀ guid, filed.Owes guid → (Tree.fresh .numbered).NeverMakes guid) ∧
      let storage := Shared.storage List.reverse (Binary64.ofNat 1)
      let first := filed.sync storage blankKeys {}
      let second := (fresh filed.collection none false .numbered).sync storage blankKeys first.2.2
      allIds first.2.1.tree = .ok ["a", "b"] ∧ first.2.1.Agree second.2.1 := by
  have hkeys : blankKeys.encryptionKey.length = Aead.keyLength := by decide
  have htime : Binary64.zero < Binary64.ofNat 1 := by decide
  have horder : ∀ records : List StoredRecord, records.reverse.Perm records :=
    List.reverse_perm
  obtain ⟨-, -, hagree⟩ := fresh_agrees unsynced_filed hkeys horder htime none false never_filed
  have htree := tree_sync_of_still reachable_filed.wellFormed
    (by simp [still_filed]) blankKeys horder (Binary64.ofNat 1)
  refine ⟨unsynced_filed, hkeys, horder, htime, never_filed, htree ▸ ids_filed, hagree ?_ ?_⟩
  · exact htree ▸ presentable_filed
  · rw [htree]
    exact ⟨_, _, ids_filed, ids_filed, fun _ => Iff.rfl⟩

/-! ### An orphan that the first pass finds a place for -/

/-- A client with a folder among the tags, where it is not synced, that waits for the menu. -/
def mislaid : Client :=
  ClientCall.runAll (fresh "bookmarks" none false .numbered)
    [.locally (.store (.mutate (.createFolder RootId.tags "X" Places.atEnd))),
      .locally (.store (.mutate (.setGuid 6 "x"))),
      .locally (.store (.mutate (.annotate 6 AnnotationName.intendedParent "Tmenu"))),
      .locally .unmarkAll]

theorem reachable_mislaid : mislaid.Reachable :=
  ⟨"bookmarks", none, false, .numbered, _, rfl⟩

theorem rows_mislaid : mislaid.tree.rows =
    (Tree.fresh .numbered).rows ++
      [(Tree.root 6 "x" (some RootId.tags) 0 "X").annotate AnnotationName.intendedParent "Tmenu"] := by
  cbv

theorem ids_mislaid : allIds mislaid.tree = .ok [] := by
  cbv

theorem unsynced_mislaid : mislaid.Unsynced :=
  unsynced_of_unmarked reachable_mislaid (by decide +kernel) (by cbv) (by cbv)

theorem presentable_mislaid : mislaid.tree.Presentable := by
  apply presentable_of_rows <;> rw [rows_mislaid] <;> decide

theorem not_owes_mislaid (guid : String) : ¬ mislaid.Owes guid := fun howes =>
  List.not_mem_nil (mem_of_owes (by cbv) ids_mislaid howes)

theorem ids_caughtUp_mislaid : allIds (mislaid.caughtUp blankKeys []).tree = .ok ["x"] := by
  decide +kernel

/-- The folder is synced after the pass that finds its place, but nobody was told of it. -/
theorem mislaid_disagrees :
    mislaid.Unsynced ∧ mislaid.tree.Presentable ∧
      blankKeys.encryptionKey.length = Aead.keyLength ∧
      (∀ guid, mislaid.Owes guid → (Tree.fresh .numbered).NeverMakes guid) ∧
      let storage := Shared.storage List.reverse (Binary64.ofNat 1)
      let first := mislaid.sync storage blankKeys {}
      let second := (fresh mislaid.collection none false .numbered).sync storage blankKeys first.2.2
      allIds first.2.1.tree = .ok ["x"] ∧ allIds second.2.1.tree = .ok [] ∧
        ¬ first.2.1.Agree second.2.1 := by
  refine ⟨unsynced_mislaid, presentable_mislaid, by decide,
    fun guid howes => absurd howes (not_owes_mislaid guid), ?_⟩
  have hwell := reachable_mislaid.wellFormed
  have hother := wellFormed_fresh mislaid.collection none false .numbered
  have hkeys : blankKeys.encryptionKey.length = Aead.keyLength := by decide
  have htime : Binary64.zero < Binary64.ofNat 1 := by decide
  obtain ⟨summary, next, last, hsync, htree, hlast⟩ :=
    sync_first hwell blankKeys List.reverse_perm (Binary64.ofNat 1)
  rw [parcel_eq_nil hwell hkeys not_owes_mislaid []] at hlast
  have hfetch := fetch_fresh List.reverse htime hlast mislaid.collection none false .numbered
  obtain ⟨tally, final, ended, hsecond, hfinal⟩ := sync_of_not_owes hother hkeys
    (not_owes_fresh mislaid.collection none false .numbered)
    (Shared.storage List.reverse (Binary64.ofNat 1)) last hfetch
  have hfresh : (fresh mislaid.collection none false .numbered).tree.annotated
      AnnotationName.intendedParent = [] := by decide
  have hkept : final.tree = Tree.fresh .numbered :=
    hfinal.trans (tree_caughtUp_of_still hother (by simp [hfresh]) blankKeys)
  have hfirst : allIds next.tree = .ok ["x"] := htree ▸ ids_caughtUp_mislaid
  have hnone : allIds final.tree = .ok [] := by
    rw [hkept]
    cbv
  dsimp only
  rw [hsync]
  dsimp only
  rw [hsecond]
  refine ⟨hfirst, hnone, ?_⟩
  rintro ⟨⟨guids, others, hids, hothers, hsame⟩, -⟩
  obtain rfl := Except.ok.inj (hids.symm.trans hfirst)
  obtain rfl := Except.ok.inj (hothers.symm.trans hnone)
  exact List.not_mem_nil ((hsame "x").mpr List.mem_cons_self)

end Client

end SyncedBookmarks

import SyncedBookmarks.Proofs.Convergence
import SyncedBookmarks.Proofs.RootSafety

namespace SyncedBookmarks

/-! A client that has synced is at rest: while nobody else writes, its passes take up nothing and
send nothing. -/

/-! ### The server -/

namespace Shared

/-- Whether all records were written at a time after zero, none of them after the last write. -/
def Stamped (shared : Shared) : Prop :=
  Binary64.zero ≤ shared.latest ∧
    ∀ stored ∈ shared.records, Binary64.zero < stored.modified ∧ stored.modified ≤ shared.latest

theorem Stamped.write {shared : Shared} (h : shared.Stamped) {time : Timestamp}
    (htime : shared.latest < time) (written : List StoredRecord) :
    (shared.write time written).Stamped := by
  have hlater := Binary64.le_of_lt htime
  refine ⟨Binary64.le_trans h.1 hlater, ?_⟩
  intro stored hstored
  rcases mem_write.mp hstored with ⟨hold, -⟩ | hnew
  · exact ⟨(h.2 stored hold).1, Binary64.le_trans (h.2 stored hold).2 hlater⟩
  · rw [modified_of_mem_stamped hnew]
    exact ⟨Binary64.lt_of_le_of_lt h.1 htime, Binary64.le_refl time⟩

end Shared

/-- Whether a storage keeps a collection as a server should: it hands out exactly what is newer, and
what it takes it takes whole, under a later time than all before. -/
structure Storage.Serves (storage : Storage σ) (collection : String) (view : σ → Shared) :
    Prop where
  fetch : ∀ since state, view (storage.fetch collection since state).2 = view state ∧
    ∃ records, (storage.fetch collection since state).1 = .ok records ∧
      records.Perm ((view state).newer since)
  upload : ∀ sent state result, (storage.upload collection sent state).1 = .ok result →
    (view state).latest < result.modified ∧
      (∀ guid, guid ∈ result.success ↔ guid ∈ sent.map (·.id)) ∧
      view (storage.upload collection sent state).2 = (view state).write result.modified sent

/-! ### Names -/

namespace BookmarkStore

open SyncedBookmarks.Action SyncedBookmarks.Tree

/-- A record takes the name of no other item than its own from the topmost root. -/
theorem idOfGuid?_applyIncoming_places {store : BookmarkStore} (h : store.tree.WellFormed)
    {guid : String} (hplaces : store.tree.idOfGuid? guid = some RootId.places) {record : Record}
    (hother : record.id ≠ guid) :
    ((applyIncoming record).result store).2.tree.idOfGuid? guid = some RootId.places := by
  obtain ⟨row, hrow, hguid⟩ := h.idOfGuid?_iff.mp hplaces
  have habove : store.tree.above? RootId.places = none := by
    rw [above?_of_known? hrow]
    exact (h.parent_iff RootId.places row hrow).mpr rfl
  have hbears : Bears (· = RootId.places) store.tree record :=
    { there := by
        rintro _ rfl
        rw [← isSome_known?, hrow]
        rfl
      item := by
        rintro id found hfound hname rfl
        rw [hrow] at hfound
        cases hfound
        exact hother (hname.symm.trans hguid)
      sheltered := by
        intro _
        refine ⟨?_, ?_⟩
        · rintro id folder rfl hfolder
          cases habove.symm.trans hfolder
        · rintro _ rfl hfolder
          cases habove.symm.trans hfolder }
  have hleaves := leaves_applyIncoming h hbears
  exact hleaves.wellFormed.idOfGuid?_iff.mpr ⟨row, (hleaves.known? rfl).trans hrow, hguid⟩

end BookmarkStore

namespace Client

open SyncedBookmarks.Action SyncedBookmarks.BookmarkStore SyncedBookmarks.Tree

theorem idOfGuid?_receiveAll_places {client : Client} (h : client.WellFormed)
    (hdeaf : client.tracker.suppressed = true) {guid : String}
    (hplaces : client.tree.idOfGuid? guid = some RootId.places) (keys : KeyBundle)
    (progress : Progress) {records : List StoredRecord} (hother : guid ∉ openedIds keys records) :
    (client.receiveAll keys progress records).2.tree.idOfGuid? guid = some RootId.places := by
  induction records generalizing client progress with
  | nil => exact hplaces
  | cons stored records ih =>
      have hone := receiveOne_spec h hdeaf keys progress stored
      have hnext : (client.receiveOne keys progress stored).2.tree.idOfGuid? guid =
          some RootId.places := by
        cases hopen : stored.openRecord keys with
        | error cause =>
            rw [receiveOne, hopen]
            exact hplaces
        | ok record =>
            rw [tree_receiveOne hopen]
            refine idOfGuid?_applyIncoming_places h.store.tree hplaces fun hname => hother ?_
            exact mem_openedIds.mpr ⟨stored, List.mem_cons_self, record, hopen, hname⟩
      have hlater : guid ∉ openedIds keys records := by
        intro hguid
        obtain ⟨other, hmem, hopened⟩ := mem_openedIds.mp hguid
        exact hother (mem_openedIds.mpr ⟨other, List.mem_cons_of_mem _ hmem, hopened⟩)
      have hstill : (client.receiveOne keys progress stored).2.tracker.suppressed = true := by
        rw [hone.tracker, (client.tracker.marks_removeAll _).suppressed, hdeaf]
      exact ih hone.wellFormed hstill hnext _ hlater

/-- The topmost root keeps its name in a pass, unless the server tells of an item of that name. -/
theorem idOfGuid?_caughtUp_places {client : Client} (h : client.WellFormed) {guid : String}
    (hplaces : client.tree.idOfGuid? guid = some RootId.places) {keys : KeyBundle}
    {records : List StoredRecord} (hother : guid ∉ openedIds keys records) :
    (client.caughtUp keys records).tree.idOfGuid? guid = some RootId.places := by
  have hbegun := (startPass_eq h).2
  rw [← hbegun.tree] at hplaces
  have hreceived := idOfGuid?_receiveAll_places hbegun.wellFormed hbegun.deaf hplaces keys
    ⟨{}, client.lastSync⟩ hother
  have happlied := receiveAll_spec hbegun.wellFormed hbegun.deaf keys ⟨{}, client.lastSync⟩ records
  obtain ⟨_, next, hresult, hnamed⟩ :=
    yields_reparentOrphans_named happlied.wellFormed.store.tree
  rw [caughtUp, tree_settled, hresult]
  exact (hnamed guid).trans hreceived

/-! ### Sending -/

/-- Whether a client can send a record of an item: with a key, of any but the topmost root. -/
def Sendable (keys : KeyBundle) (client : Client) (guid : String) : Prop :=
  keys.encryptionKey.length = Aead.keyLength ∧ client.tree.idOfGuid? guid ≠ some RootId.places

theorem exists_sealItem_of_unkeyed {keys : KeyBundle}
    (hkeys : keys.encryptionKey.length ≠ Aead.keyLength) (guid : String) (client : Client) :
    ∃ cause next, (sealItem keys guid).result client = (.error cause, next) := by
  have hseal : ∀ iv plaintext, ∃ cause, keys.sealPayload iv plaintext = .error cause := by
    intro iv plaintext
    have hcheck : Aead.checkKey keys.encryptionKey = .error _ := if_neg hkeys
    rw [KeyBundle.sealPayload, Aead.encrypt, hcheck]
    exact ⟨_, rfl⟩
  rcases hrecord : (fromStore (createRecord guid)).result client with ⟨outcome, made⟩
  cases outcome with
  | error cause => exact ⟨cause, made, result_bind_of_error hrecord _⟩
  | ok record =>
      obtain ⟨cause, hcause⟩ := hseal made.nextIv (Bytes.ofText record.text)
      refine ⟨.payload cause.message, { made with sealings := made.sealings + 1 }, ?_⟩
      rw [sealItem, Faults.createRecord_never, result_bind_of_ok hrecord,
        result_bind_of_ok (result_read _ _), result_bind_of_ok (result_change _ _), hcause]
      rfl

theorem sealAll_of_unkeyed {keys : KeyBundle} (hkeys : keys.encryptionKey.length ≠ Aead.keyLength)
    (guids : List String) (client : Client) : (client.sealAll keys guids).1 = [] := by
  induction guids generalizing client with
  | nil => rfl
  | cons guid guids ih =>
      obtain ⟨cause, next, hitem⟩ := exists_sealItem_of_unkeyed hkeys guid client
      rw [sealAll, hitem]
      exact ih next

theorem mem_ids_parcel {client : Client} (h : client.WellFormed) {keys : KeyBundle}
    {records : List StoredRecord} {guid : String} :
    guid ∈ (client.parcel keys records).map (·.id) ↔
      guid ∈ (client.caughtUp keys records).tracker.changed ∧
        (client.caughtUp keys records).Sendable keys guid := by
  by_cases hkeys : keys.encryptionKey.length = Aead.keyLength
  · rw [(sealed_parcel h hkeys records).ids, List.mem_filter, decide_eq_true_iff, Sendable]
    simp only [hkeys, true_and]
  · have hnone : client.parcel keys records = [] := sealAll_of_unkeyed hkeys _ _
    rw [hnone, Sendable]
    simp [hkeys]

/-! ### A pass that gets through -/

/-- What a pass has done that got through, with a server that serves. -/
structure Passed (keys : KeyBundle) (records : List StoredRecord) (before after : Shared)
    (client next : Client) : Prop where
  given : records.Perm (before.newer client.lastSync)
  wellFormed : next.WellFormed
  collection : next.collection = client.collection
  tree : next.tree = (client.caughtUp keys records).tree
  ignored : next.tracker.ignored = client.tracker.ignored
  changed : ∀ guid, guid ∈ next.tracker.changed ↔
    guid ∈ (client.caughtUp keys records).tracker.changed ∧ ¬ next.Sendable keys guid
  shared : client.parcel keys records = [] ∧ after = before ∨
    client.parcel keys records ≠ [] ∧ ∃ time, before.latest < time ∧ time ≤ next.lastSync ∧
      after = before.write time (client.parcel keys records)
  since : client.lastSync ≤ next.lastSync
  nonneg : Binary64.zero ≤ next.lastSync
  newest : ∀ stored ∈ records, stored.modified ≤ next.lastSync

theorem passed_of_finished {keys : KeyBundle} {records : List StoredRecord}
    {before after : Shared} {client ready next : Client} (h : client.WellFormed)
    (hgiven : records.Perm (before.newer client.lastSync)) {progress : Progress}
    (hreceived : Received client.lastSync records progress)
    (hquiet : (client.caughtUp keys records).Quiet ready) {accepted : List String}
    (haccepted : ∀ guid, guid ∈ accepted ↔ guid ∈ (client.parcel keys records).map (·.id))
    {time : Timestamp} (htime : Binary64.zero ≤ time)
    (hfinished : (ready.onTracker (·.removeAll accepted)).Finished
      (max (max progress.newest time) client.lastSync) next)
    (hshared : client.parcel keys records = [] ∧ after = before ∨
      client.parcel keys records ≠ [] ∧ before.latest < time ∧
        after = before.write time (client.parcel keys records)) :
    Passed keys records before after client next := by
  have hcaughtUp := caughtUp_spec h keys records
  have hbegun := (startPass_eq h).2
  have htree : next.tree = (client.caughtUp keys records).tree :=
    hfinished.tree.trans hquiet.tree
  have hbounds := Binary64.max_le_iff.mp
    (hfinished.lastSync ▸ Binary64.le_refl _ : max (max progress.newest time) client.lastSync ≤
      next.lastSync)
  obtain ⟨hnewest, hlast⟩ := Binary64.max_le_iff.mp hbounds.1
  exact
    { given := hgiven
      wellFormed := hfinished.wellFormed
      collection := hfinished.collection.trans
        (hquiet.collection.trans (collection_caughtUp h keys records))
      tree := htree
      ignored := by
        rw [hfinished.ignored]
        change (ready.tracker.removeAll accepted).ignored = _
        rw [(ready.tracker.marks_removeAll _).ignored, hquiet.tracker, hcaughtUp.tracker]
        change (client.begun.tracker.removeAll _).ignored = _
        rw [(client.begun.tracker.marks_removeAll _).ignored, hbegun.tracker]
        exact (client.tracker.marks_addAll _).ignored
      changed := by
        intro guid
        rw [hfinished.changed]
        change guid ∈ (ready.tracker.removeAll accepted).changed ↔ _
        rw [Tracker.mem_changed_removeAll, hquiet.tracker, haccepted, mem_ids_parcel h, Sendable,
          Sendable, htree]
        tauto
      shared := hshared.imp_right fun hsent => ⟨hsent.1, time, hsent.2.1, hlast, hsent.2.2⟩
      since := hbounds.2
      nonneg := Binary64.le_trans htime hlast
      newest := ((hreceived.newest _).mp hnewest).2 }

theorem passed_sync {storage : Storage σ} {collection : String} {view : σ → Shared}
    (hserves : storage.Serves collection view) {keys : KeyBundle} {client : Client} {state : σ}
    (h : client.WellFormed) (hcollection : client.collection = collection)
    (hstamped : (view state).Stamped) {summary : Summary}
    (hok : (client.sync storage keys state).1 = .ok summary) :
    ∃ records, Passed keys records (view state) (view (client.sync storage keys state).2.2) client
      (client.sync storage keys state).2.1 := by
  subst hcollection
  obtain ⟨hview, records, hfetch, hgiven⟩ := hserves.fetch client.lastSync state
  refine ⟨records, ?_⟩
  by_cases hparcel : client.parcel keys records = []
  · obtain ⟨progress, ready, next, hreceived, hquiet, hfinished, hsync⟩ :=
      sync_idle h storage keys state hfetch hparcel
    have hnone : ∀ guid, guid ∈ ([] : List String) ↔
        guid ∈ (client.parcel keys records).map (·.id) := by simp [hparcel]
    rw [hsync]
    exact passed_of_finished h hgiven hreceived hquiet hnone (Binary64.le_refl _) hfinished
      (.inl ⟨hparcel, hview⟩)
  · cases hupload : (storage.upload client.collection (client.parcel keys records)
        (storage.fetch client.collection client.lastSync state).2).1 with
    | error cause =>
        obtain ⟨next, hquiet, hsync⟩ := sync_refused h storage keys state hfetch hparcel hupload
        rw [hsync] at hok
        cases hok
    | ok result =>
        obtain ⟨progress, ready, next, hreceived, hquiet, hfinished, hsync⟩ :=
          sync_uploaded h storage keys state hfetch hparcel hupload
        obtain ⟨htime, haccepted, hwritten⟩ := hserves.upload _ _ result hupload
        rw [hview] at htime hwritten
        rw [hsync]
        exact passed_of_finished h hgiven hreceived hquiet haccepted
          (Binary64.le_trans hstamped.1 (Binary64.le_of_lt htime)) hfinished
          (.inr ⟨hparcel, htime, hwritten⟩)

/-! ### Rest -/

def Synced (client : Client) (guid : String) : Prop :=
  ∃ guids, allIds client.tree = .ok guids ∧ guid ∈ guids

/-- Whether a pass that has exchanged nothing, so that the client still counts as never synced, has
not brought another item among those that are synced. -/
def Steady (before after : Client) : Prop :=
  after.lastSync ≤ Binary64.zero →
    ∀ guid, after.Synced guid → guid ∉ after.tracker.ignored → before.Synced guid

/-- Whether a client has nothing to send: nothing that is marked can be sent, and no more will be
marked. -/
structure Spent (keys : KeyBundle) (client : Client) : Prop where
  unsendable : ∀ guid ∈ client.tracker.changed, ¬ client.Sendable keys guid
  marked : client.lastSync ≤ Binary64.zero →
    ∀ guid, client.Synced guid → guid ∉ client.tracker.ignored → guid ∈ client.tracker.changed

section Passed

variable {keys : KeyBundle} {records : List StoredRecord} {before after : Shared}
  {client next : Client}

theorem Passed.stamped (h : Passed keys records before after client next)
    (hstamped : before.Stamped) : after.Stamped := by
  rcases h.shared with ⟨-, rfl⟩ | ⟨-, time, htime, -, rfl⟩
  · exact hstamped
  · exact hstamped.write htime _

/-- After a pass the server has nothing that is newer. -/
theorem Passed.newer_eq_nil (h : Passed keys records before after client next) :
    after.newer next.lastSync = [] := by
  have hold : ∀ stored ∈ before.records, stored.modified ≤ next.lastSync := by
    intro stored hstored
    by_cases hnew : client.lastSync < stored.modified
    · exact h.newest stored (h.given.mem_iff.mpr (Shared.mem_newer.mpr ⟨hstored, hnew⟩))
    · exact Binary64.le_trans (Int.not_lt.mp hnew) h.since
  have hall : ∀ stored ∈ after.records, stored.modified ≤ next.lastSync := by
    intro stored hstored
    rcases h.shared with ⟨-, rfl⟩ | ⟨-, time, -, htime, rfl⟩
    · exact hold stored hstored
    · rcases Shared.mem_write.mp hstored with ⟨hthere, -⟩ | hnew
      · exact hold stored hthere
      · rw [Shared.modified_of_mem_stamped hnew]
        exact htime
  refine List.eq_nil_iff_forall_not_mem.mpr fun stored hstored => ?_
  obtain ⟨hthere, hnew⟩ := Shared.mem_newer.mp hstored
  exact Binary64.not_le.mpr hnew (hall stored hthere)

/-- A pass that exchanged nothing was given nothing and has sent nothing. -/
theorem Passed.unexchanged (h : Passed keys records before after client next)
    (hstamped : before.Stamped) (hfirst : next.lastSync ≤ Binary64.zero) :
    records = [] ∧ client.parcel keys records = [] := by
  constructor
  · refine List.eq_nil_iff_forall_not_mem.mpr fun stored hstored => ?_
    have hthere := (Shared.mem_newer.mp (h.given.mem_iff.mp hstored)).1
    exact Binary64.not_le.mpr (hstamped.2 stored hthere).1
      (Binary64.le_trans (h.newest stored hstored) hfirst)
  · rcases h.shared with ⟨hnone, -⟩ | ⟨-, time, htime, hlast, -⟩
    · exact hnone
    · exact absurd (Binary64.le_trans hlast (Binary64.le_trans hfirst hstamped.1))
        (Binary64.not_le.mpr htime)

/-- A pass that gets through sends all that can be sent. -/
theorem Passed.spent (h : Passed keys records before after client next) (hwell : client.WellFormed)
    (hstamped : before.Stamped) (hsteady : client.Steady next) : next.Spent keys where
  unsendable := fun guid hguid => ((h.changed guid).mp hguid).2
  marked := by
    intro hfirst guid hsynced hignored
    obtain ⟨rfl, hparcel⟩ := h.unexchanged hstamped hfirst
    have howes : client.Owes guid := .inr ⟨Binary64.le_trans h.since hfirst,
      h.ignored ▸ hignored, hsteady hfirst guid hsynced hignored⟩
    have hmarked : guid ∈ (client.caughtUp keys []).tracker.changed :=
      (mem_changed_caughtUp hwell).mpr ⟨howes, List.not_mem_nil⟩
    refine (h.changed guid).mpr ⟨hmarked, fun hsendable => ?_⟩
    rw [Sendable, h.tree] at hsendable
    have hsent := (mem_ids_parcel hwell).mpr ⟨hmarked, hsendable⟩
    rw [hparcel] at hsent
    exact List.not_mem_nil hsent

end Passed

theorem Spent.owes_iff {keys : KeyBundle} {client : Client} (h : client.Spent keys)
    {guid : String} : client.Owes guid ↔ guid ∈ client.tracker.changed :=
  ⟨fun howes => howes.elim id fun hnew => h.marked hnew.1 guid hnew.2.2 hnew.2.1, .inl⟩

/-- Whatever it is given, a client with nothing to send does not send anything. -/
theorem Spent.parcel_eq_nil {keys : KeyBundle} {client : Client} (h : client.Spent keys)
    (hwell : client.WellFormed) (records : List StoredRecord) :
    client.parcel keys records = [] := by
  rw [← List.map_eq_nil_iff (f := (·.id)), List.eq_nil_iff_forall_not_mem]
  intro guid hguid
  obtain ⟨hmarked, hkeys, hroot⟩ := (mem_ids_parcel hwell).mp hguid
  obtain ⟨howes, hother⟩ := (mem_changed_caughtUp hwell).mp hmarked
  have hplaces : client.tree.idOfGuid? guid = some RootId.places := by
    by_contra hnot
    exact h.unsendable guid (h.owes_iff.mp howes) ⟨hkeys, hnot⟩
  exact hroot (idOfGuid?_caughtUp_places hwell hplaces hother)

/-- Whether a client has nothing to send and a server has nothing new for it. -/
structure AtRest (keys : KeyBundle) (shared : Shared) (client : Client) : Prop where
  wellFormed : client.WellFormed
  spent : client.Spent keys
  newer : shared.newer client.lastSync = []

theorem Passed.atRest {keys : KeyBundle} {records : List StoredRecord} {before after : Shared}
    {client next : Client} (h : Passed keys records before after client next)
    (hwell : client.WellFormed) (hstamped : before.Stamped) (hsteady : client.Steady next) :
    next.AtRest keys after :=
  ⟨h.wellFormed, h.spent hwell hstamped hsteady, h.newer_eq_nil⟩

/-- Whether a pass takes nothing up and sends nothing: the server is not asked but for what is
newer. -/
structure Idles (storage : Storage σ) (keys : KeyBundle) (client : Client) (state : σ)
    (summary : Summary) : Prop where
  outcome : (client.sync storage keys state).1 = .ok summary
  applied : summary.applied = 0
  failed : summary.failed = 0
  uploaded : summary.uploaded = 0
  unasked : (client.sync storage keys state).2.2 =
    (storage.fetch client.collection client.lastSync state).2

section Rest

variable {storage : Storage σ} {collection : String} {view : σ → Shared}
  (hserves : storage.Serves collection view) {keys : KeyBundle} {client : Client} {state : σ}
  (hrest : client.AtRest keys (view state)) (hcollection : client.collection = collection)

include hserves hrest

theorem AtRest.fetch_eq : (storage.fetch collection client.lastSync state).1 = .ok [] := by
  obtain ⟨-, records, hfetch, hgiven⟩ := hserves.fetch client.lastSync state
  rw [hrest.newer, List.perm_nil] at hgiven
  rw [hfetch, hgiven]

include hcollection

theorem AtRest.idles : ∃ summary, client.Idles storage keys state summary := by
  have hfetch := hrest.fetch_eq hserves
  subst hcollection
  obtain ⟨progress, ready, next, hreceived, -, -, hsync⟩ := sync_idle hrest.wellFormed storage keys
    state hfetch (hrest.spent.parcel_eq_nil hrest.wellFormed [])
  have hnone : progress.summary.applied + progress.summary.failed = 0 := hreceived.counted
  refine ⟨{ progress.summary with uploaded := 0 }, congrArg Prod.fst hsync, ?_, ?_, rfl, ?_⟩
  · exact (Nat.add_eq_zero_iff.mp hnone).1
  · exact (Nat.add_eq_zero_iff.mp hnone).2
  · rw [hsync]

end Rest

/-- Moving orphans does nothing when there are none. -/
theorem result_reparentOrphans_of_none {client : Client} (h : client.WellFormed)
    (hnone : client.tree.annotated AnnotationName.intendedParent = []) :
    (fromStore reparentOrphans).result client = (.ok 0, client) := by
  have hresult : reparentOrphans.result client.store = (.ok 0, client.store) := by
    rw [reparentOrphans, result_look_bind]
    change (reparentAll (client.tree.annotated AnnotationName.intendedParent)).result _ = _
    rw [hnone]
    rfl
  rw [result_fromStore, hresult]
  exact congrArg (Prod.mk (Except.ok 0)) (deliver_of_heard h.heard)

/-- A pass without orphans that is given nothing and has nothing to send. -/
theorem sync_still {client : Client} (h : client.WellFormed)
    (hnone : client.tree.annotated AnnotationName.intendedParent = []) {storage : Storage σ}
    {keys : KeyBundle} {state : σ}
    (hfetch : (storage.fetch client.collection client.lastSync state).1 = .ok [])
    (hparcel : client.parcel keys [] = []) :
    ∃ ready next, (client.caughtUp keys []).Quiet ready ∧
      ready.Finished (max (max client.lastSync Binary64.zero) client.lastSync) next ∧
      client.sync storage keys state =
        (.ok {}, next, (storage.fetch client.collection client.lastSync state).2) := by
  obtain ⟨hstart, hbegun⟩ := startPass_eq h
  have hmoved := result_reparentOrphans_of_none hbegun.wellFormed (hbegun.tree ▸ hnone)
  have hquiet := quiet_sealAll (caughtUp_spec h keys []).wellFormed keys
    (client.caughtUp keys []).tracker.changed
  have htake : client.begun.takeFetched keys client.lastSync (.ok []) =
      ((client.caughtUp keys []).sealAll keys
        (client.caughtUp keys []).tracker.changed).2.finishPass client.lastSync
          ⟨{}, client.lastSync⟩ 0 Binary64.zero := by
    have houtcome : ((fromStore Faults.never.reparentOrphans).result
        (client.begun.receiveAll keys ⟨{}, client.lastSync⟩ []).2).1 = .ok 0 := by
      rw [receiveAll, Faults.reparentOrphans_never, hmoved]
    have hnothing : client.begun.outgoing keys client.lastSync [] = [] := hparcel
    rw [takeFetched_eq houtcome, hnothing]
    dsimp only
    rw [List.isEmpty_nil, if_pos rfl, receiveAll]
    rfl
  obtain ⟨next, hfinish, hfinished⟩ := finishPass_spec hquiet.wellFormed client.lastSync
    ⟨{}, client.lastSync⟩ 0 Binary64.zero
  refine ⟨_, next, hquiet, hfinished, ?_⟩
  rw [sync, hstart]
  dsimp only
  rw [advance_fetching hbegun.collection hfetch (htake.trans hfinish)]
  rfl

theorem AtRest.sync_still {storage : Storage σ} {collection : String} {view : σ → Shared}
    (hserves : storage.Serves collection view) {keys : KeyBundle} {client : Client} {state : σ}
    (hrest : client.AtRest keys (view state)) (hcollection : client.collection = collection)
    (hnone : client.tree.annotated AnnotationName.intendedParent = [])
    (hlast : Binary64.zero ≤ client.lastSync) :
    let ended := client.sync storage keys state
    ended.1 = .ok {} ∧
      ended.2.2 = (storage.fetch client.collection client.lastSync state).2 ∧
      ended.2.1.tree = client.tree ∧ ended.2.1.tracker.changed = client.tracker.changed ∧
      ended.2.1.lastSync = client.lastSync := by
  have hwell := hrest.wellFormed
  have hfetch := hrest.fetch_eq hserves
  subst hcollection
  obtain ⟨ready, next, hquiet, hfinished, hsync⟩ := Client.sync_still hwell hnone hfetch
    (hrest.spent.parcel_eq_nil hwell [])
  have hmarked : client.tracker.addAll client.unsynced = client.tracker := by
    refine Tracker.addAll_of_marked fun guid hguid => ?_
    obtain ⟨hfirst, hsynced⟩ := mem_unsynced.mp hguid
    exact or_iff_not_imp_left.mpr (hrest.spent.marked hfirst guid hsynced)
  dsimp only
  rw [hsync]
  refine ⟨rfl, rfl, ?_, ?_, ?_⟩
  · rw [hfinished.tree, hquiet.tree]
    exact tree_caughtUp_of_still hwell (by simp [hnone]) keys
  · rw [hfinished.changed, hquiet.tracker, (caughtUp_spec hwell keys []).tracker,
      (startPass_eq hwell).2.tracker, hmarked]
    rfl
  · rw [hfinished.lastSync, Binary64.max_eq_left hlast, Binary64.max_eq_left (Binary64.le_refl _)]

end Client

end SyncedBookmarks

import Mathlib
import SyncedBookmarks.Proofs.Convergence
import SyncedBookmarks.Proofs.MimickedStore
import SyncedBookmarks.Proofs.Numbering
import SyncedBookmarks.Proofs.Sweeping

namespace SyncedBookmarks

/-! A client that is wiped starts over: nothing of what it had synced is left, its next pass asks
for everything and sends nothing, and takes in what it is given just as a new client does. -/

/-- The GUIDs that are left for the items of a fresh tree when those of some are taken. -/
def GuidSource.later (source : GuidSource) (taken : Int) : GuidSource where
  candidate id := source.candidate (id + taken)
  distinct id := source.distinct (id + taken)

theorem Row.annotations_eq_nil {row : Row} (h : ∀ name, row.annotationOf? name = none) :
    row.annotations = [] := by
  cases hannotations : row.annotations with
  | nil => rfl
  | cons entry _ =>
      have hnone := h entry.1
      rw [Row.annotationOf?, hannotations, List.find?_cons_of_pos (by simp)] at hnone
      cases hnone

namespace Tree

/-- Whether the roots bear no annotations, and nothing else stands directly under the topmost. -/
structure Bare (tree : Tree) : Prop where
  plain : ∀ id, IsRoot id → ∀ name, tree.annotationOf? id name = none
  alone : ∀ id, tree.above? id = some RootId.places → IsRoot id

/-- For every tree there is a fresh one that draws as it does. -/
theorem sameDraws_later (tree : Tree) :
    (fresh (tree.guids.later (tree.nextId - 6))).SameDraws tree := by
  intro number count
  change _ = tree.guids.candidate (6 + number + (tree.nextId - 6)) count
  rw [show 6 + (number : Int) + (tree.nextId - 6) = tree.nextId + number by omega]

theorem swept_or_places : ∀ root ∈ rootNames, root.1 = RootId.places ∨ root ∈ sweptRoots := by
  decide

/-- The rows of roots that are in their places and bear no annotations differ only in how the roots
are called and stand among each other. -/
theorem counterpart_of_root {shift : Nat} {tree other : Tree} (h : tree.WellFormed)
    (hroots : tree.RootsInPlace) (h' : other.WellFormed) (hroots' : other.RootsInPlace)
    {row row' : Row} (hrow : row ∈ tree.rows) (hrow' : row' ∈ other.rows) (hid : row.id = row'.id)
    (hroot : IsRoot row.id) (hplain : row.annotations = []) (hplain' : row'.annotations = []) :
    row.Counterpart shift row' := by
  -- What is known of the row of a root in any such tree.
  have htold : ∀ {tree : Tree}, tree.WellFormed → tree.RootsInPlace → ∀ row ∈ tree.rows,
      ∀ guid, (row.id, guid) ∈ rootNames → row.guid = guid ∧
        row.typeCode = ItemType.folder.code ∧ row.url = none ∧
        row.parent = if row.id = RootId.places then none else some RootId.places := by
    intro tree hwell hplaced row hmem guid hname
    have hknown := known?_eq_some_of_mem hwell.ids_nodup hmem
    have hsound := hwell.sound _ _ hknown
    have htype : row.typeCode = ItemType.folder.code :=
      hsound.root_folder (Row.le_of_mem_rootNames _ hname)
    refine ⟨?_, htype, ?_, ?_⟩
    · have hguid := hplaced.named _ _ hname
      rw [guidOf?_eq_known?, hknown] at hguid
      exact Option.some.inj hguid
    · have hnone : ¬ row.url.isSome := fun hsome =>
        absurd (htype.symm.trans (hsound.url_iff.mp hsome)) (by decide)
      simpa using hnone
    · split
      · rename_i hplaces
        exact (hwell.parent_iff _ _ hknown).mpr hplaces
      · rename_i hne
        have habove := hplaced.above row.id
          ((List.mem_cons.mp (isRoot_iff.mp ⟨guid, hname⟩)).resolve_left hne)
        rwa [above?_of_known? hknown] at habove
  obtain ⟨guid, hname⟩ := hroot
  obtain ⟨hguid, htype, hurl, hparent⟩ := htold h hroots row hrow guid hname
  obtain ⟨hguid', htype', hurl', hparent'⟩ := htold h' hroots' row' hrow' guid (hid ▸ hname)
  have hsame : row' = { row with
      title := row'.title, keyword := row'.keyword, position := row'.position } := by
    rw [← hid, ← hparent] at hparent'
    rw [← htype] at htype'
    rw [← hguid] at hguid'
    cases row
    cases row'
    simp_all
  rw [hsame]
  refine .root _ _ _ (hguid ▸ hname) ?_ hplain
  rw [hparent]
  split
  · exact .inl rfl
  · exact .inr rfl

section Bare

variable {before after : Tree} (h : before.WellFormed) (hroots : before.RootsInPlace)
  (hbare : before.Bare) (hswept : Stripped (before.BelowAny sweptRoots) before after)

include h hbare hswept

/-- Of a tree with nothing but the roots directly under the topmost, only these are left. -/
theorem Bare.isRoot_of_known? {id : Int} {row : Row} (hrow : after.known? id = some row) :
    IsRoot id := by
  have hall : ∀ steps id, after.climb steps id = some RootId.places → IsRoot id := by
    intro steps
    induction steps with
    | zero => exact fun id hplaces => Option.some.inj hplaces ▸ isRoot_places
    | succ steps ih =>
        intro id hplaces
        rw [climb_succ, Option.bind_eq_some_iff] at hplaces
        obtain ⟨parent, habove, hup⟩ := hplaces
        obtain ⟨guid, hname⟩ := ih parent hup
        rcases swept_or_places _ hname with rfl | hempty
        · obtain ⟨found, hfound, hparent⟩ := known?_of_above? habove
          refine hbare.alone id ?_
          rw [above?_of_known? (hswept.known?_of_some hfound).2]
          exact hparent
        · exact absurd habove (hswept.above?_ne h hempty id)
  obtain ⟨steps, hsteps⟩ := hswept.wellFormed.rooted id row hrow
  exact hall steps id hsteps

include hroots

/-- What is left is a fresh tree but for the numbers that come next. -/
theorem Bare.counterpart_fresh (hsequence : after.InSequence) {guids : GuidSource}
    (hdraws : (fresh guids).SameDraws before) :
    (fresh guids).Counterpart (before.nextId - (fresh guids).nextId).toNat after := by
  have hfresh := wellFormed_fresh guids
  have hplaced := hroots.sweptAll h hswept
  have hthere : ∀ {tree : Tree}, tree.WellFormed → tree.RootsInPlace →
      (∀ id row, tree.known? id = some row → IsRoot id) →
      ∀ id, id ∈ tree.rows.map (·.id) ↔ IsRoot id := by
    intro tree hwell hroots honly id
    rw [List.mem_map]
    constructor
    · rintro ⟨row, hrow, rfl⟩
      exact honly _ _ (known?_eq_some_of_mem hwell.ids_nodup hrow)
    · rintro ⟨guid, hname⟩
      obtain ⟨_, hknown, -⟩ := hwell.idOfGuid?_iff.mp (hroots.named.idOfGuid?_eq hwell hname)
      obtain ⟨row, hmem, hid, -⟩ := exists_mem_of_known? hknown
      exact ⟨row, hmem, hid⟩
  have hleft := hthere hswept.wellFormed hplaced fun _ _ => hbare.isRoot_of_known? h hswept
  have hbegun := hthere hfresh (BookmarkStore.rootsInPlace_fresh guids) fun id _ hknown => by
    obtain ⟨guid, _, _, hname, -⟩ := BookmarkStore.exists_root_of_fresh hknown
    exact ⟨guid, hname⟩
  -- Both have the five roots, in the order of their ids.
  have hids : (fresh guids).rows.map (·.id) = after.rows.map (·.id) :=
    List.Pairwise.eq_of_mem_iff (List.pairwise_map.mpr (inSequence_fresh guids).increasing)
      (List.pairwise_map.mpr hsequence.increasing) fun id => (hbegun id).trans (hleft id).symm
  refine ⟨?_, (by decide : RootId.unfiled < (fresh .numbered).nextId), ?_, ?_⟩
  · have hzip : List.Forall₂ (fun row row' : Row => row.id = row'.id) (fresh guids).rows
        after.rows := by
      rwa [← List.forall₂_eq_eq_eq, List.forall₂_map_left_iff, List.forall₂_map_right_iff] at hids
    obtain ⟨hlength, hpairs⟩ := List.forall₂_iff_zip.mp hzip
    refine List.forall₂_iff_zip.mpr ⟨hlength, fun {row row'} hmem => ?_⟩
    have hrow := (List.of_mem_zip hmem).1
    have hrow' := (List.of_mem_zip hmem).2
    have hroot : IsRoot row'.id := (hleft _).mp (List.mem_map_of_mem hrow')
    have hknown := known?_eq_some_of_mem hswept.wellFormed.ids_nodup hrow'
    refine counterpart_of_root hfresh (BookmarkStore.rootsInPlace_fresh guids) hswept.wellFormed
      hplaced hrow hrow' (hpairs hmem) ((hpairs hmem) ▸ hroot) ?_ ?_
    · rcases mem_fresh_iff.mp hrow with rfl | rfl | rfl | rfl | rfl <;> rfl
    · refine Row.annotations_eq_nil fun name => ?_
      have hnone := hbare.plain _ hroot name
      rw [annotationOf?_eq_known?, ← hswept.kept _ (hswept.known?_of_some hknown).1,
        hknown] at hnone
      exact hnone
  · have := h.roots_given
    rw [hswept.nextId]
    simp only [fresh, RootId.unfiled] at *
    omega
  · intro number count
    rw [hswept.guids, hswept.nextId]
    exact hdraws number count

end Bare

end Tree

namespace Client

open SyncedBookmarks.Action SyncedBookmarks.BookmarkStore SyncedBookmarks.Tree

/-! ### The wipe -/

/-- What a wipe makes of a client. -/
structure Wiped (client next : Client) : Prop where
  wellFormed : next.WellFormed
  swept : Stripped (client.tree.BelowAny sweptRoots) client.tree next.tree
  generators : next.store.generators = client.store.generators
  collection : next.collection = client.collection
  changed : next.tracker.changed = []
  journal : ∀ collection, next.tracker.journal = some collection →
    next.tracker.ledger.changesOf collection = []
  score : next.tracker.score = 0
  lastSync : next.lastSync = Binary64.zero

theorem journal_clear (tracker : Tracker) {collection : String}
    (h : tracker.clear.journal = some collection) :
    tracker.clear.ledger.changesOf collection = [] := by
  rw [Tracker.clear, Tracker.withJournal] at h ⊢
  cases hjournal : tracker.journal with
  | none => simp [hjournal] at h
  | some owner =>
      simp only [hjournal, Option.some.injEq] at h ⊢
      subst h
      exact Ledger.changesOf_clearChanges _ _

theorem exists_wipeClient {client : Client} (h : client.WellFormed)
    (hroots : client.tree.RootsInPlace) :
    ∃ next, client.wipeClient = (.ok (), next) ∧ client.Wiped next := by
  have hcontinued := continued_wipeClient h
  have htree : (client.onTracker (·.suppress true)).beginBatch.tree = client.tree :=
    Places.tree_beginBatch _
  have hgenerators : (client.onTracker (·.suppress true)).beginBatch.store.generators =
      client.store.generators := rfl
  rw [wipeClient, Faults.wipe_never] at hcontinued ⊢
  generalize hopened : (client.onTracker (·.suppress true)).beginBatch = opened
    at hcontinued htree hgenerators ⊢
  have hwell : opened.store.tree.WellFormed := by
    rw [show opened.store.tree = client.tree from htree]
    exact h.store.tree
  have hplaced : opened.store.tree.RootsInPlace := by
    rwa [show opened.store.tree = client.tree from htree]
  obtain ⟨_, store, hresult, hswept, -, hkept⟩ := yields_wipe hwell hplaced
  have hwiped : (fromStore wipe).result opened = (.ok (), { opened with store }.deliver) := by
    rw [result_fromStore, hresult]
    rfl
  rw [hwiped] at hcontinued ⊢
  refine ⟨_, rfl, ?_⟩
  exact
    { wellFormed := hcontinued.wellFormed
      swept := by
        have hclosed : ({ opened with store }.deliver).endBatch.tree = store.tree :=
          Places.tree_endBatch _
        change Stripped _ _ ({ opened with store }.deliver).endBatch.tree
        rw [hclosed, ← htree]
        exact hswept
      generators := hkept.trans hgenerators
      collection := hcontinued.collection
      changed := Tracker.changed_withJournal _ _
      journal := fun _ hjournal => journal_clear _ hjournal
      score := rfl
      lastSync := Ledger.lastSync_setLastSync _ _ _ }

/-! ### A client with nothing to tell -/

/-- Whether a client was never synced and has nothing that others should have. -/
structure Blank (client : Client) : Prop where
  wellFormed : client.WellFormed
  changed : client.tracker.changed = []
  first : client.lastSync = Binary64.zero
  empty : allIds client.tree = .ok []

theorem Wiped.blank {client next : Client} (h : client.Wiped next) (hwell : client.WellFormed)
    (hroots : client.tree.RootsInPlace) : next.Blank :=
  ⟨h.wellFormed, h.changed, h.lastSync, h.swept.allIds_eq_nil hwell.store.tree hroots⟩

theorem blank_fresh (collection : String) (generators : Option (List String)) (journaled : Bool)
    (guids : GuidSource) : (fresh collection generators journaled guids).Blank where
  wellFormed := wellFormed_fresh collection generators journaled guids
  changed := by cases journaled <;> rfl
  first := rfl
  empty := allIds_eq_nil (Tree.wellFormed_fresh guids) not_synced_fresh

namespace Blank

variable {client : Client} (h : client.Blank)

include h

/-- Whatever it is given, nothing comes to be marked. -/
theorem changed_caughtUp (keys : KeyBundle) (records : List StoredRecord) :
    (client.caughtUp keys records).tracker.changed = [] := by
  have hunsynced : client.unsynced = [] := by
    rw [unsynced, h.empty]
    split <;> rfl
  have hbegun : client.begun.tracker.changed = [] := by
    rw [(startPass_eq h.wellFormed).2.tracker, hunsynced]
    exact h.changed
  rw [(caughtUp_spec h.wellFormed keys records).tracker]
  refine List.eq_nil_iff_forall_not_mem.mpr fun guid hguid => ?_
  have hmarked := (Tracker.mem_changed_removeAll _ _ _).mp hguid
  rw [hbegun] at hmarked
  exact List.not_mem_nil hmarked.1

theorem parcel_eq_nil (keys : KeyBundle) (records : List StoredRecord) :
    client.parcel keys records = [] := by
  have hready : (client.begun.settled keys client.lastSync records).tracker.changed = [] :=
    h.changed_caughtUp keys records
  rw [parcel, outgoing, hready]
  rfl

/-- What it is given decides its pass: no more than that is asked of the server. -/
theorem sync_eq {storage : Storage σ} {keys : KeyBundle} {state : σ} {records : List StoredRecord}
    (hfetch : (storage.fetch client.collection client.lastSync state).1 = .ok records) {moved : Nat}
    (hmoved : ((fromStore reparentOrphans).result
      (client.begun.receiveAll keys ⟨{}, client.lastSync⟩ records).2).1 = .ok moved) :
    ∃ latest, client.sync storage keys state =
      (.ok { (client.begun.receiveAll keys ⟨{}, client.lastSync⟩ records).1.summary with
          reparented := moved, uploaded := 0 },
        (((client.caughtUp keys records).setLastSync latest).onTracker (·.resetScore)).endBatch,
        (storage.fetch client.collection client.lastSync state).2) := by
  obtain ⟨hstart, hbegun⟩ := startPass_eq h.wellFormed
  have hready : (client.begun.settled keys client.lastSync records).tracker.changed = [] :=
    h.changed_caughtUp keys records
  have hnone : client.begun.outgoing keys client.lastSync records = [] :=
    h.parcel_eq_nil keys records
  rw [← Faults.reparentOrphans_never] at hmoved
  have htake := takeFetched_eq hmoved
  dsimp only at htake
  rw [hnone, hready] at htake
  refine ⟨max (max (client.begun.receiveAll keys ⟨{}, client.lastSync⟩ records).1.newest
    Binary64.zero) client.lastSync, ?_⟩
  rw [sync, hstart]
  dsimp only
  rw [advance_fetching hbegun.collection hfetch htake]
  rfl

end Blank

/-! ### Two clients side by side -/

/-- Whether two clients are the same but for the numbers of their items. -/
def InStep (shift : Nat) (client other : Client) : Prop :=
  BookmarkStore.InStep shift client.store other.store

variable {shift : Nat} {client other : Client}

theorem inStep_of_tree (hboth : client.tree.Counterpart shift other.tree)
    (hclient : client.WellFormed) (hother : other.WellFormed)
    (hcache : other.store.cache = client.store.cache)
    (hgenerators : other.store.generators = client.store.generators) : client.InStep shift other :=
  ⟨⟨hboth, hclient.store.tree, hother.store.tree⟩, hcache, hgenerators⟩

theorem mimics_onStore {action : StoreAction α} {action' : StoreAction β} {R : α → β → Prop}
    (h : action.Mimics (BookmarkStore.InStep shift) R action') :
    (onStore action).Mimics (InStep shift) R (onStore action') := by
  intro client other hboth
  obtain ⟨houtcome, hleft⟩ := h client.store other.store hboth
  exact ⟨houtcome, hleft.places, hleft.cache, hleft.generators⟩

theorem mimics_fromStore {action : StoreAction α} {action' : StoreAction β} {R : α → β → Prop}
    (h : action.Mimics (BookmarkStore.InStep shift) R action') :
    (fromStore action).Mimics (InStep shift) R (fromStore action') :=
  (mimics_onStore h).within (fun _ _ hboth => hboth) fun _ _ _ _ _ hnext => hnext

theorem inStep_receiveOne (h : client.InStep shift other) (keys : KeyBundle) (progress : Progress)
    {stored : StoredRecord}
    (hplain : ∀ record, stored.openRecord keys = .ok record → record.Plain) :
    (other.receiveOne keys progress stored).1 = (client.receiveOne keys progress stored).1 ∧
      (client.receiveOne keys progress stored).2.InStep shift
        (other.receiveOne keys progress stored).2 := by
  rw [receiveOne, receiveOne]
  simp only [Faults.applyIncoming_never]
  cases hopen : stored.openRecord keys with
  | error cause => exact ⟨rfl, h⟩
  | ok record =>
      obtain ⟨houtcome, hleft⟩ := mimics_onStore (mimics_applyIncoming (hplain record hopen))
        (client.onTracker (·.remove record.id)) (other.onTracker (·.remove record.id)) h
      dsimp only
      generalize (onStore (applyIncoming record)).result (client.onTracker (·.remove record.id)) =
        first at houtcome hleft
      generalize (onStore (applyIncoming record)).result (other.onTracker (·.remove record.id)) =
        second at houtcome hleft
      obtain ⟨outcome, next⟩ := first
      obtain ⟨outcome', next'⟩ := second
      cases houtcome <;> exact ⟨rfl, hleft⟩

theorem inStep_receiveAll (h : client.InStep shift other) (keys : KeyBundle) (progress : Progress)
    {records : List StoredRecord} (hplain : ∀ stored ∈ records, ∀ record,
      stored.openRecord keys = .ok record → record.Plain) :
    (other.receiveAll keys progress records).1 = (client.receiveAll keys progress records).1 ∧
      (client.receiveAll keys progress records).2.InStep shift
        (other.receiveAll keys progress records).2 := by
  induction records generalizing client other progress with
  | nil => exact ⟨rfl, h⟩
  | cons stored records ih =>
      obtain ⟨hsame, hleft⟩ := inStep_receiveOne h keys progress (hplain stored List.mem_cons_self)
      rw [receiveAll, receiveAll]
      dsimp only
      rw [hsame]
      exact ih hleft _ fun later hlater => hplain later (List.mem_cons_of_mem stored hlater)

theorem inStep_endBatch (h : client.InStep shift other) :
    client.endBatch.InStep shift other.endBatch := by
  obtain ⟨⟨hboth, hwell, hwell'⟩, hcache, hgenerators⟩ := h
  have htree : client.endBatch.tree = client.tree := Places.tree_endBatch _
  have htree' : other.endBatch.tree = other.tree := Places.tree_endBatch _
  refine ⟨⟨?_, ?_, ?_⟩, hcache, hgenerators⟩
  · change client.endBatch.tree.Counterpart shift other.endBatch.tree
    rwa [htree, htree']
  · change client.endBatch.tree.WellFormed
    rwa [htree]
  · change other.endBatch.tree.WellFormed
    rwa [htree']

/-- Two clients with nothing to tell that are in step take in the same records with the same
outcome, and stay in step. -/
theorem Blank.syncs_alike (h : client.Blank) (h' : other.Blank)
    (hboth : client.tree.Counterpart shift other.tree)
    (hcollection : other.collection = client.collection)
    (hgenerators : other.store.generators = client.store.generators) {storage : Storage σ}
    {keys : KeyBundle} {state : σ} {records : List StoredRecord}
    (hfetch : (storage.fetch client.collection Binary64.zero state).1 = .ok records)
    (hplain : ∀ stored ∈ records, ∀ record, stored.openRecord keys = .ok record → record.Plain) :
    ∃ summary next next' last, client.sync storage keys state = (.ok summary, next, last) ∧
      other.sync storage keys state = (.ok summary, next', last) ∧ next.InStep shift next' ∧
      next.tree = (client.caughtUp keys records).tree ∧ next.store.cache = [] := by
  have hbegun := (startPass_eq h.wellFormed).2
  have hbegun' := (startPass_eq h'.wellFormed).2
  have hstart : client.begun.InStep shift other.begun := by
    refine inStep_of_tree ?_ hbegun.wellFormed hbegun'.wellFormed ?_ ?_
    · rwa [hbegun.tree, hbegun'.tree]
    · rw [hbegun.cache, hbegun'.cache]
    · rw [hbegun.generators, hbegun'.generators, hgenerators]
  obtain ⟨hsame, hreceived⟩ := inStep_receiveAll hstart keys ⟨{}, Binary64.zero⟩ hplain
  obtain ⟨houtcome, hsettled⟩ := mimics_fromStore mimics_reparentOrphans _ _ hreceived
  obtain ⟨moved, hmoved⟩ := (settled_spec hbegun.wellFormed hbegun.deaf keys Binary64.zero
    records).2
  obtain ⟨moved', hmoved'⟩ := (settled_spec hbegun'.wellFormed hbegun'.deaf keys Binary64.zero
    records).2
  obtain rfl : moved = moved' := by
    rw [hmoved, hmoved'] at houtcome
    cases houtcome with
    | ok hsame => exact hsame
  have hcaughtUp : (client.caughtUp keys records).InStep shift (other.caughtUp keys records) := by
    rw [caughtUp, caughtUp, h.first, h'.first]
    exact hsettled
  rw [← h.first] at hfetch hmoved hsame
  have hfetch' : (storage.fetch other.collection other.lastSync state).1 = .ok records := by
    rwa [hcollection, h'.first, ← h.first]
  rw [← h'.first] at hmoved'
  obtain ⟨latest, hsync⟩ := h.sync_eq hfetch hmoved
  obtain ⟨latest', hsync'⟩ := h'.sync_eq hfetch' hmoved'
  rw [hcollection, h'.first, ← h.first, hsame] at hsync'
  have hcache : (client.caughtUp keys records).store.cache = [] :=
    List.subset_nil.mp (hbegun.cache ▸ (caughtUp_spec h.wellFormed keys records).cache)
  exact ⟨_, _, _, _, hsync, hsync', inStep_endBatch hcaughtUp, Places.tree_endBatch _, hcache⟩

/-- The roots of a fresh client stay in their places whatever it takes in. -/
theorem rootsInPlace_caughtUp_fresh (collection : String) (generators : Option (List String))
    (journaled : Bool) (guids : GuidSource) (keys : KeyBundle) (records : List StoredRecord) :
    ((fresh collection generators journaled guids).caughtUp keys records).tree.RootsInPlace := by
  -- Of a store only the tree matters here.
  have hkeeps : ∀ {α : Type} {action : StoreAction α}, action.Keeps (RootsKept guids) →
      action.Keeps fun store => RootsKept guids { places := { tree := store.tree } } := by
    intro α action haction store hstore
    obtain ⟨hwell, hsame, hdescends⟩ := haction store ⟨hstore.1, hstore.2, hstore.3⟩
    exact ⟨hwell, hsame, hdescends⟩
  have hkept := @holds_caughtUp (fun tree => RootsKept guids { places := { tree } })
    (fun record => hkeeps (keeps_applyIncoming_roots record)) (hkeeps keeps_reparentOrphans_roots) _
    (wellFormed_fresh collection generators journaled guids) (RootsKept.fresh guids none) keys
    records
  exact (rootsInPlace_fresh guids).of_known? fun id hroot => Leaves.known? hkept hroot

/-! ### Starting over -/

/-- Whether of all that was synced nothing is left after a wipe, and the rest is as it was. -/
structure Emptied (client wiped : Client) : Prop where
  children : ∀ root ∈ sweptRoots, wiped.tree.children root.1 = .ok []
  others : ∀ id, ¬ client.tree.BelowAny sweptRoots id →
    wiped.tree.row? id = client.tree.row? id
  annotations : ∀ name entry, entry ∈ wiped.tree.annotated name ↔
    entry ∈ client.tree.annotated name ∧ ¬ client.tree.BelowAny sweptRoots entry.1
  ids : allIds wiped.tree = .ok []
  changed : wiped.tracker.changed = []
  journal : ∀ collection, wiped.tracker.journal = some collection →
    wiped.tracker.ledger.changesOf collection = []
  score : wiped.tracker.score = 0
  lastSync : wiped.lastSync = Binary64.zero

/-- Whether the next pass of a client asks the server for all that there is, and for nothing else:
it sends nothing, whatever it is given. -/
def OnlyFetches (client : Client) : Prop :=
  ∀ (σ : Type) (storage : Storage σ) (keys : KeyBundle) (state : σ),
    let fetched := storage.fetch client.collection Binary64.zero state
    let ended := client.sync storage keys state
    ended.2.2 = fetched.2 ∧
      match fetched.1 with
      | .ok _ => ∃ summary, ended.1 = .ok summary ∧ summary.uploaded = 0
      | .error cause => ended.1 = .error (.storage cause)

/-- Whether the next passes of two clients, given the same records and no query among them, have the
same outcome and leave them with the same items to tell of, of which they tell the same. -/
def BeginsLike (client other : Client) : Prop :=
  ∀ (σ : Type) (storage : Storage σ) (keys : KeyBundle) (state : σ) (records : List StoredRecord),
    (storage.fetch client.collection Binary64.zero state).1 = .ok records →
    (∀ stored ∈ records, ∀ record, stored.openRecord keys = .ok record → record.Plain) →
    let ended := client.sync storage keys state
    let ended' := other.sync storage keys state
    ∃ summary guids, ended.1 = .ok summary ∧ ended'.1 = .ok summary ∧
      allIds ended.2.1.tree = .ok guids ∧ allIds ended'.2.1.tree = .ok guids ∧
      ∀ guid ∈ guids, ∃ record, ((createRecord guid).result ended.2.1.store).1 = .ok record ∧
        ((createRecord guid).result ended'.2.1.store).1 = .ok record

theorem Wiped.emptied {client wiped : Client} (h : client.Wiped wiped) (hwell : client.WellFormed)
    (hroots : client.tree.RootsInPlace) : client.Emptied wiped where
  children := fun _ hroot => h.swept.children_eq_nil hwell.store.tree hroot
  others := h.swept.row?
  annotations := fun _ _ => h.swept.mem_annotated_iff hwell.store.tree
  ids := h.swept.allIds_eq_nil hwell.store.tree hroots
  changed := h.changed
  journal := h.journal
  score := h.score
  lastSync := h.lastSync

theorem Blank.onlyFetches {client : Client} (h : client.Blank) : client.OnlyFetches := by
  intro σ storage keys state
  dsimp only
  rw [← h.first]
  cases hfetch : (storage.fetch client.collection client.lastSync state).1 with
  | error cause =>
      obtain ⟨next, hsync, -⟩ := sync_unfetched h.wellFormed storage keys state hfetch
      rw [hsync]
      exact ⟨rfl, rfl⟩
  | ok records =>
      obtain ⟨_, _, _, -, -, -, hsync⟩ := sync_idle h.wellFormed storage keys state hfetch
        (h.parcel_eq_nil keys records)
      rw [hsync]
      exact ⟨rfl, _, rfl, rfl⟩

/-- A client with nothing to tell whose tree is a fresh one but for the numbers that come next
begins as a fresh client does. -/
theorem beginsLike_fresh {client : Client} (h : client.Blank) {journaled : Bool}
    {guids : GuidSource} (hboth : (Tree.fresh guids).Counterpart shift client.tree) :
    client.BeginsLike (fresh client.collection client.store.generators journaled guids) := by
  intro σ storage keys state records hfetch hplain
  have hfresh := blank_fresh client.collection client.store.generators journaled guids
  obtain ⟨summary, next', next, last, hsync', hsync, hstep, htree, hcache⟩ :=
    hfresh.syncs_alike h hboth rfl rfl hfetch hplain
  dsimp only
  rw [hsync, hsync']
  have hwell : next'.store.tree.WellFormed := hstep.places.2.1
  have hroots : next'.tree.RootsInPlace := htree ▸ rootsInPlace_caughtUp_fresh _ _ _ _ _ _
  obtain ⟨listed, hlisted, hlists⟩ := allIds_spec hwell
  have hsame := hstep.tree.allIds
  rw [hlisted] at hsame
  refine ⟨summary, listed, rfl, rfl, ?_, hlisted, fun guid hguid => ?_⟩
  · change allIds next.store.tree = .ok listed
    generalize allIds next.store.tree = read at hsame
    cases hsame with
    | ok hsame => rw [hsame]
  · have hnamed := notMem_all_of_lists hwell hroots hlists hguid
    have hnot : next'.store.tree.idOfGuid? guid ≠ some RootId.places := by
      intro hplaces
      obtain ⟨row, hrow, rfl⟩ := hwell.idOfGuid?_iff.mp hplaces
      exact hroots.named.ne_of_guid places_mem_rootNames hrow hnamed rfl
    have huncached : next'.store.cached? guid = none := by
      rw [cached?, hcache]
      rfl
    obtain ⟨record, -, -, hmade⟩ := exists_newRecord hwell hnot
    have hrecord := (mimics_createRecord hnamed next'.store next.store hstep).1
    rw [hmade next'.store.cache huncached] at hrecord ⊢
    refine ⟨record, ?_, rfl⟩
    generalize ((createRecord guid).result next.store).1 = made at hrecord
    cases hrecord with
    | ok hsame => rw [hsame]

/-- A client that is wiped starts over. The GUIDs of new items are drawn, so its first pass is that
of a new client when they draw the same. -/
theorem wiped_starts_over {client : Client} (h : client.Reachable)
    (hroots : client.tree.RootsInPlace) :
    ∃ wiped, client.wipeClient = (.ok (), wiped) ∧ client.Emptied wiped ∧ wiped.OnlyFetches ∧
      (client.tree.Bare → ∀ (journaled : Bool) (guids : GuidSource),
        (Tree.fresh guids).SameDraws client.tree →
          wiped.BeginsLike (fresh client.collection client.store.generators journaled guids)) := by
  have hwell := h.wellFormed
  obtain ⟨wiped, hresult, hwiped⟩ := exists_wipeClient hwell hroots
  have hblank := hwiped.blank hwell hroots
  refine ⟨wiped, hresult, hwiped.emptied hwell hroots, hblank.onlyFetches, ?_⟩
  intro hbare journaled guids hdraws
  have hreachable : wiped.Reachable := by
    have hrun := h.run (.locally .wipe)
    rwa [show ClientCall.run client (.locally .wipe) = wiped from congrArg Prod.snd hresult] at hrun
  have hboth := hbare.counterpart_fresh hwell.store.tree hroots hwiped.swept hreachable.inSequence
    hdraws
  rw [← hwiped.collection, ← hwiped.generators]
  exact beginsLike_fresh hblank hboth

/-- A folder of another client. -/
def sharedFolder : Record :=
  { id := "f", parentid := some RootGuid.menu, kind := .folder, title := some "F" }

theorem bare_filed : filed.tree.Bare where
  plain := by
    rintro id ⟨guid, hname⟩ name
    have hall : ∀ row ∈ filed.tree.rows, row.annotations = [] := by
      rw [rows_filed]
      decide
    rw [Tree.annotationOf?, Option.bind_eq_none_iff]
    intro row hrow
    rw [Row.annotationOf?, hall row (List.mem_of_find?_eq_some hrow)]
    rfl
  alone := by
    intro id habove
    obtain ⟨_, hrow, hparent⟩ := known?_of_above? habove
    obtain ⟨row, hmem, rfl, rfl⟩ := exists_mem_of_known? hrow
    have hall : ∀ row ∈ filed.tree.rows, row.parent = some RootId.places →
        row.id = RootId.places ∨
          row.id ∈ [RootId.menu, RootId.toolbar, RootId.tags, RootId.unfiled] := by
      rw [rows_filed]
      decide
    exact isRoot_iff.mpr (List.mem_cons.mpr (hall row hmem hparent))

/-- A client with a bookmark in a folder and a tag on it is wiped, and is then given a folder of
another client. -/
theorem filed_starts_over :
    filed.Reachable ∧ filed.tree.RootsInPlace ∧ filed.tree.Bare ∧ sharedFolder.Plain ∧
      ∃ wiped stored, filed.wipeClient = (.ok (), wiped) ∧ filed.Emptied wiped ∧
        wiped.OnlyFetches ∧ stored.openRecord blankKeys = .ok sharedFolder ∧
        let storage := Storage.answering (.ok [stored]) (.error .unauthorized)
        let source := filed.tree.guids.later (filed.tree.nextId - 6)
        let ended := wiped.sync storage blankKeys ()
        let ended' := (fresh filed.collection none false source).sync storage blankKeys ()
        ∃ summary guids, ended.1 = .ok summary ∧ ended'.1 = .ok summary ∧
          allIds ended.2.1.tree = .ok guids ∧ allIds ended'.2.1.tree = .ok guids := by
  have hroots := presentable_filed.roots
  have hplain : sharedFolder.Plain := ⟨by decide, fun _ huri => by cases huri⟩
  have hkeys : blankKeys.encryptionKey.length = Aead.keyLength := by decide
  obtain ⟨stored, hstored, -⟩ := StoredRecord.exists_opened hkeys sharedFolder Binary64.zero
  have hrecords : ∀ other ∈ [stored], ∀ record, other.openRecord blankKeys = .ok record →
      record.Plain := by
    intro other hmem record hrecord
    obtain rfl := List.mem_singleton.mp hmem
    exact Except.ok.inj (hstored.symm.trans hrecord) ▸ hplain
  obtain ⟨wiped, hwiped, hemptied, honly, hlike⟩ := wiped_starts_over reachable_filed hroots
  obtain ⟨summary, guids, hsync, hsync', hids, hids', -⟩ := hlike bare_filed false _
    (sameDraws_later filed.tree) Unit (Storage.answering (.ok [stored]) (.error .unauthorized))
    blankKeys () [stored] rfl hrecords
  exact ⟨reachable_filed, hroots, bare_filed, hplain, wiped, stored, hwiped, hemptied, honly,
    hstored, summary, guids, hsync, hsync', hids, hids'⟩

end Client

end SyncedBookmarks

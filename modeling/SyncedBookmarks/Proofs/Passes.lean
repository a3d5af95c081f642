import SyncedBookmarks.Proofs.Forgetting
import SyncedBookmarks.Proofs.Recording
import SyncedBookmarks.Proofs.Sealing
import SyncedBookmarks.Proofs.Tracking
import SyncedBookmarks.Sync.Pass

namespace SyncedBookmarks

/-! What each stretch of a pass, from one answer of the server to the next request, makes of the
client: the set of changed items, the records that go out, and the time of the pass. -/

namespace Binary64

theorem max_le_iff {x y bound : Binary64} : max x y ≤ bound ↔ x ≤ bound ∧ y ≤ bound := by
  rw [le_iff, le_iff, le_iff, rank_max]
  omega

theorem le_refl (x : Binary64) : x ≤ x :=
  Int.le_refl _

theorem le_trans {x y z : Binary64} (h : x ≤ y) (h' : y ≤ z) : x ≤ z :=
  Int.le_trans h h'

theorem le_max_left {x y : Binary64} : x ≤ max x y :=
  (max_le_iff.mp (le_refl _)).1

theorem le_max_right {x y : Binary64} : y ≤ max x y :=
  (max_le_iff.mp (le_refl _)).2

theorem max_le_max {x y : Binary64} (h : x ≤ y) (z : Binary64) : max x z ≤ max y z :=
  max_le_iff.mpr ⟨le_trans h le_max_left, le_max_right⟩

theorem max_eq_left {x y : Binary64} (h : y ≤ x) : max x y = x :=
  if_neg (Int.not_lt.mpr h)

theorem lt_of_le_of_lt {x y z : Binary64} (h : x ≤ y) (h' : y < z) : x < z :=
  Int.lt_of_le_of_lt h h'

theorem not_le {x y : Binary64} : ¬ x ≤ y ↔ y < x :=
  Int.not_le

theorem le_of_lt {x y : Binary64} (h : x < y) : x ≤ y :=
  Int.le_of_lt h

end Binary64

/-- A record goes by the name that it is stored under. -/
theorem StoredRecord.id_of_openRecord {stored : StoredRecord} {keys : KeyBundle} {record : Record}
    (h : stored.openRecord keys = .ok record) : record.id = stored.id := by
  simp only [openRecord, bind, Except.bind, pure, Except.pure] at h
  cases hparse : Envelope.schema.parse? stored.payload with
  | none => simp only [hparse] at h; cases h
  | some envelope =>
      simp only [hparse] at h
      cases hopen : keys.openPayload envelope with
      | error cause => simp only [hopen] at h; cases h
      | ok cleartext =>
          simp only [hopen] at h
          split at h
          · split at h
            · rename_i hsame
              rw [← Except.ok.inj h]
              exact hsame
            · cases h
          · cases h

namespace Action

theorem result_bind_of_ok {action : Action σ ε α} {state middle : σ} {value : α}
    (h : action.result state = (.ok value, middle)) (next : α → Action σ ε β) :
    (action >>= next).result state = (next value).result middle := by
  rw [result_bind, h]

theorem result_bind_of_error {action : Action σ ε α} {state middle : σ} {cause : ε}
    (h : action.result state = (.error cause, middle)) (next : α → Action σ ε β) :
    (action >>= next).result state = (.error cause, middle) := by
  rw [result_bind, h]

end Action

namespace BookmarkStore

open SyncedBookmarks.Action

/-- What the moving of each orphan keeps, the moving of all keeps. -/
theorem yields_reparentOrphans {P : BookmarkStore → Prop} {store : BookmarkStore} (h : P store)
    (hone : ∀ orphan ∈ store.tree.annotated AnnotationName.intendedParent, ∀ state, P state →
      (reparent orphan.1 orphan.2).Yields state fun _ next => P next) :
    reparentOrphans.Yields store fun _ next => P next := by
  have hall : ∀ orphans : List (Int × String), (∀ orphan ∈ orphans, ∀ state, P state →
      (reparent orphan.1 orphan.2).Yields state fun _ next => P next) →
      ∀ state, P state → (reparentAll orphans).Yields state fun _ next => P next := by
    intro orphans
    induction orphans with
    | nil => exact fun _ state hstate => yields_pure hstate
    | cons orphan orphans ih =>
        intro hone state hstate
        refine (hone orphan List.mem_cons_self state hstate).bind fun _ next hnext => ?_
        refine (ih (fun other hother => hone other (List.mem_cons_of_mem _ hother)) next hnext).bind
          fun _ last hlast => yields_pure hlast
  refine (yields_read (P := fun orphans state =>
    orphans = store.tree.annotated AnnotationName.intendedParent ∧ state = store) ⟨rfl, rfl⟩).bind ?_
  rintro _ _ ⟨rfl, rfl⟩
  exact hall _ hone _ h

/-- Looking for the parent of an orphan comes to an end whatever there is. -/
theorem yields_reparent_trivial (id : Int) (mark : String) (store : BookmarkStore) :
    (reparent id mark).Yields store fun _ _ => True := by
  refine (yields_read (P := fun _ _ => True) trivial).bind fun parent state _ => ?_
  cases parent with
  | none => exact yields_pure trivial
  | some parent =>
      have hattempt : (attempt (onTree (Places.moveItem id parent Places.atEnd)) :
          StoreAction (Except StoreError Unit)).Yields state fun _ _ => True :=
        ⟨_, _, rfl, trivial⟩
      refine hattempt.bind fun outcome state _ => ?_
      cases outcome with
      | error cause => exact yields_pure trivial
      | ok moved =>
          have hclear := leads_onTree (Places.leads_unannotate state.tree id
            AnnotationName.intendedParent) state rfl
          refine hclear.bind fun _ state _ => ?_
          refine (yields_read (P := fun _ _ => True) trivial).bind fun guid state _ => ?_
          cases guid with
          | none => exact yields_pure trivial
          | some guid =>
              exact (yields_change (P := fun _ _ => True) trivial).bind
                fun _ _ _ => yields_pure trivial

theorem exists_result_reparentOrphans (store : BookmarkStore) :
    ∃ moved, (reparentOrphans.result store).1 = .ok moved := by
  obtain ⟨moved, hmoved, -⟩ := (yields_reparentOrphans (P := fun _ => True) trivial
    fun orphan _ state _ => yields_reparent_trivial orphan.1 orphan.2 state).result
  exact ⟨moved, hmoved⟩

end BookmarkStore

namespace Client

open SyncedBookmarks.Action

/-- What holds of a client between two calls: its parts are in order, and the tracker has heard
all that the tree has told. -/
structure WellFormed (client : Client) : Prop where
  store : client.store.WellFormed
  heard : client.store.places.notices = []
  tracker : client.tracker.Sound

/-! ### Steps that the tracker hears of -/

theorem result_fromStore (action : StoreAction α) (client : Client) :
    (fromStore action).result client = ((action.result client.store).1.mapError .store,
      { client with store := (action.result client.store).2 }.deliver) := rfl

/-- Passing on what has been told does nothing when nothing has. -/
theorem deliver_of_heard {client : Client} (h : client.store.places.notices = []) :
    client.deliver = client := by
  rcases client with ⟨⟨⟨tree, batches, notices⟩, cache, generators⟩, tracker, collection, log, sealings⟩
  subst h
  rw [deliver]
  simp [Tracker.hearAll]

theorem marks_deliver (client : Client) : client.tracker.Marks client.deliver.tracker :=
  client.tracker.marks_hearAll _

theorem wellFormed_deliver {client : Client} (hstore : client.store.WellFormed)
    (htracker : client.tracker.Sound) : client.deliver.WellFormed where
  store := ⟨hstore.tree, hstore.cache⟩
  heard := rfl
  tracker := client.marks_deliver.sound htracker

theorem keeps_onStore {action : StoreAction α} (h : action.Keeps BookmarkStore.WellFormed) :
    (onStore action).Keeps WellFormed :=
  fun client hwell => wellFormed_deliver (h client.store hwell.store) hwell.tracker

theorem tracker_deliver_of_suppressed {client : Client} (h : client.tracker.suppressed = true) :
    client.deliver.tracker = client.tracker :=
  Tracker.hearAll_of_suppressed h _

/-- Whether nothing has happened to a client that matters to it or to others: what it keeps in its
cache, its batches and its log aside, it is as before. -/
structure Quiet (before after : Client) : Prop where
  wellFormed : after.WellFormed
  tree : after.tree = before.tree
  generators : after.store.generators = before.store.generators
  tracker : after.tracker = before.tracker
  collection : after.collection = before.collection
  coherent : before.store.Coherent → after.store.Coherent

theorem Quiet.trans {first second third : Client} (h : first.Quiet second) (h' : second.Quiet third) :
    first.Quiet third where
  wellFormed := h'.wellFormed
  tree := h'.tree.trans h.tree
  generators := h'.generators.trans h.generators
  tracker := h'.tracker.trans h.tracker
  collection := h'.collection.trans h.collection
  coherent := h'.coherent ∘ h.coherent

theorem lastSync_congr {before after : Client} (hcollection : after.collection = before.collection)
    (htimes : after.tracker.ledger.times = before.tracker.ledger.times) :
    after.lastSync = before.lastSync := by
  rw [lastSync, Ledger.lastSync, hcollection, htimes]
  rfl

theorem Quiet.lastSync {before after : Client} (h : before.Quiet after) :
    after.lastSync = before.lastSync :=
  lastSync_congr h.collection (by rw [h.tracker])

theorem quiet_onPlaces {client : Client} (h : client.WellFormed) {step : Places → Places}
    (htree : ∀ places, (step places).tree = places.tree)
    (htold : ∀ notice ∈ (step client.store.places).notices,
      notice.event = .batchBegun ∨ notice.event = .batchEnded) :
    client.Quiet (client.onPlaces step) where
  wellFormed := by
    refine wellFormed_deliver ⟨?_, h.store.cache⟩ h.tracker
    change (step client.store.places).tree.WellFormed
    rw [htree]
    exact h.store.tree
  tree := htree client.store.places
  generators := rfl
  tracker := Tracker.hearAll_of_batch htold
  collection := rfl
  coherent := fun hcoherent => hcoherent.congr (htree client.store.places) rfl

theorem quiet_beginBatch {client : Client} (h : client.WellFormed) :
    client.Quiet client.beginBatch := by
  refine quiet_onPlaces h Places.tree_beginBatch ?_
  intro notice hnotice
  rw [Places.beginBatch] at hnotice
  split at hnotice <;> simp_all [Places.told, h.heard]

theorem quiet_endBatch {client : Client} (h : client.WellFormed) : client.Quiet client.endBatch := by
  refine quiet_onPlaces h Places.tree_endBatch ?_
  intro notice hnotice
  rw [Places.endBatch] at hnotice
  dsimp only at hnotice
  split at hnotice <;> simp_all [Places.told, h.heard]

theorem quiet_clearCache {client : Client} (h : client.WellFormed) :
    client.Quiet client.clearCache where
  wellFormed := ⟨⟨h.store.tree, by simp [clearCache, BookmarkStore.clearCache]⟩, h.heard, h.tracker⟩
  tree := rfl
  generators := rfl
  tracker := rfl
  collection := rfl
  coherent := fun _ => BookmarkStore.coherent_of_empty rfl

/-! ### Beginning -/

/-- The items that the first pass marks changed: all that are synced. -/
def unsynced (client : Client) : List String :=
  if client.lastSync ≤ Binary64.zero then (BookmarkStore.allIds client.tree).toOption.getD [] else []

/-- A client that waits for the answer to a fetch. -/
structure Begun (client next : Client) : Prop where
  wellFormed : next.WellFormed
  tree : next.tree = client.tree
  generators : next.store.generators = client.store.generators
  cache : next.store.cache = []
  tracker : next.tracker = (client.tracker.addAll client.unsynced).suppress true
  collection : next.collection = client.collection

theorem Begun.lastSync {client next : Client} (h : client.Begun next) :
    next.lastSync = client.lastSync :=
  lastSync_congr h.collection (by
    rw [h.tracker]
    exact (client.tracker.marks_addAll client.unsynced).times)

theorem sound_suppress {tracker : Tracker} (h : tracker.Sound) (suppressed : Bool) :
    (tracker.suppress suppressed).Sound :=
  ⟨h.changed, h.journal⟩

theorem startPass_spec {client : Client} (h : client.WellFormed) :
    ∃ next, client.startPass = (.fetching client.lastSync, next) ∧ client.Begun next := by
  have hquiet := (quiet_clearCache h).trans (quiet_beginBatch (quiet_clearCache h).wellFormed)
  have hcache : client.clearCache.beginBatch.store.cache = [] := rfl
  have hsince := hquiet.lastSync
  rw [startPass]
  dsimp only
  generalize client.clearCache.beginBatch = opened at hquiet hcache hsince
  rw [readLastSync_never, hsince]
  dsimp only
  by_cases hfirst : client.lastSync ≤ Binary64.zero
  · obtain ⟨guids, hguids, -⟩ := BookmarkStore.allIds_spec h.store.tree
    have hread : (fromStore (BookmarkStore.check BookmarkStore.allIds)).result opened =
        (.ok guids, opened) := by
      have hopened : BookmarkStore.allIds opened.store.tree = .ok guids := by
        rw [← hguids]
        exact congrArg BookmarkStore.allIds hquiet.tree
      rw [result_fromStore, BookmarkStore.reads_check hopened opened.store.cache]
      exact congrArg (Prod.mk (Except.ok guids)) (deliver_of_heard hquiet.wellFormed.heard)
    have hmark : markAll.result opened = (.ok (), opened.onTracker (·.addAll guids)) := by
      rw [markAll, Faults.allIds_never, result_bind, hread]
      rfl
    rw [if_pos hfirst, hmark]
    refine ⟨_, rfl, ?_⟩
    exact
      { wellFormed := ⟨hquiet.wellFormed.store, hquiet.wellFormed.heard, sound_suppress
          ((Tracker.marks_addAll _ guids).sound hquiet.wellFormed.tracker) true⟩
        tree := hquiet.tree
        generators := hquiet.generators
        cache := hcache
        tracker := by
          have hunsynced : client.unsynced = guids := by
            rw [unsynced, if_pos hfirst, tree, hguids]
            rfl
          rw [hunsynced]
          exact congrArg (fun tracker : Tracker => (tracker.addAll guids).suppress true)
            hquiet.tracker
        collection := hquiet.collection }
  · rw [if_neg hfirst]
    refine ⟨_, rfl, ?_⟩
    exact
      { wellFormed := ⟨hquiet.wellFormed.store, hquiet.wellFormed.heard,
          sound_suppress hquiet.wellFormed.tracker true⟩
        tree := hquiet.tree
        generators := hquiet.generators
        cache := hcache
        tracker := by
          rw [unsynced, if_neg hfirst]
          exact congrArg (fun tracker : Tracker => tracker.suppress true) hquiet.tracker
        collection := hquiet.collection }

/-! ### Applying -/

/-- The GUIDs of the records that can be opened. -/
def openedIds (keys : KeyBundle) (records : List StoredRecord) : List String :=
  records.filterMap fun stored => (stored.openRecord keys).toOption.map (·.id)

theorem mem_openedIds {keys : KeyBundle} {records : List StoredRecord} {guid : String} :
    guid ∈ openedIds keys records ↔
      ∃ stored ∈ records, ∃ record, stored.openRecord keys = .ok record ∧ record.id = guid := by
  rw [openedIds, List.mem_filterMap]
  refine exists_congr fun stored => and_congr_right fun _ => ?_
  cases stored.openRecord keys <;> simp [Except.toOption]

/-- What applying records makes of a client that does not listen. -/
structure Applied (keys : KeyBundle) (records : List StoredRecord) (progress : Progress)
    (client : Client) (last : Progress) (next : Client) : Prop where
  wellFormed : next.WellFormed
  generators : next.store.generators = client.store.generators
  cache : next.store.cache ⊆ client.store.cache
  tracker : next.tracker = client.tracker.removeAll (openedIds keys records)
  collection : next.collection = client.collection
  counted : last.summary.applied + last.summary.failed =
    progress.summary.applied + progress.summary.failed + records.length
  newest : ∀ bound, last.newest ≤ bound ↔
    progress.newest ≤ bound ∧ ∀ stored ∈ records, stored.modified ≤ bound

/-- What a record that can be opened makes of a client, whether it then comes through or not. -/
theorem applied_of_opened {client : Client} (h : client.WellFormed)
    (hdeaf : client.tracker.suppressed = true) {keys : KeyBundle} {stored : StoredRecord}
    {record : Record} (hopen : stored.openRecord keys = .ok record) {progress last : Progress}
    (hcounted : last.summary.applied + last.summary.failed =
      progress.summary.applied + progress.summary.failed + 1)
    (hnewest : last.newest = max progress.newest stored.modified) :
    Applied keys [stored] progress client last
      ((onStore (BookmarkStore.applyIncoming record)).result
        (client.onTracker (·.remove record.id))).2 := by
  have hmarks := client.tracker.marks_remove record.id
  have hcleared : (client.onTracker (·.remove record.id)).WellFormed :=
    ⟨h.store, h.heard, hmarks.sound h.tracker⟩
  have hforgets := BookmarkStore.forgets_applyIncoming record client.store.cache
    client.store.generators client.store ⟨List.Subset.refl _, rfl⟩
  have hids : openedIds keys [stored] = [record.id] := by
    simp [openedIds, hopen, Except.toOption]
  exact
    { wellFormed := keeps_onStore (BookmarkStore.keeps_applyIncoming record) _ hcleared
      generators := hforgets.2
      cache := hforgets.1
      tracker := by
        rw [hids]
        exact tracker_deliver_of_suppressed (hmarks.suppressed.trans hdeaf)
      collection := rfl
      counted := hcounted
      newest := by
        intro bound
        rw [hnewest, Binary64.max_le_iff]
        simp }

theorem receiveOne_spec {client : Client} (h : client.WellFormed)
    (hdeaf : client.tracker.suppressed = true) (keys : KeyBundle) (progress : Progress)
    (stored : StoredRecord) :
    Applied keys [stored] progress client (client.receiveOne keys progress stored).1
      (client.receiveOne keys progress stored).2 := by
  rw [receiveOne]
  cases hopen : stored.openRecord keys with
  | error cause =>
      exact
        { wellFormed := h
          generators := rfl
          cache := List.Subset.refl _
          tracker := by simp [openedIds, hopen, Except.toOption, Tracker.removeAll]
          collection := rfl
          counted := by simp only [List.length_singleton]; omega
          newest := by
            intro bound
            rw [Binary64.max_le_iff]
            simp }
  | ok record =>
      dsimp only
      split
      · rename_i next hresult
        obtain rfl := congrArg Prod.snd hresult
        exact applied_of_opened h hdeaf hopen (by dsimp only; omega) rfl
      · rename_i cause next hresult
        obtain rfl := congrArg Prod.snd hresult
        exact applied_of_opened h hdeaf hopen (by dsimp only; omega) rfl

/-- Applying a record that can be opened, for what it makes of the client. -/
theorem receiveOne_faulty {keys : KeyBundle} {stored : StoredRecord} {record : Record}
    (h : stored.openRecord keys = .ok record) (progress : Progress) (client : Client)
    (faults : Faults) : (client.receiveOne keys progress stored faults).2 =
      ((onStore (faults.applyIncoming record)).result (client.onTracker (·.remove record.id))).2 := by
  rw [receiveOne, h]
  dsimp only
  split
  · rename_i hresult
    rw [hresult]
  · rename_i hresult
    rw [hresult]

theorem receiveOne_of_opened {keys : KeyBundle} {stored : StoredRecord} {record : Record}
    (h : stored.openRecord keys = .ok record) (progress : Progress) (client : Client) :
    (client.receiveOne keys progress stored).2 =
      ((onStore (BookmarkStore.applyIncoming record)).result
        (client.onTracker (·.remove record.id))).2 :=
  receiveOne_faulty h progress client .never

theorem receiveAll_spec {client : Client} (h : client.WellFormed)
    (hdeaf : client.tracker.suppressed = true) (keys : KeyBundle) (progress : Progress)
    (records : List StoredRecord) :
    Applied keys records progress client (client.receiveAll keys progress records).1
      (client.receiveAll keys progress records).2 := by
  induction records generalizing client progress with
  | nil =>
      exact
        { wellFormed := h
          generators := rfl
          cache := List.Subset.refl _
          tracker := rfl
          collection := rfl
          counted := rfl
          newest := fun bound => by simp [receiveAll] }
  | cons stored records ih =>
      have hone := receiveOne_spec h hdeaf keys progress stored
      rw [receiveAll]
      generalize client.receiveOne keys progress stored = first at hone
      obtain ⟨middle, next⟩ := first
      have hnextDeaf : next.tracker.suppressed = true := by
        rw [hone.tracker, (client.tracker.marks_removeAll _).suppressed, hdeaf]
      have hrest := ih hone.wellFormed hnextDeaf middle
      have hids : openedIds keys (stored :: records) =
          openedIds keys [stored] ++ openedIds keys records := by
        rw [openedIds, openedIds, openedIds, ← List.filterMap_append]
        rfl
      exact
        { wellFormed := hrest.wellFormed
          generators := hrest.generators.trans hone.generators
          cache := List.Subset.trans hrest.cache hone.cache
          tracker := by
            rw [hrest.tracker, hone.tracker, hids, Tracker.removeAll, Tracker.removeAll,
              Tracker.removeAll, List.foldl_append]
          collection := hrest.collection.trans hone.collection
          counted := by
            have hfirst := hone.counted
            have hlast := hrest.counted
            simp only [List.length_cons, List.length_nil] at hfirst hlast ⊢
            omega
          newest := by
            intro bound
            rw [hrest.newest, hone.newest]
            simp [and_assoc] }

/-- The client once the records of an answer are applied and orphans moved. -/
def settled (keys : KeyBundle) (since : Timestamp) (records : List StoredRecord) (client : Client)
    (faults : Faults := .never) : Client :=
  ((fromStore faults.reparentOrphans).result
    (client.receiveAll keys ⟨{}, since⟩ records faults).2).2.onTracker (·.suppress false)

structure Settled (keys : KeyBundle) (records : List StoredRecord) (client next : Client) :
    Prop where
  wellFormed : next.WellFormed
  cache : next.store.cache ⊆ client.store.cache
  tracker : next.tracker = (client.tracker.removeAll (openedIds keys records)).suppress false
  collection : next.collection = client.collection

theorem Settled.lastSync {keys : KeyBundle} {records : List StoredRecord} {client next : Client}
    (h : Settled keys records client next) : next.lastSync = client.lastSync :=
  lastSync_congr h.collection (by
    rw [h.tracker]
    exact (client.tracker.marks_removeAll (openedIds keys records)).times)

theorem settled_spec {client : Client} (h : client.WellFormed)
    (hdeaf : client.tracker.suppressed = true) (keys : KeyBundle) (since : Timestamp)
    (records : List StoredRecord) :
    Settled keys records client (client.settled keys since records) ∧
      ∃ moved, ((fromStore BookmarkStore.reparentOrphans).result
        (client.receiveAll keys ⟨{}, since⟩ records).2).1 = .ok moved := by
  have happlied := receiveAll_spec h hdeaf keys ⟨{}, since⟩ records
  rw [settled]
  generalize client.receiveAll keys ⟨{}, since⟩ records = received at happlied
  obtain ⟨progress, received⟩ := received
  have hdeaf' : received.tracker.suppressed = true := by
    rw [happlied.tracker, (client.tracker.marks_removeAll _).suppressed, hdeaf]
  have hkept := keeps_onStore BookmarkStore.keeps_reparentOrphans received happlied.wellFormed
  have hforgets := BookmarkStore.forgets_reparentOrphans client.store.cache
    received.store.generators received.store ⟨happlied.cache, rfl⟩
  obtain ⟨moved, hmoved⟩ := BookmarkStore.exists_result_reparentOrphans received.store
  refine ⟨?_, moved, by rw [result_fromStore, hmoved]; rfl⟩
  exact
    { wellFormed := ⟨hkept.store, hkept.heard, sound_suppress hkept.tracker false⟩
      cache := hforgets.1
      tracker := by
        rw [← happlied.tracker]
        exact congrArg (fun tracker : Tracker => tracker.suppress false)
          (Tracker.hearAll_of_suppressed hdeaf' _)
      collection := happlied.collection }

/-! ### Sealing -/

/-- Making a record changes at most the cache. -/
theorem quiet_createRecord {client : Client} (h : client.WellFormed) (guid : String) :
    client.Quiet ((fromStore (BookmarkStore.createRecord guid)).result client).2 := by
  have hkept := keeps_onStore (BookmarkStore.ensures_createRecord guid).keeps client h
  have hstore : ∃ cache, ((BookmarkStore.createRecord guid).result client.store).2 =
      { client.store with cache } ∧
      (client.store.Coherent → { client.store with cache }.Coherent) := by
    cases hcached : client.store.cached? guid with
    | some record =>
        refine ⟨client.store.cache, ?_, id⟩
        rw [BookmarkStore.createRecord, result_bind, result_read, hcached]
        rfl
    | none =>
        by_cases hroot : client.store.tree.idOfGuid? guid = some RootId.places
        · obtain ⟨cause, hfail⟩ :=
            BookmarkStore.result_createRecord_places h.store.tree hroot hcached
          exact ⟨client.store.cache, congrArg Prod.snd hfail, id⟩
        · obtain ⟨record, -, -, hmake⟩ := BookmarkStore.exists_newRecord h.store.tree hroot
          have hresult := hmake client.store.cache hcached
          refine ⟨_, congrArg Prod.snd hresult, fun hcoherent => ?_⟩
          refine hcoherent.remember (fun htells => ?_) rfl rfl
          exact BookmarkStore.eq_answer_of_result h.store.tree hcoherent htells hresult
  obtain ⟨cache, hstore, hcoherent⟩ := hstore
  have hnext : ((fromStore (BookmarkStore.createRecord guid)).result client).2 =
      { client with store := { client.store with cache } } := by
    rw [result_fromStore, hstore]
    exact deliver_of_heard h.heard
  have hsame : ((onStore (BookmarkStore.createRecord guid)).result client).2 =
      ((fromStore (BookmarkStore.createRecord guid)).result client).2 := rfl
  rw [hsame, hnext] at hkept
  rw [hnext]
  exact ⟨hkept, rfl, rfl, rfl, rfl, hcoherent⟩

theorem quiet_sealItem {client : Client} (h : client.WellFormed) (keys : KeyBundle)
    (guid : String) : client.Quiet ((sealItem keys guid).result client).2 := by
  have hmade := quiet_createRecord h guid
  rw [sealItem, Faults.createRecord_never]
  rcases hresult : (fromStore (BookmarkStore.createRecord guid)).result client with
    ⟨outcome, made⟩
  rw [hresult] at hmade
  cases outcome with
  | error cause =>
      rw [result_bind_of_error hresult]
      exact hmade
  | ok record =>
      have hcounted : client.Quiet { made with sealings := made.sealings + 1 } :=
        ⟨⟨hmade.wellFormed.store, hmade.wellFormed.heard, hmade.wellFormed.tracker⟩, hmade.tree,
          hmade.generators, hmade.tracker, hmade.collection, hmade.coherent⟩
      rw [result_bind_of_ok hresult, result_bind_of_ok (result_read _ _),
        result_bind_of_ok (result_change _ _)]
      cases keys.sealPayload made.nextIv (Bytes.ofText record.text) with
      | ok envelope => exact hcounted
      | error cause => exact hcounted

theorem quiet_sealAll {client : Client} (h : client.WellFormed) (keys : KeyBundle)
    (guids : List String) : client.Quiet (client.sealAll keys guids).2 := by
  induction guids generalizing client with
  | nil => exact ⟨h, rfl, rfl, rfl, rfl, id⟩
  | cons guid guids ih =>
      have hone := quiet_sealItem h keys guid
      rw [sealAll]
      generalize (sealItem keys guid).result client = first at hone
      obtain ⟨outcome, next⟩ := first
      cases outcome <;> exact hone.trans (ih hone.wellFormed)

theorem sealItem_spec {client : Client} (h : client.WellFormed) {keys : KeyBundle}
    (hkeys : keys.encryptionKey.length = Aead.keyLength) {guid : String}
    (hroot : client.tree.idOfGuid? guid ≠ some RootId.places)
    (hcached : client.store.cached? guid = none) :
    ∃ record stored, client.store.newRecord guid = .ok record ∧ stored.id = guid ∧
      stored.openRecord keys = .ok record ∧ (sealItem keys guid).result client = (.ok stored,
        { client with
          store := client.store.remember guid record
          sealings := client.sealings + 1 }) := by
  obtain ⟨record, hid, hnew, hmake⟩ := BookmarkStore.exists_newRecord h.store.tree hroot
  have hremembered : ({ client with store := client.store.remember guid record }).deliver =
      { client with store := client.store.remember guid record } :=
    deliver_of_heard h.heard
  have hrecord : (fromStore (BookmarkStore.createRecord guid)).result client =
      (.ok record, { client with store := client.store.remember guid record }) := by
    rw [result_fromStore, hmake client.store.cache hcached]
    exact congrArg (Prod.mk (Except.ok record)) hremembered
  obtain ⟨envelope, hseal, hopen⟩ := KeyBundle.openPayload_sealPayload hkeys
    (Bytes.length_ofNat Aead.ivLength client.sealings) (Bytes.ofText record.text)
  refine ⟨record, StoredRecord.ofRecord record envelope, hnew, hid,
    StoredRecord.openRecord_ofRecord record hopen Binary64.zero, ?_⟩
  have hiv : ({ client with store := client.store.remember guid record }).nextIv =
      Bytes.ofNat Aead.ivLength client.sealings := rfl
  rw [sealItem, Faults.createRecord_never, result_bind_of_ok hrecord, result_bind_of_ok (result_read _ _),
    result_bind_of_ok (result_change _ _), hiv, hseal]
  rfl

/-- The topmost root cannot be sealed. -/
theorem sealItem_places {client : Client} (h : client.WellFormed) (keys : KeyBundle) {guid : String}
    (hroot : client.tree.idOfGuid? guid = some RootId.places)
    (hcached : client.store.cached? guid = none) :
    ∃ cause, (sealItem keys guid).result client = (.error cause, client) := by
  obtain ⟨cause, hfail⟩ := BookmarkStore.result_createRecord_places h.store.tree hroot hcached
  have hunmade : (fromStore (BookmarkStore.createRecord guid)).result client =
      (.error (.store cause), client) := by
    rw [result_fromStore, hfail]
    exact congrArg (Prod.mk (Except.error _)) (deliver_of_heard h.heard)
  exact ⟨.store cause, result_bind_of_error hunmade _⟩

/-- The records that go out for items: one of each but of the topmost root, as the tree has it. -/
structure Sealed (keys : KeyBundle) (guids : List String) (client : Client)
    (outgoing : List StoredRecord) : Prop where
  ids : outgoing.map (·.id) =
    guids.filter fun guid => decide (client.tree.idOfGuid? guid ≠ some RootId.places)
  opens : ∀ stored ∈ outgoing, ∃ record, stored.openRecord keys = .ok record ∧
    client.store.newRecord stored.id = .ok record

theorem sealed_sealAll {client : Client} (h : client.WellFormed) {keys : KeyBundle}
    (hkeys : keys.encryptionKey.length = Aead.keyLength) {guids : List String}
    (hnodup : guids.Nodup) (hcached : ∀ guid ∈ guids, client.store.cached? guid = none) :
    Sealed keys guids client (client.sealAll keys guids).1 := by
  induction guids generalizing client with
  | nil => exact ⟨rfl, fun _ hmem => by cases hmem⟩
  | cons guid guids ih =>
      obtain ⟨hfresh, hnodup⟩ := List.nodup_cons.mp hnodup
      have hquiet := quiet_sealItem h keys guid
      rw [sealAll]
      by_cases hroot : client.tree.idOfGuid? guid = some RootId.places
      · obtain ⟨cause, hfail⟩ := sealItem_places h keys hroot (hcached guid (by simp))
        rw [hfail]
        dsimp only
        have hrest := ih h hnodup fun other hother => hcached other (by simp [hother])
        refine ⟨?_, hrest.opens⟩
        rw [hrest.ids, List.filter_cons_of_neg (by simp [hroot])]
      · obtain ⟨record, stored, hnew, hid, hopen, hseal⟩ := sealItem_spec h hkeys hroot
          (hcached guid (by simp))
        rw [hseal] at hquiet ⊢
        dsimp only
        -- Only the item's own record has come into the cache.
        have hstill : ∀ other ∈ guids,
            (client.store.remember guid record).cached? other = none := by
          intro other hother
          have hapart : other ≠ guid := fun heq => hfresh (heq ▸ hother)
          rw [BookmarkStore.cached?_remember, if_neg hapart]
          exact hcached other (by simp [hother])
        have hrest := ih hquiet.wellFormed hnodup hstill
        refine ⟨?_, ?_⟩
        · rw [List.filter_cons_of_pos (by simp [hroot]), List.map_cons, hid, hrest.ids]
          rfl
        · intro other hother
          rcases List.mem_cons.mp hother with rfl | hother
          · exact ⟨record, hopen, by rw [hid, hnew]⟩
          · exact hrest.opens other hother

/-! ### Ending -/

/-- A client whose pass got through. -/
structure Finished (client : Client) (latest : Timestamp) (next : Client) : Prop where
  wellFormed : next.WellFormed
  tree : next.tree = client.tree
  changed : next.tracker.changed = client.tracker.changed
  ignored : next.tracker.ignored = client.tracker.ignored
  suppressed : next.tracker.suppressed = client.tracker.suppressed
  lastSync : next.lastSync = latest
  collection : next.collection = client.collection
  coherent : client.store.Coherent → next.store.Coherent

theorem finishPass_spec {client : Client} (h : client.WellFormed) (since : Timestamp)
    (progress : Progress) (uploaded : Nat) (time : Timestamp) :
    ∃ next, client.finishPass since progress uploaded time =
        (.finished (.ok { progress.summary with uploaded }), next) ∧
      client.Finished (max (max progress.newest time) since) next := by
  refine ⟨_, rfl, ?_⟩
  have hset : ((client.setLastSync (max (max progress.newest time) since)).onTracker
      (·.resetScore)).WellFormed :=
    ⟨h.store, h.heard, ⟨h.tracker.changed, h.tracker.journal⟩⟩
  have hquiet := quiet_endBatch hset
  exact
    { wellFormed := hquiet.wellFormed
      tree := hquiet.tree
      changed := by
        rw [hquiet.tracker]
        rfl
      ignored := by
        rw [hquiet.tracker]
        rfl
      suppressed := by
        rw [hquiet.tracker]
        rfl
      lastSync := hquiet.lastSync.trans (client.tracker.ledger.lastSync_setLastSync _ _)
      collection := hquiet.collection
      coherent := hquiet.coherent }

theorem failPass_spec {client : Client} (h : client.WellFormed) (cause : SyncError) :
    ∃ next, client.failPass cause = (.finished (.error cause), next) ∧ client.Quiet next :=
  ⟨_, rfl, quiet_endBatch h⟩

/-! ### Taking answers -/

theorem takeFetched_error {client : Client} (h : client.WellFormed) (keys : KeyBundle)
    (since : Timestamp) (cause : StorageError) :
    ∃ next, client.takeFetched keys since (.error cause) =
        (.finished (.error (.storage cause)), next) ∧
      (client.onTracker (·.suppress false)).Quiet next := by
  have hlistening : (client.onTracker (·.suppress false)).WellFormed :=
    ⟨h.store, h.heard, sound_suppress h.tracker false⟩
  exact failPass_spec hlistening (.storage cause)

/-- What a pass knows of the records that it has been given. -/
structure Received (since : Timestamp) (records : List StoredRecord) (progress : Progress) :
    Prop where
  counted : progress.summary.applied + progress.summary.failed = records.length
  newest : ∀ bound, progress.newest ≤ bound ↔
    since ≤ bound ∧ ∀ stored ∈ records, stored.modified ≤ bound

/-- What a client sends of the items that have changed, once the records of an answer are
applied. -/
def outgoing (keys : KeyBundle) (since : Timestamp) (records : List StoredRecord)
    (client : Client) (faults : Faults := .never) : List StoredRecord :=
  let ready := client.settled keys since records faults
  (ready.sealAll keys ready.tracker.changed faults).1

/-- Progress, once it is known how many orphans have moved. -/
def withMoved (moved : Nat) (progress : Progress) : Progress :=
  { progress with summary := { progress.summary with reparented := moved } }

/-- What becomes of records that are fetched. -/
theorem takeFetched_eq {client : Client} {keys : KeyBundle} {since : Timestamp}
    {records : List StoredRecord} {moved : Nat} {faults : Faults}
    (hmoved : ((fromStore faults.reparentOrphans).result
      (client.receiveAll keys ⟨{}, since⟩ records faults).2).1 = .ok moved) :
    client.takeFetched keys since (.ok records) faults =
      let progress := withMoved moved (client.receiveAll keys ⟨{}, since⟩ records faults).1
      let ready := client.settled keys since records faults
      let next := (ready.sealAll keys ready.tracker.changed faults).2
      let outgoing := client.outgoing keys since records faults
      if outgoing.isEmpty then next.finishPass since progress 0 Binary64.zero faults
      else (.uploading since progress outgoing, next) := by
  rw [outgoing, takeFetched, settled]
  dsimp only
  rw [hmoved]
  rfl

theorem takeFetched_ok {client : Client} (h : client.WellFormed)
    (hdeaf : client.tracker.suppressed = true) (keys : KeyBundle) (since : Timestamp)
    (records : List StoredRecord) :
    ∃ progress next, Received since records progress ∧
      (client.settled keys since records).Quiet next ∧
      client.takeFetched keys since (.ok records) =
        if (client.outgoing keys since records).isEmpty
        then next.finishPass since progress 0 Binary64.zero
        else (.uploading since progress (client.outgoing keys since records), next) := by
  have happlied := receiveAll_spec h hdeaf keys ⟨{}, since⟩ records
  obtain ⟨hsettled, moved, hmoved⟩ := settled_spec h hdeaf keys since records
  exact ⟨withMoved moved _, _, ⟨happlied.counted.trans (Nat.zero_add _), happlied.newest⟩,
    quiet_sealAll hsettled.wellFormed keys _, takeFetched_eq hmoved⟩

theorem sealed_outgoing {client : Client} (h : client.WellFormed)
    (hdeaf : client.tracker.suppressed = true) (hcache : client.store.cache = [])
    {keys : KeyBundle} (hkeys : keys.encryptionKey.length = Aead.keyLength) (since : Timestamp)
    (records : List StoredRecord) :
    Sealed keys (client.settled keys since records).tracker.changed
      (client.settled keys since records) (client.outgoing keys since records) := by
  have hsettled := (settled_spec h hdeaf keys since records).1
  refine sealed_sealAll hsettled.wellFormed hkeys hsettled.wellFormed.tracker.changed ?_
  intro guid _
  have hempty : (client.settled keys since records).store.cache = [] :=
    List.subset_nil.mp (hcache ▸ hsettled.cache)
  rw [BookmarkStore.cached?, hempty]
  rfl

theorem takeUploaded_error {client : Client} (h : client.WellFormed) (since : Timestamp)
    (progress : Progress) (cause : StorageError) :
    ∃ next, client.takeUploaded since progress (.error cause) =
        (.finished (.error (.storage cause)), next) ∧ client.Quiet next :=
  failPass_spec h (.storage cause)

theorem takeUploaded_ok {client : Client} (h : client.WellFormed) (since : Timestamp)
    (progress : Progress) (result : UploadResult) :
    ∃ next, client.takeUploaded since progress (.ok result) =
        (.finished (.ok { progress.summary with uploaded := result.success.length }), next) ∧
      (client.onTracker (·.removeAll result.success)).Finished
        (max (max progress.newest result.modified) since) next := by
  have hcleared : (client.onTracker (·.removeAll result.success)).WellFormed :=
    ⟨h.store, h.heard, (client.tracker.marks_removeAll _).sound h.tracker⟩
  exact finishPass_spec hcleared since progress result.success.length result.modified

end Client

end SyncedBookmarks

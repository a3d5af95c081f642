import SyncedBookmarks.Proofs.ClientRuns

namespace SyncedBookmarks

/-! A ledger lists the changed items of the tracker that writes to it, whatever is done to the
client and wherever a start falls, and its rows of other collections stay as they are. -/

/-! ### Rows -/

namespace Ledger

/-- The rows of all collections but one. -/
def elsewhere (ledger : Ledger) (collection : String) : Ledger where
  times := ledger.times.filter (·.1 != collection)
  changes := ledger.changes.filter (·.1 != collection)

variable (ledger : Ledger) (collection guid : String)

theorem mem_changesOf {ledger : Ledger} {collection guid : String} :
    guid ∈ ledger.changesOf collection ↔ (collection, guid) ∈ ledger.changes := by
  simp [changesOf]

theorem changesOf_addChange {ledger : Ledger} {collection guid : String}
    (h : guid ∉ ledger.changesOf collection) :
    (ledger.addChange collection guid).changesOf collection =
      ledger.changesOf collection ++ [guid] := by
  rw [mem_changesOf] at h
  rw [addChange, if_neg (by simpa using h)]
  simp [changesOf]

theorem changesOf_removeChange :
    (ledger.removeChange collection guid).changesOf collection =
      (ledger.changesOf collection).filter (· != guid) := by
  rw [changesOf, changesOf, removeChange, List.filter_map, List.filter_filter, List.filter_filter]
  congr 1
  apply List.filter_congr
  rintro ⟨owner, other⟩ _
  rw [Bool.eq_iff_iff]
  simp only [Bool.and_eq_true, beq_iff_eq, bne_iff_ne, ne_eq, Prod.mk.injEq, Function.comp_apply]
  tauto

theorem elsewhere_addChange :
    (ledger.addChange collection guid).elsewhere collection = ledger.elsewhere collection := by
  rw [addChange]
  split
  · rfl
  · simp [elsewhere]

theorem elsewhere_removeChange :
    (ledger.removeChange collection guid).elsewhere collection = ledger.elsewhere collection := by
  have hrows : (ledger.removeChange collection guid).changes.filter (·.1 != collection) =
      ledger.changes.filter (·.1 != collection) := by
    rw [removeChange, List.filter_filter]
    apply List.filter_congr
    rintro ⟨owner, other⟩ _
    by_cases howner : owner = collection <;> simp [howner]
  rw [elsewhere, hrows]
  rfl

theorem elsewhere_clearChanges :
    (ledger.clearChanges collection).elsewhere collection = ledger.elsewhere collection := by
  simp [elsewhere, clearChanges, List.filter_filter]

theorem elsewhere_setLastSync (time : Timestamp) :
    (ledger.setLastSync collection time).elsewhere collection = ledger.elsewhere collection := by
  simp [elsewhere, setLastSync, List.filter_filter]

variable {collection} {other : String}

theorem changesOf_elsewhere (h : other ≠ collection) :
    (ledger.elsewhere collection).changesOf other = ledger.changesOf other := by
  rw [changesOf, changesOf, elsewhere, List.filter_filter]
  congr 1
  apply List.filter_congr
  rintro ⟨owner, guid⟩ _
  by_cases howner : owner = other <;> simp [howner, h]

theorem lastSync_elsewhere (h : other ≠ collection) :
    (ledger.elsewhere collection).lastSync other = ledger.lastSync other := by
  rw [lastSync, lastSync, elsewhere, List.find?_filter]
  congr 3
  funext entry
  by_cases howner : entry.1 = other <;> simp [howner, h]

end Ledger

/-! ### The tracker -/

/-- Whether the ledger of a tracker has its changed items as rows of a collection, and these rows of
the other collections. -/
structure Tracker.Journaled (collection : String) (others : Ledger) (tracker : Tracker) : Prop where
  journal : tracker.journal = some collection
  changes : tracker.ledger.changesOf collection = tracker.changed
  others : tracker.ledger.elsewhere collection = others

namespace Tracker

variable {collection : String} {others : Ledger} {tracker : Tracker}

theorem Journaled.add (h : tracker.Journaled collection others) (guid : String) :
    (tracker.add guid).2.Journaled collection others := by
  rw [Tracker.add]
  split
  · exact h
  · rename_i hnew
    rw [Bool.or_eq_true, List.contains_iff_mem, List.contains_iff_mem, not_or, ← h.changes] at hnew
    simp only [withJournal, h.journal]
    exact
      { journal := rfl
        changes := by rw [Ledger.changesOf_addChange hnew.2, h.changes]
        others := (tracker.ledger.elsewhere_addChange collection guid).trans h.others }

theorem Journaled.remove (h : tracker.Journaled collection others) (guid : String) :
    (tracker.remove guid).Journaled collection others := by
  rw [Tracker.remove]
  split
  · simp only [withJournal, h.journal]
    exact
      { journal := rfl
        changes := by rw [Ledger.changesOf_removeChange, h.changes]
        others := (tracker.ledger.elsewhere_removeChange collection guid).trans h.others }
  · exact h

theorem Journaled.clear (h : tracker.Journaled collection others) :
    tracker.clear.Journaled collection others := by
  simp only [Tracker.clear, withJournal, h.journal]
  exact
    { journal := rfl
      changes := tracker.ledger.changesOf_clearChanges collection
      others := (tracker.ledger.elsewhere_clearChanges collection).trans h.others }

theorem Journaled.setLastSync (h : tracker.Journaled collection others) (time : Timestamp) :
    { tracker with ledger := tracker.ledger.setLastSync collection time }.Journaled collection
      others :=
  ⟨h.journal, h.changes, (tracker.ledger.elsewhere_setLastSync collection time).trans h.others⟩

theorem Journaled.ignore (h : tracker.Journaled collection others) (guid : String) :
    (tracker.ignore guid).Journaled collection others := by
  rw [Tracker.ignore]
  split <;> exact ⟨h.journal, h.changes, h.others⟩

theorem Journaled.resume (h : tracker.Journaled collection others) :
    (Tracker.resume (some collection) tracker.ledger).Journaled collection others :=
  ⟨rfl, rfl, h.others⟩

theorem Journaled.foldl {step : Tracker → α → Tracker}
    (hstep : ∀ tracker : Tracker, tracker.Journaled collection others → ∀ x,
      (step tracker x).Journaled collection others)
    (h : tracker.Journaled collection others) (xs : List α) :
    (xs.foldl step tracker).Journaled collection others := by
  induction xs generalizing tracker with
  | nil => exact h
  | cons x xs ih => exact ih (hstep tracker h x)

theorem Journaled.addAll (h : tracker.Journaled collection others) (guids : List String) :
    (tracker.addAll guids).Journaled collection others :=
  Journaled.foldl (fun _ => Journaled.add) h guids

theorem Journaled.removeAll (h : tracker.Journaled collection others) (guids : List String) :
    (tracker.removeAll guids).Journaled collection others :=
  Journaled.foldl (fun _ => Journaled.remove) h guids

theorem Journaled.touch (h : tracker.Journaled collection others) (tree : Tree) (id : Int) :
    (tracker.touch tree id).Journaled collection others := by
  cases hguid : tree.guidOf? id with
  | none =>
      rw [Tracker.touch, hguid]
      exact h
  | some guid =>
      obtain ⟨score, htouch⟩ := touch_eq hguid tracker
      have hadd := h.add guid
      rw [htouch]
      exact ⟨hadd.journal, hadd.changes, hadd.others⟩

theorem Journaled.hear (h : tracker.Journaled collection others) (notice : Notice) :
    (tracker.hear notice).Journaled collection others := by
  rw [Tracker.hear]
  cases notice.event with
  | batchBegun => exact h
  | batchEnded => exact h
  | _ =>
      dsimp only
      split
      · exact h
      · exact h.touch _ _

theorem Journaled.hearAll (h : tracker.Journaled collection others) (notices : List Notice) :
    (tracker.hearAll notices).Journaled collection others :=
  Journaled.foldl (fun _ => Journaled.hear) h notices

end Tracker

/-! ### The client -/

/-- Whether a client of a collection keeps its changes as rows of it, with these rows of the other
collections beside them. -/
structure Client.Journaled (collection : String) (others : Ledger) (client : Client) : Prop where
  owner : client.collection = collection
  tracker : client.tracker.Journaled collection others

namespace Client

open SyncedBookmarks.Action

variable {collection : String} {others : Ledger} {client : Client}

theorem Journaled.onTracker (h : client.Journaled collection others) (step : Tracker → Tracker)
    (hstep : (step client.tracker).Journaled collection others) :
    (client.onTracker step).Journaled collection others :=
  ⟨h.owner, hstep⟩

theorem Journaled.setLastSync (h : client.Journaled collection others) (time : Timestamp) :
    (client.setLastSync time).Journaled collection others := by
  obtain ⟨rfl, htracker⟩ := h
  exact ⟨rfl, htracker.setLastSync time⟩

theorem Journaled.suppress (h : client.Journaled collection others) (suppressed : Bool) :
    (client.onTracker (·.suppress suppressed)).Journaled collection others :=
  h.onTracker _ ⟨h.tracker.journal, h.tracker.changes, h.tracker.others⟩

theorem Journaled.resetScore (h : client.Journaled collection others) :
    (client.onTracker (·.resetScore)).Journaled collection others :=
  h.onTracker _ ⟨h.tracker.journal, h.tracker.changes, h.tracker.others⟩

/-- Whatever has been told, the tracker writes down what it makes of it. -/
theorem Journaled.deliver (h : client.Journaled collection others) (store : BookmarkStore) :
    ({ client with store }).deliver.Journaled collection others :=
  ⟨h.owner, h.tracker.hearAll _⟩

theorem keeps_journaled_onStore (action : StoreAction α) :
    (onStore action).Keeps (Journaled collection others) :=
  fun _ h => h.deliver _

theorem keeps_journaled_fromStore (action : StoreAction α) :
    (fromStore action).Keeps (Journaled collection others) :=
  fun _ h => h.deliver _

theorem Journaled.startPass (h : client.Journaled collection others) :
    client.startPass.2.Journaled collection others := by
  have hopened : client.clearCache.beginBatch.Journaled collection others := h.deliver _
  have hmarked : (markAll.result client.clearCache.beginBatch).2.Journaled collection others := by
    refine (keeps_journaled_fromStore _).bind (fun guids opened hkept => ?_) _ hopened
    exact hkept.onTracker (·.addAll guids) (hkept.tracker.addAll guids)
  rw [Client.startPass]
  dsimp only
  rw [readLastSync_never]
  dsimp only
  by_cases hfirst : client.clearCache.beginBatch.lastSync ≤ Binary64.zero
  · rw [if_pos hfirst]
    generalize markAll.result client.clearCache.beginBatch = marked at hmarked
    obtain ⟨outcome, marked⟩ := marked
    cases outcome with
    | ok done => exact hmarked.suppress true
    | error cause => exact hmarked.deliver _
  · rw [if_neg hfirst]
    exact hopened.suppress true

theorem Journaled.receiveOne (h : client.Journaled collection others) (keys : KeyBundle)
    (progress : Progress) (stored : StoredRecord) :
    (client.receiveOne keys progress stored).2.Journaled collection others := by
  cases hopen : stored.openRecord keys with
  | error cause =>
      rw [Client.receiveOne, hopen]
      exact h
  | ok record =>
      rw [receiveOne_of_opened hopen]
      exact keeps_journaled_onStore _ _ (h.onTracker _ (h.tracker.remove record.id))

theorem Journaled.receiveAll (h : client.Journaled collection others) (keys : KeyBundle)
    (progress : Progress) (records : List StoredRecord) :
    (client.receiveAll keys progress records).2.Journaled collection others := by
  induction records generalizing client progress with
  | nil => exact h
  | cons stored records ih => exact ih (h.receiveOne keys progress stored) _

theorem keeps_journaled_sealItem (keys : KeyBundle) (guid : String) :
    (sealItem keys guid).Keeps (Journaled collection others) := by
  refine (keeps_journaled_fromStore _).bind fun record => ?_
  refine (keeps_read _ _).bind fun iv => ?_
  refine Keeps.bind (fun client h => ⟨h.owner, h.tracker⟩) fun _ => ?_
  split
  · exact keeps_pure _ _
  · exact keeps_throw _ _

theorem Journaled.sealAll (h : client.Journaled collection others) (keys : KeyBundle)
    (guids : List String) : (client.sealAll keys guids).2.Journaled collection others := by
  induction guids generalizing client with
  | nil => exact h
  | cons guid guids ih =>
      have hone := keeps_journaled_sealItem keys guid client h
      rw [Client.sealAll]
      generalize (sealItem keys guid).result client = first at hone
      obtain ⟨outcome, next⟩ := first
      cases outcome <;> exact ih hone

theorem Journaled.finishPass (h : client.Journaled collection others) (since : Timestamp)
    (progress : Progress) (uploaded : Nat) (time : Timestamp) :
    (client.finishPass since progress uploaded time).2.Journaled collection others :=
  (h.setLastSync _).resetScore.deliver _

theorem Journaled.takeFetched (h : client.Journaled collection others) (keys : KeyBundle)
    (since : Timestamp) (answer : Except StorageError (List StoredRecord)) :
    (client.takeFetched keys since answer).2.Journaled collection others := by
  cases answer with
  | error cause => exact (h.suppress false).deliver _
  | ok records =>
      have hreceived := h.receiveAll keys ⟨{}, since⟩ records
      have hmoved := keeps_journaled_fromStore BookmarkStore.reparentOrphans _ hreceived
      rw [Client.takeFetched]
      dsimp only
      split
      · exact (hmoved.suppress false).deliver _
      · have hsealed := (hmoved.suppress false).sealAll keys
        split
        · exact (hsealed _).finishPass _ _ _ _
        · exact hsealed _

theorem Journaled.takeUploaded (h : client.Journaled collection others) (since : Timestamp)
    (progress : Progress) (answer : Except StorageError UploadResult) :
    (client.takeUploaded since progress answer).2.Journaled collection others := by
  cases answer with
  | error cause => exact h.deliver _
  | ok result => exact (h.onTracker _ (h.tracker.removeAll result.success)).finishPass _ _ _ _

theorem Journaled.advance (h : client.Journaled collection others) (storage : Storage σ)
    (keys : KeyBundle) (pass : Pass) (state : σ) :
    (client.advance storage keys pass state).2.1.Journaled collection others := by
  cases pass with
  | fetching since => exact h.takeFetched keys since _
  | uploading since progress records => exact h.takeUploaded since progress _
  | finished outcome => exact h

theorem Journaled.sync (h : client.Journaled collection others) (storage : Storage σ)
    (keys : KeyBundle) (state : σ) :
    (client.sync storage keys state).2.1.Journaled collection others := by
  have hlast := (h.startPass.advance storage keys client.startPass.1 state).advance storage keys
    (client.startPass.2.advance storage keys client.startPass.1 state).1
    (client.startPass.2.advance storage keys client.startPass.1 state).2.2
  rw [Client.sync]
  dsimp only
  split <;> exact hlast

theorem Journaled.wipeClient (h : client.Journaled collection others) :
    client.wipeClient.2.Journaled collection others := by
  have hopened : (client.onTracker (·.suppress true)).beginBatch.Journaled collection others :=
    (h.suppress true).deliver _
  have hwiped := keeps_journaled_fromStore BookmarkStore.wipe _ hopened
  rw [Client.wipeClient, Faults.wipe_never]
  dsimp only
  generalize (fromStore BookmarkStore.wipe).result _ = last at hwiped ⊢
  obtain ⟨outcome, wiped⟩ := last
  have hclosed : (wiped.endBatch.onTracker (·.suppress false)).Journaled collection others :=
    Journaled.suppress (hwiped.deliver _) false
  cases outcome with
  | error cause => exact hclosed
  | ok done =>
      have hcleared := hclosed.tracker.clear
      refine Journaled.setLastSync (hclosed.onTracker _ ?_) Binary64.zero
      exact ⟨hcleared.journal, hcleared.changes, hcleared.others⟩

theorem Journaled.resume (h : client.Journaled collection others) :
    (client.onTracker fun tracker => Tracker.resume (some client.collection)
      tracker.ledger).Journaled collection others := by
  obtain ⟨rfl, htracker⟩ := h
  exact ⟨rfl, htracker.resume⟩

end Client

theorem LocalCall.journaled_run {collection : String} {others : Ledger} {client : Client}
    (h : client.Journaled collection others) {call : LocalCall} (hcall : call ≠ .resume false) :
    (run client call).Journaled collection others := by
  cases call with
  | store call => exact Client.keeps_journaled_onStore call.action client h
  | beginBatch => exact h.deliver _
  | endBatch => exact h.deliver _
  | mark guid => exact h.onTracker (fun tracker => (tracker.add guid).2) (h.tracker.add guid)
  | unmark guid => exact h.onTracker (·.remove guid) (h.tracker.remove guid)
  | unmarkAll => exact h.onTracker (·.clear) h.tracker.clear
  | ignore guid => exact h.onTracker (·.ignore guid) (h.tracker.ignore guid)
  | unignore guid =>
      exact h.onTracker (·.unignore guid) ⟨h.tracker.journal, h.tracker.changes, h.tracker.others⟩
  | suppress suppressed => exact h.suppress suppressed
  | resetScore => exact h.resetScore
  | wipe => exact h.wipeClient
  | resume journaled =>
      cases journaled with
      | false => exact absurd rfl hcall
      | true => exact ⟨h.owner, h.resume.tracker⟩

theorem ClientCall.journaled_run {collection : String} {others : Ledger} {client : Client}
    (h : client.Journaled collection others) {call : ClientCall}
    (hcall : call ≠ .locally (.resume false)) : (run client call).Journaled collection others := by
  cases call with
  | locally call => exact LocalCall.journaled_run h fun hresume => hcall (congrArg _ hresume)
  | setLastSync time => exact h.setLastSync time
  | sync keys fetched uploaded => exact h.sync _ keys ()

/-! ### Runs -/

/-- What may be done to a client that keeps its changes. A pass may also be gone through stretch by
stretch, with other calls in between or without its end. -/
inductive JournaledCall where
  | usual (call : ClientCall) (h : call ≠ .locally (.resume false))
  | startPass
  | takeFetched (keys : KeyBundle) (since : Timestamp)
      (answer : Except StorageError (List StoredRecord))
  | takeUploaded (since : Timestamp) (progress : Progress)
      (answer : Except StorageError UploadResult)
  /-- The tracker is built anew over what is kept. -/
  | rebuild

namespace JournaledCall

def run (client : Client) : JournaledCall → Client
  | usual call _ => call.run client
  | startPass => client.startPass.2
  | takeFetched keys since answer => (client.takeFetched keys since answer).2
  | takeUploaded since progress answer => (client.takeUploaded since progress answer).2
  | rebuild =>
      client.onTracker fun tracker => Tracker.resume (some client.collection) tracker.ledger

def runAll (client : Client) (calls : List JournaledCall) : Client :=
  calls.foldl run client

theorem journaled_run {collection : String} {others : Ledger} {client : Client}
    (h : client.Journaled collection others) (call : JournaledCall) :
    (run client call).Journaled collection others := by
  cases call with
  | usual call hcall => exact ClientCall.journaled_run h hcall
  | startPass => exact h.startPass
  | takeFetched keys since answer => exact h.takeFetched keys since answer
  | takeUploaded since progress answer => exact h.takeUploaded since progress answer
  | rebuild => exact h.resume

theorem journaled_runAll {collection : String} {others : Ledger} {client : Client}
    (h : client.Journaled collection others) (calls : List JournaledCall) :
    (runAll client calls).Journaled collection others := by
  induction calls generalizing client with
  | nil => exact h
  | cons call calls ih => exact ih (journaled_run h call)

/-- After every call the rows of a client's collection are its changed items, so that a tracker that
is built from them has the same, and the rows of every other collection are as they were. -/
theorem rows_runAll (collection : String) (generators : Option (List String)) (tree : Tree)
    (ledger : Ledger) (calls : List JournaledCall) :
    let tracker := (runAll (Client.resume collection generators true tree ledger) calls).tracker
    tracker.ledger.changesOf collection = tracker.changed ∧
      (Tracker.resume (some collection) tracker.ledger).changed = tracker.changed ∧
      (Tracker.resume (some collection) tracker.ledger).score = 0 ∧
      ∀ other, other ≠ collection →
        tracker.ledger.changesOf other = ledger.changesOf other ∧
        tracker.ledger.lastSync other = ledger.lastSync other := by
  have hstart : (Client.resume collection generators true tree ledger).Journaled collection
      (ledger.elsewhere collection) := ⟨rfl, rfl, rfl, rfl⟩
  intro tracker
  have hlast : tracker.Journaled collection (ledger.elsewhere collection) :=
    (journaled_runAll hstart calls).tracker
  refine ⟨hlast.changes, hlast.changes, rfl, ?_⟩
  intro other hother
  rw [← tracker.ledger.changesOf_elsewhere hother, ← tracker.ledger.lastSync_elsewhere hother,
    hlast.others]
  exact ⟨ledger.changesOf_elsewhere hother, ledger.lastSync_elsewhere hother⟩

/-- A folder is made, the tracker is built anew, and another item is marked. -/
def rebuilding : List JournaledCall :=
  [.usual (.locally (.store (.mutate (.createFolder RootId.menu "X" Places.atEnd)))) nofun,
    .rebuild, .usual (.locally (.mark "y")) nofun]

/-- A ledger that is in use for another collection. -/
def shared : Ledger :=
  { times := [("history", Binary64.ofNat 5)], changes := [("history", "page")] }

theorem rows_rebuilding :
    let tracker := (runAll (Client.resume "bookmarks" none true (Tree.fresh .numbered) shared)
      rebuilding).tracker
    tracker.changed = ["~6\x00", "y"] ∧ tracker.ledger.changesOf "bookmarks" = ["~6\x00", "y"] ∧
      "history" ≠ "bookmarks" ∧ tracker.ledger.changesOf "history" = ["page"] := by
  intro tracker
  have hchanged : tracker.changed = ["~6\x00", "y"] := by decide +kernel
  have hother : "history" ≠ "bookmarks" := by decide
  obtain ⟨hrows, -, -, helse⟩ :=
    rows_runAll "bookmarks" none (Tree.fresh .numbered) shared rebuilding
  exact ⟨hchanged, hrows.trans hchanged, hother, (helse "history" hother).1⟩

end JournaledCall

end SyncedBookmarks

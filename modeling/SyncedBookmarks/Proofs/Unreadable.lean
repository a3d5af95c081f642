import SyncedBookmarks.Proofs.Accounting

namespace SyncedBookmarks

/-! Stored records that cannot be opened do nothing to a pass but count as failures, and make the
time that it ends at no earlier. -/

/-- A summary with so many failures more. -/
def Summary.failing (extra : Nat) (summary : Summary) : Summary :=
  { summary with failed := summary.failed + extra }

theorem Summary.failing_failing (summary : Summary) (extra more : Nat) :
    (summary.failing extra).failing more = summary.failing (extra + more) := by
  rw [failing, failing, failing, Nat.add_assoc]

/-- Whether the second of two passes has got as far as the first, with so many failures more and
with a time no earlier. -/
structure Progress.Alike (extra : Nat) (first second : Progress) : Prop where
  summary : second.summary = first.summary.failing extra
  newest : first.newest ≤ second.newest

/-- The second list is the first with so many records put in, anywhere, that cannot be opened. -/
inductive Padded (keys : KeyBundle) : Nat → List StoredRecord → List StoredRecord → Prop where
  | nil : Padded keys 0 [] []
  | keep {inserted : Nat} {records padded : List StoredRecord} (stored : StoredRecord)
      (h : Padded keys inserted records padded) :
      Padded keys inserted (stored :: records) (stored :: padded)
  | insert {inserted : Nat} {records padded : List StoredRecord} {stored : StoredRecord}
      {cause : String} (hrejected : stored.openRecord keys = .error cause)
      (h : Padded keys inserted records padded) :
      Padded keys (inserted + 1) records (stored :: padded)

namespace Client

open SyncedBookmarks.Action

variable {keys : KeyBundle} {first second : Progress} {extra : Nat}

/-! ### Applying -/

theorem receiveOne_of_rejected {stored : StoredRecord} {cause : String}
    (h : stored.openRecord keys = .error cause) (progress : Progress) (client : Client) :
    client.receiveOne keys progress stored =
      (⟨progress.summary.failing 1, max progress.newest stored.modified⟩, client) := by
  rw [receiveOne, h]
  rfl

theorem receiveOne_alike (keys : KeyBundle) (h : first.Alike extra second) (stored : StoredRecord)
    (client : Client) :
    (client.receiveOne keys second stored).2 = (client.receiveOne keys first stored).2 ∧
      (client.receiveOne keys first stored).1.Alike extra
        (client.receiveOne keys second stored).1 := by
  have hnewest := Binary64.max_le_max h.newest stored.modified
  rw [receiveOne, receiveOne, h.summary]
  cases stored.openRecord keys with
  | error cause =>
      refine ⟨rfl, ?_, hnewest⟩
      simp only [Summary.failing, Nat.add_right_comm]
  | ok record =>
      dsimp only
      split
      · exact ⟨rfl, rfl, hnewest⟩
      · refine ⟨rfl, ?_, hnewest⟩
        simp only [Summary.failing, Nat.add_right_comm]

theorem receiveAll_cons (keys : KeyBundle) (progress : Progress) (stored : StoredRecord)
    (records : List StoredRecord) (client : Client) :
    client.receiveAll keys progress (stored :: records) =
      (client.receiveOne keys progress stored).2.receiveAll keys
        (client.receiveOne keys progress stored).1 records := rfl

/-- Applying a list of records with others put in leaves the same client. -/
theorem receiveAll_padded {inserted : Nat} {records padded : List StoredRecord}
    (h : Padded keys inserted records padded) (halike : first.Alike extra second)
    (client : Client) :
    (client.receiveAll keys second padded).2 = (client.receiveAll keys first records).2 ∧
      (client.receiveAll keys first records).1.Alike (extra + inserted)
        (client.receiveAll keys second padded).1 := by
  induction h generalizing first second extra client with
  | nil => exact ⟨rfl, halike⟩
  | keep stored h ih =>
      obtain ⟨hclient, hprogress⟩ := receiveOne_alike keys halike stored client
      rw [receiveAll_cons, receiveAll_cons, hclient]
      exact ih hprogress _
  | @insert inserted records padded stored cause hrejected h ih =>
      rw [receiveAll_cons, receiveOne_of_rejected hrejected]
      have hmore : first.Alike (extra + 1)
          ⟨second.summary.failing 1, max second.newest stored.modified⟩ := by
        refine ⟨?_, Binary64.le_trans halike.newest Binary64.le_max_left⟩
        rw [halike.summary, Summary.failing_failing]
      rw [Nat.add_comm inserted, ← Nat.add_assoc]
      exact ih hmore client

/-! ### Ending -/

/-- Whether two clients are the same in their trees, their trackers and all else, but for the times
of their last passes, with that of the second no earlier. -/
structure SameButTime (client other : Client) : Prop where
  same : ∀ time, other.setLastSync time = client.setLastSync time
  lastSync : client.lastSync ≤ other.lastSync

theorem SameButTime.refl (client : Client) : client.SameButTime client :=
  ⟨fun _ => rfl, Binary64.le_refl _⟩

/-- Whether two passes are over and have come to the same, but for so many failures more and for the
time of the second. -/
def Ended (extra : Nat) (first second : Pass × Client) : Prop :=
  ∃ outcome client other, first = (.finished outcome, client) ∧
    second = (.finished (outcome.map (·.failing extra)), other) ∧ client.SameButTime other

/-- The end of a batch does not meet what the tracker knows. -/
theorem endBatch_onTracker {client : Client} (h : client.WellFormed) (step : Tracker → Tracker) :
    (client.onTracker step).endBatch = client.endBatch.onTracker step := by
  have hsilent : ∀ tracker : Tracker,
      tracker.hearAll client.store.places.endBatch.notices = tracker := by
    intro tracker
    apply Tracker.hearAll_of_batch
    intro notice hnotice
    rw [Places.endBatch] at hnotice
    dsimp only at hnotice
    split at hnotice <;> simp_all [Places.told, h.heard]
  simp only [endBatch, onPlaces, onTracker, deliver, hsilent]

theorem finishPass_alike (h : first.Alike extra second) {client : Client}
    (hwell : client.WellFormed) (since : Timestamp) (uploaded : Nat) (time : Timestamp) :
    Ended extra (client.finishPass since first uploaded time)
      (client.finishPass since second uploaded time) := by
  have hsummary : { second.summary with uploaded } =
      ({ first.summary with uploaded } : Summary).failing extra := by
    rw [h.summary]
    rfl
  have hlater : max (max first.newest time) since ≤ max (max second.newest time) since :=
    Binary64.max_le_max (Binary64.max_le_max h.newest time) since
  have hended : ∀ latest, ((client.setLastSync latest).onTracker (·.resetScore)).endBatch =
      (client.endBatch.setLastSync latest).onTracker (·.resetScore) := by
    intro latest
    exact endBatch_onTracker hwell fun tracker =>
      ({ tracker with ledger := tracker.ledger.setLastSync client.collection latest }).resetScore
  rw [finishPass, finishPass]
  dsimp only
  rw [hsummary, hended, hended]
  refine ⟨.ok _, _, _, rfl, rfl, ?_, ?_⟩
  · intro time
    simp only [setLastSync, onTracker, Tracker.resetScore, Ledger.setLastSync_setLastSync]
  · have hset : ∀ latest, ((client.endBatch.setLastSync latest).onTracker
        (·.resetScore)).lastSync = latest := fun latest => Ledger.lastSync_setLastSync _ _ _
    rw [hset, hset]
    exact hlater

theorem takeUploaded_alike (h : first.Alike extra second) {client : Client}
    (hwell : client.WellFormed) (since : Timestamp) (answer : Except StorageError UploadResult) :
    Ended extra (client.takeUploaded since first answer)
      (client.takeUploaded since second answer) := by
  cases answer with
  | error cause => exact ⟨.error (.storage cause), _, _, rfl, rfl, SameButTime.refl _⟩
  | ok result =>
      refine finishPass_alike h ?_ since result.success.length result.modified
      exact ⟨hwell.store, hwell.heard, (client.tracker.marks_removeAll _).sound hwell.tracker⟩

theorem takeFetched_padded {client : Client} (h : client.WellFormed)
    (hdeaf : client.tracker.suppressed = true) (since : Timestamp) {inserted : Nat}
    {records padded : List StoredRecord} (hpadded : Padded keys inserted records padded) :
    Ended inserted (client.takeFetched keys since (.ok records))
        (client.takeFetched keys since (.ok padded)) ∨
      ∃ first second sent ready, first.Alike inserted second ∧ sent ≠ [] ∧
        client.takeFetched keys since (.ok records) = (.uploading since first sent, ready) ∧
        client.takeFetched keys since (.ok padded) = (.uploading since second sent, ready) ∧
        ready.WellFormed ∧ ready.collection = client.collection := by
  have hstart : Progress.Alike 0 ⟨{}, since⟩ ⟨{}, since⟩ := ⟨rfl, Binary64.le_refl _⟩
  obtain ⟨hclient, hprogress⟩ := receiveAll_padded hpadded hstart client
  obtain ⟨hsettled, moved, hmoved⟩ := settled_spec h hdeaf keys since records
  have hready := quiet_sealAll hsettled.wellFormed keys
    (client.settled keys since records).tracker.changed
  rw [Nat.zero_add] at hprogress
  rw [settled, Faults.reparentOrphans_never] at hready hsettled
  rw [takeFetched, takeFetched, Faults.reparentOrphans_never]
  generalize client.receiveAll keys ⟨{}, since⟩ records = received at *
  generalize client.receiveAll keys ⟨{}, since⟩ padded = received' at *
  obtain ⟨progress, received⟩ := received
  obtain ⟨progress', _⟩ := received'
  dsimp only at hclient
  subst hclient
  dsimp only
  rw [hmoved]
  dsimp only
  have hmore : Progress.Alike inserted
      { progress with summary := { progress.summary with reparented := moved } }
      { progress' with summary := { progress'.summary with reparented := moved } } := by
    refine ⟨?_, hprogress.newest⟩
    rw [hprogress.summary]
    rfl
  split
  · exact .inl (finishPass_alike hmore hready.wellFormed since 0 Binary64.zero)
  · rename_i hsome
    exact .inr ⟨_, _, _, _, hmore, by simpa using hsome, rfl, rfl, hready.wellFormed,
      hready.collection.trans hsettled.collection⟩

end Client

/-- What a storage comes to when it is sent records of a collection; without any it is not asked. -/
def Storage.sent (storage : Storage σ) (collection : String) (records : List StoredRecord)
    (state : σ) : σ :=
  if records.isEmpty then state else (storage.upload collection records state).2

namespace Client

/-- Two passes of the same client that get the same answers, but that the second is given other
records among its own that cannot be opened. Both send the same, and leave the same client up to
the time of the pass. -/
theorem sync_padded {client : Client} (h : client.WellFormed) {keys : KeyBundle} {inserted : Nat}
    {records padded : List StoredRecord} (hpadded : Padded keys inserted records padded)
    {storage : Storage σ} {storage' : Storage τ} {state fetched : σ} {state' fetched' : τ}
    (hfetch : storage.fetch client.collection client.lastSync state = (.ok records, fetched))
    (hfetch' : storage'.fetch client.collection client.lastSync state' = (.ok padded, fetched'))
    (hupload : ∀ sent, (storage'.upload client.collection sent fetched').1 =
      (storage.upload client.collection sent fetched).1) :
    ∃ outcome next next' sent,
      client.sync storage keys state =
        (outcome, next, storage.sent client.collection sent fetched) ∧
      client.sync storage' keys state' = (outcome.map (·.failing inserted), next',
        storage'.sent client.collection sent fetched') ∧
      next.SameButTime next' := by
  obtain ⟨hstart, hbegun⟩ := startPass_eq h
  have htaken := takeFetched_padded hbegun.wellFormed hbegun.deaf client.lastSync hpadded
  rw [sync, sync, hstart]
  dsimp only
  rcases htaken with ⟨outcome, next, next', hfirst, hsecond, hsame⟩ |
    ⟨first, second, sent, ready, halike, hsent, hfirst, hsecond, hwell, hready⟩
  · rw [advance_fetching hbegun.collection (congrArg Prod.fst hfetch) hfirst,
      advance_fetching hbegun.collection (congrArg Prod.fst hfetch') hsecond, hfetch, hfetch']
    exact ⟨outcome, next, next', [], rfl, rfl, hsame⟩
  · rw [advance_fetching hbegun.collection (congrArg Prod.fst hfetch) hfirst,
      advance_fetching hbegun.collection (congrArg Prod.fst hfetch') hsecond, hfetch, hfetch']
    dsimp only
    obtain ⟨outcome, next, next', hlast, hlast', hsame⟩ := takeUploaded_alike halike hwell
      client.lastSync (storage.upload client.collection sent fetched).1
    have hcollection := hready.trans hbegun.collection
    rw [advance_uploading hcollection rfl hlast,
      advance_uploading hcollection (hupload sent) hlast']
    refine ⟨outcome, next, next', sent, ?_, ?_, hsame⟩
    · rw [Storage.sent, if_neg (by simpa using hsent)]
    · rw [Storage.sent, if_neg (by simpa using hsent)]

/-- A stored record with a payload that is no JSON. -/
def garbage : StoredRecord := ⟨"g", Binary64.ofNat 7, "\x7b"⟩

def folder : Record :=
  { id := "a", parentid := some RootGuid.menu, kind := .folder, title := some "A" }

def separator : Record :=
  { id := "c", parentid := some "a", kind := .separator }

/-- A client that has an item to upload, and the time of an earlier pass. -/
def pending : Client :=
  ClientCall.runAll (fresh "bookmarks" none false GuidSource.numbered)
    [.setLastSync (Binary64.ofNat 1), .locally (.mark "b")]

/-- The client once it has taken up the folder and the separator. -/
def supplied : Client :=
  let opened := ((onStore (BookmarkStore.applyIncoming folder)).result
    (pending.begun.onTracker (·.remove folder.id))).2
  let filled := ((onStore (BookmarkStore.applyIncoming separator)).result
    (opened.onTracker (·.remove separator.id))).2
  ((fromStore BookmarkStore.reparentOrphans).result filled).2.onTracker (·.suppress false)

theorem wellFormed_pending : pending.WellFormed :=
  Reachable.wellFormed ⟨"bookmarks", none, false, .numbered, _, rfl⟩

section

variable {first second : StoredRecord} (hfirst : first.openRecord blankKeys = .ok folder)
  (hsecond : second.openRecord blankKeys = .ok separator)

include hfirst hsecond

theorem caughtUp_pending : pending.caughtUp blankKeys [first, second] = supplied := by
  rw [caughtUp, settled, receiveAll_cons, receiveAll_cons, receiveAll]
  dsimp only
  rw [receiveOne_of_opened hsecond, receiveOne_of_opened hfirst, Faults.reparentOrphans_never,
    supplied]

theorem ids_parcel_pending : (pending.parcel blankKeys [first, second]).map (·.id) = ["b"] := by
  rw [(sealed_parcel wellFormed_pending (by decide) [first, second]).ids,
    caughtUp_pending hfirst hsecond]
  decide +kernel

end

/-- A storage that gives some records, and keeps what it is sent. -/
def keeping (records : List StoredRecord) : Storage (List StoredRecord) where
  fetch _ _ kept := (.ok records, kept)
  upload _ sent kept :=
    (.ok { success := sent.map (·.id), modified := Binary64.ofNat 9 }, kept ++ sent)

theorem sent_keeping (records sent : List StoredRecord) (collection : String) :
    (keeping records).sent collection sent [] = sent := by
  rw [Storage.sent]
  split
  · rename_i hnone
    exact (List.isEmpty_iff.mp hnone).symm
  · exact List.nil_append sent

/-- A folder and a separator in it come among records that cannot be opened, and an item goes out. -/
theorem sync_garbage :
    ∃ first second : StoredRecord,
      first.openRecord blankKeys = .ok folder ∧ second.openRecord blankKeys = .ok separator ∧
      pending.WellFormed ∧
      Padded blankKeys 2 [first, second] [garbage, first, garbage, second] ∧
      ∃ summary next next' sent,
        pending.sync (keeping [first, second]) blankKeys [] = (.ok summary, next, sent) ∧
        pending.sync (keeping [garbage, first, garbage, second]) blankKeys [] =
          (.ok (summary.failing 2), next', sent) ∧
        next.SameButTime next' ∧ summary.uploaded = 1 ∧ sent.map (·.id) = ["b"] ∧
        next.tracker.changed = [] ∧ next.tree.idOfGuid? "a" = some 6 ∧
        next.tree.above? 7 = some 6 := by
  have hkeys : blankKeys.encryptionKey.length = Aead.keyLength := by decide
  have hwell := wellFormed_pending
  obtain ⟨first, hfirst, -⟩ := StoredRecord.exists_opened hkeys folder (Binary64.ofNat 2)
  obtain ⟨second, hsecond, -⟩ := StoredRecord.exists_opened hkeys separator (Binary64.ofNat 3)
  obtain ⟨cause, hrejected⟩ : ∃ cause, garbage.openRecord blankKeys = .error cause := ⟨_, rfl⟩
  have hpadded : Padded blankKeys 2 [first, second] [garbage, first, garbage, second] :=
    .insert hrejected (.keep first (.insert hrejected (.keep second .nil)))
  have hids := ids_parcel_pending hfirst hsecond
  have hparcel : pending.parcel blankKeys [first, second] ≠ [] := by
    intro hnone
    simp [hnone] at hids
  obtain ⟨progress, ready, last, -, hquiet, hfinished, hsync⟩ := sync_uploaded hwell
    (keeping [first, second]) blankKeys [] rfl hparcel rfl
  rw [caughtUp_pending hfirst hsecond] at hquiet
  generalize pending.parcel blankKeys [first, second] = parcel at hids hsync hfinished
  have hfetch : (keeping [first, second]).fetch pending.collection pending.lastSync [] =
    (.ok [first, second], []) := rfl
  have hfetch' : (keeping [garbage, first, garbage, second]).fetch pending.collection
    pending.lastSync [] = (.ok [garbage, first, garbage, second], []) := rfl
  obtain ⟨outcome, next, next', sent, hplain, hmixed, hsame⟩ :=
    sync_padded hwell hpadded hfetch hfetch' fun _ => rfl
  rw [sent_keeping] at hplain hmixed
  obtain ⟨rfl, hrest⟩ := Prod.mk.inj (hplain.symm.trans hsync)
  obtain ⟨rfl, hsent⟩ := Prod.mk.inj hrest
  have hnames : sent.map (·.id) = ["b"] := hsent ▸ hids
  have hchanged : next.tracker.changed = [] := by
    have hcleared : (ready.tracker.removeAll ["b"]).changed = [] := by
      rw [hquiet.tracker]
      decide +kernel
    rw [hfinished.changed, ← hcleared, ← hids]
    rfl
  have htree : next.tree = supplied.tree := hfinished.tree.trans hquiet.tree
  refine ⟨first, second, hfirst, hsecond, hwell, hpadded, _, next, next', sent, hplain, hmixed,
    hsame, ?_, hnames, hchanged, ?_, ?_⟩
  · exact congrArg List.length hids
  · rw [htree]
    decide +kernel
  · rw [htree]
    decide +kernel

end Client

end SyncedBookmarks

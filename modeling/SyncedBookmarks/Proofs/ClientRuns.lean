import SyncedBookmarks.Proofs.Passes

namespace SyncedBookmarks

/-! Whole passes, against any storage, and the clients that there can be. -/

namespace Client

open SyncedBookmarks.Action

/-- A client that waits for the answer to its fetch. -/
def begun (client : Client) (faults : Faults := .never) : Client :=
  (client.startPass faults).2

theorem startPass_eq {client : Client} (h : client.WellFormed) :
    client.startPass = (.fetching client.lastSync, client.begun) ∧ client.Begun client.begun := by
  obtain ⟨next, hstart, hbegun⟩ := startPass_spec h
  rw [begun, hstart]
  exact ⟨rfl, hbegun⟩

theorem Begun.deaf {client next : Client} (h : client.Begun next) :
    next.tracker.suppressed = true := by
  rw [h.tracker]
  rfl

/-- The client once the records that a pass was given are applied and orphans moved. -/
def caughtUp (keys : KeyBundle) (records : List StoredRecord) (client : Client) : Client :=
  client.begun.settled keys client.lastSync records

/-- What a pass sends after it was given records. -/
def parcel (keys : KeyBundle) (records : List StoredRecord) (client : Client)
    (faults : Faults := .never) : List StoredRecord :=
  (client.begun faults).outgoing keys client.lastSync records faults

theorem caughtUp_spec {client : Client} (h : client.WellFormed) (keys : KeyBundle)
    (records : List StoredRecord) :
    Settled keys records client.begun (client.caughtUp keys records) :=
  have hbegun := (startPass_eq h).2
  (settled_spec hbegun.wellFormed hbegun.deaf keys client.lastSync records).1

theorem collection_caughtUp {client : Client} (h : client.WellFormed) (keys : KeyBundle)
    (records : List StoredRecord) : (client.caughtUp keys records).collection = client.collection :=
  (caughtUp_spec h keys records).collection.trans (startPass_eq h).2.collection

theorem sealed_parcel {client : Client} (h : client.WellFormed) {keys : KeyBundle}
    (hkeys : keys.encryptionKey.length = Aead.keyLength) (records : List StoredRecord) :
    Sealed keys (client.caughtUp keys records).tracker.changed (client.caughtUp keys records)
      (client.parcel keys records) :=
  have hbegun := (startPass_eq h).2
  sealed_outgoing hbegun.wellFormed hbegun.deaf hbegun.cache hkeys client.lastSync records

theorem takeFetched_begun {client : Client} (h : client.WellFormed) (keys : KeyBundle)
    (records : List StoredRecord) :
    ∃ progress ready, Received client.lastSync records progress ∧
      (client.caughtUp keys records).Quiet ready ∧
      client.begun.takeFetched keys client.lastSync (.ok records) =
        if (client.parcel keys records).isEmpty
        then ready.finishPass client.lastSync progress 0 Binary64.zero
        else (.uploading client.lastSync progress (client.parcel keys records), ready) :=
  have hbegun := (startPass_eq h).2
  takeFetched_ok hbegun.wellFormed hbegun.deaf keys client.lastSync records

/-! ### The four ways that a pass goes -/

theorem advance_fetching {storage : Storage σ} {keys : KeyBundle} {since : Timestamp}
    {client next : Client} {state : σ} {collection : String}
    {answer : Except StorageError (List StoredRecord)} {pass : Pass} {faults : Faults}
    (hcollection : client.collection = collection)
    (hfetch : (storage.fetch collection since state).1 = answer)
    (htake : client.takeFetched keys since answer faults = (pass, next)) :
    client.advance storage keys (.fetching since) state faults =
      (pass, next, (storage.fetch collection since state).2) := by
  subst hcollection hfetch
  rw [advance]
  dsimp only
  rw [htake]

theorem advance_uploading {storage : Storage σ} {keys : KeyBundle} {since : Timestamp}
    {progress : Progress} {records : List StoredRecord} {client next : Client} {state : σ}
    {collection : String} {answer : Except StorageError UploadResult} {pass : Pass} {faults : Faults}
    (hcollection : client.collection = collection)
    (hupload : (storage.upload collection records state).1 = answer)
    (htake : client.takeUploaded since progress answer faults = (pass, next)) :
    client.advance storage keys (.uploading since progress records) state faults =
      (pass, next, (storage.upload collection records state).2) := by
  subst hcollection hupload
  rw [advance]
  dsimp only
  rw [htake]

section Pass

variable {client : Client} (h : client.WellFormed) (storage : Storage σ) (keys : KeyBundle)
  (state : σ)

include h

theorem sync_unfetched {cause : StorageError}
    (hfetch : (storage.fetch client.collection client.lastSync state).1 = .error cause) :
    ∃ next, client.sync storage keys state = (.error (.storage cause), next,
        (storage.fetch client.collection client.lastSync state).2) ∧
      (client.begun.onTracker (·.suppress false)).Quiet next := by
  obtain ⟨hstart, hbegun⟩ := startPass_eq h
  obtain ⟨next, htake, hquiet⟩ :=
    takeFetched_error hbegun.wellFormed keys client.lastSync cause
  refine ⟨next, ?_, hquiet⟩
  rw [sync, hstart]
  dsimp only
  rw [advance_fetching hbegun.collection hfetch htake]
  rfl

theorem sync_idle {records : List StoredRecord}
    (hfetch : (storage.fetch client.collection client.lastSync state).1 = .ok records)
    (hparcel : client.parcel keys records = []) :
    ∃ progress ready next, Received client.lastSync records progress ∧
      (client.caughtUp keys records).Quiet ready ∧
      ready.Finished (max (max progress.newest Binary64.zero) client.lastSync) next ∧
      client.sync storage keys state = (.ok { progress.summary with uploaded := 0 }, next,
        (storage.fetch client.collection client.lastSync state).2) := by
  obtain ⟨hstart, hbegun⟩ := startPass_eq h
  obtain ⟨progress, ready, hreceived, hquiet, htake⟩ := takeFetched_begun h keys records
  obtain ⟨next, hfinish, hfinished⟩ :=
    finishPass_spec hquiet.wellFormed client.lastSync progress 0 Binary64.zero
  refine ⟨progress, ready, next, hreceived, hquiet, hfinished, ?_⟩
  rw [hparcel, List.isEmpty_nil, if_pos rfl, hfinish] at htake
  rw [sync, hstart]
  dsimp only
  rw [advance_fetching hbegun.collection hfetch htake]
  rfl

theorem sync_refused {records : List StoredRecord}
    (hfetch : (storage.fetch client.collection client.lastSync state).1 = .ok records)
    (hparcel : client.parcel keys records ≠ []) {cause : StorageError}
    (hupload : (storage.upload client.collection (client.parcel keys records)
      (storage.fetch client.collection client.lastSync state).2).1 = .error cause) :
    ∃ next, (client.caughtUp keys records).Quiet next ∧
      client.sync storage keys state = (.error (.storage cause), next,
        (storage.upload client.collection (client.parcel keys records)
          (storage.fetch client.collection client.lastSync state).2).2) := by
  obtain ⟨hstart, hbegun⟩ := startPass_eq h
  obtain ⟨progress, ready, -, hquiet, htake⟩ := takeFetched_begun h keys records
  obtain ⟨next, hrefused, hlast⟩ :=
    takeUploaded_error hquiet.wellFormed client.lastSync progress cause
  refine ⟨next, hquiet.trans hlast, ?_⟩
  have hcollection := hquiet.collection.trans (collection_caughtUp h keys records)
  rw [if_neg (by simpa using hparcel)] at htake
  rw [sync, hstart]
  dsimp only
  rw [advance_fetching hbegun.collection hfetch htake]
  dsimp only
  rw [advance_uploading hcollection hupload hrefused]

theorem sync_uploaded {records : List StoredRecord}
    (hfetch : (storage.fetch client.collection client.lastSync state).1 = .ok records)
    (hparcel : client.parcel keys records ≠ []) {result : UploadResult}
    (hupload : (storage.upload client.collection (client.parcel keys records)
      (storage.fetch client.collection client.lastSync state).2).1 = .ok result) :
    ∃ progress ready next, Received client.lastSync records progress ∧
      (client.caughtUp keys records).Quiet ready ∧
      (ready.onTracker (·.removeAll result.success)).Finished
        (max (max progress.newest result.modified) client.lastSync) next ∧
      client.sync storage keys state =
        (.ok { progress.summary with uploaded := result.success.length }, next,
          (storage.upload client.collection (client.parcel keys records)
            (storage.fetch client.collection client.lastSync state).2).2) := by
  obtain ⟨hstart, hbegun⟩ := startPass_eq h
  obtain ⟨progress, ready, hreceived, hquiet, htake⟩ := takeFetched_begun h keys records
  obtain ⟨next, haccepted, hfinished⟩ :=
    takeUploaded_ok hquiet.wellFormed client.lastSync progress result
  refine ⟨progress, ready, next, hreceived, hquiet, hfinished, ?_⟩
  have hcollection := hquiet.collection.trans (collection_caughtUp h keys records)
  rw [if_neg (by simpa using hparcel)] at htake
  rw [sync, hstart]
  dsimp only
  rw [advance_fetching hbegun.collection hfetch htake]
  dsimp only
  rw [advance_uploading hcollection hupload haccepted]

/-- However a pass goes, the client is in order after it, its cache included. -/
theorem sync_ordered : (client.sync storage keys state).2.1.WellFormed ∧
    (client.sync storage keys state).2.1.store.Coherent := by
  have hbegun := (startPass_eq h).2
  cases hfetch : (storage.fetch client.collection client.lastSync state).1 with
  | error cause =>
      obtain ⟨next, hsync, hquiet⟩ := sync_unfetched h storage keys state hfetch
      rw [hsync]
      exact ⟨hquiet.wellFormed, hquiet.coherent (BookmarkStore.coherent_of_empty hbegun.cache)⟩
  | ok records =>
      have hcaughtUp : (client.caughtUp keys records).store.Coherent :=
        BookmarkStore.coherent_of_empty
          (List.subset_nil.mp (hbegun.cache ▸ (caughtUp_spec h keys records).cache))
      by_cases hparcel : client.parcel keys records = []
      · obtain ⟨_, _, next, -, hquiet, hfinished, hsync⟩ :=
          sync_idle h storage keys state hfetch hparcel
        rw [hsync]
        exact ⟨hfinished.wellFormed, hfinished.coherent (hquiet.coherent hcaughtUp)⟩
      · cases hupload : (storage.upload client.collection (client.parcel keys records)
            (storage.fetch client.collection client.lastSync state).2).1 with
        | error cause =>
            obtain ⟨next, hquiet, hsync⟩ :=
              sync_refused h storage keys state hfetch hparcel hupload
            rw [hsync]
            exact ⟨hquiet.wellFormed, hquiet.coherent hcaughtUp⟩
        | ok result =>
            obtain ⟨_, _, next, -, hquiet, hfinished, hsync⟩ :=
              sync_uploaded h storage keys state hfetch hparcel hupload
            rw [hsync]
            exact ⟨hfinished.wellFormed, hfinished.coherent (hquiet.coherent hcaughtUp)⟩

end Pass

end Client

/-! ### Calls -/

/-- What may be done to a client between two passes. -/
inductive LocalCall where
  | store (call : StoreCall)
  | beginBatch
  | endBatch
  | mark (guid : String)
  | unmark (guid : String)
  | unmarkAll
  | ignore (guid : String)
  | unignore (guid : String)
  | suppress (suppressed : Bool)
  | resetScore
  | wipe
  /-- A start over what is kept. -/
  | resume (journaled : Bool)

namespace LocalCall

/-- What a call leaves, also where it fails. -/
def run (client : Client) : LocalCall → Client
  | store call => ((Client.onStore call.action).result client).2
  | beginBatch => client.beginBatch
  | endBatch => client.endBatch
  | mark guid => client.onTracker fun tracker => (tracker.add guid).2
  | unmark guid => client.onTracker (·.remove guid)
  | unmarkAll => client.onTracker (·.clear)
  | ignore guid => client.onTracker (·.ignore guid)
  | unignore guid => client.onTracker (·.unignore guid)
  | suppress suppressed => client.onTracker (·.suppress suppressed)
  | resetScore => client.onTracker (·.resetScore)
  | wipe => client.wipeClient.2
  | resume journaled =>
      { Client.resume client.collection client.store.generators journaled client.tree
          client.tracker.ledger with
        sealings := client.sealings }

end LocalCall

namespace Client

/-- What a client is after a call: in order, for the same collection, and with the time of its last
pass as it was or forgotten. -/
structure Continued (before after : Client) : Prop where
  wellFormed : after.WellFormed
  collection : after.collection = before.collection
  lastSync : after.lastSync = before.lastSync ∨ after.lastSync = Binary64.zero

theorem Quiet.continued {before after : Client} (h : before.Quiet after) :
    before.Continued after :=
  ⟨h.wellFormed, h.collection, .inl h.lastSync⟩

/-- A change of the tracker alone. -/
theorem continued_onTracker {client : Client} (h : client.WellFormed) (step : Tracker → Tracker)
    (hsound : (step client.tracker).Sound)
    (htimes : (step client.tracker).ledger.times = client.tracker.ledger.times) :
    client.Continued (client.onTracker step) where
  wellFormed := ⟨h.store, h.heard, hsound⟩
  collection := rfl
  lastSync := .inl (lastSync_congr rfl htimes)

theorem continued_onStore {client : Client} (h : client.WellFormed) {action : StoreAction α}
    (haction : action.Keeps BookmarkStore.WellFormed) :
    client.Continued ((onStore action).result client).2 where
  wellFormed := keeps_onStore haction client h
  collection := rfl
  lastSync := .inl (lastSync_congr rfl (client.tracker.marks_hearAll _).times)

theorem continued_fromStore {client : Client} (h : client.WellFormed) {action : StoreAction α}
    (haction : action.Keeps BookmarkStore.WellFormed) :
    client.Continued ((fromStore action).result client).2 :=
  continued_onStore h haction

theorem Continued.trans {first second third : Client} (h : first.Continued second)
    (h' : second.Continued third) : first.Continued third where
  wellFormed := h'.wellFormed
  collection := h'.collection.trans h.collection
  lastSync := by
    rcases h'.lastSync with hlast | hlast
    · rw [hlast]
      exact h.lastSync
    · exact .inr hlast

theorem continued_suppress {client : Client} (h : client.WellFormed) (suppressed : Bool) :
    client.Continued (client.onTracker (·.suppress suppressed)) :=
  continued_onTracker h _ (sound_suppress h.tracker suppressed) rfl

theorem continued_wipeClient {client : Client} (h : client.WellFormed) :
    client.Continued client.wipeClient.2 := by
  have hdeaf := continued_suppress h true
  have hopened := hdeaf.trans (quiet_beginBatch hdeaf.wellFormed).continued
  have hwiped := hopened.trans (continued_fromStore hopened.wellFormed BookmarkStore.keeps_wipe)
  rw [wipeClient, Faults.wipe_never]
  generalize (fromStore BookmarkStore.wipe).result (client.onTracker (·.suppress true)).beginBatch
    = last at hwiped ⊢
  obtain ⟨outcome, wiped⟩ := last
  have hclosed := hwiped.trans (quiet_endBatch hwiped.wellFormed).continued
  have hlistening := hclosed.trans (continued_suppress hclosed.wellFormed false)
  cases outcome with
  | error cause => exact hlistening
  | ok done =>
      have hmarks := (Tracker.marks_clear _).sound hlistening.wellFormed.tracker
      exact ⟨⟨hlistening.wellFormed.store, hlistening.wellFormed.heard, hmarks.changed,
        hmarks.journal⟩, hlistening.collection, .inr (Ledger.lastSync_setLastSync _ _ _)⟩

end Client

namespace LocalCall

open Client

theorem continued_run {client : Client} (h : client.WellFormed) (call : LocalCall) :
    client.Continued (run client call) := by
  cases call with
  | store call => exact continued_onStore h call.keeps_action
  | beginBatch => exact (quiet_beginBatch h).continued
  | endBatch => exact (quiet_endBatch h).continued
  | mark guid =>
      have hmarks := client.tracker.marks_add guid
      exact continued_onTracker h (fun tracker => (tracker.add guid).2) (hmarks.sound h.tracker)
        hmarks.times
  | unmark guid =>
      have hmarks := client.tracker.marks_remove guid
      exact continued_onTracker h (·.remove guid) (hmarks.sound h.tracker) hmarks.times
  | unmarkAll =>
      have hmarks := client.tracker.marks_clear
      exact continued_onTracker h (·.clear) (hmarks.sound h.tracker) hmarks.times
  | ignore guid =>
      have hsame : (client.tracker.ignore guid).changed = client.tracker.changed ∧
          (client.tracker.ignore guid).ledger = client.tracker.ledger := by
        rw [Tracker.ignore]
        split <;> exact ⟨rfl, rfl⟩
      refine continued_onTracker h (·.ignore guid) ⟨?_, ?_⟩ ?_
      · rw [hsame.1]
        exact h.tracker.changed
      · rw [hsame.2]
        exact h.tracker.journal
      · rw [hsame.2]
  | unignore guid =>
      exact continued_onTracker h (·.unignore guid) ⟨h.tracker.changed, h.tracker.journal⟩ rfl
  | suppress suppressed => exact continued_suppress h suppressed
  | resetScore =>
      exact continued_onTracker h (·.resetScore) ⟨h.tracker.changed, h.tracker.journal⟩ rfl
  | wipe => exact continued_wipeClient h
  | resume journaled =>
      refine ⟨⟨⟨h.store.tree, ?_⟩, rfl, ?_, h.tracker.journal⟩, rfl, .inl rfl⟩
      · intro _ _ hentry
        cases hentry
      · cases journaled with
        | false => exact List.nodup_nil
        | true => exact Ledger.nodup_changesOf h.tracker.journal client.collection

end LocalCall

/-- A storage that answers as it is told. -/
def Storage.answering (fetched : Except StorageError (List StoredRecord))
    (uploaded : Except StorageError UploadResult) : Storage Unit where
  fetch _ _ state := (fetched, state)
  upload _ _ state := (uploaded, state)

/-- What may be done to a client. -/
inductive ClientCall where
  | locally (call : LocalCall)
  | setLastSync (time : Timestamp)
  /-- A pass, with the server's answers. -/
  | sync (keys : KeyBundle) (fetched : Except StorageError (List StoredRecord))
      (uploaded : Except StorageError UploadResult)

namespace ClientCall

/-- What a call leaves, also where it fails. -/
def run (client : Client) : ClientCall → Client
  | locally call => LocalCall.run client call
  | setLastSync time => client.setLastSync time
  | sync keys fetched uploaded =>
      (client.sync (Storage.answering fetched uploaded) keys ()).2.1

def runAll (client : Client) (calls : List ClientCall) : Client :=
  calls.foldl run client

theorem wellFormed_run {client : Client} (h : client.WellFormed) (call : ClientCall) :
    (run client call).WellFormed := by
  cases call with
  | locally call => exact (call.continued_run h).wellFormed
  | setLastSync time => exact ⟨h.store, h.heard, ⟨h.tracker.changed, h.tracker.journal⟩⟩
  | sync keys fetched uploaded =>
      exact (Client.sync_ordered h (Storage.answering fetched uploaded) keys ()).1

end ClientCall

namespace Client

/-- A client over a fresh tree that has never been synced. -/
def fresh (collection : String) (generators : Option (List String)) (journaled : Bool)
    (guids : GuidSource) : Client :=
  resume collection generators journaled (Tree.fresh guids) {}

/-- The clients that there can be. -/
def Reachable (client : Client) : Prop :=
  ∃ collection generators journaled guids calls,
    client = ClientCall.runAll (fresh collection generators journaled guids) calls

theorem wellFormed_fresh (collection : String) (generators : Option (List String))
    (journaled : Bool) (guids : GuidSource) :
    (fresh collection generators journaled guids).WellFormed where
  store := ⟨Tree.wellFormed_fresh guids, fun _ _ hentry => by cases hentry⟩
  heard := rfl
  tracker := by
    cases journaled <;> exact ⟨List.nodup_nil, List.nodup_nil⟩

theorem Reachable.wellFormed {client : Client} (h : client.Reachable) : client.WellFormed := by
  obtain ⟨collection, generators, journaled, guids, calls, rfl⟩ := h
  have hfresh := wellFormed_fresh collection generators journaled guids
  generalize fresh collection generators journaled guids = client at hfresh
  induction calls generalizing client with
  | nil => exact hfresh
  | cons call calls ih => exact ih _ (call.wellFormed_run hfresh)

theorem Reachable.run {client : Client} (h : client.Reachable) (call : ClientCall) :
    (ClientCall.run client call).Reachable := by
  obtain ⟨collection, generators, journaled, guids, calls, rfl⟩ := h
  refine ⟨collection, generators, journaled, guids, calls ++ [call], ?_⟩
  rw [ClientCall.runAll, ClientCall.runAll, List.foldl_append]
  rfl

end Client

end SyncedBookmarks

import SyncedBookmarks.Sync.Client
import SyncedBookmarks.Sync.Faults

namespace SyncedBookmarks

/-! One pass of synchronization: what changed on the server is fetched and applied, then what
changed locally is uploaded. A pass waits at two places for an answer of the server.
Statements of the database may fail in it; where no faults are given, none does. -/

structure Summary where
  applied : Nat := 0
  /-- Incoming records that could not be opened or applied. -/
  failed : Nat := 0
  reparented : Nat := 0
  uploaded : Nat := 0
  deriving DecidableEq, Repr

/-- The state of a pass between requests. -/
structure Progress where
  summary : Summary := {}
  /-- The latest server time seen. -/
  newest : Timestamp

/-- What a pass waits for. -/
inductive Pass where
  | fetching (since : Timestamp)
  | uploading (since : Timestamp) (progress : Progress) (records : List StoredRecord)
  | finished (outcome : Except SyncError Summary)

namespace Client

abbrev SyncAction (α : Type) :=
  Action Client SyncError α

def fromStore (action : StoreAction α) : SyncAction α :=
  (onStore action).within id (fun client _ => client) .store

/-! ### Fetching -/

def readLastSync (client : Client) (faults : Faults := .never) : Except SyncError Timestamp :=
  match faults.unread with
  | some reason => .error (.database reason)
  | none => .ok client.lastSync

@[simp] theorem readLastSync_never (client : Client) :
    client.readLastSync = .ok client.lastSync := rfl

/-- Before the first pass every item counts as changed. -/
def markAll (faults : Faults := .never) : SyncAction Unit := do
  let ids ← fromStore faults.allIds
  Action.change (onTracker (·.addAll ids))

def failPass (cause : SyncError) (client : Client) : Pass × Client :=
  (.finished (.error cause), client.endBatch)

/-- Opens the pass and asks for what is newer than the last one. -/
def startPass (client : Client) (faults : Faults := .never) : Pass × Client :=
  let client := client.clearCache.beginBatch
  match client.readLastSync faults with
  | .error cause => client.failPass cause
  | .ok since =>
      let (outcome, client) :=
        if since ≤ Binary64.zero then (markAll faults).result client else (.ok (), client)
      match outcome with
      | .ok () => (.fetching since, client.onTracker (·.suppress true))
      | .error cause => client.failPass cause

/-! ### Applying -/

/-- Applies one stored record; the server wins over a pending local change. -/
def receiveOne (keys : KeyBundle) (progress : Progress) (stored : StoredRecord)
    (client : Client) (faults : Faults := .never) : Progress × Client :=
  let newest := max progress.newest stored.modified
  let summary := progress.summary
  match stored.openRecord keys with
  | .error _ => (⟨{ summary with failed := summary.failed + 1 }, newest⟩, client)
  | .ok record =>
      let client := client.onTracker (·.remove record.id)
      match (onStore (faults.applyIncoming record)).result client with
      | (.ok (), client) => (⟨{ summary with applied := summary.applied + 1 }, newest⟩, client)
      | (.error _, client) => (⟨{ summary with failed := summary.failed + 1 }, newest⟩, client)

def receiveAll (keys : KeyBundle) (progress : Progress) (records : List StoredRecord)
    (client : Client) (faults : Faults := .never) : Progress × Client :=
  match records with
  | [] => (progress, client)
  | stored :: rest =>
      let (progress, client) := client.receiveOne keys progress stored faults
      receiveAll keys progress rest client faults

/-! ### Uploading -/

/-- The sealed record of an item. -/
def sealItem (keys : KeyBundle) (guid : String) (faults : Faults := .never) :
    SyncAction StoredRecord := do
  let record ← fromStore (faults.createRecord guid)
  let iv ← Action.read nextIv
  Action.change fun client => { client with sealings := client.sealings + 1 }
  match keys.sealPayload iv (Bytes.ofText record.text) with
  | .ok envelope => pure (StoredRecord.ofRecord record envelope)
  | .error cause => throw (.payload cause.message)

/-- The sealed records of items; those that cannot be written are left out. -/
def sealAll (keys : KeyBundle) (guids : List String) (client : Client)
    (faults : Faults := .never) : List StoredRecord × Client :=
  match guids with
  | [] => ([], client)
  | guid :: rest =>
      match (sealItem keys guid faults).result client with
      | (.ok stored, client) =>
          let (others, client) := sealAll keys rest client faults
          (stored :: others, client)
      | (.error _, client) => sealAll keys rest client faults

/-- Ends a pass that got through. The score is set back once the time is written. -/
def finishPass (since : Timestamp) (progress : Progress) (uploaded : Nat) (time : Timestamp)
    (client : Client) (faults : Faults := .never) : Pass × Client :=
  let latest := max (max progress.newest time) since
  match faults.unwritten with
  | some reason => client.failPass (.database reason)
  | none =>
      let client := (client.setLastSync latest).onTracker (·.resetScore)
      (.finished (.ok { progress.summary with uploaded }), client.endBatch)

/-- Takes the answer to the fetch: applies the records, moves orphans, and uploads the rest. -/
def takeFetched (keys : KeyBundle) (since : Timestamp)
    (answer : Except StorageError (List StoredRecord)) (client : Client)
    (faults : Faults := .never) : Pass × Client :=
  match answer with
  | .error cause => (client.onTracker (·.suppress false)).failPass (.storage cause)
  | .ok records =>
      let (progress, client) := client.receiveAll keys ⟨{}, since⟩ records faults
      let (moved, client) := (fromStore faults.reparentOrphans).result client
      let client := client.onTracker (·.suppress false)
      match moved with
      | .error cause => client.failPass cause
      | .ok reparented =>
          let progress := { progress with summary := { progress.summary with reparented } }
          let (outgoing, client) := client.sealAll keys client.tracker.changed faults
          if outgoing.isEmpty then client.finishPass since progress 0 Binary64.zero faults
          else (.uploading since progress outgoing, client)

/-- Takes the answer to the upload: what the server accepted is no longer dirty. -/
def takeUploaded (since : Timestamp) (progress : Progress)
    (answer : Except StorageError UploadResult) (client : Client) (faults : Faults := .never) :
    Pass × Client :=
  match answer with
  | .error cause => client.failPass (.storage cause)
  | .ok result =>
      (client.onTracker (·.removeAll result.success)).finishPass since progress
        result.success.length result.modified faults

end Client

/-! ### A whole pass -/

/-- A storage server, as a client meets it; answering may change its state. -/
structure Storage (σ : Type) where
  fetch : String → Timestamp → σ → Except StorageError (List StoredRecord) × σ
  upload : String → List StoredRecord → σ → Except StorageError UploadResult × σ

namespace Client

/-- Lets a pass go on as far as its next request, which the server then answers. -/
def advance (storage : Storage σ) (keys : KeyBundle) (pass : Pass) (client : Client) (state : σ)
    (faults : Faults := .never) : Pass × Client × σ :=
  match pass with
  | .fetching since =>
      let (answer, state) := storage.fetch client.collection since state
      let (pass, client) := client.takeFetched keys since answer faults
      (pass, client, state)
  | .uploading since progress records =>
      let (answer, state) := storage.upload client.collection records state
      let (pass, client) := client.takeUploaded since progress answer faults
      (pass, client, state)
  | .finished outcome => (.finished outcome, client, state)

def sync (storage : Storage σ) (keys : KeyBundle) (client : Client) (state : σ)
    (faults : Faults := .never) : Except SyncError Summary × Client × σ :=
  let (pass, client) := client.startPass faults
  let (pass, client, state) := client.advance storage keys pass state faults
  let (pass, client, state) := client.advance storage keys pass state faults
  match pass with
  | .finished outcome => (outcome, client, state)
  | _ => (.error (.payload "the pass has not ended"), client, state)

/-- Drops what is synced and forgets all that was pending. -/
def wipeClient (client : Client) (faults : Faults := .never) : Except SyncError Unit × Client :=
  let client := (client.onTracker (·.suppress true)).beginBatch
  let (outcome, client) := (fromStore faults.wipe).result client
  let client := client.endBatch.onTracker (·.suppress false)
  match outcome with
  | .error cause => (.error cause, client)
  | .ok () =>
      let client := client.onTracker fun tracker => tracker.clear.resetScore
      match faults.unwritten with
      | some reason => (.error (.database reason), client)
      | none => (.ok (), client.setLastSync Binary64.zero)

end Client

end SyncedBookmarks

import SyncedBookmarks.Sync.Pass

namespace SyncedBookmarks

/-! A storage server in memory, with a clock that moves on at every write. It can be told to
misbehave. -/

inductive ServerCall where
  | fetch (collection : String) (newer : Timestamp)
  | upload (collection : String) (ids : List String)
  deriving DecidableEq, Repr

/-- How the server answers, other than as it should. -/
structure ServerMode where
  fetchFault : Option StorageError := none
  uploadFault : Option StorageError := none
  /-- The ids that an upload may not write. -/
  rejects : String → Bool := fun _ => false
  /-- The time that uploads get, in place of the clock's. -/
  uploadTime : Option Timestamp := none

structure Server where
  /-- Collection and record, in the order last written. -/
  records : List (String × StoredRecord) := []
  clock : Nat := 1000
  mode : ServerMode := {}
  calls : List ServerCall := []

namespace Server

/-- Writes a record; one written before moves to the end. -/
def put (server : Server) (collection : String) (record : StoredRecord) : Server :=
  { server with
    records :=
      server.records.filter (fun entry => !(entry.1 == collection && entry.2.id == record.id))
        ++ [(collection, record)] }

/-- The next time of the clock. -/
def tick (server : Server) : Timestamp × Server :=
  (Binary64.ofNat (server.clock + 1), { server with clock := server.clock + 1 })

def called (server : Server) (call : ServerCall) : Server :=
  { server with calls := server.calls ++ [call] }

/-- The records of a collection that are newer than a time. -/
def newer (server : Server) (collection : String) (time : Timestamp) : List StoredRecord :=
  (server.records.filter fun entry => entry.1 == collection && decide (time < entry.2.modified)).map
    (·.2)

def fetch (collection : String) (time : Timestamp) (server : Server) :
    Except StorageError (List StoredRecord) × Server :=
  let server := server.called (.fetch collection time)
  match server.mode.fetchFault with
  | some cause => (.error cause, server)
  | none => (.ok (server.newer collection time), server)

def orderedById (records : List StoredRecord) : List StoredRecord :=
  records.mergeSort fun a b => a.id ≤ b.id

def rejection : List String :=
  ["rejected"]

def upload (collection : String) (records : List StoredRecord) (server : Server) :
    Except StorageError UploadResult × Server :=
  let records := orderedById records
  let server := server.called (.upload collection (records.map (·.id)))
  match server.mode.uploadFault with
  | some cause => (.error cause, server)
  | none =>
      let (time, server) :=
        match server.mode.uploadTime with
        | some time => (time, server)
        | none => server.tick
      let accepted := records.filter fun record => !server.mode.rejects record.id
      let refused := records.filter fun record => server.mode.rejects record.id
      let server := accepted.foldl
        (fun server record => server.put collection { record with modified := time }) server
      (.ok
        { modified := time, success := accepted.map (·.id)
          failed := refused.map fun record => (record.id, rejection) }, server)

def storage : Storage Server where
  fetch := fetch
  upload := upload

end Server

end SyncedBookmarks

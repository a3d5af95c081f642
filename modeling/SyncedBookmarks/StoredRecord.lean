import SyncedBookmarks.Envelope
import SyncedBookmarks.Record

namespace SyncedBookmarks

/-! Records as a storage server keeps them, and its answer to an upload. -/

abbrev Timestamp := Binary64

structure StoredRecord where
  id : String
  modified : Timestamp := Binary64.zero
  payload : String
  deriving DecidableEq, Repr

namespace StoredRecord

def toJson (stored : StoredRecord) : Json :=
  .object
    [("id", .string stored.id), ("modified", Json.ofReal stored.modified),
      ("payload", .string stored.payload)]

def schema : Schema StoredRecord where
  declared := [["id"], ["modified"], ["payload"]]
  build
    | [id, modified, payload] => do
        pure
          { id := ← Json.required Json.asString? id
            modified := ← Json.defaulted Binary64.zero Json.asReal? modified
            payload := ← Json.required Json.asString? payload }
    | _ => none

def ofRecord (record : Record) (envelope : Envelope) : StoredRecord :=
  { id := record.id, payload := envelope.toJson.text }

/-- The record in a stored one, or why there is none. -/
def openRecord (stored : StoredRecord) (keys : KeyBundle) : Except String Record := do
  let envelope ← match Envelope.schema.parse? stored.payload with
    | some envelope => pure envelope
    | none => throw "the payload is no envelope"
  let cleartext ← match keys.openPayload envelope with
    | .ok cleartext => pure cleartext
    | .error cause => throw cause.message
  match Record.schema.ofBytes? cleartext with
  | some record =>
      if record.id = stored.id then pure record
      else throw s!"payload id {record.id} does not match record id"
  | none => throw "the payload holds no record"

end StoredRecord

structure UploadResult where
  modified : Timestamp := Binary64.zero
  success : List String := []
  failed : List (String × List String) := []
  deriving DecidableEq, Repr

namespace UploadResult

/-- Of the entries of one name, the last. -/
def lastOfEach : List (String × α) → List (String × α)
  | [] => []
  | entry :: rest =>
      if rest.any (·.1 == entry.1) then lastOfEach rest else entry :: lastOfEach rest

def failuresOfJson? : Json → Option (List (String × List String))
  | .object members => do
      let entries ← members.mapM fun (name, value) => value.asStrings?.map (name, ·)
      pure (lastOfEach entries)
  | _ => none

def schema : Schema UploadResult where
  declared := [["modified"], ["success"], ["failed"]]
  build
    | [modified, success, failed] => do
        pure
          { modified := ← Json.defaulted Binary64.zero Json.asReal? modified
            success := ← Json.defaulted [] Json.asStrings? success
            failed := ← Json.defaulted [] failuresOfJson? failed }
    | _ => none

def toJson (result : UploadResult) : Json :=
  .object
    [("modified", Json.ofReal result.modified), ("success", Json.ofStrings result.success),
      ("failed", .object (result.failed.map fun (id, reasons) => (id, Json.ofStrings reasons)))]

end UploadResult

end SyncedBookmarks

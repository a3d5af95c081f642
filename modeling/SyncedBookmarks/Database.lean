import SyncedBookmarks.Json.Fields
import SyncedBookmarks.Json.Printer
import SyncedBookmarks.Ledger
import SyncedBookmarks.Tree.Basic

namespace SyncedBookmarks

/-! All that a client keeps between runs, and its form in a file. -/

structure Database where
  tree : Tree := Tree.fresh
  ledger : Ledger := {}
  /-- How many payloads were sealed so far. -/
  sealings : Nat := 0

namespace Database

/-- The version of the form in a file. -/
def version : Nat := 3

def optionalText (value : Option String) : Json :=
  Json.ofOption .string value

def pairs (entries : List (String × String)) : Json :=
  .array (entries.map fun (first, second) => Json.ofStrings [first, second])

def pairs? (value : Json) : Option (List (String × String)) := do
  let .array entries := value | none
  entries.mapM fun entry => do
    let [first, second] ← entry.asStrings? | none
    pure (first, second)

def rowJson (row : Row) : Json :=
  .object
    [("id", Json.ofInt row.id), ("guid", .string row.guid),
      ("parent", Json.ofOption Json.ofInt row.parent), ("position", Json.ofInt row.position),
      ("type", Json.ofInt row.typeCode), ("title", optionalText row.title),
      ("url", optionalText row.url), ("keyword", optionalText row.keyword),
      ("annotations", pairs row.annotations)]

def rowSchema : Schema Row where
  declared := [["id"], ["guid"], ["parent"], ["position"], ["type"], ["title"], ["url"],
    ["keyword"], ["annotations"]]
  build
    | [id, guid, parent, position, typeCode, title, url, keyword, annotations] => do
        pure
          { id := ← Json.required Json.asInt64? id
            guid := ← Json.required Json.asString? guid
            parent := ← Json.optional Json.asInt64? parent
            position := ← Json.required Json.asInt64? position
            typeCode := ← Json.required Json.asInt64? typeCode
            title := ← Json.optional Json.asString? title
            url := ← Json.optional Json.asString? url
            keyword := ← Json.optional Json.asString? keyword
            annotations := ← Json.required pairs? annotations }
    | _ => none

def timeJson (entry : String × Timestamp) : Json :=
  .array [.string entry.1, Json.ofReal entry.2]

def time? (value : Json) : Option (String × Timestamp) := do
  let .array [collection, time] := value | none
  pure (← collection.asString?, ← time.asReal?)

def listOf? (decode : Json → Option α) (value : Json) : Option (List α) := do
  let .array items := value | none
  items.mapM decode

def text (database : Database) : String :=
  (Json.object
    [("version", Json.ofNat version), ("rows", .array (database.tree.rows.map rowJson)),
      ("nextId", Json.ofInt database.tree.nextId),
      ("times", .array (database.ledger.times.map timeJson)),
      ("changes", pairs database.ledger.changes), ("sealings", Json.ofNat database.sealings)]).text

def schema : Schema Database where
  declared := [["version"], ["rows"], ["nextId"], ["times"], ["changes"], ["sealings"]]
  build
    | [kept, rows, nextId, times, changes, sealings] => do
        if (← Json.required Json.asNat? kept) = version then
          pure
            { tree :=
                { rows := ← Json.required (listOf? rowSchema.ofJson?) rows
                  nextId := ← Json.required Json.asInt64? nextId }
              ledger :=
                { times := ← Json.required (listOf? time?) times
                  changes := ← Json.required pairs? changes }
              sealings := ← Json.required Json.asNat? sealings }
        else none
    | _ => none

/-- The first byte in a file of a database. No text begins with it. -/
def signature : UInt8 := 0xff

def bytes (database : Database) : Bytes :=
  signature :: Bytes.ofText database.text

def ofBytes? : Bytes → Option Database
  | [] => none
  | byte :: rest => if byte = signature then Bytes.text? rest >>= schema.parse? else none

end Database

end SyncedBookmarks

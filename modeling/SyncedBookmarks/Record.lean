import SyncedBookmarks.Json.Fields
import SyncedBookmarks.Json.Printer

namespace SyncedBookmarks

/-! The portable form of one bookmark item, as clients exchange it. -/

inductive RecordKind where
  | bookmark
  | query
  | microsummary
  | folder
  | livemark
  | separator
  | item
  | unknown
  deriving DecidableEq, Repr

namespace RecordKind

def name : RecordKind → String
  | .bookmark => "bookmark"
  | .query => "query"
  | .microsummary => "microsummary"
  | .folder => "folder"
  | .livemark => "livemark"
  | .separator => "separator"
  | .item => "item"
  | .unknown => "unknown"

def all : List RecordKind :=
  [.bookmark, .query, .microsummary, .folder, .livemark, .separator, .item, .unknown]

def ofName (name : String) : RecordKind :=
  (all.find? (·.name == name)).getD .unknown

@[simp] theorem ofName_name (kind : RecordKind) : ofName kind.name = kind := by
  cases kind <;> rfl

/-- A name, or an object with the name as its only member and null as its value. -/
def ofJson? : Json → Option RecordKind
  | .string name => some (ofName name)
  | .object [(name, .null)] => some (ofName name)
  | _ => none

end RecordKind

/-- Fields that are absent leave what they describe alone. -/
structure Record where
  id : String
  parentid : Option String := none
  kind : RecordKind := .item
  deleted : Bool := false
  title : Option String := none
  bmkUri : Option String := none
  tags : Option (List String) := none
  keyword : Option String := none
  description : Option String := none
  loadInSidebar : Option Bool := none
  staticTitle : Option String := none
  generatorUri : Option String := none
  siteUri : Option String := none
  feedUri : Option String := none
  folderName : Option String := none
  deriving DecidableEq, Repr

namespace Record

/-- The marker of a deletion. -/
def tombstone (id : String) : Record :=
  { id, deleted := true }

def member (name : String) (encode : α → Json) : Option α → List (String × Json)
  | some value => [(name, encode value)]
  | none => []

def toJson (record : Record) : Json :=
  .object
    ([("id", .string record.id)]
      ++ member "parentid" .string record.parentid
      ++ [("type", .string record.kind.name)]
      ++ (if record.deleted then [("deleted", .bool true)] else [])
      ++ member "title" .string record.title
      ++ member "bmkUri" .string record.bmkUri
      ++ member "tags" Json.ofStrings record.tags
      ++ member "keyword" .string record.keyword
      ++ member "description" .string record.description
      ++ member "loadInSidebar" .bool record.loadInSidebar
      ++ member "staticTitle" .string record.staticTitle
      ++ member "generatorUri" .string record.generatorUri
      ++ member "siteUri" .string record.siteUri
      ++ member "feedUri" .string record.feedUri
      ++ member "folderName" .string record.folderName)

def schema : Schema Record where
  declared :=
    [["id"], ["parentid"], ["type"], ["deleted"], ["title"], ["bmkUri"], ["tags"], ["keyword"],
      ["description"], ["loadInSidebar"], ["staticTitle"], ["generatorUri"], ["siteUri"],
      ["feedUri"], ["folderName"]]
  build
    | [id, parentid, kind, deleted, title, bmkUri, tags, keyword, description, loadInSidebar,
        staticTitle, generatorUri, siteUri, feedUri, folderName] => do
        pure
          { id := ← Json.required Json.asString? id
            parentid := ← Json.optional Json.asString? parentid
            kind := ← Json.defaulted .item RecordKind.ofJson? kind
            deleted := ← Json.defaulted false Json.asBool? deleted
            title := ← Json.optional Json.asString? title
            bmkUri := ← Json.optional Json.asString? bmkUri
            tags := ← Json.optional Json.asStrings? tags
            keyword := ← Json.optional Json.asString? keyword
            description := ← Json.optional Json.asString? description
            loadInSidebar := ← Json.optional Json.asBool? loadInSidebar
            staticTitle := ← Json.optional Json.asString? staticTitle
            generatorUri := ← Json.optional Json.asString? generatorUri
            siteUri := ← Json.optional Json.asString? siteUri
            feedUri := ← Json.optional Json.asString? feedUri
            folderName := ← Json.optional Json.asString? folderName }
    | _ => none

def text (record : Record) : String :=
  record.toJson.text

def parse? (text : String) : Option Record :=
  schema.parse? text

end Record

end SyncedBookmarks

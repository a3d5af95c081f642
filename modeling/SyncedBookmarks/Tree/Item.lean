import SyncedBookmarks.Error

namespace SyncedBookmarks

/-! The items of the local tree: bookmarks, folders and separators. -/

inductive ItemType where
  | bookmark
  | folder
  | separator
  deriving DecidableEq, Repr

namespace ItemType

def code : ItemType → Int
  | .bookmark => 1
  | .folder => 2
  | .separator => 3

def ofCode? (code : Int) : Option ItemType :=
  if code = 1 then some .bookmark
  else if code = 2 then some .folder
  else if code = 3 then some .separator
  else none

def name : ItemType → String
  | .bookmark => "Bookmark"
  | .folder => "Folder"
  | .separator => "Separator"

@[simp] theorem ofCode?_code (type : ItemType) : ofCode? type.code = some type := by
  cases type <;> rfl

theorem ofCode?_eq_some {code : Int} {type : ItemType} (h : ofCode? code = some type) :
    type.code = code := by
  unfold ofCode? at h
  repeat' split at h
  all_goals simp_all [ItemType.code]
  all_goals subst h; rfl

end ItemType

/-- An item as it is read. The parent may name a folder that is gone. -/
structure Item where
  id : Int
  guid : String
  parent : Option Int
  position : Int
  type : ItemType
  title : Option String
  url : Option String
  deriving DecidableEq, Repr

/-- An item as it is stored, with its keyword and its annotations. A type code without a meaning
makes the item unreadable. -/
structure Row where
  id : Int
  guid : String
  parent : Option Int
  position : Int
  typeCode : Int
  title : Option String
  url : Option String
  keyword : Option String := none
  annotations : List (String × String) := []
  deriving DecidableEq, Repr

namespace Row

def badTypeCode (code : Int) : TreeError :=
  .database s!"Integer {code} out of range at index 4"

def item (row : Row) : Except TreeError Item :=
  match ItemType.ofCode? row.typeCode with
  | some type =>
      .ok
        { id := row.id, guid := row.guid, parent := row.parent, position := row.position, type
          title := row.title, url := row.url }
  | none => .error (badTypeCode row.typeCode)

def annotationOf? (row : Row) (name : String) : Option String :=
  (row.annotations.find? (·.1 == name)).map (·.2)

def annotate (row : Row) (name value : String) : Row :=
  { row with annotations := row.annotations.filter (·.1 != name) ++ [(name, value)] }

def unannotate (row : Row) (name : String) : Row :=
  { row with annotations := row.annotations.filter (·.1 != name) }

end Row

/-! ### Names with a meaning to the tree and to synchronization -/

namespace RootGuid

def places : String := "places"
def menu : String := "menu"
def toolbar : String := "toolbar"
def unfiled : String := "unfiled"
def tags : String := "tags"

def all : List String :=
  [places, menu, toolbar, unfiled, tags]

end RootGuid

namespace RootId

def places : Int := 1
def menu : Int := 2
def toolbar : Int := 3
def tags : Int := 4
def unfiled : Int := 5

end RootId

namespace AnnotationName

def description : String := "bookmarkProperties/description"
def loadInSidebar : String := "bookmarkProperties/loadInSidebar"
def staticTitle : String := "bookmarks/staticTitle"
def feedUri : String := "livemark/feedURI"
def siteUri : String := "livemark/siteURI"
def generatorUri : String := "microsummary/generatorURI"

/-- The intended parent of an orphan, after a letter. -/
def intendedParent : String := "sync/parent"

/-- Those whose changes other clients get to see. -/
def synced : List String :=
  [description, loadInSidebar, staticTitle, feedUri, siteUri, generatorUri]

end AnnotationName

end SyncedBookmarks

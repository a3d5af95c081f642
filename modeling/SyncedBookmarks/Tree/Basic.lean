import SyncedBookmarks.Tree.GuidSource
import SyncedBookmarks.Tree.Item
import SyncedBookmarks.Url.Basic

namespace SyncedBookmarks

/-! The tree as a table of rows in order of id, and what can be looked up in it. -/

structure Tree where
  rows : List Row
  nextId : Int
  guids : GuidSource := .numbered

namespace Tree

def root (id : Int) (guid : String) (parent : Option Int) (position : Int) (title : String) : Row :=
  { id, guid, parent, position, typeCode := ItemType.folder.code, title := some title, url := none }

/-- The five roots alone. -/
def fresh (guids : GuidSource := .numbered) : Tree where
  rows :=
    [root RootId.places RootGuid.places none 0 "",
      root RootId.menu RootGuid.menu (some RootId.places) 0 "Bookmarks Menu",
      root RootId.toolbar RootGuid.toolbar (some RootId.places) 1 "Bookmarks Toolbar",
      root RootId.tags RootGuid.tags (some RootId.places) 2 "Tags",
      root RootId.unfiled RootGuid.unfiled (some RootId.places) 3 "Other Bookmarks"]
  nextId := 6
  guids := guids

/-! ### Lookups -/

def row? (tree : Tree) (id : Int) : Option Row :=
  tree.rows.find? (·.id == id)

def item? (tree : Tree) (id : Int) : Except TreeError (Option Item) :=
  match tree.row? id with
  | some row => row.item.map some
  | none => .ok none

def requireItem (tree : Tree) (id : Int) : Except TreeError Item := do
  match ← tree.item? id with
  | some item => pure item
  | none => throw (.itemNotFound id)

def idOfGuid? (tree : Tree) (guid : String) : Option Int :=
  (tree.rows.find? (·.guid == guid)).map (·.id)

def guidOf? (tree : Tree) (id : Int) : Option String :=
  (tree.row? id).map (·.guid)

def typeOf? (tree : Tree) (id : Int) : Except TreeError (Option ItemType) := do
  pure ((← tree.item? id).map (·.type))

def parentOf? (tree : Tree) (id : Int) : Except TreeError (Option Int) := do
  pure ((← tree.item? id).bind (·.parent))

def title? (tree : Tree) (id : Int) : Except TreeError (Option String) := do
  pure (← tree.requireItem id).title

def url? (tree : Tree) (id : Int) : Except TreeError (Option String) := do
  pure (← tree.requireItem id).url

def keyword? (tree : Tree) (id : Int) : Except TreeError (Option String) :=
  match tree.row? id with
  | some row => .ok row.keyword
  | none => .error (.itemNotFound id)

def requireFolder (tree : Tree) (id : Int) : Except TreeError Unit := do
  match ← tree.typeOf? id with
  | some .folder => pure ()
  | _ => throw (.invalidParent id)

/-! ### Children -/

def childRows (tree : Tree) (folder : Int) : List Row :=
  (tree.rows.filter (·.parent == some folder)).mergeSort fun a b => a.position ≤ b.position

/-- The items directly in a folder, in their order. -/
def children (tree : Tree) (folder : Int) : Except TreeError (List Item) :=
  (tree.childRows folder).mapM Row.item

/-- The position after the last child. -/
def appendSlot (tree : Tree) (folder : Int) : Int :=
  ((tree.rows.filter (·.parent == some folder)).map (·.position)).foldl max (-1) + 1

/-- As many steps as a walk that meets no item twice can take. -/
def walkLength (tree : Tree) : Nat :=
  tree.rows.length + 1

def climbsTo (tree : Tree) (ancestor : Int) : Nat → Int → Except TreeError Bool
  | 0, _ => .ok false
  | fuel + 1, id =>
      if id = ancestor then .ok true
      else do
        match ← tree.parentOf? id with
        | some parent => tree.climbsTo ancestor fuel parent
        | none => pure false

/-- Whether the way up from an item, itself included, meets `ancestor`. -/
def isWithin (tree : Tree) (id ancestor : Int) : Except TreeError Bool :=
  tree.climbsTo ancestor tree.walkLength id

/-! ### Annotations -/

def annotationOf? (tree : Tree) (id : Int) (name : String) : Option String :=
  (tree.row? id).bind (·.annotationOf? name)

def isAnnotated (tree : Tree) (id : Int) (name : String) : Bool :=
  (tree.annotationOf? id name).isSome

/-- Ids of the items with an annotation, and its values, in order of id. -/
def annotated (tree : Tree) (name : String) : List (Int × String) :=
  tree.rows.filterMap fun row => (row.annotationOf? name).map (row.id, ·)

def isLivemark (tree : Tree) (id : Int) : Bool :=
  tree.isAnnotated id AnnotationName.feedUri

/-! ### Changes to rows -/

def mapRows (tree : Tree) (select : Row → Bool) (change : Row → Row) : Tree :=
  { tree with rows := tree.rows.map fun row => if select row then change row else row }

def mapRow (tree : Tree) (id : Int) (change : Row → Row) : Tree :=
  tree.mapRows (·.id == id) change

def eraseRow (tree : Tree) (id : Int) : Tree :=
  { tree with rows := tree.rows.filter (·.id != id) }

/-- Moves the children from a position on one place down. -/
def openGap (tree : Tree) (folder position : Int) : Tree :=
  tree.mapRows (fun row => row.parent == some folder && decide (position ≤ row.position))
    fun row => { row with position := row.position + 1 }

/-- Moves the children after a position one place up. -/
def closeGap (tree : Tree) (folder position : Int) : Tree :=
  tree.mapRows (fun row => row.parent == some folder && decide (position < row.position))
    fun row => { row with position := row.position - 1 }

/-- The position that an index asks for: within the children, or after them. -/
def slot (tree : Tree) (folder index : Int) : Int :=
  let append := tree.appendSlot folder
  if index < 0 ∨ append ≤ index then append else index

/-- Makes the slot for an index free. -/
def reserve (tree : Tree) (folder index : Int) : Tree :=
  if index < 0 ∨ tree.appendSlot folder ≤ index then tree else tree.openGap folder index

def guidCandidate (tree : Tree) (count : Nat) : String :=
  tree.guids.candidate tree.nextId count

/-- A GUID that no item has: of more candidates than there are items, the first that is free. -/
def freshGuid (tree : Tree) : String :=
  let free := (List.range (tree.rows.length + 1)).find? fun count =>
    (tree.idOfGuid? (tree.guidCandidate count)).isNone
  tree.guidCandidate (free.getD 0)

def append (tree : Tree) (parent position : Int) (type : ItemType) (title url : Option String) :
    Tree where
  rows :=
    tree.rows ++
      [{ id := tree.nextId, guid := tree.freshGuid, parent := some parent, position
         typeCode := type.code, title, url }]
  nextId := tree.nextId + 1
  guids := tree.guids

end Tree

/-- An absolute URI is accepted as it stands. -/
def validateUri (uri : String) : Except TreeError String :=
  match Url.parse uri with
  | .ok _ => .ok uri
  | .error cause => .error (.invalidUri s!"{uri}: {cause.message}")

theorem eq_of_validateUri {uri checked : String} (h : validateUri uri = .ok checked) :
    checked = uri := by
  unfold validateUri at h
  split at h <;> simp_all

end SyncedBookmarks

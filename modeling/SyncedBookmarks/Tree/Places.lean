import SyncedBookmarks.Action
import SyncedBookmarks.Tree.Basic

namespace SyncedBookmarks

/-! The tree at work: every change is told to those who watch it, each time with the tree as it
stands then. -/

inductive Event where
  | batchBegun
  | batchEnded
  | added (id folder index : Int)
  /-- Sent while the item still exists. -/
  | removing (id : Int) (guid : String)
  | changed (id : Int) (property : String) (annotated : Bool) (value : String)
  | moved (id oldParent oldIndex newParent newIndex : Int)
  deriving DecidableEq, Repr

/-- Whether an event tells of an item, and not of the beginning or the end of a batch. -/
def Event.ofItem : Event → Bool
  | .batchBegun => false
  | .batchEnded => false
  | _ => true

structure Notice where
  event : Event
  tree : Tree

structure Places where
  tree : Tree
  /-- How many batches are open. -/
  depth : Nat := 0
  /-- What has been told, in order. -/
  notices : List Notice := []

abbrev TreeAction (α : Type) :=
  Action Places TreeError α

namespace Places

/-- Places the item at the end of its folder. -/
def atEnd : Int := -1

def look (view : Tree → α) : TreeAction α :=
  Action.read fun places => view places.tree

def check (view : Tree → Except TreeError α) : TreeAction α :=
  Action.check fun places => view places.tree

def edit (change : Tree → Tree) : TreeAction Unit :=
  Action.change fun places => { places with tree := change places.tree }

def tell (event : Event) : TreeAction Unit :=
  Action.change fun places =>
    { places with notices := places.notices ++ [⟨event, places.tree⟩] }

/-! ### Batches -/

def told (places : Places) (event : Event) : Places :=
  { places with notices := places.notices ++ [⟨event, places.tree⟩] }

/-- Opens a batch; only the outermost one is told. -/
def beginBatch (places : Places) : Places :=
  let opened := { places with depth := places.depth + 1 }
  if places.depth = 0 then opened.told .batchBegun else opened

def endBatch (places : Places) : Places :=
  let closed := { places with depth := places.depth - 1 }
  if closed.depth = 0 then closed.told .batchEnded else closed

def inBatch (places : Places) : Bool :=
  decide (0 < places.depth)

/-! ### Insertion -/

def insertItem (parent index : Int) (type : ItemType) (title url : Option String) :
    TreeAction Int := do
  check (·.requireFolder parent)
  let position ← look (·.slot parent index)
  edit (·.reserve parent index)
  let id ← look (·.nextId)
  edit (·.append parent position type title url)
  tell (.added id parent position)
  pure id

def insertBookmark (parent : Int) (uri : String) (index : Int) (title : Option String) :
    TreeAction Int := do
  let uri ← check fun _ => validateUri uri
  insertItem parent index .bookmark title (some uri)

def createFolder (parent : Int) (title : String) (index : Int) : TreeAction Int :=
  insertItem parent index .folder (some title) none

def insertSeparator (parent index : Int) : TreeAction Int :=
  insertItem parent index .separator none none

/-! ### Changes to one item -/

/-- Gives an item another GUID, unless an item has it already. -/
def setGuid (id : Int) (guid : String) : TreeAction Unit := do
  match ← look (·.idOfGuid? guid) with
  | some owner => if owner = id then pure () else throw (.guidInUse guid)
  | none =>
      if (← look (·.row? id)).isNone then throw (.itemNotFound id)
      else edit (·.mapRow id ({ · with guid }))

def setTitle (id : Int) (title : String) : TreeAction Unit := do
  if (← look (·.row? id)).isNone then throw (.itemNotFound id)
  edit (·.mapRow id ({ · with title := some title }))
  tell (.changed id "title" false title)

def isBookmarkRow (row : Row) : Bool :=
  row.typeCode = ItemType.bookmark.code

def setUrl (id : Int) (uri : String) : TreeAction Unit := do
  let uri ← check fun _ => validateUri uri
  if !(← look (·.row? id)).any isBookmarkRow then throw (.itemNotFound id)
  edit (·.mapRow id ({ · with url := some uri }))
  tell (.changed id "uri" false uri)

/-- Sets a keyword; an empty one is none. -/
def setKeyword (id : Int) (keyword : Option String) : TreeAction Unit := do
  let keyword := keyword.filter (!·.isEmpty)
  if (← look (·.row? id)).isNone then throw (.itemNotFound id)
  edit (·.mapRow id ({ · with keyword }))
  tell (.changed id "keyword" false (keyword.getD ""))

/-- Moves an item to another place, though never into itself. While it is between two places it
has no parent and takes no position. -/
def moveItem (id newParent index : Int) : TreeAction Unit := do
  let item ← check (·.requireItem id)
  check (·.requireFolder newParent)
  if ← check (·.isWithin newParent id) then throw (.invalidParent newParent)
  let oldParent := item.parent.getD (-1)
  if 0 ≤ oldParent then edit (·.closeGap oldParent item.position)
  edit (·.mapRow id ({ · with parent := none }))
  let position ← look (·.slot newParent index)
  edit (·.reserve newParent index)
  edit (·.mapRow id ({ · with parent := some newParent, position }))
  tell (.moved id oldParent item.position newParent position)

/-! ### Annotations -/

def annotate (id : Int) (name value : String) : TreeAction Unit := do
  let _ ← check (·.requireItem id)
  edit (·.mapRow id (·.annotate name value))
  tell (.changed id name true value)

/-- Removing an annotation that is not there changes nothing. -/
def unannotate (id : Int) (name : String) : TreeAction Unit := do
  if ← look (·.isAnnotated id name) then
    edit (·.mapRow id (·.unannotate name))
    tell (.changed id name true "")

/-! ### Removal -/

/-- Removes a single item, which may have moved up since it was looked at. -/
def deleteRow (id : Int) : TreeAction Unit := do
  let guid ← look (·.guidOf? id)
  tell (.removing id (guid.getD ""))
  let current ← check (·.requireItem id)
  edit (·.eraseRow current.id)
  match current.parent with
  | some parent => edit (·.closeGap parent current.position)
  | none => pure ()

/-- Removes what is in a folder, the last child first, and below a child before the child. -/
def emptyFolder : Nat → Int → TreeAction Unit
  | 0, _ => pure ()
  | fuel + 1, folder => do
      let children ← check (·.children folder)
      children.reverse.forM fun child => do
        if child.type = .folder then
          let _ ← check (·.requireItem child.id)
          emptyFolder fuel child.id
        deleteRow child.id

def removeChildren (folder : Int) : TreeAction Unit := do
  emptyFolder (← look (·.walkLength)) folder

def removeFolder (id : Int) : TreeAction Unit := do
  let folder ← check (·.requireItem id)
  removeChildren id
  deleteRow folder.id

/-- Removes an item, and all below it when it is a folder. -/
def removeItem (id : Int) : TreeAction Unit := do
  let item ← check (·.requireItem id)
  if item.type = .folder then removeFolder id else deleteRow id

/-! ### Tags

A tag is a folder in the root for tags, with a bookmark for each URI that has it. -/

def holdsUrl (uri : String) (items : List Item) : Bool :=
  items.any (·.url == some uri)

def tagFolder? (tag : String) : TreeAction (Option Int) := do
  let folders ← check (·.children RootId.tags)
  pure ((folders.find? fun item => item.type = .folder && item.title == some tag).map (·.id))

def addTag (uri tag : String) : TreeAction Unit := do
  let folder ←
    match ← tagFolder? tag with
    | some id => pure id
    | none => createFolder RootId.tags tag atEnd
  if !holdsUrl uri (← check (·.children folder)) then
    let _ ← insertBookmark folder uri atEnd none

/-- Tags a URI with every tag that is not empty. -/
def tagUri (uri : String) (tags : List String) : TreeAction Unit := do
  let uri ← check fun _ => validateUri uri
  (tags.filter (!·.isEmpty)).forM (addTag uri)

/-- Takes a URI out of a tag's folder, and the folder away once nothing is left in it. -/
def clearTag (uri : String) (folder : Int) : TreeAction Unit := do
  let children ← check (·.children folder)
  (children.filter (·.url == some uri)).forM fun child => deleteRow child.id
  if (children.filter (·.url != some uri)).isEmpty then deleteRow folder

/-- Whether a tag is among those to be removed; without a list all are. -/
def isWanted (tags : Option (List String)) (folder : Item) : Bool :=
  match tags with
  | some wanted => wanted.contains (folder.title.getD "")
  | none => true

def untagUri (uri : String) (tags : Option (List String)) : TreeAction Unit := do
  let uri ← check fun _ => validateUri uri
  let folders ← check (·.children RootId.tags)
  (folders.filter (isWanted tags)).forM fun folder => clearTag uri folder.id

/-! ### Livemarks

A livemark is a folder with the address of a feed. -/

def createLivemark (parent : Int) (title : String) (site : Option String) (feed : String)
    (index : Int) : TreeAction Int := do
  let feed ← check fun _ => validateUri feed
  let site ← check fun _ => site.mapM validateUri
  let id ← createFolder parent title index
  annotate id AnnotationName.feedUri feed
  match site with
  | some site => annotate id AnnotationName.siteUri site
  | none => pure ()
  pure id

def setSite (id : Int) (uri : String) : TreeAction Unit := do
  let uri ← check fun _ => validateUri uri
  annotate id AnnotationName.siteUri uri

def setFeed (id : Int) (uri : String) : TreeAction Unit := do
  let uri ← check fun _ => validateUri uri
  annotate id AnnotationName.feedUri uri

end Places

/-- The tags of a URI in order. -/
def Tree.tagsOf (tree : Tree) (uri : String) : Except TreeError (List String) := do
  let uri ← validateUri uri
  let folders ← tree.children RootId.tags
  let tagged ← folders.filterM fun folder => do
    pure (Places.holdsUrl uri (← tree.children folder.id))
  pure ((tagged.map (·.title.getD "")).mergeSort (· ≤ ·))

end SyncedBookmarks

import SyncedBookmarks.Store.Basic

namespace SyncedBookmarks

/-! Records of local items, for other clients. -/

namespace BookmarkStore

/-- The generator of an item's live title, when live titles are supported. -/
def generatorOf? (id : Int) : StoreAction (Option String) := do
  if (← Action.read generators).isSome then look (·.annotationOf? id AnnotationName.generatorUri)
  else pure none

def isQuery (uri : String) : Bool :=
  uri.startsWith "place:"

/-- The title of the folder that a query refers to, if there is one. -/
def queryFolderName? (tree : Tree) (uri : String) : Option String := do
  let folder ← Query.folderId? uri
  match tree.title? folder with
  | .ok title => title
  | .error _ => none

/-- The record of a bookmark without its parent; its kind follows from what it carries. -/
def bookmarkRecord (item : Item) : StoreAction Record := do
  let uri := item.url.getD ""
  let record : Record ←
    match ← generatorOf? item.id with
    | some generator => do
        let staticTitle ← look (·.annotationOf? item.id AnnotationName.staticTitle)
        pure
          { id := item.guid, kind := .microsummary, generatorUri := some generator
            staticTitle := some (staticTitle.getD "") }
    | none =>
        if isQuery uri then do
          pure { id := item.guid, kind := .query, folderName := ← look (queryFolderName? · uri) }
        else pure { id := item.guid, kind := .bookmark }
  let tags ← check (·.tagsOf uri)
  let keyword ← check (·.keyword? item.id)
  let description ← look (·.annotationOf? item.id AnnotationName.description)
  let loadInSidebar ← look (·.isAnnotated item.id AnnotationName.loadInSidebar)
  pure
    { record with
      title := item.title
      tags := some tags
      keyword, description
      loadInSidebar := some loadInSidebar
      bmkUri := some uri }

/-- The record of a folder without its parent. -/
def folderRecord (tree : Tree) (item : Item) : Record :=
  if tree.isLivemark item.id then
    { id := item.guid, kind := .livemark, title := item.title
      siteUri := tree.annotationOf? item.id AnnotationName.siteUri
      feedUri := tree.annotationOf? item.id AnnotationName.feedUri }
  else { id := item.guid, kind := .folder, title := item.title }

/-- The GUID of an item's parent. An item whose parent is gone moves to the unfiled folder. -/
def parentGuid (item : Item) : StoreAction String := do
  match ← look fun tree => item.parent.bind tree.guidOf? with
  | some guid => pure guid
  | none => do
      onTree (Places.moveItem item.id RootId.unfiled Places.atEnd)
      pure RootGuid.unfiled

def recordOf (item : Item) : StoreAction Record := do
  let record ←
    match item.type with
    | .bookmark => bookmarkRecord item
    | .folder => look (folderRecord · item)
    | .separator => pure { id := item.guid, kind := .separator }
  pure { record with parentid := some (← parentGuid item) }

def itemOfGuid? (tree : Tree) (guid : String) : Except TreeError (Option Item) :=
  match tree.idOfGuid? guid with
  | some id => tree.item? id
  | none => .ok none

/-- The record of the item with a GUID, a tombstone when there is none. -/
def createRecord (guid : String) : StoreAction Record := do
  match ← Action.read (cached? · guid) with
  | some record => pure record
  | none =>
      let record ←
        match ← check (itemOfGuid? · guid) with
        | some item => recordOf item
        | none => pure (Record.tombstone guid)
      Action.change (·.remember guid record)
      pure record

/-- Gives an item another GUID. The roots keep theirs. -/
def changeItemId (old new : String) : StoreAction Unit := do
  if RootGuid.all.contains old then pure ()
  else
    match ← look (·.idOfGuid? old), ← look (·.idOfGuid? new) with
    | none, _ => throw (.unknownItem old)
    | some id, some owner => if owner = id then pure () else throw (.guidCollision new)
    | some id, none => do
        onTree (Places.setGuid id new)
        Action.change (·.forget old)

/-! ### What is synced -/

/-- The GUIDs below a folder, without those in livemarks. -/
def idsBelow (tree : Tree) : Nat → Int → Except TreeError (List String)
  | 0, _ => .ok []
  | fuel + 1, folder =>
      if tree.isLivemark folder then .ok []
      else do
        let below ← (← tree.children folder).mapM fun child => do
          if child.type = .folder then pure (child.guid :: (← idsBelow tree fuel child.id))
          else pure [child.guid]
        pure below.flatten

/-- The roots whose content is synced. -/
def syncedRoots : List String :=
  [RootGuid.menu, RootGuid.toolbar, RootGuid.unfiled]

def allIds (tree : Tree) : Except TreeError (List String) := do
  let found ← (syncedRoots.filterMap tree.idOfGuid?).mapM (idsBelow tree tree.walkLength)
  pure found.flatten.eraseDups

/-- Removes everything that is synced, and all tags. -/
def wipe : StoreAction Unit := do
  (syncedRoots ++ [RootGuid.tags]).forM fun guid => do
    match ← look (·.idOfGuid? guid) with
    | some root => onTree (Places.removeChildren root)
    | none => pure ()
  Action.change clearCache

end BookmarkStore

end SyncedBookmarks

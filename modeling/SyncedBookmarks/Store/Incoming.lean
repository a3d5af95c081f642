import SyncedBookmarks.Store.Basic

namespace SyncedBookmarks

/-! Applying incoming records to the tree. An item whose parent has not arrived waits in the
unfiled folder, marked with the parent it wants, until that parent is there. -/

namespace BookmarkStore

/-- The letter before the GUID of an intended parent. -/
def orphanMark : String :=
  "T"

/-- Points a query at the local folder of the tag that it names. -/
def localizeQuery (record : Record) : StoreAction Record := do
  match record.bmkUri, record.folderName with
  | some uri, some tag =>
      onTree (Places.tagUri lookupUri [tag])
      let folders ← check (·.children RootId.tags)
      match (folders.find? (·.title == some tag)).bind (Query.withFolder? uri ·.id) with
      | some localized => pure { record with bmkUri := some localized }
      | none => pure record
  | _, _ => pure record

/-! ### Creation -/

def fillBookmark (id : Int) (record : Record) (uri : String) : StoreAction Unit := do
  match record.tags with
  | some tags => replaceTags uri tags
  | none => pure ()
  onTree (Places.setKeyword id record.keyword)
  match record.description.filter (!·.isEmpty) with
  | some description => onTree (Places.annotate id AnnotationName.description description)
  | none => pure ()
  if record.loadInSidebar = some true then
    onTree (Places.annotate id AnnotationName.loadInSidebar "true")
  if record.kind = .microsummary then
    onTree (Places.annotate id AnnotationName.staticTitle (record.staticTitle.getD ""))
    match record.generatorUri with
    | some generator => tryGenerator id generator
    | none => pure ()

def createBookmark (record : Record) (parent : Int) : StoreAction Int := do
  let uri ← require "bmkUri" record.bmkUri
  let id ← onTree (Places.insertBookmark parent uri Places.atEnd record.title)
  fillBookmark id record uri
  pure id

/-- Makes the item that a record describes, if its kind is one of items. -/
def createItem (record : Record) (parent : Int) : StoreAction (Option Int) := do
  match record.kind with
  | .bookmark => some <$> createBookmark record parent
  | .query => some <$> createBookmark record parent
  | .microsummary => some <$> createBookmark record parent
  | .folder =>
      some <$> onTree (Places.createFolder parent (record.title.getD "") Places.atEnd)
  | .livemark => do
      let feed ← require "feedUri" record.feedUri
      let title := record.title.getD ""
      some <$> onTree (Places.createLivemark parent title record.siteUri feed Places.atEnd)
  | .separator => some <$> onTree (Places.insertSeparator parent Places.atEnd)
  | .item => pure none
  | .unknown => throw (.unknownType record.kind.name)

def create (record : Record) (parent : Option Int) : StoreAction Unit := do
  let parent ← require "parentid" parent
  match ← createItem record parent with
  | some id =>
      if (← look (·.guidOf? id)) ≠ some record.id then
        onTree (Places.setGuid id record.id)
  | none => pure ()

/-! ### Update -/

def updateDescription (id : Int) (description : String) : TreeAction Unit :=
  if description.isEmpty then Places.unannotate id AnnotationName.description
  else Places.annotate id AnnotationName.description description

def updateSidebar (id : Int) (load : Bool) : TreeAction Unit :=
  if load then Places.annotate id AnnotationName.loadInSidebar "true"
  else Places.unannotate id AnnotationName.loadInSidebar

/-- Moves an item to the end of its new parent, unless that is its parent already. -/
def updateParent (id parent : Int) : TreeAction Unit := do
  if (← Places.check (·.parentOf? id)) ≠ some parent then
    Places.moveItem id parent Places.atEnd

/-- The tags go to whatever URI the item has by now. -/
def updateTags (id : Int) (tags : List String) : StoreAction Unit := do
  match ← check (·.url? id) with
  | some uri => replaceTags uri tags
  | none => pure ()

def updateGenerator (id : Int) (generator : String) : StoreAction Unit := do
  match ← look (·.url? id) with
  | .ok (some _) => tryGenerator id generator
  | _ => pure ()

/-- Changes what the record has fields for. -/
def update (record : Record) (parent : Option Int) : StoreAction Unit := do
  match ← look (·.idOfGuid? record.id) with
  | none => pure ()
  | some id =>
      parent.forM fun parent => onTree (updateParent id parent)
      record.title.forM fun title => onTree (Places.setTitle id title)
      record.bmkUri.forM fun uri => onTree (Places.setUrl id uri)
      record.tags.forM (updateTags id)
      record.keyword.forM fun keyword => onTree (Places.setKeyword id (some keyword))
      record.description.forM fun description => onTree (updateDescription id description)
      record.loadInSidebar.forM fun load => onTree (updateSidebar id load)
      record.generatorUri.forM (updateGenerator id)
      record.siteUri.forM fun site => onTree (Places.setSite id site)
      record.feedUri.forM fun feed => onTree (Places.setFeed id feed)

/-! ### Removal -/

def removeBookmark (id : Int) : TreeAction Unit := do
  (← Places.check (·.url? id)).forM fun uri => Places.untagUri uri none
  Places.removeItem id

def remove (record : Record) : StoreAction Unit := do
  match ← look (·.idOfGuid? record.id) with
  | none => pure ()
  | some id =>
      match ← check (·.typeOf? id) with
      | some .bookmark => onTree (removeBookmark id)
      | some .folder => onTree (Places.removeFolder id)
      | some .separator => onTree (Places.removeItem id)
      | none => pure ()

/-! ### Any record -/

/-- Where a record's item goes: to its parent, or, while there is no such item, to the unfiled
folder; and the parent it then waits for. -/
def destination (tree : Tree) (parentid : Option String) : Option Int × Option String :=
  match parentid with
  | some guid =>
      match tree.idOfGuid? guid with
      | some id => (some id, none)
      | none => (some RootId.unfiled, some guid)
  | none => (none, none)

def markOrphan (id : Int) (parent : Option Int) (orphanOf : Option String) : TreeAction Unit :=
  match orphanOf with
  | some guid => Places.annotate id AnnotationName.intendedParent (orphanMark ++ guid)
  | none =>
      if parent.isSome then Places.unannotate id AnnotationName.intendedParent else pure ()

/-- Applies an incoming record. The roots are never changed from outside. -/
def applyIncoming (record : Record) : StoreAction Unit := do
  if RootGuid.all.contains record.id then pure ()
  else
    let record ← if record.kind = .query then localizeQuery record else pure record
    let (parent, orphanOf) ← look (destination · record.parentid)
    if record.deleted then remove record
    else if ← exists? record.id then update record parent
    else create record parent
    Action.change (·.forget record.id)
    match ← look (·.idOfGuid? record.id) with
    | some id => onTree (markOrphan id parent orphanOf)
    | none => pure ()

/-! ### Orphans -/

def intendedParent (mark : String) : String :=
  if mark.startsWith orphanMark then String.ofList (mark.toList.drop 1) else mark

/-- Moves an orphan to the parent it waits for, if that is there and may hold it. -/
def reparent (id : Int) (mark : String) : StoreAction Bool := do
  match ← look (·.idOfGuid? (intendedParent mark)) with
  | none => pure false
  | some parent =>
      match ← (Action.attempt (onTree (Places.moveItem id parent Places.atEnd)) :
          StoreAction (Except StoreError Unit)) with
      | .error _ => pure false
      | .ok () =>
          onTree (Places.unannotate id AnnotationName.intendedParent)
          match ← look (·.guidOf? id) with
          | some guid => Action.change (·.forget guid)
          | none => pure ()
          pure true

def reparentAll : List (Int × String) → StoreAction Nat
  | [] => pure 0
  | (id, mark) :: rest => do
      let moved ← reparent id mark
      let more ← reparentAll rest
      pure (if moved then more + 1 else more)

/-- Moves every orphan whose parent has arrived, and tells how many that were. -/
def reparentOrphans : StoreAction Nat := do
  reparentAll (← look (·.annotated AnnotationName.intendedParent))

end BookmarkStore

end SyncedBookmarks

import SyncedBookmarks.Query
import SyncedBookmarks.Record
import SyncedBookmarks.Tree.Places

namespace SyncedBookmarks

/-! The bookmark store: the tree with a cache of the records made from it. -/

structure BookmarkStore where
  places : Places
  /-- Records by GUID, of items that have not been written since. -/
  cache : List (String × Record) := []
  /-- The microsummary generators that are installed; `none` when live titles are not supported. -/
  generators : Option (List String) := none

abbrev StoreAction (α : Type) :=
  Action BookmarkStore StoreError α

namespace BookmarkStore

def tree (store : BookmarkStore) : Tree :=
  store.places.tree

def cached? (store : BookmarkStore) (guid : String) : Option Record :=
  (store.cache.find? (·.1 == guid)).map (·.2)

def forget (store : BookmarkStore) (guid : String) : BookmarkStore :=
  { store with cache := store.cache.filter (·.1 != guid) }

def remember (store : BookmarkStore) (guid : String) (record : Record) : BookmarkStore :=
  { store with cache := store.cache.filter (·.1 != guid) ++ [(guid, record)] }

def clearCache (store : BookmarkStore) : BookmarkStore :=
  { store with cache := [] }

/-- A step on the tree. -/
def onTree (action : TreeAction α) : StoreAction α :=
  action.within places (fun places store => { store with places }) .tree

def look (view : Tree → α) : StoreAction α :=
  Action.read fun store => view store.tree

def check (view : Tree → Except TreeError α) : StoreAction α :=
  onTree (Places.check view)

def require (name : String) (value : Option α) : StoreAction α :=
  match value with
  | some value => pure value
  | none => throw (.missingField name)

/-- A URI that is tagged while a query looks for its folder. -/
def lookupUri : String :=
  "about:bookmark-sync#preprocess"

/-- A URI that keeps tag folders from being emptied while another one's tags are replaced. -/
def holdingUri : String :=
  "about:bookmark-sync#tag-uri"

/-- Replaces the tags of a URI. A tag that it keeps stays the same folder. -/
def replaceTags (uri : String) (tags : List String) : StoreAction Unit := do
  let tags := tags.filter (!·.isEmpty)
  onTree (Places.tagUri holdingUri tags)
  onTree (Places.untagUri uri none)
  onTree (Places.tagUri uri tags)
  onTree (Places.untagUri holdingUri none)

/-- Binds a generator of live titles to an item. -/
def bindGenerator (id : Int) (generator : String) : StoreAction Unit := do
  match ← Action.read generators with
  | none => pure ()
  | some installed =>
      if installed.contains generator then
        onTree (Places.annotate id AnnotationName.generatorUri generator)
      else throw (.generatorNotFound generator)

/-- Binds a generator if nothing prevents it. -/
def tryGenerator (id : Int) (generator : String) : StoreAction Unit := do
  let _ : Except StoreError Unit ← Action.attempt (bindGenerator id generator)

def exists? (guid : String) : StoreAction Bool :=
  look fun tree => (tree.idOfGuid? guid).isSome

end BookmarkStore

end SyncedBookmarks

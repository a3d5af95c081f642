import SyncedBookmarks.Ledger
import SyncedBookmarks.Tree.Places

namespace SyncedBookmarks

/-! The tracker watches the tree and collects the GUIDs of items to be uploaded, with a score that
tells how much has changed. -/

structure Tracker where
  /-- Without repetition. -/
  changed : List String := []
  ignored : List String := RootGuid.all
  score : Nat := 0
  /-- While set, nothing that the tree tells is heard. -/
  suppressed : Bool := false
  /-- The collection under which changes are kept in the ledger, if they are kept. -/
  journal : Option String := none
  ledger : Ledger := {}

namespace Tracker

/-- What an item adds to the score when it first becomes dirty. -/
def increment : Nat := 10

/-- A tracker as after a start, which takes up the changes that the ledger kept. -/
def resume (journal : Option String) (ledger : Ledger) : Tracker where
  changed := match journal with | some collection => ledger.changesOf collection | none => []
  journal := journal
  ledger := ledger

def withJournal (tracker : Tracker) (write : Ledger → String → Ledger) : Tracker :=
  match tracker.journal with
  | some collection => { tracker with ledger := write tracker.ledger collection }
  | none => tracker

/-- Marks an item changed; tells whether it was clean. -/
def add (tracker : Tracker) (guid : String) : Bool × Tracker :=
  if tracker.ignored.contains guid || tracker.changed.contains guid then (false, tracker)
  else
    (true,
      { tracker with changed := tracker.changed ++ [guid] }.withJournal
        fun ledger collection => ledger.addChange collection guid)

def addAll (tracker : Tracker) (guids : List String) : Tracker :=
  guids.foldl (fun tracker guid => (tracker.add guid).2) tracker

def remove (tracker : Tracker) (guid : String) : Tracker :=
  if tracker.changed.contains guid then
    { tracker with changed := tracker.changed.filter (· != guid) }.withJournal
      fun ledger collection => ledger.removeChange collection guid
  else tracker

def removeAll (tracker : Tracker) (guids : List String) : Tracker :=
  guids.foldl remove tracker

def clear (tracker : Tracker) : Tracker :=
  { tracker with changed := [] }.withJournal fun ledger collection => ledger.clearChanges collection

def ignore (tracker : Tracker) (guid : String) : Tracker :=
  if tracker.ignored.contains guid then tracker
  else { tracker with ignored := tracker.ignored ++ [guid] }

def unignore (tracker : Tracker) (guid : String) : Tracker :=
  { tracker with ignored := tracker.ignored.filter (· != guid) }

def resetScore (tracker : Tracker) : Tracker :=
  { tracker with score := 0 }

def suppress (tracker : Tracker) (suppressed : Bool) : Tracker :=
  { tracker with suppressed }

/-- The parent of an item, `none` also when it cannot be read. -/
def parentIn (tree : Tree) (id : Int) : Option Int :=
  match tree.parentOf? id with
  | .ok parent => parent
  | .error _ => none

/-- What a folder holds is not synced when the folder is the root for tags, a tag, or a
livemark. -/
def isUnsyncedFolder (tree : Tree) (folder : Int) : Bool :=
  folder == RootId.tags || parentIn tree folder == some RootId.tags || tree.isLivemark folder

/-- Whether a change to an item is passed over; its folder is looked up when it is not given. -/
def passesOver (tracker : Tracker) (tree : Tree) (id : Int) (folder : Option Int) : Bool :=
  tracker.suppressed ||
    match folder <|> parentIn tree id with
    | some folder => isUnsyncedFolder tree folder
    | none => false

def touch (tracker : Tracker) (tree : Tree) (id : Int) : Tracker :=
  match tree.guidOf? id with
  | some guid =>
      match tracker.add guid with
      | (true, tracker) => { tracker with score := tracker.score + increment }
      | (false, tracker) => tracker
  | none => tracker

def hear (tracker : Tracker) (notice : Notice) : Tracker :=
  let tree := notice.tree
  match notice.event with
  | .batchBegun => tracker
  | .batchEnded => tracker
  | .added id folder _ =>
      if tracker.passesOver tree id (some folder) then tracker else tracker.touch tree id
  | .removing id _ => if tracker.passesOver tree id none then tracker else tracker.touch tree id
  | .changed id property annotated _ =>
      if tracker.passesOver tree id none || (annotated && !AnnotationName.synced.contains property)
      then tracker
      else tracker.touch tree id
  | .moved id _ _ _ _ =>
      if tracker.passesOver tree id none then tracker else tracker.touch tree id

def hearAll (tracker : Tracker) (notices : List Notice) : Tracker :=
  notices.foldl hear tracker

end Tracker

end SyncedBookmarks

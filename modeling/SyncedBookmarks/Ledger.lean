import SyncedBookmarks.StoredRecord

namespace SyncedBookmarks

/-! What is kept for each collection between passes: the server's time of the last pass, and the
items changed since. -/

structure Ledger where
  times : List (String × Timestamp) := []
  changes : List (String × String) := []
  deriving DecidableEq

namespace Ledger

/-- The time of the last pass; zero when there was none. -/
def lastSync (ledger : Ledger) (collection : String) : Timestamp :=
  ((ledger.times.find? (·.1 == collection)).map (·.2)).getD Binary64.zero

def setLastSync (ledger : Ledger) (collection : String) (time : Timestamp) : Ledger :=
  { ledger with times := ledger.times.filter (·.1 != collection) ++ [(collection, time)] }

def changesOf (ledger : Ledger) (collection : String) : List String :=
  (ledger.changes.filter (·.1 == collection)).map (·.2)

def addChange (ledger : Ledger) (collection guid : String) : Ledger :=
  if ledger.changes.contains (collection, guid) then ledger
  else { ledger with changes := ledger.changes ++ [(collection, guid)] }

def removeChange (ledger : Ledger) (collection guid : String) : Ledger :=
  { ledger with changes := ledger.changes.filter (· != (collection, guid)) }

def clearChanges (ledger : Ledger) (collection : String) : Ledger :=
  { ledger with changes := ledger.changes.filter (·.1 != collection) }

@[simp] theorem lastSync_setLastSync (ledger : Ledger) (collection : String) (time : Timestamp) :
    (ledger.setLastSync collection time).lastSync collection = time := by
  have : (ledger.times.filter (·.1 != collection)).find? (·.1 == collection) = none := by
    simp [List.find?_eq_none]
  simp [lastSync, setLastSync, List.find?_append, this]

@[simp] theorem changesOf_clearChanges (ledger : Ledger) (collection : String) :
    (ledger.clearChanges collection).changesOf collection = [] := by
  simp [changesOf, clearChanges, List.filter_filter]

end Ledger

end SyncedBookmarks

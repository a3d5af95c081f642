namespace SyncedBookmarks

/-! Where a tree takes the GUIDs of new items from. -/

/-- The GUIDs that the item with a number may get, in the order in which they are tried. -/
structure GuidSource where
  candidate : Int → Nat → String
  distinct : ∀ id first second, candidate id first = candidate id second → first = second

namespace GuidSource

/-- The number of the item between a tilde and one or more null characters, which keep it apart
from the names that other clients give. -/
def numberedCandidate (id : Int) (count : Nat) : String :=
  "~" ++ toString id ++ String.ofList (List.replicate (count + 1) '\x00')

theorem numberedCandidate_distinct (id : Int) (first second : Nat)
    (h : numberedCandidate id first = numberedCandidate id second) : first = second := by
  have hlength := congrArg String.length h
  simpa [numberedCandidate, String.length_append] using hlength

def numbered : GuidSource where
  candidate := numberedCandidate
  distinct := numberedCandidate_distinct

instance : Inhabited GuidSource := ⟨numbered⟩

end GuidSource

end SyncedBookmarks

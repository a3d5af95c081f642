namespace SyncedBookmarks

/-! Saved queries: the folder that a query's URI refers to by number. -/

namespace Query

def key : List Char :=
  "folder=".toList

/-- A URI around the digits of its folder reference. -/
structure FolderReference where
  before : List Char
  digits : List Char
  after : List Char
  deriving DecidableEq, Repr

/-- Whether a reference may begin here: after a colon or an ampersand. -/
def opensReference : Option Char → Bool
  | some ':' => true
  | some '&' => true
  | _ => false

def startsWithDigit : List Char → Bool
  | c :: _ => c.isDigit
  | [] => false

/-- The first folder reference with a number in a text that follows the character `previous`. -/
def findReference? (previous : Option Char) : List Char → Option FolderReference
  | [] => none
  | c :: rest =>
      let tail := (c :: rest).drop key.length
      if opensReference previous ∧ key.isPrefixOf (c :: rest) ∧ startsWithDigit tail then
        some ⟨key, tail.takeWhile Char.isDigit, tail.dropWhile Char.isDigit⟩
      else
        (findReference? (some c) rest).map fun found => { found with before := c :: found.before }

def reference? (uri : String) : Option FolderReference :=
  findReference? none uri.toList

def digitsValue (digits : List Char) : Nat :=
  digits.foldl (fun value c => value * 10 + (c.toNat - 48)) 0

/-- The number of the folder, if it fits in 64 signed bits. -/
def folderId? (uri : String) : Option Int := do
  let found ← reference? uri
  let value := digitsValue found.digits
  if value < Nat.pow 2 63 then some value else none

/-- The URI with another folder in place of the one it refers to. -/
def withFolder? (uri : String) (folder : Int) : Option String := do
  let found ← reference? uri
  some (String.ofList (found.before ++ (toString folder).toList ++ found.after))

end Query

end SyncedBookmarks

namespace SyncedBookmarks

/-! Tables of code points, written as hexadecimal text. -/

namespace Unicode

def hexDigit (c : Char) : Nat :=
  if c.isDigit then c.toNat - 48 else c.toNat - 87

def hexNumber (text : List Char) : Nat :=
  text.foldl (fun value c => value * 16 + hexDigit c) 0

/-- The pieces of a text between the separators. -/
def pieces (isSeparator : Char → Bool) (text : List Char) : List (List Char) :=
  let (piece, rest) := text.foldr
    (fun c (piece, rest) =>
      if isSeparator c then ([], piece :: rest) else (c :: piece, rest))
    ([], [])
  piece :: rest

def tokens (text : String) : List (List Char) :=
  (pieces (fun c => c = ' ' || c = '\n') text.toList).filter (!·.isEmpty)

structure Ranges where
  bounds : Array (Nat × Nat)

/-- Reads code points and ranges of them, between blanks. -/
def Ranges.ofText (text : String) : Ranges :=
  ⟨((tokens text).filterMap fun token =>
    match pieces (· = '-') token with
    | [first] => some (hexNumber first, hexNumber first)
    | [first, last] => some (hexNumber first, hexNumber last)
    | _ => none).toArray⟩

def Ranges.contains (ranges : Ranges) (c : Char) : Bool :=
  ranges.bounds.any fun (first, last) => first ≤ c.toNat && c.toNat ≤ last

/-- Reads triples of numbers, joined by points, between blanks. -/
def tripleList (text : String) : Array (Nat × Nat × Nat) :=
  ((tokens text).filterMap fun token =>
    match pieces (· = '.') token with
    | [a, b, c] => some (hexNumber a, hexNumber b, hexNumber c)
    | _ => none).toArray

/-- What takes the place of every `step`th code point from `first` to `last`; a single code point
as replacement moves along with them. -/
structure Replacement where
  first : Nat
  last : Nat
  step : Nat
  text : List Nat

def Replacement.ofSource (source : List Char) (text : List Nat) : Option Replacement :=
  match pieces (· = '-') source, pieces (· = '=') source with
  | [first, last], _ => some ⟨hexNumber first, hexNumber last, 1, text⟩
  | _, [first, last] => some ⟨hexNumber first, hexNumber last, 2, text⟩
  | [first], _ => some ⟨hexNumber first, hexNumber first, 1, text⟩
  | _, _ => none

def Replacement.list (text : String) : Array Replacement :=
  ((tokens text).filterMap fun token =>
    match pieces (· = ':') token with
    | [source, target] =>
        Replacement.ofSource source ((pieces (· = '.') target).map hexNumber)
    | _ => none).toArray

def Replacement.textFor? (entry : Replacement) (c : Char) : Option (List Char) :=
  let code := c.toNat
  if entry.first ≤ code ∧ code ≤ entry.last ∧ (code - entry.first) % entry.step = 0 then
    match entry.text with
    | [target] => some [Char.ofNat (target + (code - entry.first))]
    | text => some (text.map Char.ofNat)
  else none

end Unicode

end SyncedBookmarks

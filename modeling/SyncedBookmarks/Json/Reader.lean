import SyncedBookmarks.Json.Value

namespace SyncedBookmarks

/-! Reading JSON text. -/

namespace Json

def isBlank (c : Char) : Bool :=
  c = ' ' || c = '\n' || c = '\t' || c = '\r'

def skipBlank (input : List Char) : List Char :=
  input.dropWhile isBlank

def hexValue? (c : Char) : Option Nat :=
  if '0' ≤ c ∧ c ≤ '9' then some (c.toNat - 48)
  else if 'a' ≤ c ∧ c ≤ 'f' then some (c.toNat - 87)
  else if 'A' ≤ c ∧ c ≤ 'F' then some (c.toNat - 55)
  else none

def unit? (a b c d : Char) : Option Nat := do
  let a ← hexValue? a
  let b ← hexValue? b
  let c ← hexValue? c
  let d ← hexValue? d
  pure (((a * 16 + b) * 16 + c) * 16 + d)

def simpleEscape? : Char → Option Char
  | '"' => some '"'
  | '\\' => some '\\'
  | '/' => some '/'
  | 'b' => some '\x08'
  | 'f' => some '\x0c'
  | 'n' => some '\n'
  | 'r' => some '\r'
  | 't' => some '\t'
  | _ => none

/-! ### Strings -/

/-- The characters up to the closing quote, escapes as they stand, and what follows the quote. -/
def splitString : List Char → Option (List Char × List Char)
  | [] => none
  | '"' :: rest => some ([], rest)
  | '\\' :: c :: rest => (splitString rest).map fun (raw, rest) => ('\\' :: c :: raw, rest)
  | c :: rest =>
      if c.toNat < 0x20 then none else (splitString rest).map fun (raw, rest) => (c :: raw, rest)

/-- The characters that a string's text stands for. An escaped surrogate needs its partner. -/
def unescape? : List Char → Option (List Char)
  | [] => some []
  | '\\' :: 'u' :: a :: b :: c :: d :: rest => do
      let unit ← unit? a b c d
      if 0xdc00 ≤ unit ∧ unit ≤ 0xdfff then none
      else if 0xd800 ≤ unit ∧ unit ≤ 0xdbff then
        match rest with
        | '\\' :: 'u' :: e :: f :: g :: h :: rest => do
            let low ← unit? e f g h
            if 0xdc00 ≤ low ∧ low ≤ 0xdfff then
              let code := 0x10000 + (unit - 0xd800) * 0x400 + (low - 0xdc00)
              (unescape? rest).map (Char.ofNat code :: ·)
            else none
        | _ => none
      else (unescape? rest).map (Char.ofNat unit :: ·)
  | '\\' :: c :: rest => do
      let c ← simpleEscape? c
      (unescape? rest).map (c :: ·)
  | c :: rest => (unescape? rest).map (c :: ·)

/-- Whether every escape of a string's text is well formed, surrogates paired or not. -/
def escapesFormed : List Char → Bool
  | [] => true
  | '\\' :: 'u' :: a :: b :: c :: d :: rest => (unit? a b c d).isSome && escapesFormed rest
  | '\\' :: c :: rest => (simpleEscape? c).isSome && escapesFormed rest
  | _ :: rest => escapesFormed rest

/-- A string after its opening quote. -/
def readString? (input : List Char) : Option (String × List Char) := do
  let (raw, rest) ← splitString input
  let chars ← unescape? raw
  pure (String.ofList chars, rest)

/-! ### Numbers -/

def digitValue (c : Char) : Nat :=
  c.toNat - 48

/-- Adds decimal digits to a significand while it stays below `2 ^ 64`. Returns the significand,
the number of digits used and the rest of the input. -/
def readSignificand (value used : Nat) : List Char → Nat × Nat × List Char
  | [] => (value, used, [])
  | c :: rest =>
      if c.isDigit ∧ value * 10 + digitValue c < Nat.pow 2 64 then
        readSignificand (value * 10 + digitValue c) (used + 1) rest
      else (value, used, c :: rest)

def startsWithDigit : List Char → Bool
  | c :: _ => c.isDigit
  | [] => false

def signed (negative : Bool) (x : Binary64) : JsonNumber :=
  .real (if negative then x.neg else x)

/-- An exponent too long for 32 bits gives zero, or no number when it would be huge. -/
def withExponent? (negative : Bool) (significand : Nat) (base : Int) (input : List Char) :
    Option (JsonNumber × List Char) :=
  let (down, input) :=
    match input with
    | '+' :: rest => (false, rest)
    | '-' :: rest => (true, rest)
    | rest => (false, rest)
  let digits := input.takeWhile Char.isDigit
  let rest := input.dropWhile Char.isDigit
  let exponent := digits.foldl (fun value c => value * 10 + digitValue c) 0
  if digits.isEmpty then none
  else if exponent < Nat.pow 2 31 then do
    let x ← Binary64.ofDecimal? significand (if down then base - exponent else base + exponent)
    pure (signed negative x, rest)
  else if significand ≠ 0 ∧ !down then none
  else some (signed negative Binary64.zero, rest)

/-- What may follow the digits of a number that is not a whole one. -/
def endReal? (negative : Bool) (significand : Nat) (base : Int) :
    List Char → Option (JsonNumber × List Char)
  | 'e' :: rest => withExponent? negative significand base rest
  | 'E' :: rest => withExponent? negative significand base rest
  | rest => do
      let x ← Binary64.ofDecimal? significand base
      pure (signed negative x, rest)

/-- The digits after a decimal point; those that no longer fit are dropped. -/
def readFraction? (negative : Bool) (significand : Nat) (base : Int) (input : List Char) :
    Option (JsonNumber × List Char) :=
  let (value, used, rest) := readSignificand significand 0 input
  if startsWithDigit input then
    endReal? negative value (base - used) (rest.dropWhile Char.isDigit)
  else none

/-- The number whose leading digits have been read. -/
def endNumber? (negative : Bool) (significand : Nat) :
    List Char → Option (JsonNumber × List Char)
  | '.' :: rest => readFraction? negative significand 0 rest
  | input =>
      if input.head? = some 'e' ∨ input.head? = some 'E' then
        endReal? negative significand 0 input
      else if startsWithDigit input then
        let dropped := input.takeWhile Char.isDigit
        match input.dropWhile Char.isDigit with
        | '.' :: rest => readFraction? negative significand dropped.length rest
        | rest => endReal? negative significand dropped.length rest
      else if !negative then some (.natural significand, input)
      else if 0 < significand ∧ significand ≤ Nat.pow 2 63 then
        some (.negative significand, input)
      else (Binary64.ofNat? significand).map fun x => (signed true x, input)

def readNumber? (input : List Char) : Option (JsonNumber × List Char) :=
  let (negative, input) :=
    match input with
    | '-' :: rest => (true, rest)
    | rest => (false, rest)
  match input with
  | '0' :: rest => if startsWithDigit rest then none else endNumber? negative 0 rest
  | c :: rest =>
      if c.isDigit then
        let (value, _, rest) := readSignificand (digitValue c) 1 rest
        endNumber? negative value rest
      else none
  | [] => none

/-- The rest of the input after a number, however large. -/
def skipNumber? (input : List Char) : Option (List Char) := do
  let input := match input with | '-' :: rest => rest | rest => rest
  let afterWhole ← match input with
    | '0' :: rest => if startsWithDigit rest then none else some rest
    | rest => if startsWithDigit rest then some (rest.dropWhile Char.isDigit) else none
  let afterFraction ← match afterWhole with
    | '.' :: rest => if startsWithDigit rest then some (rest.dropWhile Char.isDigit) else none
    | rest => some rest
  if afterFraction.head? = some 'e' ∨ afterFraction.head? = some 'E' then
    let digits := match afterFraction.drop 1 with
      | '+' :: rest => rest
      | '-' :: rest => rest
      | rest => rest
    if startsWithDigit digits then some (digits.dropWhile Char.isDigit) else none
  else some afterFraction

/-! ### Values -/

def expect? (c : Char) : List Char → Option (List Char)
  | d :: rest => if c = d then some rest else none
  | [] => none

def expectAll? (word : List Char) (input : List Char) : Option (List Char) :=
  word.foldlM (fun input c => expect? c input) input

mutual

/-- Reads a value whose lists and objects nest at most `depth` deep. -/
def readValue? : Nat → Nat → List Char → Option (Json × List Char)
  | 0, _, _ => none
  | fuel + 1, depth, input =>
      match skipBlank input with
      | '"' :: rest => (readString? rest).map fun (text, rest) => (.string text, rest)
      | '[' :: rest =>
          match depth, skipBlank rest with
          | 0, _ => none
          | _ + 1, ']' :: rest => some (.array [], rest)
          | depth + 1, rest =>
              (readItems? fuel depth rest).map fun (items, rest) => (.array items, rest)
      | '\x7b' :: rest =>
          match depth, skipBlank rest with
          | 0, _ => none
          | _ + 1, '\x7d' :: rest => some (.object [], rest)
          | depth + 1, rest =>
              (readMembers? fuel depth rest).map fun (members, rest) => (.object members, rest)
      | 'n' :: rest => (expectAll? ['u', 'l', 'l'] rest).map fun rest => (.null, rest)
      | 't' :: rest => (expectAll? ['r', 'u', 'e'] rest).map fun rest => (.bool true, rest)
      | 'f' :: rest => (expectAll? ['a', 'l', 's', 'e'] rest).map fun rest => (.bool false, rest)
      | rest => (readNumber? rest).map fun (found, rest) => (.number found, rest)

def readItems? : Nat → Nat → List Char → Option (List Json × List Char)
  | 0, _, _ => none
  | fuel + 1, depth, input => do
      let (item, rest) ← readValue? fuel depth input
      match skipBlank rest with
      | ',' :: rest => (readItems? fuel depth rest).map fun (items, rest) => (item :: items, rest)
      | ']' :: rest => some ([item], rest)
      | _ => none

def readMembers? : Nat → Nat → List Char → Option (List (String × Json) × List Char)
  | 0, _, _ => none
  | fuel + 1, depth, input => do
      let rest ← expect? '"' (skipBlank input)
      let (name, rest) ← readString? rest
      let rest ← expect? ':' (skipBlank rest)
      let (value, rest) ← readValue? fuel depth rest
      match skipBlank rest with
      | ',' :: rest =>
          (readMembers? fuel depth rest).map fun (members, rest) => ((name, value) :: members, rest)
      | '\x7d' :: rest => some ([(name, value)], rest)
      | _ => none

end

mutual

/-- The rest of the input after a value that is not looked at: surrogates need no partner, numbers
no bound, and nesting is free. -/
def skipValue? : Nat → List Char → Option (List Char)
  | 0, _ => none
  | fuel + 1, input =>
      match skipBlank input with
      | '"' :: rest => do
          let (raw, rest) ← splitString rest
          if escapesFormed raw then some rest else none
      | '[' :: rest =>
          match skipBlank rest with
          | ']' :: rest => some rest
          | rest => skipItems? fuel rest
      | '\x7b' :: rest =>
          match skipBlank rest with
          | '\x7d' :: rest => some rest
          | rest => skipMembers? fuel rest
      | 'n' :: rest => expectAll? ['u', 'l', 'l'] rest
      | 't' :: rest => expectAll? ['r', 'u', 'e'] rest
      | 'f' :: rest => expectAll? ['a', 'l', 's', 'e'] rest
      | rest => skipNumber? rest

def skipItems? : Nat → List Char → Option (List Char)
  | 0, _ => none
  | fuel + 1, input => do
      let rest ← skipValue? fuel input
      match skipBlank rest with
      | ',' :: rest => skipItems? fuel rest
      | ']' :: rest => some rest
      | _ => none

def skipMembers? : Nat → List Char → Option (List Char)
  | 0, _ => none
  | fuel + 1, input => do
      let rest ← expect? '"' (skipBlank input)
      let (raw, rest) ← splitString rest
      let rest ← if escapesFormed raw then expect? ':' (skipBlank rest) else none
      let rest ← skipValue? fuel rest
      match skipBlank rest with
      | ',' :: rest => skipMembers? fuel rest
      | '\x7d' :: rest => some rest
      | _ => none

end

/-- How deep lists and objects may nest. -/
def maxDepth : Nat := 127

/-- Every value read takes a character, and every list or object a closing bracket. -/
def fuelFor (input : List Char) : Nat :=
  2 * input.length + 2

mutual

/-- Of the members of one name, the last. -/
def settled : Json → Json
  | .array items => .array (settledItems items)
  | .object members => .object (settledMembers members)
  | value => value

def settledItems : List Json → List Json
  | [] => []
  | item :: rest => item.settled :: settledItems rest

def settledMembers : List (String × Json) → List (String × Json)
  | [] => []
  | (name, value) :: rest =>
      let rest := settledMembers rest
      if rest.any (·.1 == name) then rest else (name, value.settled) :: rest

end

/-- The value of a whole text, white space around it allowed. -/
def parse? (text : String) : Option Json := do
  let input := text.toList
  let (value, rest) ← readValue? (fuelFor input) maxDepth input
  if (skipBlank rest).isEmpty then some value.settled else none

end Json

end SyncedBookmarks

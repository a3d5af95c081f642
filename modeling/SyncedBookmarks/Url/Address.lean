import SyncedBookmarks.Text.Pieces

namespace SyncedBookmarks

/-! Internet addresses as hosts of a URL. -/

namespace Ipv4

def digit? (base : Nat) (c : Char) : Option Nat :=
  let value :=
    if c.isDigit then c.toNat - 48
    else if 'a' ≤ c ∧ c ≤ 'f' then c.toNat - 87
    else if 'A' ≤ c ∧ c ≤ 'F' then c.toNat - 55
    else base
  if value < base then some value else none

/-- The base that a number is written in, and its digits. -/
def baseOf : List Char → Nat × List Char
  | '0' :: 'x' :: rest => (16, rest)
  | '0' :: 'X' :: rest => (16, rest)
  | '0' :: c :: rest => (8, c :: rest)
  | digits => (10, digits)

/-- A decimal, octal or hexadecimal number; `0x` alone is zero. -/
def number? (text : List Char) : Option Nat :=
  if text.isEmpty then none
  else
    let (base, digits) := baseOf text
    digits.foldlM (fun value c => (digit? base c).map (value * base + ·)) 0

def parts (text : List Char) : List (List Char) :=
  let pieces := splitAt '.' text
  if pieces.getLast? = some [] then pieces.dropLast else pieces

/-- Whether the last part of a domain makes it an address. -/
def endsInNumber (text : List Char) : Bool :=
  match (parts text).getLast? with
  | some last => (!last.isEmpty && last.all Char.isDigit) || (number? last).isSome
  | none => false

/-- An address of one to four numbers, the last one filling the bytes that are left. -/
def parse? (text : List Char) : Option Nat := do
  let parts := parts text
  if 4 < parts.length then none
  else do
    let numbers ← parts.mapM number?
    let last ← numbers.getLast?
    let high := numbers.dropLast
    if high.any (255 < ·) ∨ Nat.pow 256 (4 - high.length) ≤ last then none
    else
      some
        (high.foldl (fun value byte => value * 256 + byte) 0 * Nat.pow 256 (4 - high.length)
          + last)

def text (address : Nat) : String :=
  ".".intercalate ([3, 2, 1, 0].map fun i => toString (address / Nat.pow 256 i % 256))

end Ipv4

namespace Ipv6

/-- Up to four hexadecimal digits at the start of a text, and the rest. -/
def readPiece (text : List Char) : Nat × List Char :=
  let digits := (text.take 4).takeWhile fun c => (Ipv4.digit? 16 c).isSome
  (digits.foldl (fun value c => value * 16 + (Ipv4.digit? 16 c).getD 0) 0, text.drop digits.length)

/-- A decimal number up to 255 without leading zeros. -/
def byte? (text : List Char) : Option Nat :=
  match text with
  | [] => none
  | ['0'] => some 0
  | '0' :: _ => none
  | digits =>
      if digits.length ≤ 3 ∧ digits.all Char.isDigit then
        let value := digits.foldl (fun value c => value * 10 + (c.toNat - 48)) 0
        if value ≤ 255 then some value else none
      else none

/-- The last two pieces, written as four decimal numbers. -/
def dotted? (text : List Char) : Option (List Nat) := do
  match ← (splitAt '.' text).mapM byte? with
  | [a, b, c, d] => some [a * 256 + b, c * 256 + d]
  | _ => none

/-- The pieces before and after the place of a double colon, which may stand once. -/
structure Pieces where
  before : List Nat
  after : Option (List Nat)

/-- The places taken; a double colon stands for one or more zeros and takes one. -/
def Pieces.count (pieces : Pieces) : Nat :=
  match pieces.after with
  | some after => pieces.before.length + 1 + after.length
  | none => pieces.before.length

def Pieces.push (pieces : Pieces) (piece : Nat) : Pieces :=
  match pieces.after with
  | some after => { pieces with after := some (after ++ [piece]) }
  | none => { pieces with before := pieces.before ++ [piece] }

/-- Reads the rest of an address; `fuel` bounds the number of pieces. -/
def readPieces? : Nat → Pieces → List Char → Option Pieces
  | 0, _, _ => none
  | _ + 1, pieces, [] => some pieces
  | fuel + 1, pieces, text =>
      if pieces.count = 8 then none
      else
        match text with
        | ':' :: rest =>
            if pieces.after.isSome then none
            else readPieces? fuel { pieces with after := some [] } rest
        | text =>
            let (value, rest) := readPiece text
            match rest with
            | '.' :: _ =>
                if rest.length = text.length ∨ 6 < pieces.count then none
                else (dotted? text).map fun last => last.foldl Pieces.push pieces
            | [] => some (pieces.push value)
            | [':'] => none
            | ':' :: rest => readPieces? fuel (pieces.push value) rest
            | _ => none

def parse? (text : List Char) : Option (List Nat) := do
  let pieces ←
    match text with
    | ':' :: ':' :: rest => readPieces? 20 ⟨[], some []⟩ rest
    | ':' :: _ => none
    | text => if text.isEmpty then none else readPieces? 20 ⟨[], none⟩ text
  match pieces.after with
  | some after =>
      let zeros := 8 - pieces.before.length - after.length
      some (pieces.before ++ List.replicate zeros 0 ++ after)
  | none => if pieces.count = 8 then some pieces.before else none

/-- Start and length of the longest run of zeros, the first of equals. -/
def longestRun (pieces : List Nat) : Nat × Nat :=
  (List.range pieces.length).foldl
    (fun best start =>
      let length := ((pieces.drop start).takeWhile (· == 0)).length
      if best.2 < length then (start, length) else best)
    (0, 0)

def pieceText (piece : Nat) : String :=
  String.ofList (Nat.toDigits 16 piece)

def text (pieces : List Nat) : String :=
  let (start, length) := longestRun pieces
  let join := fun pieces : List Nat => ":".intercalate (pieces.map pieceText)
  if length < 2 then join pieces
  else join (pieces.take start) ++ "::" ++ join (pieces.drop (start + length))

end Ipv6

end SyncedBookmarks

import SyncedBookmarks.Codec.Bytes
import SyncedBookmarks.Text.Literal

namespace SyncedBookmarks

/-! Bytes as pairs of hexadecimal digits. -/

inductive HexError where
  | oddLength
  | invalidCharacter (byte : UInt8) (position : Nat)
  deriving DecidableEq, Repr

def HexError.message : HexError → String
  | .oddLength => "Odd number of digits"
  | .invalidCharacter byte position =>
      s!"Invalid character {Literal.quotedChar (Char.ofNat byte.toNat)} at position {position}"

namespace Hex

def digitChar (value : Nat) : Char :=
  Nat.digitChar value

def digits (byte : UInt8) : List Char :=
  [digitChar (byte.toNat / 16), digitChar (byte.toNat % 16)]

def encode (bytes : Bytes) : String :=
  String.ofList (bytes.flatMap digits)

def value? (digit : UInt8) : Option Nat :=
  let code := digit.toNat
  if 48 ≤ code ∧ code ≤ 57 then some (code - 48)
  else if 97 ≤ code ∧ code ≤ 102 then some (code - 87)
  else if 65 ≤ code ∧ code ≤ 70 then some (code - 55)
  else none

def value (digit : UInt8) (position : Nat) : Except HexError Nat :=
  match value? digit with
  | some value => .ok value
  | none => .error (.invalidCharacter digit position)

/-- Reads pairs of digits from the given position on. -/
def decodePairs (position : Nat) : Bytes → Except HexError Bytes
  | high :: low :: rest => do
      let h ← value high position
      let l ← value low (position + 1)
      let bytes ← decodePairs (position + 2) rest
      pure (UInt8.ofNat (h * 16 + l) :: bytes)
  | _ => .ok []

def decode (text : String) : Except HexError Bytes :=
  let digits := Bytes.ofText text
  if digits.length % 2 = 1 then .error .oddLength else decodePairs 0 digits

end Hex

end SyncedBookmarks

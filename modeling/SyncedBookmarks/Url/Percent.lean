import SyncedBookmarks.Codec.Bytes

namespace SyncedBookmarks

/-! Percent encoding of URL parts. -/

namespace Percent

def isControl (c : Char) : Bool :=
  c.toNat < 0x20 || 0x7e < c.toNat

def inFragment (c : Char) : Bool :=
  isControl c || [' ', '"', '<', '>', '\x60'].contains c

def inQuery (c : Char) : Bool :=
  isControl c || [' ', '"', '#', '<', '>'].contains c

/-- The query set of the schemes `http`, `https`, `ws`, `wss` and `ftp`. -/
def inSpecialQuery (c : Char) : Bool :=
  inQuery c || c = '\''

def inPath (c : Char) : Bool :=
  inFragment c || ['#', '?', '\x7b', '\x7d'].contains c

def inUserinfo (c : Char) : Bool :=
  inPath c || ['/', ':', ';', '=', '@', '[', '\\', ']', '^', '|'].contains c

def upperDigit (value : Nat) : Char :=
  (Nat.digitChar value).toUpper

def encodeByte (byte : UInt8) : List Char :=
  ['%', upperDigit (byte.toNat / 16), upperDigit (byte.toNat % 16)]

def encodeChar (encoded : Char → Bool) (c : Char) : List Char :=
  if encoded c then (Bytes.ofText (String.singleton c)).flatMap encodeByte else [c]

/-- Replaces the characters of a set by their UTF-8 bytes in hexadecimal. -/
def encode (encoded : Char → Bool) (text : List Char) : List Char :=
  text.flatMap (encodeChar encoded)

def hexValue? (byte : UInt8) : Option Nat :=
  let code := byte.toNat
  if 48 ≤ code ∧ code ≤ 57 then some (code - 48)
  else if 97 ≤ code ∧ code ≤ 102 then some (code - 87)
  else if 65 ≤ code ∧ code ≤ 70 then some (code - 55)
  else none

/-- Replaces every `%` with two hexadecimal digits by that byte. -/
def decode : Bytes → Bytes
  | 0x25 :: high :: low :: rest =>
      match hexValue? high, hexValue? low with
      | some h, some l => UInt8.ofNat (h * 16 + l) :: decode rest
      | _, _ => 0x25 :: decode (high :: low :: rest)
  | byte :: rest => byte :: decode rest
  | [] => []

end Percent

end SyncedBookmarks

import SyncedBookmarks.Codec.Bytes

namespace SyncedBookmarks

/-! Base64 with the standard alphabet. Reading accepts the padded canonical form only. -/

inductive Base64Error where
  | invalidSymbol (symbol : UInt8) (offset : Nat)
  | invalidLength (length : Nat)
  | invalidLastSymbol (symbol : UInt8) (offset : Nat)
  | invalidPadding
  deriving DecidableEq, Repr

def Base64Error.message : Base64Error → String
  | .invalidSymbol symbol offset => s!"Invalid symbol {symbol.toNat}, offset {offset}."
  | .invalidLength length => s!"Invalid input length: {length}"
  | .invalidLastSymbol symbol offset => s!"Invalid last symbol {symbol.toNat}, offset {offset}."
  | .invalidPadding => "Invalid padding"

namespace Base64

/-- The symbol of a six-bit value, as an ASCII byte. -/
def symbol (value : Nat) : UInt8 :=
  if value < 26 then UInt8.ofNat (65 + value)
  else if value < 52 then UInt8.ofNat (97 + (value - 26))
  else if value < 62 then UInt8.ofNat (48 + (value - 52))
  else if value = 62 then 43
  else 47

def value? (symbol : UInt8) : Option Nat :=
  let code := symbol.toNat
  if 65 ≤ code ∧ code ≤ 90 then some (code - 65)
  else if 97 ≤ code ∧ code ≤ 122 then some (code - 97 + 26)
  else if 48 ≤ code ∧ code ≤ 57 then some (code - 48 + 52)
  else if code = 43 then some 62
  else if code = 47 then some 63
  else none

def pad : UInt8 := 61

def encodeBytes : Bytes → Bytes
  | [] => []
  | [a] =>
      [symbol (a.toNat / 4), symbol (a.toNat % 4 * 16), pad, pad]
  | [a, b] =>
      [symbol (a.toNat / 4), symbol (a.toNat % 4 * 16 + b.toNat / 16),
        symbol (b.toNat % 16 * 4), pad]
  | a :: b :: c :: rest =>
      symbol (a.toNat / 4) :: symbol (a.toNat % 4 * 16 + b.toNat / 16) ::
        symbol (b.toNat % 16 * 4 + c.toNat / 64) :: symbol (c.toNat % 64) ::
        encodeBytes rest

def encode (bytes : Bytes) : String :=
  String.ofList ((encodeBytes bytes).map fun byte => Char.ofNat byte.toNat)

def symbolValue (byte : UInt8) (offset : Nat) : Except Base64Error Nat :=
  match value? byte with
  | some value => .ok value
  | none => .error (.invalidSymbol byte offset)

/-- The three bytes of four six-bit values. -/
def join (a b c d : Nat) : Bytes :=
  [UInt8.ofNat (a * 4 + b / 16), UInt8.ofNat (b % 16 * 16 + c / 4),
    UInt8.ofNat (c % 4 * 64 + d)]

/-- The values of the symbols before the padding of the last quad. Padding is allowed after two
symbols, and nothing but padding after it; the flaw nearest the start is the one reported. -/
def lastValues (start : Nat) (padding : Option Nat) (values : List Nat) (count : Nat) :
    Bytes → Except Base64Error (List Nat × Nat)
  | [] => .ok (values, count)
  | byte :: rest =>
      let offset := start + values.length + count
      if byte = pad then
        if values.length + count < 2 then .error (.invalidSymbol byte offset)
        else lastValues start (padding <|> some offset) values (count + 1) rest
      else
        match padding with
        | some first => .error (.invalidSymbol pad first)
        | none => do
            let value ← symbolValue byte offset
            lastValues start none (values ++ [value]) count rest

/-- Reads the last quad, which begins `start` symbols into the text. -/
def decodeLast (start : Nat) (quad : Bytes) : Except Base64Error Bytes := do
  let (values, padding) ← lastValues start none [] 0 quad
  if start + quad.length ≠ 0 ∧ values.length < 2 then
    throw (.invalidLength (start + values.length))
  if (values.length + padding) % 4 ≠ 0 then
    throw .invalidPadding
  let stray := Base64Error.invalidLastSymbol (quad.getD (values.length - 1) 0)
    (start + values.length - 1)
  match values with
  | [a, b] => if b % 16 = 0 then pure ((join a b 0 0).take 1) else throw stray
  | [a, b, c] => if c % 4 = 0 then pure ((join a b c 0).take 2) else throw stray
  | [a, b, c, d] => pure (join a b c d)
  | _ => pure []

def decodeQuads (start : Nat) : Bytes → Except Base64Error Bytes
  | s₀ :: s₁ :: s₂ :: s₃ :: next :: rest => do
      let a ← symbolValue s₀ start
      let b ← symbolValue s₁ (start + 1)
      let c ← symbolValue s₂ (start + 2)
      let d ← symbolValue s₃ (start + 3)
      let more ← decodeQuads (start + 4) (next :: rest)
      pure (join a b c d ++ more)
  | quad => decodeLast start quad

/-- Reads base64. A lone last symbol that is not in the alphabet is reported before any other
flaw. -/
def decodeBytes (symbols : Bytes) : Except Base64Error Bytes :=
  match symbols.getLast? with
  | some last =>
      if symbols.length % 4 = 1 ∧ last ≠ pad ∧ (value? last).isNone then
        .error (.invalidSymbol last (symbols.length - 1))
      else decodeQuads 0 symbols
  | none => .ok []

def decode (text : String) : Except Base64Error Bytes :=
  decodeBytes (Bytes.ofText text)

end Base64

end SyncedBookmarks

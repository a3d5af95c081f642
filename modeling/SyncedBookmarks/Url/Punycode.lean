namespace SyncedBookmarks

/-! Punycode (RFC 3492): text as ASCII letters, digits and hyphens. -/

namespace Punycode

/-- The threshold digit at position `k` for a bias. -/
def threshold (k bias : Nat) : Nat :=
  if k ≤ bias then 1 else if bias + 26 ≤ k then 26 else k - bias

/-- Halves a delta until it is small, counting 36 for each digit. -/
def adaptSteps : Nat → Nat → Nat → Nat
  | 0, k, delta => k + 36 * delta / (delta + 38)
  | fuel + 1, k, delta =>
      if 455 < delta then adaptSteps fuel (k + 36) (delta / 35) else k + 36 * delta / (delta + 38)

def adapt (delta count : Nat) (first : Bool) : Nat :=
  let delta := if first then delta / 700 else delta / 2
  adaptSteps 16 0 (delta + delta / count)

def digit (value : Nat) : Char :=
  if value < 26 then Char.ofNat (97 + value) else Char.ofNat (22 + value)

def digitValue? (c : Char) : Option Nat :=
  if c.isDigit then some (c.toNat - 22)
  else if 'a' ≤ c ∧ c ≤ 'z' then some (c.toNat - 97)
  else if 'A' ≤ c ∧ c ≤ 'Z' then some (c.toNat - 65)
  else none

/-- The digits of a number of variable length, least first. -/
def digits : Nat → Nat → Nat → Nat → List Char
  | 0, _, _, _ => []
  | fuel + 1, value, k, bias =>
      let t := threshold k bias
      if value < t then [digit value]
      else digit (t + (value - t) % (36 - t)) :: digits fuel ((value - t) / (36 - t)) (k + 36) bias

structure Encoder where
  delta : Nat
  bias : Nat
  handled : Nat
  output : List Char

/-- Passes over the text once, writing a delta for every occurrence of one code point. -/
def encodePass (basic code : Nat) (text : List Char) (state : Encoder) : Encoder :=
  text.foldl
    (fun s c =>
      if c.toNat < code then { s with delta := s.delta + 1 }
      else if c.toNat = code then
        { delta := 0
          bias := adapt s.delta (s.handled + 1) (s.handled = basic)
          handled := s.handled + 1
          output := s.output ++ digits 16 s.delta 36 s.bias }
      else s)
    state

/-- Handles the code points above `code` in increasing order. -/
def encodeRest (basic : Nat) (text : List Char) : Nat → Nat → Encoder → Encoder
  | 0, _, state => state
  | fuel + 1, code, state =>
      match (text.map Char.toNat).filter (code ≤ ·) |>.min? with
      | none => state
      | some next =>
          let delta := state.delta + (next - code) * (state.handled + 1)
          let state := encodePass basic next text { state with delta }
          encodeRest basic text fuel (next + 1) { state with delta := state.delta + 1 }

def encode (text : List Char) : List Char :=
  let basic := text.filter (·.toNat < 128)
  let start := if basic.isEmpty then [] else basic ++ ['-']
  (encodeRest basic.length text (text.length + 1) 128 ⟨0, 72, basic.length, start⟩).output

/-- Reads a number of variable length, whose value and weights have 32 bits. -/
def readNumber? : List Char → Nat → Nat → Nat → Nat → Option (Nat × List Char)
  | [], _, _, _, _ => none
  | c :: rest, value, weight, k, bias => do
      let digit ← digitValue? c
      let value := value + digit * weight
      let t := threshold k bias
      if Nat.pow 2 32 ≤ weight ∨ Nat.pow 2 32 ≤ value then none
      else if digit < t then some (value, rest)
      else readNumber? rest value (weight * (36 - t)) (k + 36) bias

/-- Inserts the code points that the rest of the input describes. -/
def decodeRest? : Nat → List Char → Nat → Nat → Nat → List Char → Option (List Char)
  | 0, _, _, _, _, _ => none
  | _ + 1, [], _, _, _, output => some output
  | fuel + 1, input, code, index, bias, output => do
      let (value, rest) ← readNumber? input index 1 36 bias
      let count := output.length + 1
      let code := code + value / count
      let place := value % count
      if code < 0x110000 ∧ !(0xd800 ≤ code ∧ code < 0xe000) then
        let output := output.take place ++ Char.ofNat code :: output.drop place
        decodeRest? fuel rest code (place + 1) (adapt (value - index) count (index = 0)) output
      else none

/-- The part before the last hyphen stands for itself. A hyphen in front ends no such part. -/
def decode? (text : List Char) : Option (List Char) :=
  let tail := (text.reverse.takeWhile (· ≠ '-')).reverse
  let basic := text.take (text.length - tail.length - 1)
  let deltas := if basic.isEmpty then text else tail
  if text.all (·.toNat < 128) then decodeRest? (text.length + 1) deltas 128 0 72 basic else none

end Punycode

end SyncedBookmarks

namespace SyncedBookmarks

/-! Finite binary floating-point numbers of 64 bits, held as their sign and the remaining bits.
The remaining bits, read as a number, order the magnitudes. -/

structure Binary64 where
  negative : Bool
  magnitude : Nat
  finite : magnitude < 0x7ff0000000000000
  deriving DecidableEq, Repr

namespace Binary64

def zero : Binary64 := ⟨false, 0, by decide⟩

instance : Inhabited Binary64 := ⟨zero⟩

/-- The place of a number in the order of all of them; both zeros have place 0. -/
def rank (x : Binary64) : Int :=
  if x.negative then -(x.magnitude : Int) else x.magnitude

instance : LT Binary64 := ⟨fun x y => x.rank < y.rank⟩

instance : LE Binary64 := ⟨fun x y => x.rank ≤ y.rank⟩

instance (x y : Binary64) : Decidable (x < y) :=
  inferInstanceAs (Decidable (x.rank < y.rank))

instance (x y : Binary64) : Decidable (x ≤ y) :=
  inferInstanceAs (Decidable (x.rank ≤ y.rank))

instance : Max Binary64 := ⟨fun x y => if x.rank < y.rank then y else x⟩

theorem le_iff {x y : Binary64} : x ≤ y ↔ x.rank ≤ y.rank := Iff.rfl

@[simp] theorem rank_max (x y : Binary64) : (max x y).rank = max x.rank y.rank := by
  simp only [max]
  split <;> omega

def significand (x : Binary64) : Nat :=
  if x.magnitude / Nat.pow 2 52 = 0 then x.magnitude
  else x.magnitude % Nat.pow 2 52 + Nat.pow 2 52

/-- The magnitude is `significand * 2 ^ exponent`. -/
def exponent (x : Binary64) : Int :=
  (max (x.magnitude / Nat.pow 2 52) 1 : Nat) - 1075

/-- The magnitude as a fraction. -/
def ratio (x : Binary64) : Nat × Nat :=
  if 0 ≤ x.exponent then (x.significand * Nat.pow 2 x.exponent.toNat, 1)
  else (x.significand, Nat.pow 2 (-x.exponent).toNat)

/-- The nearest natural number to a fraction, a tie going to the even one. -/
def roundDiv (num den : Nat) : Nat :=
  let q := num / den
  let r := 2 * (num % den)
  if r < den then q else if den < r then q + 1 else q + q % 2

/-- A fraction in units of `2 ^ exponent`. -/
def scaled (num den : Nat) (exponent : Int) : Nat × Nat :=
  if 0 ≤ exponent then (num, den * Nat.pow 2 exponent.toNat)
  else (num * Nat.pow 2 (-exponent).toNat, den)

/-- The exponent at which a positive fraction has 53 significant bits, or the least one. -/
def scale (num den : Nat) : Int :=
  let low := max ((num.log2 : Int) - den.log2 - 53) (-1074)
  let (n, d) := scaled num den low
  if n / d < Nat.pow 2 53 then low else low + 1

/-- The number nearest to a fraction, a tie going to the even significand; `none` when that is
beyond the largest number. -/
def ofRatio? (negative : Bool) (num den : Nat) : Option Binary64 :=
  let exponent := scale num den
  let (n, d) := scaled num den exponent
  let magnitude := roundDiv n d + (exponent + 1074).toNat * Nat.pow 2 52
  if num = 0 then some ⟨negative, 0, by decide⟩
  else if h : magnitude < 0x7ff0000000000000 then some ⟨negative, magnitude, h⟩
  else none

def ofNat? (n : Nat) : Option Binary64 :=
  ofRatio? false n 1

def ofNat (n : Nat) : Binary64 :=
  (ofNat? n).getD zero

def neg (x : Binary64) : Binary64 :=
  { x with negative := !x.negative }

/-- The rounded product of magnitudes. -/
def mul? (x y : Binary64) : Option Binary64 :=
  let (a, b) := x.ratio
  let (c, d) := y.ratio
  ofRatio? (x.negative != y.negative) (a * c) (b * d)

/-- The rounded quotient of magnitudes; the divisor is not zero. -/
def div? (x y : Binary64) : Option Binary64 :=
  let (a, b) := x.ratio
  let (c, d) := y.ratio
  ofRatio? (x.negative != y.negative) (a * d) (b * c)

/-- The nearest number to a power of ten. -/
def powerOfTen (exponent : Nat) : Binary64 :=
  ofNat (Nat.pow 10 exponent)

/-- A significand scaled by a power of ten within the table of powers, or by several of them when
the exponent is very small. The significand, the power and each step are rounded on their own. -/
def scaleByTen? : Nat → Binary64 → Int → Option Binary64
  | 0, _, _ => some zero
  | steps + 1, x, exponent =>
      if exponent.natAbs ≤ 308 then
        if 0 ≤ exponent then x.mul? (powerOfTen exponent.natAbs)
        else x.div? (powerOfTen exponent.natAbs)
      else if x.magnitude = 0 then some x
      else if 0 ≤ exponent then none
      else do
        let x ← x.div? (powerOfTen 308)
        scaleByTen? steps x (exponent + 308)

def ofDecimal? (significand : Nat) (exponent : Int) : Option Binary64 := do
  let x ← ofNat? significand
  scaleByTen? 4 x exponent

/-! ### Decimal text -/

/-- The ends of the interval of reals that round to this number, and the number itself, as
multiples of `2 ^ (exponent - 2)`. -/
def interval (x : Binary64) : Nat × Nat × Nat :=
  let m := 4 * x.significand
  let below := if x.significand = Nat.pow 2 52 ∧ -1074 < x.exponent then 1 else 2
  (m - below, m, m + 2)

/-- The number of digits before the decimal point: `10 ^ (n - 1) ≤ num / den < 10 ^ n`. -/
def decimalLength (num den : Nat) : Int :=
  if den ≤ num then (Nat.toDigits 10 (num / den)).length
  else
    let n := (Nat.toDigits 10 ((den - 1) / num)).length
    if num * Nat.pow 10 n < den then -(n : Int) else 1 - (n : Int)

/-- On the grid of multiples of `10 ^ exponent`, the point nearest to the number if it lies in the
interval that rounds to it. -/
def onGrid? (x : Binary64) (exponent : Int) : Option Nat :=
  let (low, mid, high) := x.interval
  let (n, d) :=
    if 2 ≤ x.exponent then (Nat.pow 2 (x.exponent - 2).toNat, 1)
    else (1, Nat.pow 2 (2 - x.exponent).toNat)
  let (n, d) :=
    if 0 ≤ exponent then (n, d * Nat.pow 10 exponent.toNat)
    else (n * Nat.pow 10 (-exponent).toNat, d)
  let inside := fun point =>
    if x.significand % 2 = 0 then low * n ≤ point * d ∧ point * d ≤ high * n
    else low * n < point * d ∧ point * d < high * n
  let floor := mid * n / d
  let nearer := roundDiv (mid * n) d
  let other := if nearer = floor then floor + 1 else floor
  if inside nearer then some nearer else if inside other then some other else none

def stripZeros : Nat → Nat → Int → Nat × Int
  | 0, digits, exponent => (digits, exponent)
  | fuel + 1, digits, exponent =>
      if digits ≠ 0 ∧ digits % 10 = 0 then stripZeros fuel (digits / 10) (exponent + 1)
      else (digits, exponent)

/-- The fewest decimal digits that read back as this number, the nearest of those, with the power
of ten that they are multiplied by. -/
def shortest (x : Binary64) : Nat × Int :=
  let (num, den) := x.ratio
  let length := decimalLength num den
  let hit := (List.range 17).findSome? fun count =>
    let exponent := length - (count + 1 : Nat)
    (x.onGrid? exponent).map fun digits => (digits, exponent)
  match hit with
  | some (digits, exponent) => stripZeros 20 digits exponent
  | none => (0, 0)

def zeros (count : Nat) : List Char :=
  List.replicate count '0'

/-- How a wire format writes a number: the largest and least count of digits before the point that
is still written without an exponent, and whether whole numbers keep a fraction. An exponent bears
its sign. -/
structure Format where
  maxWhole : Option Int
  minWhole : Option Int
  fraction : Bool

def Format.text (format : Format) (x : Binary64) : String :=
  let sign := if x.negative then ['-'] else []
  if x.magnitude = 0 then
    String.ofList (sign ++ if format.fraction then ['0', '.', '0'] else ['0'])
  else
    let (value, exponent) := x.shortest
    let digits := Nat.toDigits 10 value
    let whole := (digits.length : Int) + exponent
    let small := format.maxWhole.all fun bound => decide (whole ≤ bound)
    let large := format.minWhole.all fun bound => decide (bound < whole)
    let body :=
      if 0 ≤ exponent ∧ small then
        digits ++ zeros exponent.toNat ++ if format.fraction then ['.', '0'] else []
      else if 0 < whole ∧ small then
        digits.take whole.toNat ++ '.' :: digits.drop whole.toNat
      else if whole ≤ 0 ∧ large then
        '0' :: '.' :: zeros (-whole).toNat ++ digits
      else
        let power := (if 0 < whole then ['+'] else []) ++ (toString (whole - 1)).toList
        match digits with
        | [digit] => digit :: 'e' :: power
        | digit :: rest => digit :: '.' :: rest ++ 'e' :: power
        | [] => []
    String.ofList (sign ++ body)

/-- Positional from `1e-5` up to sixteen digits before the point, with a fraction always. -/
def wireFormat : Format := ⟨some 16, some (-5), true⟩

/-- Positional at every size, without a fraction when there is none. -/
def plainFormat : Format := ⟨none, none, false⟩

def wireText (x : Binary64) : String :=
  wireFormat.text x

def plainText (x : Binary64) : String :=
  plainFormat.text x

/-- The number with two decimal places, the exact value rounded with ties to even. -/
def fixedText (x : Binary64) : String :=
  let (num, den) := x.ratio
  let cents := roundDiv (100 * num) den
  let fraction := Nat.toDigits 10 (cents % 100)
  let sign := if x.negative then "-" else ""
  sign ++ toString (cents / 100) ++ "."
    ++ String.ofList (zeros (2 - fraction.length) ++ fraction)

end Binary64

end SyncedBookmarks

namespace SyncedBookmarks

/-! Byte strings, and the UTF-8 bytes of a text. -/

abbrev Bytes := List UInt8

namespace Bytes

/-- The UTF-8 form of a text. -/
def ofText (text : String) : Bytes :=
  text.toUTF8.data.toList

/-- The text whose UTF-8 form these bytes are. -/
def text? (bytes : Bytes) : Option String :=
  String.fromUTF8? ⟨bytes.toArray⟩

theorem text?_ofText (text : String) : text? (ofText text) = some text := by
  simp only [text?, ofText, Array.toArray_toList]
  exact dif_pos text.isValidUTF8

/-- Big-endian bytes of the low `8 * count` bits of a number. -/
def ofNat (count value : Nat) : Bytes :=
  (List.range count).reverse.map fun i => UInt8.ofNat (value >>> (8 * i))

/-- The number that the bytes write in big-endian order. -/
def toNat (bytes : Bytes) : Nat :=
  bytes.foldl (fun value byte => value * 256 + byte.toNat) 0

@[simp] theorem length_ofNat (count value : Nat) : (ofNat count value).length = count := by
  simp [ofNat]

/-- Bytewise exclusive or, as long as the shorter operand. -/
def xor (left right : Bytes) : Bytes :=
  List.zipWith (· ^^^ ·) left right

theorem xor_xor_cancel {left right : Bytes} (h : left.length ≤ right.length) :
    xor (xor left right) right = left := by
  induction left generalizing right with
  | nil => rfl
  | cons a left ih =>
      cases right with
      | nil => simp at h
      | cons b right =>
          have head : a ^^^ b ^^^ b = a := by rw [UInt8.xor_assoc, UInt8.xor_self, UInt8.xor_zero]
          have tail : xor (xor left right) right = left := ih (by simpa using h)
          change (a ^^^ b ^^^ b) :: xor (xor left right) right = a :: left
          rw [head, tail]

end Bytes

end SyncedBookmarks

import SyncedBookmarks.Codec.Bytes

namespace SyncedBookmarks

/-! Text in bytes that need not be UTF-8: where they are not, a mark stands for them. -/

namespace Bytes

/-- The bytes that follow the first one of a character: how many, and the bounds of the second. -/
structure Continuation where
  count : Nat
  low : UInt8 := 0x80
  high : UInt8 := 0xbf

def continuation? (lead : UInt8) : Option Continuation :=
  if 0xc2 ≤ lead ∧ lead ≤ 0xdf then some { count := 1 }
  else if lead = 0xe0 then some { count := 2, low := 0xa0 }
  else if lead = 0xed then some { count := 2, high := 0x9f }
  else if 0xe1 ≤ lead ∧ lead ≤ 0xef then some { count := 2 }
  else if lead = 0xf0 then some { count := 3, low := 0x90 }
  else if lead = 0xf4 then some { count := 3, high := 0x8f }
  else if 0xf1 ≤ lead ∧ lead ≤ 0xf3 then some { count := 3 }
  else none

/-- The bytes that go on with a character, as far as they do. -/
def Continuation.take (expected : Continuation) : Bytes → Bytes
  | second :: rest =>
      if expected.low ≤ second ∧ second ≤ expected.high then
        second :: (rest.take (expected.count - 1)).takeWhile fun byte => 0x80 ≤ byte ∧ byte ≤ 0xbf
      else []
  | [] => []

/-- The code point that the first byte of a character and the others write. -/
def codePoint (lead : UInt8) (rest : Bytes) : Nat :=
  rest.foldl (fun value byte => value * 64 + byte.toNat % 64)
    (lead.toNat % Nat.pow 2 (6 - rest.length))

/-- The characters that bytes write. One mark stands for each byte, or each unfinished character,
that is none. -/
def markedText (mark : Char) : Bytes → List Char
  | [] => []
  | byte :: rest =>
      if byte < 0x80 then Char.ofNat byte.toNat :: markedText mark rest
      else
        match continuation? byte with
        | none => mark :: markedText mark rest
        | some expected =>
            let tail := expected.take rest
            let next := markedText mark (rest.drop tail.length)
            if tail.length = expected.count then Char.ofNat (codePoint byte tail) :: next
            else mark :: next
termination_by bytes => bytes.length
decreasing_by all_goals grind

/-- The characters that bytes write, with the replacement character for what is none. -/
def repairedText (bytes : Bytes) : String :=
  String.ofList (markedText '\ufffd' bytes)

/-- A character that does not stand in a text. -/
def absentFrom (text : List Char) : Char :=
  let candidates := (List.range (text.length + 1)).map fun n => Char.ofNat (0xe000 + n)
  (candidates.find? fun c => !text.contains c).getD '\ufffd'

end Bytes

end SyncedBookmarks

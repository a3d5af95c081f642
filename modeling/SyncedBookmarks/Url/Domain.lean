import SyncedBookmarks.Url.Address
import SyncedBookmarks.Url.Punycode
import SyncedBookmarks.Unicode.DomainMapping
import SyncedBookmarks.Unicode.Composition
import SyncedBookmarks.Unicode.Joining
import SyncedBookmarks.Unicode.Direction
import SyncedBookmarks.Unicode.Mark

namespace SyncedBookmarks

/-! Domain names in ASCII form (UTS 46, nontransitional). -/

namespace Domain

/-- The ASCII characters that no domain may hold. -/
def isForbidden (c : Char) : Bool :=
  c.toNat ≤ 0x20 || c = '\x7f' ||
    ['%', '#', '/', ':', '<', '>', '?', '@', '[', '\\', ']', '^', '|'].contains c

def isAscii (text : List Char) : Bool :=
  text.all (·.toNat < 128)

def encodedMark : List Char :=
  ['x', 'n', '-', '-']

/-- An encoded label has at most this many characters after its mark. -/
def maxEncoded : Nat := 2000

/-- A label that is not plain ASCII has at most this many characters. -/
def maxDecoded : Nat := 1000

/-- The label that an encoded one stands for, which must be in prepared form already and bear no
mark of its own. -/
def decodeLabel? (encoded : List Char) : Option (List Char) := do
  let label ← if encoded.length ≤ maxEncoded then Punycode.decode? encoded else none
  let prepared := label.all fun c => Unicode.domainForm? c == some [c]
  if prepared ∧ !isAscii label ∧ Unicode.composed label = label ∧ !encodedMark.isPrefixOf label then
    some label
  else none

/-- The label in Unicode form, if it is valid on its own. -/
def readLabel? (label : List Char) : Option (List Char) := do
  let label ← if encodedMark.isPrefixOf label then decodeLabel? (label.drop 4) else some label
  let tooLong := !isAscii label && maxDecoded < label.length
  if tooLong ∨ label.any isForbidden ∨ label.head?.any Unicode.isMark
      ∨ !Unicode.joinersFit [] label then
    none
  else some label

def writeLabel (label : List Char) : List Char :=
  if isAscii label then label else encodedMark ++ Punycode.encode label

def toAscii? (domain : List Char) : Option (List Char) := do
  let mapped ← domain.mapM Unicode.domainForm?
  let labels ← (splitAt '.' (Unicode.composed mapped.flatten)).mapM readLabel?
  if labels.any (·.any Unicode.isRightToLeft) ∧ !labels.all Unicode.directionsFit then none
  else some (['.'].intercalate (labels.map writeLabel))

end Domain

end SyncedBookmarks

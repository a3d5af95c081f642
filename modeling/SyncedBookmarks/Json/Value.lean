import SyncedBookmarks.Number.Binary64

namespace SyncedBookmarks

/-! JSON values. Whole numbers that fit in 64 bits are kept exactly. -/

inductive JsonNumber where
  | natural (value : Nat)
  | negative (value : Nat)
  | real (value : Binary64)
  deriving DecidableEq, Repr

inductive Json where
  | null
  | bool (value : Bool)
  | number (value : JsonNumber)
  | string (value : String)
  | array (items : List Json)
  | object (members : List (String × Json))
  deriving Repr

namespace Json

instance : Inhabited Json := ⟨.null⟩

def ofNat (n : Nat) : Json :=
  .number (.natural n)

def ofInt (i : Int) : Json :=
  if i < 0 then .number (.negative i.natAbs) else ofNat i.toNat

def ofReal (x : Binary64) : Json :=
  .number (.real x)

def ofOption (encode : α → Json) : Option α → Json
  | some value => encode value
  | none => .null

def ofStrings (strings : List String) : Json :=
  .array (strings.map .string)

/-- The last member of that name. -/
def member? (name : String) : Json → Option Json
  | .object members => (members.reverse.find? (·.1 == name)).map (·.2)
  | _ => none

def asString? : Json → Option String
  | .string value => some value
  | _ => none

def asBool? : Json → Option Bool
  | .bool value => some value
  | _ => none

def asNat? : Json → Option Nat
  | .number (.natural value) => some value
  | _ => none

/-- A whole number in the range of signed 64-bit words. -/
def asInt64? : Json → Option Int
  | .number (.natural value) => if value < Nat.pow 2 63 then some value else none
  | .number (.negative value) => some (-(value : Int))
  | _ => none

def asReal? : Json → Option Binary64
  | .number (.natural value) => Binary64.ofNat? value
  | .number (.negative value) => (Binary64.ofNat? value).map Binary64.neg
  | .number (.real value) => some value
  | _ => none

def asStrings? : Json → Option (List String)
  | .array items => items.mapM asString?
  | _ => none

end Json

end SyncedBookmarks

import SyncedBookmarks.Codec.Utf8
import SyncedBookmarks.Json.Printer
import SyncedBookmarks.Json.Reader

namespace SyncedBookmarks

/-! The fields of a structure in JSON: an object with the fields by name, or a list of them in
their declared order. Members of other names are passed over. -/

inductive Fields where
  | named (members : List (String × Json))
  | positional (values : List Json)

namespace Fields

def ofJson? : Json → Option Fields
  | .object members => some (.named members)
  | .array values => some (.positional values)
  | _ => none

/-- The members of known names; the values of the others are skipped. -/
def readMembers? (known : String → Bool) :
    Nat → List Char → Option (List (String × Json) × List Char)
  | 0, _ => none
  | fuel + 1, input => do
      let rest ← Json.expect? '"' (Json.skipBlank input)
      let (name, rest) ← Json.readString? rest
      let rest ← Json.expect? ':' (Json.skipBlank rest)
      let (member, rest) ←
        if known name then
          (Json.readValue? (Json.fuelFor rest) (Json.maxDepth - 1) rest).map
            fun (value, rest) => ([(name, value)], rest)
        else
          (Json.skipValue? (Json.fuelFor rest) rest).map fun rest => ([], rest)
      match Json.skipBlank rest with
      | ',' :: rest =>
          (readMembers? known fuel rest).map fun (members, rest) => (member ++ members, rest)
      | '\x7d' :: rest => some (member, rest)
      | _ => none

def read? (known : String → Bool) (input : List Char) : Option (Fields × List Char) :=
  match Json.skipBlank input with
  | '\x7b' :: rest =>
      match Json.skipBlank rest with
      | '\x7d' :: rest => some (.named [], rest)
      | rest =>
          (readMembers? known (Json.fuelFor rest) rest).map
            fun (members, rest) => (.named members, rest)
  | input => do
      let (value, rest) ← Json.readValue? (Json.fuelFor input) Json.maxDepth input
      match value with
      | .array values => pure (.positional values, rest)
      | _ => none

def parse? (known : String → Bool) (text : String) : Option Fields := do
  let (fields, rest) ← read? known text.toList
  if (Json.skipBlank rest).isEmpty then some fields else none

/-- The values of the declared fields, each with its names, in order. A field given twice and a
list that is too long are refused. -/
def values? (declared : List (List String)) : Fields → Option (List (Option Json))
  | .named members =>
      declared.mapM fun names =>
        match members.filter fun member => names.contains member.1 with
        | [] => some none
        | [member] => some (some member.2)
        | _ => none
  | .positional values =>
      if values.length ≤ declared.length then
        some (values.map some ++ List.replicate (declared.length - values.length) none)
      else none

/-- Whether a character stands in a name or in a value. -/
def mention (c : Char) : Fields → Bool
  | .named members => members.any fun (name, value) => name.contains c || value.text.contains c
  | .positional values => values.any fun value => value.text.contains c

end Fields

/-- A structure read from its fields: their names, aliases after the name, and the structure made
of the values found. -/
structure Schema (α : Type) where
  declared : List (List String)
  build : List (Option Json) → Option α

namespace Schema

def ofFields? (schema : Schema α) (fields : Fields) : Option α := do
  let values ← fields.values? schema.declared
  schema.build values

def ofJson? (schema : Schema α) (value : Json) : Option α := do
  let fields ← Fields.ofJson? value
  schema.ofFields? fields

def declares (schema : Schema α) (name : String) : Bool :=
  schema.declared.any (·.contains name)

def parse? (schema : Schema α) (text : String) : Option α := do
  let fields ← Fields.parse? schema.declares text
  schema.ofFields? fields

/-- Reads a structure from bytes. Those that write no text may only stand in strings that are
passed over: a mark that the text does not hold is put for them and may not be in what is read. -/
def ofBytes? (schema : Schema α) (bytes : Bytes) : Option α :=
  match Bytes.text? bytes with
  | some text => schema.parse? text
  | none => do
      let mark := Bytes.absentFrom (Bytes.repairedText bytes).toList
      let fields ← Fields.parse? (fun name => name.contains mark || schema.declares name)
        (String.ofList (Bytes.markedText mark bytes))
      if fields.mention mark then none else schema.ofFields? fields

end Schema

namespace Json

/-- A field that must be there. -/
def required (decode : Json → Option α) (value : Option Json) : Option α := do
  let value ← value
  decode value

/-- A field with a default for when it is not there. -/
def defaulted (fallback : α) (decode : Json → Option α) : Option Json → Option α
  | none => some fallback
  | some value => decode value

/-- A field that may be missing or null. -/
def optional (decode : Json → Option α) : Option Json → Option (Option α)
  | none => some none
  | some .null => some none
  | some value => (decode value).map some

end Json

end SyncedBookmarks

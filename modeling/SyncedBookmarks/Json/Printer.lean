import SyncedBookmarks.Json.Value

namespace SyncedBookmarks

/-! JSON text. Only the quote, the backslash and control characters are escaped. -/

namespace Json

def escape (c : Char) : List Char :=
  if c = '"' then ['\\', '"']
  else if c = '\\' then ['\\', '\\']
  else if c = '\x08' then ['\\', 'b']
  else if c = '\t' then ['\\', 't']
  else if c = '\n' then ['\\', 'n']
  else if c = '\x0c' then ['\\', 'f']
  else if c = '\r' then ['\\', 'r']
  else if c.toNat < 0x20 then
    ['\\', 'u', '0', '0', Nat.digitChar (c.toNat / 16), Nat.digitChar (c.toNat % 16)]
  else [c]

def quoted (text : String) : List Char :=
  '"' :: text.toList.flatMap escape ++ ['"']

def numberText : JsonNumber → List Char
  | .natural value => Nat.toDigits 10 value
  | .negative value => '-' :: Nat.toDigits 10 value
  | .real value => value.wireText.toList

mutual

def chars : Json → List Char
  | .null => "null".toList
  | .bool true => "true".toList
  | .bool false => "false".toList
  | .number value => numberText value
  | .string value => quoted value
  | .array items => '[' :: itemChars true items
  | .object members => '\x7b' :: memberChars true members

def itemChars (first : Bool) : List Json → List Char
  | [] => [']']
  | item :: rest => (if first then [] else [',']) ++ item.chars ++ itemChars false rest

def memberChars (first : Bool) : List (String × Json) → List Char
  | [] => ['\x7d']
  | (name, value) :: rest =>
      (if first then [] else [',']) ++ quoted name ++ ':' :: value.chars ++ memberChars false rest

end

/-- The text without white space. -/
def text (value : Json) : String :=
  String.ofList value.chars

def newLine (depth : Nat) : List Char :=
  '\n' :: List.replicate (2 * depth) ' '

mutual

def indentedChars (depth : Nat) : Json → List Char
  | .array [] => ['[', ']']
  | .array (item :: rest) => '[' :: indentedItems depth true (item :: rest)
  | .object [] => ['\x7b', '\x7d']
  | .object (member :: rest) => '\x7b' :: indentedMembers depth true (member :: rest)
  | value => value.chars

def indentedItems (depth : Nat) (first : Bool) : List Json → List Char
  | [] => newLine depth ++ [']']
  | item :: rest =>
      (if first then [] else [',']) ++ newLine (depth + 1) ++ item.indentedChars (depth + 1)
        ++ indentedItems depth false rest

def indentedMembers (depth : Nat) (first : Bool) : List (String × Json) → List Char
  | [] => newLine depth ++ ['\x7d']
  | (name, value) :: rest =>
      (if first then [] else [',']) ++ newLine (depth + 1) ++ quoted name ++ ':' :: ' '
        :: value.indentedChars (depth + 1) ++ indentedMembers depth false rest

end

/-- The text with one member or item on a line, two spaces deeper on each level. -/
def indentedText (value : Json) : String :=
  String.ofList (value.indentedChars 0)

end Json

end SyncedBookmarks

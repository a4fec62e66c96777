import Offside.Json.Value
import Offside.Text.Numeral

/-! # Writing JSON — on one line, or indented by two spaces -/

namespace Offside.Json

/-- The escape sequence of a control character without a short one. -/
def controlEscape (c : Char) : List Char :=
  ['\\', 'u', '0', '0', Nat.digitChar (c.toNat / 16), Nat.digitChar (c.toNat % 16)]

/-- One character inside a string. -/
def writeChar (c : Char) : List Char :=
  if c = '"' then ['\\', '"']
  else if c = '\\' then ['\\', '\\']
  else if c = '\n' then ['\\', 'n']
  else if c = '\r' then ['\\', 'r']
  else if c = '\t' then ['\\', 't']
  else if c = '\x08' then ['\\', 'b']
  else if c = '\x0c' then ['\\', 'f']
  else if c.toNat < 0x20 then controlEscape c
  else [c]

/-- A string in quotes. -/
def writeString (s : String) : String :=
  String.ofList ('"' :: (s.toList.flatMap writeChar ++ ['"']))

mutual

/-- A value without any white space. -/
def compact : Json → String
  | null => "null"
  | bool b => if b then "true" else "false"
  | integer n => Text.signedDecimal n
  | real literal => literal
  | string s => writeString s
  | array items => "[" ++ String.intercalate "," (compactItems items) ++ "]"
  | object members => "\x7b" ++ String.intercalate "," (compactMembers members) ++ "\x7d"

/-- The items of an array, each without white space. -/
def compactItems : List Json → List String
  | [] => []
  | item :: items => compact item :: compactItems items

/-- The members of an object, each without white space. -/
def compactMembers : List (String × Json) → List String
  | [] => []
  | (key, value) :: members =>
      (writeString key ++ ":" ++ compact value) :: compactMembers members

end

/-- A line break and the indentation of a level. -/
def newline (level : Nat) : String :=
  String.ofList ('\n' :: List.replicate (2 * level) ' ')

mutual

/-- A value whose items and members stand on lines of their own, indented
    below the given level. -/
def indented (level : Nat) : Json → String
  | null => "null"
  | bool b => if b then "true" else "false"
  | integer n => Text.signedDecimal n
  | real literal => literal
  | string s => writeString s
  | array [] => "[]"
  | array (item :: items) =>
      "[" ++ newline (level + 1)
        ++ String.intercalate ("," ++ newline (level + 1))
            (indented (level + 1) item :: indentedItems (level + 1) items)
        ++ newline level ++ "]"
  | object [] => "\x7b\x7d"
  | object ((key, value) :: members) =>
      "\x7b" ++ newline (level + 1)
        ++ String.intercalate ("," ++ newline (level + 1))
            ((writeString key ++ ": " ++ indented (level + 1) value)
              :: indentedMembers (level + 1) members)
        ++ newline level ++ "\x7d"

/-- The items of an array at a level. -/
def indentedItems (level : Nat) : List Json → List String
  | [] => []
  | item :: items => indented level item :: indentedItems level items

/-- The members of an object at a level. -/
def indentedMembers (level : Nat) : List (String × Json) → List String
  | [] => []
  | (key, value) :: members =>
      (writeString key ++ ": " ++ indented level value) :: indentedMembers level members

end

/-- A value over several lines. -/
def pretty (j : Json) : String := indented 0 j

end Offside.Json

import Offside.Json.Value
import Offside.Yaml.Scalar

/-! # Writing YAML — values as blocks of lines

    Members and items stand on lines of their own.  What is inside a member
    is indented by two spaces, except the items of an array, which stand
    under their key; what is inside an item starts on the line of its dash.
    The lines of a value come without the indentation of the first one,
    which belongs to whatever stands in front of it. -/

namespace Offside.Yaml

/-- Lines whose first one gets its indentation. -/
def indentFirst (indent : Nat) : List String → List String
  | [] => []
  | line :: lines => (String.ofList (List.replicate indent ' ') ++ line) :: lines

/-- Lines with a text in front of the first one. -/
def hang (front : String) : List String → List String
  | [] => [front]
  | line :: lines => (front ++ line) :: lines

/-- The text of a value that fits behind its key or dash: a value without
    parts. -/
def inlineText (indent : Nat) : Json → String
  | .null => "null"
  | .bool b => if b then "true" else "false"
  | .integer n => Text.signedDecimal n
  | .real literal => literal
  | .string s => writeText indent s
  | .array _ => "[]"
  | .object _ => "\x7b\x7d"

mutual

/-- The lines of a value at an indentation. -/
def lines (indent : Nat) : Json → List String
  | .array (item :: items) =>
      hang "- " (lines (indent + 2) item) ++ itemLines indent items
  | .object ((key, value) :: members) =>
      hang (writeText indent key ++ ":") (valueLines indent value)
        ++ memberLines indent members
  | value => [inlineText indent value]

/-- The lines of a value behind its key. -/
def valueLines (indent : Nat) : Json → List String
  | .array (item :: items) => "" :: itemLines indent (item :: items)
  | .object (member :: members) => "" :: memberLines (indent + 2) (member :: members)
  | value => [" " ++ inlineText (indent + 2) value]

/-- The lines of items, each at the indentation. -/
def itemLines (indent : Nat) : List Json → List String
  | [] => []
  | item :: items =>
      indentFirst indent (hang "- " (lines (indent + 2) item)) ++ itemLines indent items

/-- The lines of members, each at the indentation. -/
def memberLines (indent : Nat) : List (String × Json) → List String
  | [] => []
  | (key, value) :: members =>
      indentFirst indent (hang (writeText indent key ++ ":") (valueLines indent value))
        ++ memberLines indent members

end

/-- A line with its end, unless it brings one. -/
def closeLine (line : String) : String :=
  if line.toList.getLast?.any isBreak then line else line ++ "\n"

/-- A value as a document. -/
def write (j : Json) : String := String.join ((lines 0 j).map closeLine)

end Offside.Yaml

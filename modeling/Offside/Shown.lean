import Offside.Span
import Offside.Text.Escaped

/-! # Shown values — records, lists and named values as text

    Values are shown with the names of their types and fields, on one line
    inside messages, or over several lines with an indentation of four
    spaces and a comma after every part. -/

namespace Offside

/-- A value prepared for being shown. -/
inductive Shown where
  /-- A number, a name, or any other text that stands for itself. -/
  | word (text : String)
  /-- A name applied to one value. -/
  | call (name : String) (argument : Shown)
  | record (name : String) (fields : List (String × Shown))
  | list (items : List Shown)
deriving Repr, Inhabited

namespace Shown

/-- A natural number. -/
def nat (n : Nat) : Shown := word (Text.decimal n)

/-- A text in quotes. -/
def string (s : String) : Shown := word (Text.quoted s)

/-- A value that may be absent. -/
def option : Option Shown → Shown
  | none => word "None"
  | some s => call "Some" s

mutual

/-- A value on one line. -/
def inline : Shown → String
  | word text => text
  | call name argument => name ++ "(" ++ inline argument ++ ")"
  | record name fields =>
      name ++ " \x7b " ++ String.intercalate ", " (inlineFields fields) ++ " \x7d"
  | list items => "[" ++ String.intercalate ", " (inlineItems items) ++ "]"

/-- The fields of a record, each on one line. -/
def inlineFields : List (String × Shown) → List String
  | [] => []
  | (name, value) :: fields => (name ++ ": " ++ inline value) :: inlineFields fields

/-- The items of a list, each on one line. -/
def inlineItems : List Shown → List String
  | [] => []
  | item :: items => inline item :: inlineItems items

end

/-- A line break and the indentation of a level. -/
def lineAt (level : Nat) : String :=
  String.ofList ('\n' :: List.replicate (4 * level) ' ')

/-- Parts on lines of their own between two brackets. -/
def enclosed (opening closing : String) (level : Nat) (parts : List String) : String :=
  opening ++ String.join (parts.map fun part => lineAt (level + 1) ++ part ++ ",")
    ++ lineAt level ++ closing

mutual

/-- A value over several lines, at a level of indentation. -/
def spread (level : Nat) : Shown → String
  | word text => text
  | call name argument => enclosed (name ++ "(") ")" level [spread (level + 1) argument]
  | record name fields => enclosed (name ++ " \x7b") "\x7d" level (spreadFields (level + 1) fields)
  | list [] => "[]"
  | list (item :: items) =>
      enclosed "[" "]" level (spread (level + 1) item :: spreadItems (level + 1) items)

/-- The fields of a record at a level. -/
def spreadFields (level : Nat) : List (String × Shown) → List String
  | [] => []
  | (name, value) :: fields => (name ++ ": " ++ spread level value) :: spreadFields level fields

/-- The items of a list at a level. -/
def spreadItems (level : Nat) : List Shown → List String
  | [] => []
  | item :: items => spread level item :: spreadItems level items

end

/-- A value over several lines. -/
def pretty (s : Shown) : String := spread 0 s

end Shown

/-- A span as it is shown. -/
def Span.shown (s : Span) : Shown :=
  .record "Span" [("start_offset", .nat s.startOffset), ("end_offset", .nat s.endOffset),
    ("start_line", .nat s.startLine), ("end_line", .nat s.endLine),
    ("start_column", .nat s.startColumn), ("end_column", .nat s.endColumn)]

end Offside

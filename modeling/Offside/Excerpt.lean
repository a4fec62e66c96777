import Offside.Text.Bytes

/-! # Excerpts — the source line that a message points into

    An excerpt is one line of source with a caret below a column.  Its text
    starts with an empty line and ends with a newline, so that it stands in
    front of a message of one line. -/

namespace Offside

/-- A source line and the column under which the caret stands. -/
structure Excerpt where
  sourceLine : String
  column : Nat
deriving DecidableEq, Repr

namespace Excerpt

/-- The excerpt for a line of the source, counted from one.  A line that is
    missing or empty has none. -/
def ofSource (source : List Char) (line column : Nat) : Option Excerpt :=
  match line with
  | 0 => none
  | index + 1 =>
      match (Text.lines source)[index]? with
      | none => none
      | some [] => none
      | some (c :: cs) => some ⟨String.ofList (c :: cs), column⟩

/-- The line, and below it the caret after as many spaces as its column. -/
def display (e : Excerpt) : String :=
  "\n\n" ++ e.sourceLine ++ "\n" ++ String.ofList (List.replicate e.column ' ') ++ "^\n"

end Excerpt

end Offside

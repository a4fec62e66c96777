/-! # Preparing a source — line endings, blank lines, end marker

    A blank line inside a block would read as a line at the top level, so
    the text of a file has its blank lines taken out before the end marker
    is put behind it. -/

namespace Offside

/-- How the text of a file is prepared. -/
structure Preparation where
  marker : String
  stripBlankLines : Bool
  normalizeLineEndings : Bool
deriving DecidableEq, Repr

namespace Preparation

/-- A text without the carriage returns that stand in front of a newline. -/
def normalizeEndings : List Char → List Char
  | [] => []
  | '\r' :: '\n' :: cs => '\n' :: normalizeEndings cs
  | c :: cs => c :: normalizeEndings cs

/-- A text in which a newline and the lines of spaces that follow it become
    the newline alone.  The first argument counts the spaces read since the
    last newline, as long as nothing else has been read since; these spaces
    are written only once something else than a newline follows them. -/
def collapseBlank : Option Nat → List Char → List Char
  | none, [] => []
  | none, c :: cs =>
      if c = '\n' then c :: collapseBlank (some 0) cs else c :: collapseBlank none cs
  | some spaces, [] => List.replicate spaces ' '
  | some spaces, c :: cs =>
      if c = '\n' then collapseBlank (some 0) cs
      else if c = ' ' then collapseBlank (some (spaces + 1)) cs
      else List.replicate spaces ' ' ++ c :: collapseBlank none cs

/-- A text without its blank lines; the first and the last line stay. -/
def stripBlank (text : List Char) : List Char := collapseBlank none text

/-- The text that is parsed: the file's text, then a newline and the end
    marker. -/
def apply (p : Preparation) (text : String) : String :=
  let text := text.toList
  let text := if p.normalizeLineEndings then normalizeEndings text else text
  let text := if p.stripBlankLines then stripBlank text else text
  String.ofList (text ++ '\n' :: p.marker.toList)

end Preparation

end Offside

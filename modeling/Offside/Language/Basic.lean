import Offside.Language.Table
import Offside.Lexer
import Offside.Tree.Builder

/-! # The module language — sources into programs

    A source is a sequence of module declarations, one per line, with blocks
    marked by a colon and deeper indentation, and it ends with a newline and
    an end marker that the caller has put there.  The marker is a parameter
    of the language. -/

namespace Offside

/-- The language with an end marker, and the lexicon that goes with it. -/
structure Language where
  lexicon : Lexicon
  marker : String
deriving DecidableEq, Repr

namespace Language

/-- The end marker unless another one is chosen. -/
def defaultMarker : String := "@@EOF@@"

/-- The pattern of a newline and the end marker. -/
def markerPattern (marker : String) : String :=
  String.ofList ('\\' :: 'n' :: Regex.escapeLiteral marker.toList)

/-- The lexical rules, in order of priority. -/
def draft (marker : String) : LexiconDraft where
  rules := [
    .initial ";[ a-zA-Z]*" (.emitStripped "SEMANTIC_COMMENT" 1),
    .initial "module" (.emit "KEYWORD_MODULE"),
    .initial "[a-zA-Z0-9_]+(\\.[a-zA-Z0-9_]+)+" (.emit "DOT_DELIMITED_IDENTIFIER"),
    .initial "[a-zA-Z0-9_]+" (.emit "IDENTIFIER"),
    .initial (markerPattern marker) (.endOfInput "EOF_MARKER"),
    .initial ":\\n((    )*)" .blockOpen,
    .initial "\\n((    )*)" .lineBreak,
    .initial "[^\\S\\n]+" .skip]
  structural := .standard

/-- The language with the given end marker. -/
def withMarker (marker : String) : Except GrammarFault Language := do
  return ⟨← (draft marker).compile table, marker⟩

/-- A bound on the moves of a run over a source. -/
def moveBound (source : List Char) : Nat := 6 * source.length + 8

/-- All tokens of a source. -/
def tokenize (l : Language) (source : String) : Except Fault (List Token) :=
  l.lexicon.tokenize source.toList

/-- The program that a source with its end marker spells; `capture` tells
    whether the tree records locations. -/
def parse (l : Language) (source : String) (capture : Bool) : Except Fault Program :=
  let lexer := Lexer.start l.lexicon source.toList
  match Automaton.runFor table capture Builder.semantics (moveBound source.toList) lexer () with
  | .running _ => .error (.breach .endlessRun)
  | .ended (.error fault) _ _ => .error fault
  | .ended (.ok (.program p)) _ _ => .ok p
  | .ended (.ok value) _ _ => .error (.breach (.notAProgram value.shown.inline))

end Language

end Offside

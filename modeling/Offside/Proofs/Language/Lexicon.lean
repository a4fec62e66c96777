import Offside.Language.Basic
import Offside.Proofs.Language.Grammar
import Offside.Proofs.Regex.Search

/-! # The lexicon of the module language, written out

    The machines of the rules stand here as they come out of their patterns,
    and the sets they are made of with the characters that they mean.

    * `lexiconFor` has the rules for every end marker;
    * `withMarker_defaultMarker` says that the patterns compile to it. -/

namespace Offside

namespace Language

open Regex

/-! ## Characters -/

/-- Whether a character belongs to words. -/
def isWordChar (c : Char) : Bool :=
  ('a' ≤ c && c ≤ 'z') || ('A' ≤ c && c ≤ 'Z') || ('0' ≤ c && c ≤ '9') || c == '_'

/-- Whether a character belongs to comments. -/
def isRemarkChar (c : Char) : Bool :=
  c == ' ' || ('a' ≤ c && c ≤ 'z') || ('A' ≤ c && c ≤ 'Z')

/-- Whether a character is white space inside a line. -/
def isBlank (c : Char) : Bool := Unicode.isSpace c && c != '\n'

/-- The characters of words as a set of a pattern. -/
def wordSet : Charset :=
  .union (.range 'a' 'z') (.union (.range 'A' 'Z') (.union (.range '0' '9') (.single '_')))

/-- The characters of comments as a set of a pattern. -/
def remarkSet : Charset := .union (.single ' ') (.union (.range 'a' 'z') (.range 'A' 'Z'))

/-- White space inside a line as a set of a pattern. -/
def blankSet : Charset := .compl (.union (.compl .space) (.single '\n'))

theorem has_wordSet : wordSet.has = isWordChar := by
  funext c
  simp only [wordSet, Charset.has, Charset.has_single, isWordChar, Bool.or_assoc]

theorem has_remarkSet : remarkSet.has = isRemarkChar := by
  funext c
  simp only [remarkSet, Charset.has, Charset.has_single, isRemarkChar, Bool.or_assoc]

theorem has_blankSet : blankSet.has = isBlank := by
  funext c
  simp only [blankSet, Charset.has, Charset.has_single, isBlank, Bool.not_or, Bool.not_not]
  rfl

/-! ## Machines -/

/-- The keyword that declares a module. -/
def keyword : List Char := ['m', 'o', 'd', 'u', 'l', 'e']

/-- What one level of the narrowest indentation takes. -/
def fourSpaces : List Char := [' ', ' ', ' ', ' ']

/-- A dot and a word. -/
def dotWord : Machine := .seq (.set (.single '.')) (.many 2 wordSet)

/-- A dot and a word, and then as many more of them as there are. -/
def dotWords : Machine := .seq (.group 1 dotWord) (.loop 1 true (.group 1 dotWord))

/-- An indentation, measured by a group. -/
def margin : Machine := .group 1 (.loop 0 true (.group 2 (.literal fourSpaces)))

/-- A rule of the initial mode. -/
def initialRule (pattern : String) (m : Machine) (action : RuleAction Symbol) : Rule :=
  ⟨pattern, m.tied, action, [initialMode]⟩

/-- The rules for an end marker. -/
def rules (marker : String) : List Rule := [
  initialRule ";[ a-zA-Z]*" (.seq (.set (.single ';')) (.loop 0 true (.set remarkSet)))
    (.emitStripped Kind.comment 1),
  initialRule "module" (.literal keyword) (.emit Kind.keyword),
  initialRule "[a-zA-Z0-9_]+(\\.[a-zA-Z0-9_]+)+" (.seq (.many 0 wordSet) dotWords)
    (.emit Kind.name),
  initialRule "[a-zA-Z0-9_]+" (.many 0 wordSet) (.emit Kind.word),
  initialRule (markerPattern marker) (.literal ('\n' :: marker.toList))
    (.endOfInput Kind.marker),
  initialRule ":\\n((    )*)" (.seq (.set (.single ':')) (.seq (.set (.single '\n')) margin))
    .blockOpen,
  initialRule "\\n((    )*)" (.seq (.set (.single '\n')) margin) .lineBreak,
  initialRule "[^\\S\\n]+" (.many 0 blankSet) .skip]

/-- The lexicon for an end marker. -/
def lexiconFor (marker : String) : Lexicon where
  rules := rules marker
  structural := some ⟨Kind.indent, Kind.dedent, Kind.newline⟩
  endSymbol := Kind.stop

/-- The language with the end marker that it has by default. -/
def standard : Language := ⟨lexiconFor defaultMarker, defaultMarker⟩

/-- The patterns compile to the machines above. -/
theorem withMarker_defaultMarker : withMarker defaultMarker = .ok standard := by
  decide +kernel

end Language

end Offside

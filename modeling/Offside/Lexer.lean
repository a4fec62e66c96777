import Offside.Indentation
import Offside.Lexicon
import Offside.Place
import Offside.TokenSource

/-! # The lexer — text into tokens

    A lexer hands out one token at a time.  One match can stand for several
    tokens: a line that leaves `k` blocks is `k` block ends and a line
    separator, and the mark at the end of the input is a block end for
    every open block and then the mark.  Such batches wait in a queue and
    are handed out before the text is looked at again.

    At the end of the text the lexer hands out the end symbol once, and
    nothing from then on.  A call that fails still moves the lexer: the
    match that is at fault has been passed, and the blocks are what it made
    of them before it failed.

    What is passed of a match is its length, counted from the place reached.
    Rules are to match at that place.  A rule that is not anchored may match
    further on, and then the length may end inside a character of the text
    ahead, where a text of bytes cannot be sliced at all: looking for a token
    would stop right there, with no answer.  Here that character is passed as
    well.  No lexicon whose rules are tied to the place comes to this, and
    what is said of lexicons in general is said up to such a match. -/

namespace Offside

/-- The state of a lexer. -/
structure Lexer where
  lexicon : Lexicon
  source : List Char
  /-- The place reached so far. -/
  place : Place
  /-- The text from that place on. -/
  ahead : List Char
  /-- Whether the end symbol has been handed out. -/
  finished : Bool
  mode : String
  /-- The modes to return to, the latest first. -/
  suspended : List String
  /-- Tokens of the last match that are still to be handed out. -/
  pending : List Token
  indentation : Indentation
deriving DecidableEq, Repr

namespace Lexer

/-- A lexer at the start of a text. -/
def start (lexicon : Lexicon) (source : List Char) : Lexer where
  lexicon
  source
  place := .start
  ahead := source
  finished := false
  mode := initialMode
  suspended := []
  pending := []
  indentation := .start

/-- Enter a mode. -/
def pushMode (l : Lexer) (mode : String) : Lexer :=
  { l with mode := mode, suspended := l.mode :: l.suspended }

/-- Leave the current mode; the first component is the mode that was left.
    The mode at the bottom is never left. -/
def popMode (l : Lexer) : Option String × Lexer :=
  match l.suspended with
  | [] => (none, l)
  | mode :: suspended => (some l.mode, { l with mode := mode, suspended := suspended })

/-- Whether a token is still to come. -/
def hasMore (l : Lexer) : Bool := !l.pending.isEmpty || !l.finished

/-- The excerpt for a line and column of the source. -/
def excerpt (l : Lexer) (line column : Nat) : Option Excerpt :=
  Excerpt.ofSource l.source line column

/-- The fault of a character that no rule matches. -/
def unexpectedCharacter (l : Lexer) (c : Char) : Fault :=
  .unexpectedCharacter c l.place.line l.place.column (l.excerpt l.place.line l.place.column)

/-- The text of a token that leaves out so many bytes in front; nothing is
    left if no character ends there. -/
def stripped (dropped : Nat) (text : List Char) : List Char :=
  (Text.dropBytes? dropped text).getD []

/-- What one match comes to: tokens that are handed out together, the lexer
    being past the match and its queue empty.  No tokens mean that the
    match is passed over. -/
structure Scanned where
  tokens : List Token
  indentation : Indentation

/-- Why a match comes to nothing, and the blocks as it leaves them. -/
structure Failed where
  fault : Fault
  indentation : Indentation

/-- A batch that is queued to be handed out from its first token on. -/
def batch (tokens : List Token) (indentation : Indentation) : Except Failed Scanned :=
  match tokens with
  | [] => .error ⟨.breach .emptyBatch, indentation⟩
  | _ :: _ => .ok ⟨tokens, indentation⟩

/-- A batch that a token closes is not empty. -/
@[simp] theorem batch_concat (tokens : List Token) (token : Token) (indentation : Indentation) :
    batch (tokens ++ [token]) indentation = .ok ⟨tokens ++ [token], indentation⟩ := by
  cases tokens <;> rfl

/-- The block ends for so many levels. -/
def dedents (structural : Structural Symbol) (span : Span) (levels : Nat) : List Token :=
  List.replicate levels ⟨structural.dedent, "", span⟩

/-- The tokens of a match with its text, its span and the width of its first
    group, on the line where the match ends.  The end of the input closes all
    blocks before it is known whether there is a terminal for their ends. -/
def perform (lexicon : Lexicon) (indentation : Indentation) (action : RuleAction Symbol)
    (text : List Char) (span : Span) (width : Nat) : Except Failed Scanned :=
  let single (kind : Symbol) (text : List Char) : List Token := [⟨kind, String.ofList text, span⟩]
  match action with
  | .emit kind => .ok ⟨single kind text, indentation⟩
  | .emitStripped kind dropped => .ok ⟨single kind (stripped dropped text), indentation⟩
  | .endOfInput kind =>
      let (levels, indentation) := indentation.closeAll
      match levels, lexicon.structural with
      | 0, _ => batch (single kind text) indentation
      | _ + 1, none => .error ⟨.breach .noStructuralTerminals, indentation⟩
      | _ + 1, some structural =>
          batch (dedents structural span levels ++ single kind text) indentation
  | .blockOpen =>
      match lexicon.structural with
      | none => .error ⟨.breach .noStructuralTerminals, indentation⟩
      | some structural =>
          match indentation.openBlock width span.endLine with
          | .error cause => .error ⟨.indentation cause, indentation⟩
          | .ok indentation => .ok ⟨single structural.indent text, indentation⟩
  | .lineBreak =>
      match lexicon.structural with
      | none => .error ⟨.breach .noStructuralTerminals, indentation⟩
      | some structural =>
          match indentation.lineBreak width span.endLine with
          | .error fault => .error ⟨fault, indentation⟩
          | .ok (.same, indentation) => .ok ⟨single structural.newline [], indentation⟩
          | .ok (.outward levels, indentation) =>
              batch (dedents structural span levels ++ single structural.newline []) indentation
          | .ok (.deeper, indentation) => .ok ⟨[], indentation⟩
  | .skip => .ok ⟨[], indentation⟩

/-- The lexer past a match of the given length, with the text of the match.
    A character in which the length ends is passed whole, though bytes have no
    such slice; see the head of this file. -/
def pass (l : Lexer) (length : Nat) : List Char × Lexer :=
  let (text, ahead) := Text.cut length l.ahead
  (text, { l with place := l.place.after text, ahead := ahead })

/-- Pass a selected match and perform its action. -/
def take (l : Lexer) (s : Selection) : Except Fault (List Token) × Lexer :=
  let (text, passed) := l.pass s.found.length
  let span := l.place.spanTo passed.place
  match perform l.lexicon l.indentation s.action text span ((s.found.width 1).getD 0) with
  | .error failed =>
      (.error failed.fault, { passed with indentation := failed.indentation })
  | .ok scanned => (.ok scanned.tokens, { passed with indentation := scanned.indentation })

/-- Look at the text until a match comes to a token.  Every match that is
    passed over takes a character, so a text as long as the one ahead bounds
    the rounds. -/
def scan : List Char → Lexer → Except Fault (Option Token) × Lexer
  | bound, l =>
    match l.ahead with
    | [] =>
        if l.finished then
          (.ok none, l)
        else
          (.ok (some ⟨l.lexicon.endSymbol, "", l.place.point⟩), { l with finished := true })
    | c :: _ =>
        match l.lexicon.select l.mode l.ahead with
        | none => (.error (l.unexpectedCharacter c), l)
        | some s =>
            match l.take s with
            | (.error fault, l) => (.error fault, l)
            | (.ok (token :: tokens), l) => (.ok (some token), { l with pending := tokens })
            | (.ok [], l) =>
                match bound with
                | [] => (.ok none, l)
                | _ :: fewer => scan fewer l

/-- The next token, none at the end, and the lexer after the call. -/
def next (l : Lexer) : Except Fault (Option Token) × Lexer :=
  match l.pending with
  | token :: tokens => (.ok (some token), { l with pending := tokens })
  | [] => scan l.ahead l

instance : TokenSource Lexer where
  next := next
  hasMore := hasMore
  excerpt := excerpt

/-- Tokens up to the end, to a fault, or to so many of them; on a fault the
    tokens before it come with it. -/
def collect : Nat → Lexer → List Token × Except Fault Unit × Lexer
  | 0, l => ([], .ok (), l)
  | n + 1, l =>
      match l.next with
      | (.error fault, l) => ([], .error fault, l)
      | (.ok none, l) => ([], .ok (), l)
      | (.ok (some token), l) =>
          let (tokens, result, l) := collect n l
          (token :: tokens, result, l)

/-- A bound on the tokens still to come: every character ahead makes at most
    one token and opens at most one block, every open block makes one, and
    so do the tokens in the queue and the end of the text. -/
def tokenBound (l : Lexer) : Nat :=
  l.pending.length + l.indentation.depth + 2 * l.ahead.length + 2

/-- All tokens from here on, up to the end or to a fault. -/
def rest (l : Lexer) : List Token × Except Fault Unit × Lexer := l.collect l.tokenBound

end Lexer

/-- All tokens of a text, the end symbol included. -/
def Lexicon.tokenize (lexicon : Lexicon) (source : List Char) : Except Fault (List Token) :=
  match (Lexer.start lexicon source).rest with
  | (tokens, .ok (), _) => .ok tokens
  | (_, .error fault, _) => .error fault

end Offside

import Offside.Automaton.Table
import Offside.GrammarFault
import Offside.Regex.Machine
import Offside.Regex.Reader

/-! # Lexicons — ordered lexical rules

    A lexicon is a list of rules, each a pattern with an action.  At every
    place of the source the rules of the current mode are tried in order,
    and the first whose match is not empty wins: an earlier rule shadows a
    later one, and a match is as long as its own pattern prefers.

    Rules are drafted over the names of terminals and compiled against a
    table, which turns the names into symbols.  The terminals for the
    opening and closing of blocks and for the separation of lines are named
    once for the whole draft; they have to exist only if some rule measures
    indentation or ends the input.  A rule that measures indentation does
    so by the width of its first group. -/

namespace Offside

/-- The mode that a lexer starts in. -/
def initialMode : String := "INITIAL"

/-- What happens when a rule matches.  The kind is a terminal's name in a
    draft and a symbol in a lexicon. -/
inductive RuleAction (κ : Type) where
  /-- A token of this kind with the matched text. -/
  | emit (kind : κ)
  /-- A token whose text leaves out so many bytes in front. -/
  | emitStripped (kind : κ) (dropped : Nat)
  /-- The mark at the end of the input, which closes every open block. -/
  | endOfInput (kind : κ)
  /-- A block opens, as wide as the first group. -/
  | blockOpen
  /-- A line ends; the first group is the indentation of the next. -/
  | lineBreak
  /-- The match is passed over. -/
  | skip
deriving DecidableEq, Repr

namespace RuleAction

/-- Whether an action needs a measured width. -/
def measuresIndentation {κ : Type} : RuleAction κ → Bool
  | blockOpen => true
  | lineBreak => true
  | _ => false

/-- Whether an action produces tokens for the structure of blocks. -/
def isStructural {κ : Type} : RuleAction κ → Bool
  | blockOpen => true
  | lineBreak => true
  | endOfInput _ => true
  | _ => false

/-- The action with its kind resolved. -/
def resolve {κ μ : Type} (f : κ → Except GrammarFault μ) :
    RuleAction κ → Except GrammarFault (RuleAction μ)
  | emit kind => return .emit (← f kind)
  | emitStripped kind dropped => return .emitStripped (← f kind) dropped
  | endOfInput kind => return .endOfInput (← f kind)
  | blockOpen => .ok .blockOpen
  | lineBreak => .ok .lineBreak
  | skip => .ok .skip

end RuleAction

/-- A rule over the names of terminals. -/
structure RuleDraft where
  pattern : String
  action : RuleAction String
  modes : List String
deriving DecidableEq, Repr

/-- A rule in the initial mode. -/
def RuleDraft.initial (pattern : String) (action : RuleAction String) : RuleDraft :=
  ⟨pattern, action, [initialMode]⟩

/-- The terminals that stand for the structure of blocks. -/
structure Structural (κ : Type) where
  indent : κ
  dedent : κ
  newline : κ
deriving DecidableEq, Repr

/-- The names that the structural terminals have unless a draft says
    otherwise. -/
def Structural.standard : Structural String := ⟨"INDENT", "DEDENT", "NL"⟩

/-- Rules in order, with the names of the structural terminals. -/
structure LexiconDraft where
  rules : List RuleDraft
  structural : Structural String
deriving DecidableEq, Repr

/-- A compiled rule. -/
structure Rule where
  pattern : String
  machine : Regex.Machine
  action : RuleAction Symbol
  modes : List String
deriving DecidableEq, Repr

/-- Whether a rule takes part in a mode. -/
def Rule.isActiveIn (r : Rule) (mode : String) : Bool := r.modes.contains mode

/-- Compiled rules, the structural terminals if a rule needs them, and the
    symbol that ends the tokens. -/
structure Lexicon where
  rules : List Rule
  structural : Option (Structural Symbol)
  endSymbol : Symbol
deriving DecidableEq, Repr

/-- What a selected rule does, and its match. -/
structure Selection where
  action : RuleAction Symbol
  found : Regex.Match
deriving DecidableEq, Repr

namespace Rule

/-- The match of a rule in the text ahead, unless it is empty. -/
def match? (r : Rule) (ahead : List Char) : Option Regex.Match :=
  (r.machine.search ahead).filter (0 < ·.length)

end Rule

namespace Lexicon

/-- The rules of a mode, in order. -/
def rulesFor (l : Lexicon) (mode : String) : List Rule :=
  l.rules.filter (·.isActiveIn mode)

/-- The first rule of a mode with a match in the text ahead. -/
def select (l : Lexicon) (mode : String) (ahead : List Char) : Option Selection :=
  (l.rulesFor mode).findSome? fun r => (r.match? ahead).map fun found => ⟨r.action, found⟩

end Lexicon

namespace LexiconDraft

/-- The symbol of a terminal. -/
def resolve (t : Automaton.Table) (name : String) : Except GrammarFault Symbol :=
  match t.terminal name with
  | some symbol => .ok symbol
  | none => .error (.unknownTerminal name)

/-- The text of a pattern tied to the place where the search starts.  The
    pattern is put in as text, so an alternative that closes the group
    around it is not tied. -/
def anchoredText (pattern : String) : List Char :=
  '^' :: '(' :: '?' :: ':' :: (pattern.toList ++ [')'])

/-- The machine of a pattern. -/
def machine (pattern : String) : Except GrammarFault Regex.Machine :=
  match Regex.Pattern.read? (anchoredText pattern) with
  | some p => .ok (.ofPattern p)
  | none => .error (.invalidPattern pattern)

/-- A rule compiled against a table. -/
def rule (t : Automaton.Table) (r : RuleDraft) : Except GrammarFault Rule := do
  let m ← machine r.pattern
  if r.action.measuresIndentation && m.groupCount == 0 then
    throw (.missingIndentGroup r.pattern)
  let action ← r.action.resolve (resolve t)
  return ⟨r.pattern, m, action, r.modes⟩

/-- The structural terminals, resolved if a rule needs them. -/
def structuralFor (t : Automaton.Table) (d : LexiconDraft) :
    Except GrammarFault (Option (Structural Symbol)) :=
  if d.rules.any (·.action.isStructural) then do
    let indent ← resolve t d.structural.indent
    let dedent ← resolve t d.structural.dedent
    let newline ← resolve t d.structural.newline
    return some ⟨indent, dedent, newline⟩
  else
    return none

/-- A draft compiled against a table. -/
def compile (d : LexiconDraft) (t : Automaton.Table) : Except GrammarFault Lexicon := do
  let structural ← structuralFor t d
  let rules ← d.rules.mapM (rule t)
  return ⟨rules, structural, t.endSymbol⟩

end LexiconDraft

end Offside

import Offside.Regex.Charset

/-! # Patterns — regular expressions as trees

    A pattern accepts stretches of text.  Alternatives are ordered, and a
    repetition prefers more or fewer rounds; a match is the first one in
    that order of preference. -/

namespace Offside.Regex

/-- A condition on a place of the text that takes no text itself. -/
inductive Look where
  | textStart
  | textEnd
  | lineStart
  | lineEnd
  | wordEdge
  | noWordEdge
  | wordStart
  | wordEnd
  /-- No word before the place. -/
  | wordStartHalf
  /-- No word after the place. -/
  | wordEndHalf
deriving DecidableEq, Repr, Inhabited

/-- Whether a character before or after a place makes a word there. -/
def inWord : Option Char → Bool
  | none => false
  | some c => Unicode.isWord c

/-- Whether a condition holds between two characters; `none` stands for the
    end of the text on that side. -/
def Look.holds (before after : Option Char) : Look → Bool
  | textStart => before.isNone
  | textEnd => after.isNone
  | lineStart => before.isNone || before == some '\n'
  | lineEnd => after.isNone || after == some '\n'
  | wordEdge => inWord before != inWord after
  | noWordEdge => inWord before == inWord after
  | wordStart => !inWord before && inWord after
  | wordEnd => inWord before && !inWord after
  | wordStartHalf => !inWord before
  | wordEndHalf => !inWord after

/-- A regular expression. -/
inductive Pattern where
  | empty
  | set (chars : Charset)
  | look (condition : Look)
  | group (index : Nat) (body : Pattern)
  | seq (first second : Pattern)
  | alt (first second : Pattern)
  /-- At least `least` rounds, and at most `most` where that is given. -/
  | rounds (body : Pattern) (least : Nat) (most : Option Nat) (greedy : Bool)
deriving DecidableEq, Repr, Inhabited

namespace Pattern

/-- Patterns one after the other. -/
def seqs : List Pattern → Pattern
  | [] => empty
  | [p] => p
  | p :: q :: ps => seq p (seqs (q :: ps))

/-- Patterns in order of preference. -/
def alts : List Pattern → Pattern
  | [] => empty
  | [p] => p
  | p :: q :: ps => alt p (alts (q :: ps))

/-- Whether a pattern accepts the empty stretch somewhere. -/
def nullable : Pattern → Bool
  | empty => true
  | set _ => false
  | look _ => true
  | group _ p => p.nullable
  | seq p q => p.nullable && q.nullable
  | alt p q => p.nullable || q.nullable
  | rounds p least _ _ => least == 0 || p.nullable

/-- Whether all stretches that a pattern accepts are empty. -/
def widthless : Pattern → Bool
  | empty => true
  | set _ => false
  | look _ => true
  | group _ p => p.widthless
  | seq p q => p.widthless && q.widthless
  | alt p q => p.widthless && q.widthless
  | rounds p _ most _ => most == some 0 || p.widthless

/-- The repetition of a pattern.  Where the body takes no text, one round
    does what many would do. -/
def repeated (p : Pattern) (least : Nat) (most : Option Nat) (greedy : Bool) : Pattern :=
  if p.widthless then
    rounds p (min least 1) (some (min (most.getD 1) 1)) greedy
  else
    rounds p least most greedy

end Pattern

end Offside.Regex

import Offside.Regex.Pattern

/-! # Weight — how much room the machine of a pattern takes

    Rounds that are counted are written out, so a short text can spell a
    pattern whose machine would not fit anywhere.  The weight is what the
    machine takes, in bytes, if it reads the bytes of a text: every state
    takes 32, every way out of a choice 4 and every range of bytes 8.  It is
    exact for ASCII and close for the rest. -/

namespace Offside.Regex

namespace Charset

/-- What a set takes beyond its first and last state.  For the properties,
    and for what lies outside of them, this is about what the sequences of
    bytes take that spell their characters. -/
def breadth : Charset → Nat
  | range _ hi => if hi.toNat < 128 then 8 else 4 + 32 * hi.utf8Size
  | space => 616
  | digit => 4576
  | word => 48276
  | none => 0
  | compl space => 1860
  | compl digit => 11592
  | compl word => 45068
  | compl s => s.breadth + 928
  | union s t => s.breadth + t.breadth
  | inter s t => s.breadth + t.breadth
  | diff s t => s.breadth + t.breadth
  | symmDiff s t => s.breadth + t.breadth
  | anyCase s => 2 * s.breadth

/-- The weight of a set; a single character is a state for each byte. -/
def weight : Charset → Nat
  | range lo hi => if lo = hi then 32 * lo.utf8Size else (range lo hi).breadth + 64
  | s => s.breadth + 64

end Charset

namespace Pattern

/-- The set that an alternative of sets amounts to. -/
def toSet? : Pattern → Option Charset
  | set s => some s
  | alt p q =>
      match p.toSet?, q.toSet? with
      | some s, some t => some (.union s t)
      | _, _ => none
  | _ => none

/-- The weight of a pattern. -/
def weight : Pattern → Nat
  | empty => 32
  | set s => s.weight
  | look _ => 32
  | group _ p => p.weight + 64
  | seq p q => p.weight + q.weight
  | alt p q =>
      match (alt p q).toSet? with
      | some s => s.weight
      | none => p.weight + q.weight + 72
  | rounds p 0 none _ => if p.nullable then p.weight + 112 else p.weight + 40
  | rounds p least none _ => least * p.weight + 40
  | rounds p 0 (some 1) _ => p.weight + 72
  | rounds p least (some most) _ =>
      let body := p.weight
      let front := if least = 0 then 32 else least * body
      if least = most then front else front + 32 + (most - least) * (body + 40)

end Pattern

/-- The greatest weight of a repetition: 10 MiB. -/
def maxWeight : Nat := 0xa0_0000

end Offside.Regex

import Offside.Unicode.Case
import Offside.Unicode.Digit
import Offside.Unicode.Space
import Offside.Unicode.Word

/-! # Character sets — what one place of a pattern accepts

    A set is an expression over intervals, Unicode properties and set
    operations; membership evaluates it. -/

namespace Offside.Regex

/-- A set of characters. -/
inductive Charset where
  | range (lo hi : Char)
  | space
  | digit
  | word
  | none
  | union (s t : Charset)
  | inter (s t : Charset)
  | diff (s t : Charset)
  /-- The members of exactly one of two sets. -/
  | symmDiff (s t : Charset)
  | compl (s : Charset)
  /-- All characters that differ from a member by case alone. -/
  | anyCase (s : Charset)
deriving DecidableEq, Repr, Inhabited

namespace Charset

/-- Whether a character belongs to a set. -/
def has : Charset → Char → Bool
  | range lo hi, c => lo ≤ c && c ≤ hi
  | space, c => Unicode.isSpace c
  | digit, c => Unicode.isDigit c
  | word, c => Unicode.isWord c
  | none, _ => false
  | union s t, c => s.has c || t.has c
  | inter s t, c => s.has c && t.has c
  | diff s t, c => s.has c && !t.has c
  | symmDiff s t, c => s.has c != t.has c
  | compl s, c => !s.has c
  | anyCase s, c => (Unicode.caseVariants c).any s.has

/-- The set of one character. -/
def single (c : Char) : Charset := range c c

/-- The union of a list of sets. -/
def unions : List Charset → Charset
  | [] => none
  | [s] => s
  | s :: t :: sets => union s (unions (t :: sets))

/-- The set with all case variants of its members.  Only intervals are
    extended: the properties have every variant of a character or none, and
    the other sets of a pattern are made of such as are extended already. -/
def foldCase : Charset → Charset
  | range lo hi => anyCase (range lo hi)
  | union s t => union s.foldCase t.foldCase
  | s => s

theorem has_single (c d : Char) : (single c).has d = (d == c) := by
  rw [single, has, Bool.eq_iff_iff]
  simp only [Bool.and_eq_true, decide_eq_true_eq, beq_iff_eq]
  exact ⟨fun h => Char.le_antisymm h.2 h.1, fun h => h ▸ ⟨Char.le_refl _, Char.le_refl _⟩⟩

end Charset

end Offside.Regex

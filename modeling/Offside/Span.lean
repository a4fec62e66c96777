import Offside.Text.Numeral

/-! # Spans — stretches of source

    A span gives a stretch of source twice, as byte offsets and as lines and
    columns.  Lines count from one, columns are bytes from the start of the
    line.  A stretch that covers no text, such as that of an empty
    production, is an absent span; `Span.merge` therefore works on optional
    spans and has the absent one as its neutral element. -/

namespace Offside

/-- A stretch of source by offsets and by lines and columns. -/
structure Span where
  startOffset : Nat
  endOffset : Nat
  startLine : Nat
  endLine : Nat
  startColumn : Nat
  endColumn : Nat
deriving DecidableEq, Repr, Inhabited

namespace Span

/-- The span of width zero at one place. -/
def point (offset line column : Nat) : Span :=
  ⟨offset, offset, line, line, column, column⟩

/-- The span from the start of the first to the end of the second. -/
def between (first last : Span) : Span :=
  ⟨first.startOffset, last.endOffset, first.startLine, last.endLine,
    first.startColumn, last.endColumn⟩

/-- The span from the earliest start to the latest end; of equal starts and
    of equal ends the first argument's counts. -/
def join (a b : Span) : Span :=
  between (if a.startOffset ≤ b.startOffset then a else b)
    (if b.endOffset ≤ a.endOffset then a else b)

/-- The join of two spans, where an absent one leaves the other as it is. -/
def merge : Option Span → Option Span → Option Span
  | none, b => b
  | a, none => a
  | some a, some b => some (join a b)

@[simp] theorem merge_none_left (b : Option Span) : merge none b = b := by
  cases b <;> rfl

@[simp] theorem merge_none_right (a : Option Span) : merge a none = a := by
  cases a <;> rfl

@[simp] theorem merge_some (a b : Span) : merge (some a) (some b) = some (join a b) := rfl

/-- The number of bytes that a span covers. -/
def length (s : Span) : Nat := s.endOffset - s.startOffset

/-- Whether a span covers no text. -/
def isEmpty (s : Span) : Bool := s.startOffset == s.endOffset

/-- Start and end as line and column. -/
def display (s : Span) : String :=
  Text.decimal s.startLine ++ ":" ++ Text.decimal s.startColumn ++ ".."
    ++ Text.decimal s.endLine ++ ":" ++ Text.decimal s.endColumn

end Span

end Offside

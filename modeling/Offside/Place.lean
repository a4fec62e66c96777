import Offside.Span
import Offside.Text.Bytes

/-! # Places — how far a text has been read

    A place is an offset together with the line it lies on and the offset
    at which that line starts.  Reading a text moves a place character by
    character; only a newline starts a new line. -/

namespace Offside

/-- A byte offset, its line, and the offset of the start of that line. -/
structure Place where
  offset : Nat
  line : Nat
  lineStart : Nat
deriving DecidableEq, Repr

namespace Place

/-- The start of a text. -/
def start : Place := ⟨0, 1, 0⟩

/-- The column of a place. -/
def column (p : Place) : Nat := p.offset - p.lineStart

/-- The place after one more character. -/
def step (p : Place) (c : Char) : Place :=
  let offset := p.offset + c.utf8Size
  if c = '\n' then ⟨offset, p.line + 1, offset⟩ else ⟨offset, p.line, p.lineStart⟩

/-- The place after a text. -/
def after (p : Place) (text : List Char) : Place := text.foldl step p

/-- The span between two places. -/
def spanTo (p q : Place) : Span :=
  ⟨p.offset, q.offset, p.line, q.line, p.column, q.column⟩

/-- The span of width zero at a place. -/
def point (p : Place) : Span := Span.point p.offset p.line p.column

@[simp] theorem after_nil (p : Place) : p.after [] = p := rfl

@[simp] theorem after_cons (p : Place) (c : Char) (cs : List Char) :
    p.after (c :: cs) = (p.step c).after cs := rfl

@[simp] theorem after_append (p : Place) (cs ds : List Char) :
    p.after (cs ++ ds) = (p.after cs).after ds := List.foldl_append ..

@[simp] theorem offset_step (p : Place) (c : Char) :
    (p.step c).offset = p.offset + c.utf8Size := by
  rw [step]; split <;> rfl

/-- Reading a text moves the offset by the size of the text. -/
theorem offset_after (p : Place) (cs : List Char) :
    (p.after cs).offset = p.offset + Text.bytes cs := by
  induction cs generalizing p with
  | nil => rfl
  | cons c cs ih => rw [after_cons, ih, offset_step, Text.bytes_cons, Nat.add_assoc]

end Place

end Offside

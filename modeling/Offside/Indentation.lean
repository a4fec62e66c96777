import Offside.Fault

/-! # Indentation — the width of the innermost block and the unit of the file

    The unit is the width of the first block that opens, and it never
    changes afterwards.  Every later block opens exactly one unit deeper
    than the block around it, so the number of open blocks is the current
    width divided by the unit.  A call that fails leaves no new state. -/

namespace Offside

/-- What a line break means for the blocks that are open. -/
inductive LineBreak where
  /-- The line stands at the current level. -/
  | same
  /-- The line stands this many levels further out. -/
  | outward (levels : Nat)
  /-- The line is indented deeper inside a block, which means nothing. -/
  | deeper
deriving DecidableEq, Repr

/-- The indentation of the innermost open block and the unit of the file. -/
structure Indentation where
  current : Nat
  unit : Option Nat
deriving DecidableEq, Repr

namespace Indentation

/-- The indentation at the start of a file. -/
def start : Indentation := ⟨0, none⟩

/-- The number of open blocks. -/
def depth (i : Indentation) : Nat :=
  match i.unit with
  | none => 0
  | some unit => i.current / unit

/-- Open a block whose first line is indented by `width`. -/
def openBlock (i : Indentation) (width line : Nat) : Except IndentFault Indentation :=
  if width ≤ i.current then
    .error (.notDeeper width i.current line)
  else
    match i.unit with
    | none => .ok ⟨width, some width⟩
    | some unit =>
        if width % unit ≠ 0 then
          .error (.notAMultiple width unit line)
        else if width ≠ i.current + unit then
          .error (.skippedLevel width (i.current + unit) line)
        else
          .ok ⟨width, some unit⟩

/-- Meet a line indented by `width` after a plain line break. -/
def lineBreak (i : Indentation) (width line : Nat) : Except Fault (LineBreak × Indentation) :=
  if width = i.current then
    .ok (.same, i)
  else if width < i.current then
    match i.unit with
    | none => .error (.breach (.partialDedent i.current width none))
    | some unit =>
        if (i.current - width) % unit = 0 then
          .ok (.outward ((i.current - width) / unit), ⟨width, some unit⟩)
        else
          .error (.breach (.partialDedent i.current width (some unit)))
  else if i.current = 0 then
    .error (.indentation (.missingBlockOpener width i.current line))
  else
    .ok (.deeper, i)

/-- Close every open block; the first component tells how many there were. -/
def closeAll (i : Indentation) : Nat × Indentation :=
  (i.depth, ⟨0, i.unit⟩)

end Indentation

end Offside

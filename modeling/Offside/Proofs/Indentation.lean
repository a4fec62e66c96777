import Mathlib.Data.List.Forall2
import Offside.Indentation

/-! # Indentation as a stack — two numbers for all the blocks that are open

    The width of the innermost block and the unit of the file stand for a
    stack of widths, one for each open block.  Nothing is lost by keeping
    only the two: the widths are the multiples of the unit up to the
    innermost one, whatever has been asked before, faults included.

    * `OpenBlocks` is the stack, with the same calls as an indentation;
    * `StandsFor` is what ties the two together, and `standsFor_call` says
      that every call keeps it and is answered alike;
    * `answers_of_stack` says so of all calls in a row. -/

namespace Offside

namespace Indentation

/-- What may be asked of an indentation. -/
inductive Call where
  | openBlock (width line : Nat)
  | lineBreak (width line : Nat)
  | closeAll
deriving DecidableEq, Repr

/-- The answer to a call. -/
inductive Answer where
  | opened
  | cannotOpen (fault : IndentFault)
  | line (meaning : LineBreak)
  | cannotBreak (fault : Fault)
  | closed (blocks : Nat)
deriving DecidableEq, Repr

/-- Whether a call has failed. -/
def Answer.failed : Answer → Bool
  | cannotOpen _ => true
  | cannotBreak _ => true
  | _ => false

/-- A call, with its answer and the indentation after it. -/
def call (i : Indentation) : Call → Answer × Indentation
  | .openBlock width line =>
      match i.openBlock width line with
      | .ok j => (.opened, j)
      | .error fault => (.cannotOpen fault, i)
  | .lineBreak width line =>
      match i.lineBreak width line with
      | .ok (meaning, j) => (.line meaning, j)
      | .error fault => (.cannotBreak fault, i)
  | .closeAll => (.closed i.closeAll.1, i.closeAll.2)

/-- Calls one after the other, with the answer and the state after each. -/
def answers (i : Indentation) : List Call → List (Answer × Indentation)
  | [] => []
  | c :: cs => i.call c :: answers (i.call c).2 cs

end Indentation

/-! ## The stack -/

/-- The widths of the blocks that are open, the innermost first, and the unit
    of the file. -/
structure OpenBlocks where
  widths : List Nat
  unit : Option Nat
deriving DecidableEq, Repr

namespace OpenBlocks

open Indentation (Call Answer)

/-- No block is open, and none has been before. -/
def start : OpenBlocks := ⟨[], none⟩

/-- The width of the innermost block, zero outside of all blocks. -/
def top (b : OpenBlocks) : Nat := b.widths.headD 0

/-- Put a block on the stack.  The first one gives the unit, and later ones
    go one unit deeper. -/
def openBlock (b : OpenBlocks) (width line : Nat) : Answer × OpenBlocks :=
  if width ≤ b.top then
    (.cannotOpen (.notDeeper width b.top line), b)
  else
    match b.unit with
    | none => (.opened, ⟨width :: b.widths, some width⟩)
    | some unit =>
        if ¬ unit ∣ width then
          (.cannotOpen (.notAMultiple width unit line), b)
        else if width ≠ b.top + unit then
          (.cannotOpen (.skippedLevel width (b.top + unit) line), b)
        else
          (.opened, ⟨width :: b.widths, some unit⟩)

/-- Take the blocks off the stack that are wider than a line, provided that
    the line stands at an open block or outside of all of them. -/
def lineBreak (b : OpenBlocks) (width line : Nat) : Answer × OpenBlocks :=
  if width = b.top then
    (.line .same, b)
  else if width < b.top then
    if width = 0 ∨ width ∈ b.widths then
      (.line (.outward (b.widths.takeWhile (width < ·)).length),
        ⟨b.widths.dropWhile (width < ·), b.unit⟩)
    else
      (.cannotBreak (.breach (.partialDedent b.top width b.unit)), b)
  else if b.widths = [] then
    (.cannotBreak (.indentation (.missingBlockOpener width b.top line)), b)
  else
    (.line .deeper, b)

/-- A call, with its answer and the stack after it. -/
def call (b : OpenBlocks) : Call → Answer × OpenBlocks
  | .openBlock width line => b.openBlock width line
  | .lineBreak width line => b.lineBreak width line
  | .closeAll => (.closed b.widths.length, ⟨[], b.unit⟩)

/-- Calls one after the other, with the answer and the stack after each. -/
def answers (b : OpenBlocks) : List Call → List (Answer × OpenBlocks)
  | [] => []
  | c :: cs => b.call c :: answers (b.call c).2 cs

/-! ## Multiples of the unit -/

/-- The widths of so many blocks, the innermost first. -/
def multiples (unit : Nat) : Nat → List Nat
  | 0 => []
  | depth + 1 => (depth + 1) * unit :: multiples unit depth

variable {unit depth : Nat}

theorem length_multiples (unit depth : Nat) : (multiples unit depth).length = depth := by
  induction depth with
  | zero => rfl
  | succ depth ih => rw [multiples, List.length_cons, ih]

theorem head_multiples (unit depth : Nat) : (multiples unit depth).headD 0 = depth * unit := by
  cases depth with
  | zero => exact (Nat.zero_mul unit).symm
  | succ depth => rfl

theorem mem_multiples {width : Nat} :
    width ∈ multiples unit depth ↔ ∃ level, 0 < level ∧ level ≤ depth ∧ width = level * unit := by
  induction depth with
  | zero =>
      constructor
      · intro h
        exact nomatch h
      · rintro ⟨level, hpos, hle, -⟩
        omega
  | succ depth ih =>
      rw [multiples, List.mem_cons, ih]
      constructor
      · rintro (rfl | ⟨level, hpos, hle, rfl⟩)
        · exact ⟨depth + 1, Nat.succ_pos depth, Nat.le_refl _, rfl⟩
        · exact ⟨level, hpos, Nat.le_succ_of_le hle, rfl⟩
      · rintro ⟨level, hpos, hle, rfl⟩
        rcases Nat.lt_or_eq_of_le hle with hlt | rfl
        · exact .inr ⟨level, hpos, Nat.le_of_lt_succ hlt, rfl⟩
        · exact .inl rfl

/-- Between whole levels only those further in are wider. -/
theorem split_multiples (hunit : 0 < unit) {level : Nat} (h : level ≤ depth) :
    ((multiples unit depth).takeWhile (level * unit < ·)).length = depth - level ∧
      (multiples unit depth).dropWhile (level * unit < ·) = multiples unit level := by
  induction depth with
  | zero =>
      obtain rfl : level = 0 := Nat.le_zero.mp h
      exact ⟨rfl, rfl⟩
  | succ depth ih =>
      rcases Nat.lt_or_eq_of_le h with hlt | rfl
      · have hwider : decide (level * unit < (depth + 1) * unit) = true :=
          decide_eq_true (Nat.mul_lt_mul_of_pos_right hlt hunit)
        obtain ⟨htake, hdrop⟩ := ih (Nat.le_of_lt_succ hlt)
        refine ⟨?_, ?_⟩
        · rw [multiples, List.takeWhile_cons_of_pos (p := (level * unit < ·)) hwider,
            List.length_cons, htake]
          omega
        · rw [multiples, List.dropWhile_cons_of_pos (p := (level * unit < ·)) hwider, hdrop]
      · have hsame : ¬ decide ((depth + 1) * unit < (depth + 1) * unit) = true := by
          rw [decide_eq_true_eq]
          exact Nat.lt_irrefl _
        refine ⟨?_, ?_⟩
        · rw [multiples, List.takeWhile_cons_of_neg (p := ((depth + 1) * unit < ·)) hsame,
            List.length_nil, Nat.sub_self]
        · rw [multiples, List.dropWhile_cons_of_neg (p := ((depth + 1) * unit < ·)) hsame]

end OpenBlocks

/-! ## One call -/

namespace Indentation

open OpenBlocks

/-- The two numbers of an indentation for the blocks that are open. -/
inductive StandsFor : Indentation → OpenBlocks → Prop
  /-- No block has ever been open. -/
  | fresh : StandsFor ⟨0, none⟩ ⟨[], none⟩
  /-- So many blocks are open, each one unit wider than the one around it. -/
  | blocks (depth : Nat) {unit : Nat} : 0 < unit →
      StandsFor ⟨depth * unit, some unit⟩ ⟨multiples unit depth, some unit⟩

namespace StandsFor

variable {i : Indentation} {b : OpenBlocks}

/-- What can be seen of the stack can be seen of the two numbers. -/
theorem view (h : StandsFor i b) :
    i.current = b.top ∧ i.depth = b.widths.length ∧ i.unit = b.unit := by
  cases h with
  | fresh => exact ⟨rfl, rfl, rfl⟩
  | @blocks depth unit hunit =>
      refine ⟨(head_multiples unit depth).symm, ?_, rfl⟩
      rw [length_multiples]
      exact Nat.mul_div_cancel depth hunit

theorem openBlock (h : StandsFor i b) (width line : Nat) :
    (i.call (.openBlock width line)).1 = (b.openBlock width line).1 ∧
      StandsFor (i.call (.openBlock width line)).2 (b.openBlock width line).2 := by
  have htop := h.view.1
  rw [Indentation.call, Indentation.openBlock, OpenBlocks.openBlock, ← htop]
  by_cases hdeeper : width ≤ i.current
  · rw [if_pos hdeeper, if_pos hdeeper]
    exact ⟨rfl, h⟩
  · rw [if_neg hdeeper, if_neg hdeeper]
    cases h with
    | fresh =>
        -- the first block gives the unit
        have hwidth : 0 < width := Nat.pos_of_ne_zero fun hzero => hdeeper (Nat.le_of_eq hzero)
        have hone := StandsFor.blocks 1 hwidth
        rw [Nat.one_mul, multiples, Nat.zero_add, Nat.one_mul] at hone
        exact ⟨rfl, hone⟩
    | @blocks depth unit hunit =>
        simp only [ne_eq, Nat.dvd_iff_mod_eq_zero]
        by_cases hmod : ¬ width % unit = 0
        · rw [if_pos hmod, if_pos hmod]
          exact ⟨rfl, .blocks depth hunit⟩
        · rw [if_neg hmod, if_neg hmod]
          by_cases hstep : ¬ width = depth * unit + unit
          · rw [if_pos hstep, if_pos hstep]
            exact ⟨rfl, .blocks depth hunit⟩
          · rw [if_neg hstep, if_neg hstep]
            obtain rfl : width = (depth + 1) * unit := by
              rw [Nat.succ_mul]
              exact Decidable.not_not.mp hstep
            exact ⟨rfl, .blocks (depth + 1) hunit⟩

/-- A line stands at whole levels exactly if it stands at an open block, or
    outside of all of them. -/
theorem whole_iff {unit depth width : Nat} (hlt : width < depth * unit) :
    (depth * unit - width) % unit = 0 ↔ width = 0 ∨ width ∈ multiples unit depth := by
  rw [mem_multiples, ← Nat.dvd_iff_mod_eq_zero]
  constructor
  · intro hdvd
    obtain ⟨level, hlevel⟩ : unit ∣ width := by
      have hrest := Nat.dvd_sub (Nat.dvd_mul_left unit depth) hdvd
      rwa [Nat.sub_sub_self (Nat.le_of_lt hlt)] at hrest
    rw [Nat.mul_comm] at hlevel
    subst hlevel
    rcases Nat.eq_zero_or_pos level with rfl | hpos
    · exact .inl (Nat.zero_mul unit)
    · exact .inr ⟨level, hpos, Nat.le_of_lt (Nat.lt_of_mul_lt_mul_right hlt), rfl⟩
  · rintro (rfl | ⟨level, -, -, rfl⟩)
    · exact Nat.dvd_mul_left unit depth
    · exact Nat.dvd_sub (Nat.dvd_mul_left unit depth) (Nat.dvd_mul_left unit level)

/-- A line further out, where blocks are open. -/
theorem outward {unit depth width : Nat} (hunit : 0 < unit) (hlt : width < depth * unit)
    (hwhole : width = 0 ∨ width ∈ multiples unit depth) :
    ((multiples unit depth).takeWhile (width < ·)).length = (depth * unit - width) / unit ∧
      StandsFor ⟨width, some unit⟩ ⟨(multiples unit depth).dropWhile (width < ·), some unit⟩ := by
  obtain ⟨level, hle, rfl⟩ : ∃ level, level ≤ depth ∧ width = level * unit := by
    rcases hwhole with rfl | hmem
    · exact ⟨0, Nat.zero_le depth, (Nat.zero_mul unit).symm⟩
    · obtain ⟨level, -, hle, hlevel⟩ := mem_multiples.mp hmem
      exact ⟨level, hle, hlevel⟩
  obtain ⟨htake, hdrop⟩ := split_multiples hunit hle
  rw [htake, hdrop, ← Nat.sub_mul, Nat.mul_div_cancel _ hunit]
  exact ⟨rfl, .blocks level hunit⟩

theorem lineBreak (h : StandsFor i b) (width line : Nat) :
    (i.call (.lineBreak width line)).1 = (b.lineBreak width line).1 ∧
      StandsFor (i.call (.lineBreak width line)).2 (b.lineBreak width line).2 := by
  have htop := h.view.1
  rw [Indentation.call, Indentation.lineBreak, OpenBlocks.lineBreak, ← htop]
  by_cases hsame : width = i.current
  · rw [if_pos hsame, if_pos hsame]
    exact ⟨rfl, h⟩
  rw [if_neg hsame, if_neg hsame]
  by_cases hlt : width < i.current
  · rw [if_pos hlt, if_pos hlt]
    cases h with
    | fresh => exact absurd hlt (Nat.not_lt_zero width)
    | @blocks depth unit hunit =>
        simp only [whole_iff hlt]
        by_cases hwhole : width = 0 ∨ width ∈ multiples unit depth
        · rw [if_pos hwhole, if_pos hwhole]
          obtain ⟨hcount, hrest⟩ := outward hunit hlt hwhole
          exact ⟨by rw [hcount], hrest⟩
        · rw [if_neg hwhole, if_neg hwhole]
          exact ⟨rfl, .blocks depth hunit⟩
  rw [if_neg hlt, if_neg hlt]
  -- no width but zero is that of no block
  have hnone : i.current = 0 ↔ b.widths = [] := by
    cases h with
    | fresh => exact ⟨fun _ => rfl, fun _ => rfl⟩
    | @blocks depth unit hunit =>
        rw [← List.length_eq_zero_iff, length_multiples]
        constructor
        · intro hzero
          exact (Nat.mul_eq_zero.mp hzero).resolve_right (Nat.ne_of_gt hunit)
        · rintro rfl
          exact Nat.zero_mul unit
  by_cases hopen : b.widths = []
  · rw [if_pos hopen, if_pos (hnone.mpr hopen)]
    exact ⟨rfl, h⟩
  · rw [if_neg hopen, if_neg fun hzero => hopen (hnone.mp hzero)]
    exact ⟨rfl, h⟩

theorem closeAll (h : StandsFor i b) :
    i.closeAll.1 = b.widths.length ∧ StandsFor i.closeAll.2 ⟨[], b.unit⟩ := by
  refine ⟨h.view.2.1, ?_⟩
  cases h with
  | fresh => exact .fresh
  | @blocks depth unit hunit =>
      have hnone := StandsFor.blocks 0 hunit
      rwa [Nat.zero_mul] at hnone

/-- A call is answered alike, and the two numbers stand for the stack again. -/
theorem call (h : StandsFor i b) (c : Call) :
    (i.call c).1 = (b.call c).1 ∧ StandsFor (i.call c).2 (b.call c).2 := by
  cases c with
  | openBlock width line => exact h.openBlock width line
  | lineBreak width line => exact h.lineBreak width line
  | closeAll =>
      obtain ⟨hblocks, hrest⟩ := h.closeAll
      exact ⟨congrArg Answer.closed hblocks, hrest⟩

end StandsFor

/-! ## All calls -/

/-- A call has been answered alike, and it has left the same to be seen. -/
structure SameView (x : Answer × Indentation) (y : Answer × OpenBlocks) : Prop where
  answer : x.1 = y.1
  current : x.2.current = y.2.top
  depth : x.2.depth = y.2.widths.length
  unit : x.2.unit = y.2.unit

/-- A call that fails changes nothing. -/
theorem call_of_failed {i : Indentation} {c : Call} (h : (i.call c).1.failed = true) :
    (i.call c).2 = i := by
  cases c with
  | openBlock width line =>
      rw [Indentation.call] at h ⊢
      split at h
      next => cases h
      next => rfl
  | lineBreak width line =>
      rw [Indentation.call] at h ⊢
      split at h
      next => cases h
      next => rfl
  | closeAll => cases h

/-- Whatever is asked of an indentation, it answers like the stack of open
    blocks, and it shows the innermost width, the number of blocks and the
    unit after each call.  A call that fails changes nothing. -/
theorem answers_of_stack (calls : List Call) :
    List.Forall₂ SameView (Indentation.start.answers calls) (OpenBlocks.start.answers calls) ∧
      ∀ (i : Indentation) (c : Call), (i.call c).1.failed = true → (i.call c).2 = i := by
  suffices hall : ∀ i b, StandsFor i b →
      List.Forall₂ SameView (i.answers calls) (b.answers calls) from
    ⟨hall _ _ .fresh, fun _ _ => call_of_failed⟩
  induction calls with
  | nil => exact fun i b _ => .nil
  | cons c cs ih =>
      intro i b h
      obtain ⟨hanswer, hnext⟩ := h.call c
      obtain ⟨hcurrent, hdepth, hunit⟩ := hnext.view
      exact .cons ⟨hanswer, hcurrent, hdepth, hunit⟩ (ih _ _ hnext)

/-- Calls with every kind of fault among them, and a block that opens after
    all have been closed. -/
def mixedCalls : List Call :=
  [.lineBreak 4 1, .openBlock 4 1, .openBlock 12 2, .openBlock 8 2, .openBlock 8 3, .lineBreak 6 4,
    .lineBreak 4 5, .closeAll, .openBlock 6 7, .openBlock 4 7]

theorem answers_of_stack_mixedCalls :
    List.Forall₂ SameView (Indentation.start.answers mixedCalls)
        (OpenBlocks.start.answers mixedCalls) ∧
      (Indentation.start.answers mixedCalls).map (·.1) =
        [.cannotBreak (.indentation (.missingBlockOpener 4 0 1)), .opened,
          .cannotOpen (.skippedLevel 12 8 2), .opened, .cannotOpen (.notDeeper 8 8 3),
          .cannotBreak (.breach (.partialDedent 8 6 (some 4))), .line (.outward 1), .closed 1,
          .cannotOpen (.notAMultiple 6 4 7), .opened] ∧
      ((Indentation.mk 8 (some 4)).call (.lineBreak 6 4)).1.failed = true ∧
      ((Indentation.mk 8 (some 4)).call (.lineBreak 6 4)).2 = ⟨8, some 4⟩ :=
  ⟨(answers_of_stack mixedCalls).1, by decide, by decide,
    (answers_of_stack mixedCalls).2 _ _ (by decide)⟩

end Indentation

end Offside

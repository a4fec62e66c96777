import Offside.Proofs.Indentation

/-! # Words — indentation in sixty-four bits

    Widths that are kept in machine words have an end, and nothing looks
    whether a sum is past it.  It never is: the sum of the current width and
    the unit is asked for only if a wider width is there that the unit
    divides, and the unit divides the current width too, so the sum is no more
    than that width.

    * `Word` has the arithmetic of words, where every operation that would
      leave the range stops with a `Trap`;
    * `WordIndentation` is an indentation in words, with the same calls, in the
      order in which they look at their arguments;
    * `answers_value` says that no call stops, and that all are answered as
      with numbers that have no end. -/

namespace Offside

/-! ## Words -/

/-- What a computation with words stops at. -/
inductive Trap where
  | overflow
  | underflow
  | zeroDivisor
deriving DecidableEq, Repr

namespace Word

/-- The sum of two words, if it is one. -/
def add (a b : UInt64) : Except Trap UInt64 :=
  if a.toNat + b.toNat < UInt64.size then .ok (a + b) else .error .overflow

/-- The difference of two words, if it is not negative. -/
def sub (a b : UInt64) : Except Trap UInt64 :=
  if b ≤ a then .ok (a - b) else .error .underflow

/-- The quotient of two words. -/
def div (a b : UInt64) : Except Trap UInt64 :=
  if b = 0 then .error .zeroDivisor else .ok (a / b)

/-- The remainder of a division of words. -/
def mod (a b : UInt64) : Except Trap UInt64 :=
  if b = 0 then .error .zeroDivisor else .ok (a % b)

variable {a b : UInt64}

theorem add_eq (h : a.toNat + b.toNat < UInt64.size) :
    add a b = .ok (a + b) ∧ (a + b).toNat = a.toNat + b.toNat := by
  refine ⟨if_pos h, ?_⟩
  rw [UInt64.toNat_add]
  exact Nat.mod_eq_of_lt h

theorem sub_eq (h : b ≤ a) : sub a b = .ok (a - b) ∧ (a - b).toNat = a.toNat - b.toNat :=
  ⟨if_pos h, UInt64.toNat_sub_of_le a b h⟩

theorem div_eq (h : b ≠ 0) : div a b = .ok (a / b) := if_neg h

theorem mod_eq (h : b ≠ 0) : mod a b = .ok (a % b) := if_neg h

theorem mod_eq_zero_iff : a % b = 0 ↔ a.toNat % b.toNat = 0 := by
  rw [← UInt64.toNat_inj, UInt64.toNat_mod]
  rfl

end Word

/-! ## Indentation in words -/

/-- A call with a width in words. -/
inductive WordCall where
  | openBlock (width : UInt64) (line : Nat)
  | lineBreak (width : UInt64) (line : Nat)
  | closeAll
deriving DecidableEq, Repr

/-- The call with the same width as a number. -/
def WordCall.value : WordCall → Indentation.Call
  | openBlock width line => .openBlock width.toNat line
  | lineBreak width line => .lineBreak width.toNat line
  | closeAll => .closeAll

/-- The indentation of the innermost open block and the unit of the file, in
    words. -/
structure WordIndentation where
  current : UInt64
  unit : Option UInt64
deriving DecidableEq, Repr

namespace WordIndentation

open Indentation (Answer)

/-- The indentation at the start of a file. -/
def start : WordIndentation := ⟨0, none⟩

/-- The same indentation in numbers. -/
def value (i : WordIndentation) : Indentation := ⟨i.current.toNat, i.unit.map UInt64.toNat⟩

/-- The number of open blocks. -/
def depth (i : WordIndentation) : Except Trap UInt64 :=
  match i.unit with
  | none => .ok 0
  | some unit => Word.div i.current unit

/-- Open a block whose first line is indented by `width`. -/
def openBlock (i : WordIndentation) (width : UInt64) (line : Nat) :
    Except Trap (Answer × WordIndentation) :=
  if width ≤ i.current then
    .ok (.cannotOpen (.notDeeper width.toNat i.current.toNat line), i)
  else
    match i.unit with
    | none => .ok (.opened, ⟨width, some width⟩)
    | some unit => do
        let remainder ← Word.mod width unit
        if remainder ≠ 0 then
          .ok (.cannotOpen (.notAMultiple width.toNat unit.toNat line), i)
        else do
          let deeper ← Word.add i.current unit
          if width ≠ deeper then
            .ok (.cannotOpen (.skippedLevel width.toNat deeper.toNat line), i)
          else
            .ok (.opened, ⟨width, some unit⟩)

/-- Meet a line indented by `width` after a plain line break. -/
def lineBreak (i : WordIndentation) (width : UInt64) (line : Nat) :
    Except Trap (Answer × WordIndentation) :=
  if width = i.current then
    .ok (.line .same, i)
  else if width < i.current then do
    let delta ← Word.sub i.current width
    match i.unit with
    | none =>
        .ok (.cannotBreak (.breach (.partialDedent i.current.toNat width.toNat none)), i)
    | some unit => do
        let remainder ← Word.mod delta unit
        if remainder = 0 then do
          let levels ← Word.div delta unit
          .ok (.line (.outward levels.toNat), ⟨width, some unit⟩)
        else
          .ok (.cannotBreak
            (.breach (.partialDedent i.current.toNat width.toNat (some unit.toNat))), i)
  else if i.current = 0 then
    .ok (.cannotBreak
      (.indentation (.missingBlockOpener width.toNat i.current.toNat line)), i)
  else
    .ok (.line .deeper, i)

/-- Close every open block. -/
def closeAll (i : WordIndentation) : Except Trap (Answer × WordIndentation) := do
  let depth ← i.depth
  .ok (.closed depth.toNat, ⟨0, i.unit⟩)

/-- A call, with its answer and the indentation after it. -/
def call (i : WordIndentation) : WordCall → Except Trap (Answer × WordIndentation)
  | .openBlock width line => i.openBlock width line
  | .lineBreak width line => i.lineBreak width line
  | .closeAll => i.closeAll

/-- Calls one after the other, with the answer and the state after each. -/
def answers (i : WordIndentation) : List WordCall → Except Trap (List (Answer × WordIndentation))
  | [] => .ok []
  | c :: cs => do
      let r ← i.call c
      let rest ← r.2.answers cs
      .ok (r :: rest)

/-! ## One call -/

/-- The unit is not zero, and it divides the current width. -/
structure Whole (i : WordIndentation) : Prop where
  fresh : i.unit = none → i.current = 0
  unit_ne_zero : ∀ unit, i.unit = some unit → unit ≠ 0
  multiple : ∀ unit, i.unit = some unit → unit.toNat ∣ i.current.toNat

/-- A computation that comes to an end, with this answer and this indentation
    in numbers. -/
def Computes (x : Except Trap (Answer × WordIndentation)) (y : Answer × Indentation) : Prop :=
  ∃ r, x = .ok r ∧ (r.1, r.2.value) = y

/-- A computation that comes to an end hands its value on. -/
theorem ok_bind {α β : Type} (a : α) (f : α → Except Trap β) : (Except.ok a >>= f) = f a := rfl

variable {i : WordIndentation} {unit width : UInt64} {b : OpenBlocks}

theorem value_unit_none (h : i.unit = none) : i.value.unit = none := by
  rw [value, h, Option.map_none]

theorem value_unit_some (h : i.unit = some unit) : i.value.unit = some unit.toNat := by
  rw [value, h, Option.map_some]

/-- Where two numbers stand for the blocks that are open, all is whole. -/
theorem whole_of_standsFor (h : Indentation.StandsFor i.value b) : i.Whole := by
  generalize hvalue : i.value = v at h
  have hcurrent : i.current.toNat = v.current := congrArg Indentation.current hvalue
  have hunit : i.unit.map UInt64.toNat = v.unit := congrArg Indentation.unit hvalue
  cases h with
  | fresh =>
      have hnone : i.unit = none := Option.map_eq_none_iff.mp hunit
      refine ⟨fun _ => UInt64.toNat_inj.mp hcurrent, ?_, ?_⟩
      · intro unit hsome
        exact absurd (hnone.symm.trans hsome) (by simp)
      · intro unit hsome
        exact absurd (hnone.symm.trans hsome) (by simp)
  | @blocks depth n hpos =>
      obtain ⟨unit, hsome, rfl⟩ := Option.map_eq_some_iff.mp hunit
      refine ⟨fun hnone => ?_, ?_, ?_⟩
      · exact absurd (hnone.symm.trans hsome) (by simp)
      · rintro unit' hunit' rfl
        obtain rfl := Option.some.inj (hsome.symm.trans hunit')
        exact absurd hpos (by decide)
      · intro unit' hunit'
        obtain rfl := Option.some.inj (hsome.symm.trans hunit')
        rw [hcurrent]
        exact Nat.dvd_mul_left unit.toNat depth

/-- A wider width that the unit divides is at least one unit wider. -/
theorem Whole.add_le (h : i.Whole) (hunit : i.unit = some unit) (hwider : i.current < width)
    (hmultiple : width % unit = 0) : i.current.toNat + unit.toNat ≤ width.toNat := by
  have hlt : i.current.toNat < width.toNat := UInt64.lt_iff_toNat_lt.mp hwider
  have hdvd := Nat.dvd_of_mod_eq_zero (Word.mod_eq_zero_iff.mp hmultiple)
  have hrest := Nat.dvd_sub hdvd (h.multiple unit hunit)
  have hle := Nat.le_of_dvd (by omega) hrest
  omega

theorem Whole.depth (h : i.Whole) : ∃ depth, i.depth = .ok depth ∧ depth.toNat = i.value.depth := by
  cases hunit : i.unit with
  | none =>
      refine ⟨0, ?_, ?_⟩
      · rw [WordIndentation.depth, hunit]
      · rw [Indentation.depth, value_unit_none hunit]
        rfl
  | some unit =>
      refine ⟨i.current / unit, ?_, ?_⟩
      · rw [WordIndentation.depth, hunit]
        exact Word.div_eq (h.unit_ne_zero unit hunit)
      · rw [Indentation.depth, value_unit_some hunit]
        exact UInt64.toNat_div ..

theorem Whole.openBlock (h : i.Whole) (width : UInt64) (line : Nat) :
    Computes (i.openBlock width line) (i.value.call (.openBlock width.toNat line)) := by
  rw [WordIndentation.openBlock, Indentation.call, Indentation.openBlock]
  by_cases hle : width ≤ i.current
  · have hle' : width.toNat ≤ i.value.current := UInt64.le_iff_toNat_le.mp hle
    rw [if_pos hle, if_pos hle']
    exact ⟨_, rfl, rfl⟩
  · have hle' : ¬ width.toNat ≤ i.value.current := fun h' => hle (UInt64.le_iff_toNat_le.mpr h')
    rw [if_neg hle, if_neg hle']
    cases hunit : i.unit with
    | none =>
        rw [value_unit_none hunit]
        exact ⟨_, rfl, rfl⟩
    | some unit =>
        rw [value_unit_some hunit]
        dsimp only
        rw [Word.mod_eq (h.unit_ne_zero unit hunit), ok_bind]
        by_cases hmod : width % unit = 0
        · have hmod' : width.toNat % unit.toNat = 0 := Word.mod_eq_zero_iff.mp hmod
          rw [if_neg (Decidable.not_not.mpr hmod), if_neg (Decidable.not_not.mpr hmod')]
          -- the unit divides a wider width, so there is room for the sum
          have hsum := h.add_le hunit (UInt64.not_le.mp hle) hmod
          have hroom : i.current.toNat + unit.toNat < UInt64.size :=
            Nat.lt_of_le_of_lt hsum width.toNat_lt_size
          obtain ⟨hadd, hdeeper⟩ := Word.add_eq hroom
          rw [hadd, ok_bind]
          by_cases hstep : width = i.current + unit
          · have hstep' : width.toNat = i.value.current + unit.toNat := by
              rw [hstep, hdeeper]
              rfl
            rw [if_neg (Decidable.not_not.mpr hstep), if_neg (Decidable.not_not.mpr hstep')]
            exact ⟨_, rfl, rfl⟩
          · have hstep' : width.toNat ≠ i.value.current + unit.toNat := fun h' =>
              hstep (UInt64.toNat_inj.mp (h'.trans hdeeper.symm))
            rw [if_pos hstep, if_pos hstep', hdeeper]
            exact ⟨_, rfl, rfl⟩
        · have hmod' : width.toNat % unit.toNat ≠ 0 := mt Word.mod_eq_zero_iff.mpr hmod
          rw [if_pos hmod, if_pos hmod']
          exact ⟨_, rfl, rfl⟩

theorem Whole.lineBreak (h : i.Whole) (width : UInt64) (line : Nat) :
    Computes (i.lineBreak width line) (i.value.call (.lineBreak width.toNat line)) := by
  rw [WordIndentation.lineBreak, Indentation.call, Indentation.lineBreak]
  by_cases hsame : width = i.current
  · have hsame' : width.toNat = i.value.current := congrArg UInt64.toNat hsame
    rw [if_pos hsame, if_pos hsame']
    exact ⟨_, rfl, rfl⟩
  have hsame' : width.toNat ≠ i.value.current := fun h' => hsame (UInt64.toNat_inj.mp h')
  rw [if_neg hsame, if_neg hsame']
  by_cases hlt : width < i.current
  · have hlt' : width.toNat < i.value.current := UInt64.lt_iff_toNat_lt.mp hlt
    obtain ⟨hsub, hdelta⟩ := Word.sub_eq (UInt64.le_of_lt hlt)
    rw [if_pos hlt, if_pos hlt', hsub, ok_bind]
    cases hunit : i.unit with
    | none =>
        rw [value_unit_none hunit]
        exact ⟨_, rfl, rfl⟩
    | some unit =>
        have hne := h.unit_ne_zero unit hunit
        have hwhole : (i.current - width) % unit = 0 ↔
            (i.value.current - width.toNat) % unit.toNat = 0 := by
          rw [Word.mod_eq_zero_iff, hdelta]
          rfl
        rw [value_unit_some hunit]
        dsimp only
        rw [Word.mod_eq hne, ok_bind]
        by_cases hmod : (i.current - width) % unit = 0
        · have hmod' : (i.value.current - width.toNat) % unit.toNat = 0 := hwhole.mp hmod
          rw [if_pos hmod, if_pos hmod', Word.div_eq hne, ok_bind, UInt64.toNat_div, hdelta]
          exact ⟨_, rfl, rfl⟩
        · have hmod' : (i.value.current - width.toNat) % unit.toNat ≠ 0 := mt hwhole.mpr hmod
          rw [if_neg hmod, if_neg hmod']
          exact ⟨_, rfl, rfl⟩
  have hlt' : ¬ width.toNat < i.value.current := fun h' => hlt (UInt64.lt_iff_toNat_lt.mpr h')
  rw [if_neg hlt, if_neg hlt']
  by_cases htop : i.current = 0
  · have htop' : i.value.current = 0 := congrArg UInt64.toNat htop
    rw [if_pos htop, if_pos htop']
    exact ⟨_, rfl, rfl⟩
  · have htop' : i.value.current ≠ 0 := fun h' => htop (UInt64.toNat_inj.mp h')
    rw [if_neg htop, if_neg htop']
    exact ⟨_, rfl, rfl⟩

theorem Whole.closeAll (h : i.Whole) : Computes i.closeAll (i.value.call .closeAll) := by
  obtain ⟨depth, hdepth, hvalue⟩ := h.depth
  refine ⟨(.closed depth.toNat, ⟨0, i.unit⟩), ?_, ?_⟩
  · rw [WordIndentation.closeAll, hdepth, ok_bind]
  · rw [hvalue]
    rfl

/-- No call stops, and it is answered as in numbers. -/
theorem Whole.call (h : i.Whole) (c : WordCall) : Computes (i.call c) (i.value.call c.value) := by
  cases c with
  | openBlock width line => exact h.openBlock width line
  | lineBreak width line => exact h.lineBreak width line
  | closeAll => exact h.closeAll

/-! ## All calls -/

/-- No calls stop, and all are answered as in numbers; the indentations that
    they lead to are whole. -/
theorem exists_answers (calls : List WordCall) (h : Indentation.StandsFor i.value b) :
    ∃ results, i.answers calls = .ok results ∧
      results.map (fun r => (r.1, r.2.value)) = i.value.answers (calls.map WordCall.value) ∧
      ∀ r ∈ results, r.2.Whole := by
  induction calls generalizing i b with
  | nil => exact ⟨[], rfl, rfl, nofun⟩
  | cons c cs ih =>
      obtain ⟨r, hcall, hvalue⟩ := (whole_of_standsFor h).call c
      have hnext : Indentation.StandsFor r.2.value (b.call c.value).2 := by
        rw [show r.2.value = (i.value.call c.value).2 from congrArg Prod.snd hvalue]
        exact (h.call c.value).2
      obtain ⟨results, hanswers, hvalues, hwhole⟩ := ih hnext
      refine ⟨r :: results, ?_, ?_, ?_⟩
      · rw [answers, hcall, ok_bind, hanswers, ok_bind]
      · rw [List.map_cons, List.map_cons, Indentation.answers, hvalues, hvalue, ← hvalue]
      · exact List.forall_mem_cons.mpr ⟨whole_of_standsFor hnext, hwhole⟩

/-- **Sixty-four bits are enough.**  Whatever is asked of an indentation in
    words, no sum is too great, no difference is negative, and nothing is
    divided by zero; all is answered as in numbers that have no end.  At every
    indentation on the way the blocks can be counted, the unit is not zero, and
    where the sum of the current width and the unit is looked at, it is a
    word. -/
theorem answers_value (calls : List WordCall) :
    ∃ results, start.answers calls = .ok results ∧
      results.map (fun r => (r.1, r.2.value)) =
        Indentation.start.answers (calls.map WordCall.value) ∧
      ∀ i ∈ start :: results.map Prod.snd,
        (∃ depth, i.depth = .ok depth ∧ depth.toNat = i.value.depth) ∧
        ∀ unit, i.unit = some unit → unit ≠ 0 ∧
          ∀ width, i.current < width → width % unit = 0 →
            i.current.toNat + unit.toNat < UInt64.size := by
  obtain ⟨results, hanswers, hvalues, hwhole⟩ := exists_answers (i := start) calls .fresh
  refine ⟨results, hanswers, hvalues, ?_⟩
  intro i hi
  have h : i.Whole := by
    rcases List.mem_cons.mp hi with rfl | hmem
    · exact whole_of_standsFor .fresh
    · obtain ⟨r, hr, rfl⟩ := List.mem_map.mp hmem
      exact hwhole r hr
  refine ⟨h.depth, fun unit hunit => ⟨h.unit_ne_zero unit hunit, ?_⟩⟩
  intro width hwider hmultiple
  exact Nat.lt_of_le_of_lt (h.add_le hunit hwider hmultiple) width.toNat_lt_size

/-- A third of the greatest word. -/
def third : UInt64 := 6148914691236517205

/-- Blocks up to the greatest word, and back. -/
def topCalls : List WordCall :=
  [.openBlock third 1, .openBlock (2 * third) 2, .openBlock (3 * third) 3,
    .openBlock (3 * third) 4, .lineBreak third 5, .closeAll]

theorem answers_value_topCalls :
    (Indentation.start.answers (topCalls.map WordCall.value)).map Prod.fst =
        [.opened, .opened, .opened,
          .cannotOpen (.notDeeper (UInt64.size - 1) (UInt64.size - 1) 4), .line (.outward 2),
          .closed 1] ∧
      (∃ results, start.answers topCalls = .ok results ∧
        results.map (fun r => (r.1, r.2.value)) =
          Indentation.start.answers (topCalls.map WordCall.value)) ∧
      2 * third < 3 * third ∧ 3 * third % third = 0 ∧
      (2 * third).toNat + third.toNat < UInt64.size := by
  obtain ⟨results, hanswers, hvalues, hsafe⟩ := answers_value topCalls
  have hmem : ⟨2 * third, some third⟩ ∈ start :: results.map Prod.snd := by
    cases hanswers
    decide
  have hwider : 2 * third < 3 * third := by decide
  have hmultiple : 3 * third % third = 0 := by decide
  exact ⟨by decide, ⟨results, hanswers, hvalues⟩, hwider, hmultiple,
    ((hsafe _ hmem).2 third rfl).2 _ hwider hmultiple⟩

/-- A width that the unit does not divide leads past the end. -/
example : (WordIndentation.mk (3 * third - 1) (some 3)).openBlock (3 * third) 1 =
    .error .overflow := by
  decide

end WordIndentation

end Offside

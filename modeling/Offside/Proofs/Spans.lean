import Mathlib.Order.Lattice
import Offside.Proofs.Lexer.Places

/-! # Spans — merging as a monoid, and as a join

    A merge takes its start from one span and its end from another, each with
    the line and the column that go with it.  At equal offsets the first span
    counts, so lines and columns may depend on the order of the spans, but
    never on how a merge of several is bracketed.  Where lines and columns are
    read off the offsets, as in one source, the order does not matter either,
    and a merge is the least span around both.

    * `Mark` is one end of a span, and `opening_join` and `closing_join` say
      which marks a join takes;
    * `Charted` spans have the lines and columns of a chart, and `Extent` makes
      a lattice of them;
    * `merge_laws` puts the two together, and `Fits.charted` says that the
      spans of a source have a chart. -/

namespace Offside

/-! ## Marks -/

/-- One end of a span: an offset with its line and its column. -/
@[ext]
structure Mark where
  offset : Nat
  line : Nat
  column : Nat
deriving DecidableEq, Repr

namespace Mark

/-- The mark with the lower offset, the first one of two that are level. -/
def earlier (m n : Mark) : Mark := if m.offset ≤ n.offset then m else n

/-- The mark with the higher offset, the first one of two that are level. -/
def later (m n : Mark) : Mark := if n.offset ≤ m.offset then m else n

/-- A mark with the line and the column that a chart has for its offset. -/
def On (chart : Nat → Nat × Nat) (m : Mark) : Prop := (m.line, m.column) = chart m.offset

variable {chart : Nat → Nat × Nat} {m n : Mark}

@[simp] theorem offset_earlier (m n : Mark) :
    (earlier m n).offset = min m.offset n.offset := by
  rw [earlier]
  split <;> omega

@[simp] theorem offset_later (m n : Mark) : (later m n).offset = max m.offset n.offset := by
  rw [later]
  split <;> omega

theorem earlier_assoc (m n o : Mark) :
    earlier (earlier m n) o = earlier m (earlier n o) := by
  by_cases hmn : m.offset ≤ n.offset
  · by_cases hno : n.offset ≤ o.offset
    · have hmo : m.offset ≤ o.offset := hmn.trans hno
      simp [earlier, hmn, hno, hmo]
    · simp [earlier, hmn, hno]
  · by_cases hno : n.offset ≤ o.offset
    · simp [earlier, hmn, hno]
    · have hmo : ¬ m.offset ≤ o.offset := by omega
      simp [earlier, hmn, hno, hmo]

theorem later_assoc (m n o : Mark) : later (later m n) o = later m (later n o) := by
  by_cases hnm : n.offset ≤ m.offset
  · by_cases hon : o.offset ≤ n.offset
    · have hom : o.offset ≤ m.offset := hon.trans hnm
      simp [later, hnm, hon, hom]
    · simp [later, hnm, hon]
  · by_cases hon : o.offset ≤ n.offset
    · simp [later, hnm, hon]
    · have hom : ¬ o.offset ≤ m.offset := by omega
      simp [later, hnm, hon, hom]

theorem On.earlier (hm : m.On chart) (hn : n.On chart) : (earlier m n).On chart := by
  rw [Mark.earlier]
  split
  · exact hm
  · exact hn

theorem On.later (hm : m.On chart) (hn : n.On chart) : (later m n).On chart := by
  rw [Mark.later]
  split
  · exact hm
  · exact hn

/-- A chart has one mark for an offset. -/
theorem On.ext (hm : m.On chart) (hn : n.On chart) (h : m.offset = n.offset) : m = n := by
  have hplace : (m.line, m.column) = (n.line, n.column) := by
    rw [show (m.line, m.column) = chart m.offset from hm, h]
    exact hn.symm
  obtain ⟨hline, hcolumn⟩ := Prod.mk.inj hplace
  exact Mark.ext h hline hcolumn

end Mark

/-! ## Joins by marks -/

namespace Span

variable {chart : Nat → Nat × Nat} {source : List Char} {s t u : Span} {a b c : Option Span}

/-- The mark at which a span starts. -/
def opening (s : Span) : Mark := ⟨s.startOffset, s.startLine, s.startColumn⟩

/-- The mark at which a span ends. -/
def closing (s : Span) : Mark := ⟨s.endOffset, s.endLine, s.endColumn⟩

/-- A span is its two marks. -/
theorem eq_of_marks (hopening : s.opening = t.opening) (hclosing : s.closing = t.closing) :
    s = t := by
  obtain ⟨hstart, hstartLine, hstartColumn⟩ := Mark.mk.inj hopening
  obtain ⟨hend, hendLine, hendColumn⟩ := Mark.mk.inj hclosing
  cases s
  cases t
  simp_all

theorem opening_join (s t : Span) : (join s t).opening = s.opening.earlier t.opening := by
  by_cases h : s.startOffset ≤ t.startOffset
  · simp [join, between, opening, Mark.earlier, h]
  · simp [join, between, opening, Mark.earlier, h]

theorem closing_join (s t : Span) : (join s t).closing = s.closing.later t.closing := by
  by_cases h : t.endOffset ≤ s.endOffset
  · simp [join, between, closing, Mark.later, h]
  · simp [join, between, closing, Mark.later, h]

theorem join_assoc (s t u : Span) : join (join s t) u = join s (join t u) := by
  apply eq_of_marks
  · simp only [opening_join, Mark.earlier_assoc]
  · simp only [closing_join, Mark.later_assoc]

/-- What is around two spans is around their join. -/
theorem Within.join (hs : s.Within u) (ht : t.Within u) : (join s t).Within u := by
  constructor
  · show u.startOffset ≤ (Span.join s t).opening.offset
    rw [opening_join, Mark.offset_earlier]
    exact le_min hs.start ht.start
  · show (Span.join s t).closing.offset ≤ u.endOffset
    rw [closing_join, Mark.offset_later]
    exact max_le hs.stop ht.stop

theorem Within.refl (s : Span) : s.Within s := ⟨Nat.le_refl _, Nat.le_refl _⟩

theorem Within.trans (hst : s.Within t) (htu : t.Within u) : s.Within u :=
  ⟨htu.start.trans hst.start, hst.stop.trans htu.stop⟩

/-- A span that does not end before it starts. -/
def Ordered (s : Span) : Prop := s.startOffset ≤ s.endOffset

instance (s : Span) : Decidable s.Ordered :=
  inferInstanceAs (Decidable (s.startOffset ≤ s.endOffset))

theorem Ordered.join (hs : s.Ordered) (t : Span) : (join s t).Ordered := by
  obtain ⟨hstart, hstop⟩ := within_join_left s t
  exact hstart.trans (Nat.le_trans hs hstop)

/-- A span whose marks are on a chart. -/
structure Charted (chart : Nat → Nat × Nat) (s : Span) : Prop where
  start : s.opening.On chart
  stop : s.closing.On chart

theorem Charted.join (hs : s.Charted chart) (ht : t.Charted chart) :
    (join s t).Charted chart where
  start := by
    rw [opening_join]
    exact hs.start.earlier ht.start
  stop := by
    rw [closing_join]
    exact hs.stop.later ht.stop

/-- Spans on a chart that are inside each other are the same. -/
theorem Charted.antisymm (hs : s.Charted chart) (ht : t.Charted chart) (hst : s.Within t)
    (hts : t.Within s) : s = t := by
  apply eq_of_marks
  · exact hs.start.ext ht.start (Nat.le_antisymm hts.start hst.start)
  · exact hs.stop.ext ht.stop (Nat.le_antisymm hst.stop hts.stop)

/-! ## Absent spans -/

/-- An optional span inside another one; an absent one is inside all. -/
def Inside (a b : Option Span) : Prop := ∀ s ∈ a, ∃ t ∈ b, s.Within t

theorem merge_assoc (a b c : Option Span) : merge (merge a b) c = merge a (merge b c) := by
  cases a with
  | none => simp
  | some s =>
      cases b with
      | none => simp
      | some t =>
          cases c with
          | none => simp
          | some u => simp [join_assoc]

/-- What joins keep holds of a merge. -/
theorem forall_merge {P : Span → Prop} (hjoin : ∀ s t, P s → P t → P (join s t))
    (ha : ∀ s ∈ a, P s) (hb : ∀ s ∈ b, P s) : ∀ s ∈ merge a b, P s := by
  cases a with
  | none => simpa using hb
  | some s =>
      cases b with
      | none => simpa using ha
      | some t =>
          intro u hu
          obtain rfl : join s t = u := Option.some.inj hu
          exact hjoin s t (ha s rfl) (hb t rfl)

theorem inside_merge_left (a b : Option Span) : Inside a (merge a b) := by
  intro s hs
  obtain rfl : a = some s := hs
  cases b with
  | none => exact ⟨s, rfl, .refl s⟩
  | some t => exact ⟨join s t, rfl, within_join_left s t⟩

theorem inside_merge_right (a b : Option Span) : Inside b (merge a b) := by
  intro t ht
  obtain rfl : b = some t := ht
  cases a with
  | none => exact ⟨t, rfl, .refl t⟩
  | some s => exact ⟨join s t, rfl, within_join_right s t⟩

theorem Inside.merge (ha : Inside a c) (hb : Inside b c) : Inside (merge a b) c := by
  cases a with
  | none => simpa using hb
  | some s =>
      cases b with
      | none => simpa using ha
      | some t =>
          intro u hu
          obtain rfl : Span.join s t = u := Option.some.inj hu
          obtain ⟨v, rfl, hsv⟩ := ha s rfl
          obtain ⟨w, hw, htw⟩ := hb t rfl
          obtain rfl : v = w := Option.some.inj hw
          exact ⟨v, rfl, hsv.join htw⟩

/-- The optional spans on a chart. -/
def Extent (chart : Nat → Nat × Nat) : Type := { a : Option Span // ∀ s ∈ a, s.Charted chart }

instance : PartialOrder (Extent chart) where
  le x y := Inside x.1 y.1
  le_refl x s hs := ⟨s, hs, .refl s⟩
  le_trans x y z hxy hyz s hs := by
    obtain ⟨t, ht, hst⟩ := hxy s hs
    obtain ⟨u, hu, htu⟩ := hyz t ht
    exact ⟨u, hu, hst.trans htu⟩
  le_antisymm := by
    rintro ⟨a, ha⟩ ⟨b, hb⟩ hab hba
    apply Subtype.ext
    show a = b
    cases a with
    | none =>
        cases b with
        | none => rfl
        | some t => exact absurd (hba t rfl) (by simp)
    | some s =>
        obtain ⟨t, rfl, hst⟩ := hab s rfl
        obtain ⟨u, hu, htu⟩ := hba t rfl
        obtain rfl : s = u := Option.some.inj hu
        rw [(ha s rfl).antisymm (hb t rfl) hst htu]

/-- Merging is the join of the spans on a chart. -/
instance : SemilatticeSup (Extent chart) where
  sup x y := ⟨merge x.1 y.1, forall_merge (fun _ _ hs ht => hs.join ht) x.2 y.2⟩
  le_sup_left x y := inside_merge_left x.1 y.1
  le_sup_right x y := inside_merge_right x.1 y.1
  sup_le _ _ _ hx hy := Inside.merge hx hy

end Span

/-! ## Spans of a source -/

/-- The line and the column of an offset in a source. -/
def Text.chart (source : List Char) (offset : Nat) : Nat × Nat :=
  let place := Place.start.after (cut offset source).1
  (place.line, place.column)

theorem Text.IsPosition.chart_eq {source : List Char} {offset line column : Nat}
    (h : IsPosition source offset line column) : (line, column) = chart source offset := by
  have hposition := h
  obtain ⟨front, ⟨rest, rfl⟩, rfl, -, -⟩ := h
  have hplace := Place.isPosition_after (List.prefix_append front rest)
  rw [Place.offset_start_after] at hplace
  obtain ⟨rfl, rfl⟩ := hposition.unique hplace
  rw [chart, cut_bytes_append]

namespace Span

theorem Fits.charted {source : List Char} {s : Span} (h : s.Fits source) :
    s.Charted (Text.chart source) :=
  ⟨h.start.chart_eq, h.stop.chart_eq⟩

/-- **Merging is a monoid, and on one source a join.**  For all optional spans,
    merging is associative, the absent span is neutral, and spans that do not
    end before they start merge to such spans.  For spans on a chart, and those
    of a source are, merging is also commutative and idempotent, its result is
    on the chart and around both, and what is around both is around it. -/
theorem merge_laws :
    (∀ a b c, merge (merge a b) c = merge a (merge b c)) ∧
    (∀ a, merge none a = a ∧ merge a none = a) ∧
    (∀ a b, (∀ s ∈ a, s.Ordered) → (∀ s ∈ b, s.Ordered) → ∀ s ∈ merge a b, s.Ordered) ∧
    (∀ chart a b, (∀ s ∈ a, s.Charted chart) → (∀ s ∈ b, s.Charted chart) →
      merge a b = merge b a ∧ merge a a = a ∧
      (∀ s ∈ merge a b, s.Charted chart) ∧ Inside a (merge a b) ∧ Inside b (merge a b) ∧
      ∀ c, Inside a c → Inside b c → Inside (merge a b) c) ∧
    ∀ source s, Fits source s → Charted (Text.chart source) s := by
  refine ⟨merge_assoc, fun a => ⟨merge_none_left a, merge_none_right a⟩, ?_, ?_,
    fun source s h => h.charted⟩
  · intro a b ha hb
    exact forall_merge (fun s t hs _ => hs.join t) ha hb
  · intro chart a b ha hb
    let x : Extent chart := ⟨a, ha⟩
    let y : Extent chart := ⟨b, hb⟩
    refine ⟨?_, ?_, (x ⊔ y).2, ?_, ?_, ?_⟩
    · exact congrArg Subtype.val (sup_comm x y)
    · exact congrArg Subtype.val (sup_idem x)
    · exact (le_sup_left : x ≤ x ⊔ y)
    · exact (le_sup_right : y ≤ x ⊔ y)
    · intro c hac hbc
      exact hac.merge hbc

/-- A text of two lines. -/
def twoLines : List Char := ['a', '\n', 'b', 'c']

/-- The first line, with the newline behind it. -/
def firstLine : Span := ⟨0, 2, 1, 2, 0, 0⟩

/-- The newline and the second line. -/
def secondLine : Span := ⟨1, 4, 1, 2, 1, 2⟩

theorem merge_laws_twoLines :
    (firstLine.Ordered ∧ firstLine.Charted (Text.chart twoLines)) ∧
      (∀ s ∈ merge (some secondLine) (some firstLine), s.Ordered) ∧
      merge (some secondLine) (some firstLine) = merge (some firstLine) (some secondLine) ∧
      Inside (merge (some secondLine) (some firstLine)) (some ⟨0, 4, 1, 2, 0, 2⟩) := by
  obtain ⟨-, -, hordered, hcharted, hfits⟩ := merge_laws
  have hfirst : ∀ s ∈ some firstLine, s.Charted (Text.chart twoLines) := by
    have hprefix : [] ++ ['a', '\n'] <+: twoLines := ⟨['b', 'c'], rfl⟩
    rintro s ⟨⟩
    exact hfits _ _ (Place.fits_spanTo hprefix)
  have hsecond : ∀ s ∈ some secondLine, s.Charted (Text.chart twoLines) := by
    have hprefix : ['a'] ++ ['\n', 'b', 'c'] <+: twoLines := ⟨[], rfl⟩
    rintro s ⟨⟩
    exact hfits _ _ (Place.fits_spanTo hprefix)
  obtain ⟨hcomm, -, -, -, -, hleast⟩ := hcharted _ _ _ hsecond hfirst
  refine ⟨⟨by decide, hfirst _ rfl⟩, hordered _ _ ?_ ?_, hcomm, hleast _ ?_ ?_⟩
  · rintro s ⟨⟩
    decide
  · rintro s ⟨⟩
    decide
  · rintro s ⟨⟩
    exact ⟨_, rfl, by decide, by decide⟩
  · rintro s ⟨⟩
    exact ⟨_, rfl, by decide, by decide⟩

/-- Where one offset stands on two lines, the order of the spans shows. -/
example : merge (some ⟨0, 1, 1, 1, 0, 1⟩) (some ⟨0, 1, 2, 2, 4, 5⟩) ≠
    merge (some ⟨0, 1, 2, 2, 4, 5⟩) (some ⟨0, 1, 1, 1, 0, 1⟩) := by
  decide

end Span

end Offside

import Offside.Proofs.Lexer.Answers

/-! # Batches — block ends that are handed out together

    A line that leaves blocks, and the end of the input, come to as many block
    ends as blocks close, and to one token more.  These are handed out one by
    one, whatever a caller asks for in between, and until the last of them is
    out the lexer does not go on.

    * `Meets` is a look for a token that gets to a match;
    * `Drains` says which tokens calls return, and that nothing else moves;
    * `batches_drained` says so of both kinds of batches. -/

namespace Offside

/-- The width of the indentation that a match ends in. -/
def Selection.width (s : Selection) : Nat := (s.found.width 1).getD 0

namespace Lexer

/-- The text that a match takes. -/
def taken (l : Lexer) (s : Selection) : List Char := (l.pass s.found.length).1

/-- The lexer past a match. -/
def past (l : Lexer) (s : Selection) : Lexer := (l.pass s.found.length).2

/-- The span of a match. -/
def spanOf (l : Lexer) (s : Selection) : Span := l.place.spanTo (l.past s).place

/-- With an empty queue, a look for a token passes over matches and gets to
    this one. -/
structure Meets (l m : Lexer) (s : Selection) : Prop where
  empty : l.pending = []
  passes : Passes l m
  ahead : m.ahead ≠ []
  selected : m.lexicon.select m.mode m.ahead = some s

/-- A lexer that has stayed where another one is: only queue and modes can
    differ. -/
structure Rests (m l : Lexer) : Prop where
  place : l.place = m.place
  ahead : l.ahead = m.ahead
  finished : l.finished = m.finished
  indentation : l.indentation = m.indentation
  excerpt : l.excerpt = m.excerpt

/-- Calls return these tokens, the last of which empties the queue; and after
    each of the calls the lexer is where it is behind the first of them. -/
structure Drains (l : Lexer) (calls : List Call) (tokens : List Token) (m : Lexer) : Prop where
  answers : l.answers calls = tokens.map fun t => .ok (some t)
  rests : ∀ front, front <+: calls → front ≠ [] → Rests m (l.afterCalls front)
  empty : (l.afterCalls calls).pending = []

section

variable {l m m' : Lexer} {s : Selection} {structural : Structural Symbol}

/-! ## The queue -/

theorem Rests.trans {l'' : Lexer} (h : Rests m l) (h' : Rests l l'') : Rests m l'' :=
  ⟨h'.place.trans h.place, h'.ahead.trans h.ahead, h'.finished.trans h.finished,
    h'.indentation.trans h.indentation, h'.excerpt.trans h.excerpt⟩

/-- A call for a token takes the first one out of a queue. -/
theorem call_next {t : Token} {later : List Token} (h : l.pending = t :: later) :
    l.next.1 = .ok (some t) ∧ (l.call .next).pending = later ∧ Rests l (l.call .next) := by
  rw [call, next_of_pending h]
  exact ⟨rfl, rfl, rfl, rfl, rfl, rfl, rfl⟩

/-- Calls of other kinds leave the queue. -/
theorem call_other {c : Call} (h : c ≠ .next) :
    (l.call c).pending = l.pending ∧ Rests l (l.call c) := by
  cases c with
  | next => exact absurd rfl h
  | pushMode mode => exact ⟨rfl, rfl, rfl, rfl, rfl, rfl⟩
  | popMode =>
      rw [call, popMode]
      split <;> exact ⟨rfl, rfl, rfl, rfl, rfl, rfl⟩

/-- Calls take the tokens of a queue out, and the lexer stays where it is. -/
theorem drains_queue {calls : List Call} (hcalls : calls.count .next = l.pending.length) :
    l.answers calls = l.pending.map (fun t => .ok (some t)) ∧
      (∀ front, front <+: calls → Rests l (l.afterCalls front)) ∧
      (l.afterCalls calls).pending = [] := by
  induction calls generalizing l with
  | nil =>
      have hnil : l.pending = [] := List.eq_nil_of_length_eq_zero hcalls.symm
      refine ⟨by rw [hnil]; rfl, fun front hfront => ?_, hnil⟩
      rw [List.prefix_nil.mp hfront]
      exact ⟨rfl, rfl, rfl, rfl, rfl⟩
  | cons c calls ih =>
      -- what one call leaves behind, and what is to be said of those after it
      have hstep : Rests l (l.call c) → (l.call c).pending.length = calls.count .next →
          (∀ front, front <+: c :: calls → Rests l (l.afterCalls front)) ∧
            (l.afterCalls (c :: calls)).pending = [] := by
        intro hrests hlength
        obtain ⟨-, hfronts, hempty⟩ := ih hlength.symm
        refine ⟨fun front hfront => ?_, hempty⟩
        cases front with
        | nil => exact ⟨rfl, rfl, rfl, rfl, rfl⟩
        | cons c' front =>
            obtain ⟨rfl, hlater⟩ := List.cons_prefix_cons.mp hfront
            exact hrests.trans (hfronts front hlater)
      by_cases hc : c = .next
      · subst hc
        rw [List.count_cons_self] at hcalls
        obtain ⟨t, later, hpending⟩ := List.exists_cons_of_length_eq_add_one hcalls.symm
        obtain ⟨hanswer, hlater, hrests⟩ := call_next hpending
        have hlength : (l.call .next).pending.length = calls.count .next := by
          rw [hpending, List.length_cons] at hcalls
          rw [hlater]
          omega
        refine ⟨?_, hstep hrests hlength⟩
        rw [answers, hanswer, (ih hlength.symm).1, hlater, hpending]
        rfl
      · rw [List.count_cons_of_ne hc] at hcalls
        obtain ⟨hsame, hrests⟩ := call_other (l := l) hc
        have hlength : (l.call c).pending.length = calls.count .next := by rw [hsame, hcalls]
        refine ⟨?_, hstep hrests hlength⟩
        rw [← hsame, ← (ih hlength.symm).1]
        cases c with
        | next => exact absurd rfl hc
        | pushMode | popMode => rfl

/-! ## Batches -/

/-- A look that ends behind matches that are passed over. -/
theorem Passes.scan {r : Except Fault (Option Token) × Lexer} (h : Passes l m) (hscan : Scan m r) :
    Scan l r := by
  induction h with
  | refl => exact hscan
  | step hne hselect htake _ ih => exact .pass hne hselect htake (ih hscan)

/-- The tokens of a match that is met are drained. -/
theorem Meets.drains (h : Meets l m s) {tokens : List Token} (htake : m.take s = (.ok tokens, m'))
    {calls : List Call} (hcalls : tokens.length = calls.count .next + 1) :
    Drains l (.next :: calls) tokens m' := by
  obtain ⟨t, later, rfl⟩ := List.exists_cons_of_length_eq_add_one hcalls
  -- it is as if all of them had been in the queue
  have hscan : Scan m (.ok (some t), { m' with pending := later }) :=
    .emit h.ahead h.selected htake
  have hnext : l.next = ({ m' with pending := t :: later } : Lexer).next :=
    (next_eq_iff h.empty).mpr (h.passes.scan hscan)
  have hcall : l.call .next = ({ m' with pending := t :: later } : Lexer).call .next := by
    rw [call, call, hnext]
  have hcount : (.next :: calls).count .next =
      ({ m' with pending := t :: later } : Lexer).pending.length := by
    rw [List.count_cons_self, ← hcalls]
  obtain ⟨hanswers, hrests, hempty⟩ := drains_queue hcount
  refine ⟨?_, fun front hfront hne => ?_, ?_⟩
  · rw [answers, hnext, hcall]
    exact hanswers
  · cases front with
    | nil => exact absurd rfl hne
    | cons c front =>
        obtain ⟨rfl, -⟩ := List.cons_prefix_cons.mp hfront
        have hfront' := hrests _ hfront
        rw [afterCalls, List.foldl_cons, ← hcall] at hfront'
        exact ⟨hfront'.place, hfront'.ahead, hfront'.finished, hfront'.indentation,
          hfront'.excerpt⟩
  · rw [afterCalls, List.foldl_cons, hcall]
    exact hempty

/-- Block ends and one token more. -/
theorem length_batch (levels : Nat) (first last : Token) :
    (List.replicate levels first ++ [last]).length = levels + 1 := by
  rw [List.length_append, List.length_replicate, List.length_singleton]

/-- Taking a match comes to what is performed on its text and its span. -/
theorem take_of_perform {scanned : Scanned}
    (h : perform m.lexicon m.indentation s.action (m.taken s) (m.spanOf s) s.width =
      .ok scanned) :
    m.take s = (.ok scanned.tokens, { m.past s with indentation := scanned.indentation }) := by
  simp only [take]
  split
  next fault hfault => cases h.symm.trans hfault
  next scanned' hscanned =>
    obtain rfl := Except.ok.inj (h.symm.trans hscanned)
    rfl

/-- A line further out by whole levels. -/
theorem take_outward (hstructural : m.lexicon.structural = some structural)
    (haction : s.action = .lineBreak) {unit levels : Nat}
    (hunit : m.indentation.unit = some unit) (hwidth : s.width < m.indentation.current)
    (hlevels : m.indentation.current - s.width = levels * unit) :
    m.take s = (.ok (List.replicate levels ⟨structural.dedent, "", m.spanOf s⟩ ++
      [⟨structural.newline, "", m.spanOf s⟩]),
      { m.past s with indentation := ⟨s.width, some unit⟩ }) := by
  have hpos : 0 < unit := by
    rcases Nat.eq_zero_or_pos unit with rfl | hpos
    · omega
    · exact hpos
  have hbreak : ∀ line, m.indentation.lineBreak s.width line =
      .ok (.outward levels, ⟨s.width, some unit⟩) := by
    intro line
    simp only [Indentation.lineBreak, if_neg (Nat.ne_of_lt hwidth), if_pos hwidth, hunit, hlevels,
      Nat.mul_mod_left, Nat.mul_div_cancel _ hpos, if_true]
  have hperform : perform m.lexicon m.indentation s.action (m.taken s) (m.spanOf s) s.width =
      .ok ⟨dedents structural (m.spanOf s) levels ++ [⟨structural.newline, "", m.spanOf s⟩],
        ⟨s.width, some unit⟩⟩ := by
    simp only [perform, haction, hstructural, hbreak, String.ofList_nil, batch_concat]
  exact take_of_perform hperform

/-- The end of the input. -/
theorem take_endOfInput (hstructural : m.lexicon.structural = some structural) {kind : Symbol}
    (haction : s.action = .endOfInput kind) :
    m.take s = (.ok (List.replicate m.indentation.depth ⟨structural.dedent, "", m.spanOf s⟩ ++
      [⟨kind, String.ofList (m.taken s), m.spanOf s⟩]),
      { m.past s with indentation := ⟨0, m.indentation.unit⟩ }) := by
  have hperform : perform m.lexicon m.indentation s.action (m.taken s) (m.spanOf s) s.width =
      .ok ⟨dedents structural (m.spanOf s) m.indentation.depth ++
        [⟨kind, String.ofList (m.taken s), m.spanOf s⟩], ⟨0, m.indentation.unit⟩⟩ := by
    simp only [perform, haction, hstructural, Indentation.closeAll]
    cases m.indentation.depth <;> rfl
  exact take_of_perform hperform

/-- **Batches are drained.**  Let a look for a token get to a match.  If the line
    behind it stands further out by so many whole levels, then that call for a
    token and as many further ones return a block end for each level, and
    then a line separator, all with no text and the span of the match.  If it
    is the mark of the end of the input, then they return a block end for
    each open block, and then the mark with the text of the match.  Calls for
    other things in between change nothing of this, and the lexer stays
    behind the match until the last of these tokens is out.  (A match that ends
    inside a character passes all of it; a lexicon that is tied has none.) -/
theorem batches_drained (hstructural : l.lexicon.structural = some structural)
    (h : Meets l m s) :
    (s.action = .lineBreak → ∀ unit levels, m.indentation.unit = some unit →
      s.width < m.indentation.current → m.indentation.current - s.width = levels * unit →
      ∀ calls : List Call, calls.count .next = levels →
        Drains l (.next :: calls)
          (List.replicate levels ⟨structural.dedent, "", m.spanOf s⟩ ++
            [⟨structural.newline, "", m.spanOf s⟩])
          { m.past s with indentation := ⟨s.width, some unit⟩ }) ∧
    ∀ kind, s.action = .endOfInput kind →
      ∀ calls : List Call, calls.count .next = m.indentation.depth →
        Drains l (.next :: calls)
          (List.replicate m.indentation.depth ⟨structural.dedent, "", m.spanOf s⟩ ++
            [⟨kind, String.ofList (m.taken s), m.spanOf s⟩])
          { m.past s with indentation := ⟨0, m.indentation.unit⟩ } := by
  rw [← h.passes.unchanged.1] at hstructural
  constructor
  · intro haction unit levels hunit hwidth hlevels calls hcalls
    refine h.drains (take_outward hstructural haction hunit hwidth hlevels) ?_
    rw [length_batch, hcalls]
  · intro kind haction calls hcalls
    refine h.drains (take_endOfInput hstructural haction) ?_
    rw [length_batch, hcalls]

end

end Lexer

namespace Language

open Lexer

/-- A line behind two blocks, with a space before its end, and a block that is
    open at the end. -/
def deepText : List Char := "a.b:\n    c.d:\n        e.f \ng.h:\n    i.j\n@@EOF@@".toList

/-- A lexer behind some tokens of that text. -/
def deepLexer (tokens : Nat) : Lexer :=
  (start (lexiconFor defaultMarker) deepText).afterCalls (List.replicate tokens .next)

/-- The space in front of the line break. -/
def deepBlank : Selection := ⟨.skip, 0, 1, []⟩

/-- The line break that leaves both blocks. -/
def deepBreak : Selection := ⟨.lineBreak, 0, 1, [(1, 0)]⟩

/-- The mark of the end. -/
def deepMark : Selection := ⟨.endOfInput Kind.marker, 0, 8, []⟩

theorem meets_deepBreak : Meets (deepLexer 5) ((deepLexer 5).past deepBlank) deepBreak where
  empty := by decide +kernel
  passes := .step (s := deepBlank) (by decide +kernel) (by decide +kernel) (by decide +kernel)
    (.refl _)
  ahead := by decide +kernel
  selected := by decide +kernel

theorem meets_deepMark : Meets (deepLexer 11) (deepLexer 11) deepMark where
  empty := by decide +kernel
  passes := .refl _
  ahead := by decide +kernel
  selected := by decide +kernel

theorem batches_drained_deepText :
    ((deepLexer 5).lexicon.structural = some blockKinds ∧
      Meets (deepLexer 5) ((deepLexer 5).past deepBlank) deepBreak ∧
      Drains (deepLexer 5) [.next, .pushMode "OTHER", .next, .popMode, .next]
        [⟨Kind.dedent, "", ⟨26, 27, 3, 4, 12, 0⟩⟩, ⟨Kind.dedent, "", ⟨26, 27, 3, 4, 12, 0⟩⟩,
          ⟨Kind.newline, "", ⟨26, 27, 3, 4, 12, 0⟩⟩]
        { ((deepLexer 5).past deepBlank).past deepBreak with indentation := ⟨0, some 4⟩ }) ∧
    (deepLexer 11).lexicon.structural = some blockKinds ∧
      Meets (deepLexer 11) (deepLexer 11) deepMark ∧
      Drains (deepLexer 11) [.next, .popMode, .next]
        [⟨Kind.dedent, "", ⟨39, 47, 5, 6, 7, 7⟩⟩,
          ⟨Kind.marker, "\n@@EOF@@", ⟨39, 47, 5, 6, 7, 7⟩⟩]
        { (deepLexer 11).past deepMark with indentation := ⟨0, some 4⟩ } := by
  have hbreakKinds : (deepLexer 5).lexicon.structural = some blockKinds := by decide +kernel
  have hmarkKinds : (deepLexer 11).lexicon.structural = some blockKinds := by decide +kernel
  have hbreakSpan : ((deepLexer 5).past deepBlank).spanOf deepBreak =
      ⟨26, 27, 3, 4, 12, 0⟩ := by decide +kernel
  have hmarkSpan : (deepLexer 11).spanOf deepMark = ⟨39, 47, 5, 6, 7, 7⟩ := by decide +kernel
  have hmarkText : String.ofList ((deepLexer 11).taken deepMark) = "\n@@EOF@@" := by
    decide +kernel
  have hdepth : (deepLexer 11).indentation.depth = 1 := by decide +kernel
  have hunit : (deepLexer 11).indentation.unit = some 4 := by decide +kernel
  have hbreak := (batches_drained hbreakKinds meets_deepBreak).1 rfl 4 2 (by decide +kernel)
    (by decide +kernel) (by decide +kernel) [.pushMode "OTHER", .next, .popMode, .next] rfl
  have hmark := (batches_drained hmarkKinds meets_deepMark).2 Kind.marker rfl [.popMode, .next]
    (by decide +kernel)
  rw [hbreakSpan] at hbreak
  rw [hdepth, hunit, hmarkText, hmarkSpan] at hmark
  exact ⟨⟨hbreakKinds, meets_deepBreak, hbreak⟩, hmarkKinds, meets_deepMark, hmark⟩

end Language

end Offside

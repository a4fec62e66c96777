import Offside.Proofs.Automaton.Record
import Offside.Proofs.Language.Lexicon
import Offside.Proofs.Lexer.Places

/-! # Merging — what the span of a reduction covers

    A reduction looks at its first and its last span only.  Whatever the table
    is, the spans on a stack come in the order of the source, so nothing is
    missed: each starts where some token starts and ends where some token ends,
    and the tokens are in order.

    * `Span.Before` is the order, and `foldl_join_eq` says what merging all spans
      of a list in order comes to;
    * `Aligned` is what a run keeps of the spans on its stack;
    * `Reduction.Covering` is what the calls to the semantics are given. -/

namespace Offside

/-- A span before another one: it starts and ends no later. -/
structure Span.Before (a b : Span) : Prop where
  start : a.startOffset ≤ b.startOffset
  stop : a.endOffset ≤ b.endOffset

/-- A span that starts where one of these tokens does and ends where one of
    them does. -/
structure Span.Drawn (tokens : List Token) (span : Span) : Prop where
  start : ∃ t ∈ tokens, span.startOffset = t.span.startOffset
  stop : ∃ t ∈ tokens, span.endOffset = t.span.endOffset

/-- A span around others: it starts as the leftmost of them does, and it ends as
    the rightmost does. -/
structure Span.Encloses (span : Span) (spans : List Span) : Prop where
  within : ∀ s ∈ spans, s.Within span
  start : ∀ s ∈ spans, (∀ s' ∈ spans, s.startOffset ≤ s'.startOffset) →
    span.startOffset = s.startOffset ∧ span.startLine = s.startLine ∧
      span.startColumn = s.startColumn
  stop : ∀ s ∈ spans, (∀ s' ∈ spans, s'.endOffset ≤ s.endOffset) →
    span.endOffset = s.endOffset ∧ span.endLine = s.endLine ∧ span.endColumn = s.endColumn

/-- The spans of a reduction are in order, and their merge is that of all of
    them wherever it is made of the first and the last. -/
structure Automaton.Reduction.Covering {α : Type} (r : Automaton.Reduction α) : Prop where
  order : r.spans.reduceOption.Pairwise Span.Before
  empty : r.spans = [] → r.span = none
  merged : ∀ first last, r.spans.head? = some (some first) →
    r.spans.getLast? = some (some last) → r.span = r.spans.foldl Span.merge none ∧
      ∃ span, r.span = some span ∧ span.Encloses r.spans.reduceOption

/-! ## Spans in order -/

namespace Span

variable {source : List Char} {a b first last : Span} {spans : List Span}

theorem Before.refl (a : Span) : a.Before a := ⟨Nat.le_refl _, Nat.le_refl _⟩

/-- In a list in order the first comes before all, and the last behind all. -/
theorem Before.ends (horder : spans.Pairwise Before) (hfirst : spans.head? = some first)
    (hlast : spans.getLast? = some last) : ∀ s ∈ spans, first.Before s ∧ s.Before last := by
  intro s hs
  constructor
  · obtain ⟨later, rfl⟩ := List.head?_eq_some_iff.mp hfirst
    rcases List.mem_cons.mp hs with rfl | hlater
    · exact .refl s
    · exact (List.pairwise_cons.mp horder).1 s hlater
  · obtain ⟨front, rfl⟩ := List.getLast?_eq_some_iff.mp hlast
    rcases List.mem_append.mp hs with hfront | hs
    · exact (List.pairwise_append.mp horder).2.2 s hfront last (List.mem_singleton_self last)
    · rw [List.mem_singleton.mp hs]
      exact .refl last

/-- A join goes from the first span to the second if they are in order.  Where
    both end at one offset, they end on one line and in one column. -/
theorem Before.join_eq (h : a.Before b) (ha : a.Fits source) (hb : b.Fits source) :
    join a b = between a b := by
  rw [join, if_pos h.start]
  by_cases hstop : b.endOffset ≤ a.endOffset
  · have heq : a.endOffset = b.endOffset := Nat.le_antisymm h.stop hstop
    have hposition := ha.stop
    rw [heq] at hposition
    obtain ⟨hline, hcolumn⟩ := hposition.unique hb.stop
    rw [if_pos hstop, between, between, heq, hline, hcolumn]
  · rw [if_neg hstop]

/-- Joining spans in order one after the other goes from the first to the last. -/
theorem foldl_join_eq (horder : (a :: spans).Pairwise Before)
    (hfits : ∀ s ∈ a :: spans, s.Fits source) (hlast : (a :: spans).getLast? = some last) :
    spans.foldl join a = between a last := by
  induction spans using List.reverseRecOn generalizing last with
  | nil =>
      obtain rfl : a = last := Option.some.inj hlast
      rfl
  | append_singleton spans b ih =>
      rw [← List.cons_append, List.getLast?_concat] at hlast
      obtain rfl : b = last := Option.some.inj hlast
      rw [← List.cons_append] at horder hfits
      obtain ⟨hfront, -, hbehind⟩ := List.pairwise_append.mp horder
      have hfits' := (List.forall_mem_append.mp hfits).1
      obtain ⟨c, hc⟩ : ∃ c, (a :: spans).getLast? = some c :=
        ⟨_, List.getLast?_eq_some_getLast (List.cons_ne_nil a spans)⟩
      have hmem : c ∈ a :: spans := List.mem_of_getLast? hc
      have hac := (Before.ends hfront rfl hc a (List.mem_cons_self ..)).2
      have hab := hbehind a (List.mem_cons_self ..) b (List.mem_singleton_self b)
      have hcb := hbehind c hmem b (List.mem_singleton_self b)
      have ha := hfits' a (List.mem_cons_self ..)
      have hbetween : (between a c).Fits source :=
        ha.between (hfits' c hmem) (ha.ordered.trans hac.stop)
      rw [List.foldl_append, ih hfront hfits' hc]
      exact Before.join_eq ⟨hab.start, hcb.stop⟩ hbetween
        (hfits b (List.mem_append_right _ (List.mem_singleton_self b)))

/-- What goes from the first to the last of spans in order is around all. -/
theorem encloses_between (horder : spans.Pairwise Before) (hfits : ∀ s ∈ spans, s.Fits source)
    (hfirst : spans.head? = some first) (hlast : spans.getLast? = some last) :
    (between first last).Encloses spans := by
  have hends := Before.ends horder hfirst hlast
  have hfirst' : first ∈ spans := List.mem_of_head? hfirst
  have hlast' : last ∈ spans := List.mem_of_getLast? hlast
  refine ⟨fun s hs => ⟨(hends s hs).1.start, (hends s hs).2.stop⟩, fun s hs hmin => ?_,
    fun s hs hmax => ?_⟩
  · have heq : first.startOffset = s.startOffset :=
      Nat.le_antisymm (hends s hs).1.start (hmin first hfirst')
    have hposition := (hfits first hfirst').start
    rw [heq] at hposition
    exact ⟨heq, hposition.unique (hfits s hs).start⟩
  · have heq : last.endOffset = s.endOffset :=
      Nat.le_antisymm (hmax last hlast') (hends s hs).2.stop
    have hposition := (hfits last hlast').stop
    rw [heq] at hposition
    exact ⟨heq, hposition.unique (hfits s hs).stop⟩

theorem head?_reduceOption {spans : List (Option Span)} (h : spans.head? = some (some a)) :
    spans.reduceOption.head? = some a := by
  obtain ⟨later, rfl⟩ := List.head?_eq_some_iff.mp h
  rw [List.reduceOption_cons_of_some, List.head?_cons]

theorem getLast?_reduceOption {spans : List (Option Span)}
    (h : spans.getLast? = some (some a)) : spans.reduceOption.getLast? = some a := by
  obtain ⟨front, rfl⟩ := List.getLast?_eq_some_iff.mp h
  rw [List.reduceOption_append, List.reduceOption_singleton, Option.toList_some,
    List.getLast?_concat]

/-- Merging passes absent spans over. -/
theorem foldl_merge_some (a : Span) (spans : List (Option Span)) :
    spans.foldl merge (some a) = some (spans.reduceOption.foldl join a) := by
  induction spans generalizing a with
  | nil => rfl
  | cons span spans ih =>
      cases span with
      | none => rw [List.foldl_cons, merge_none_right, ih, List.reduceOption_cons_of_none]
      | some b => rw [List.foldl_cons, merge_some, ih, List.reduceOption_cons_of_some,
          List.foldl_cons]

end Span

/-! ## Spans on a stack -/

/-- Spans of a source in order, each drawn from tokens of it. -/
structure Aligned (source : List Char) (tokens : List Token) (spans : List Span) : Prop where
  order : spans.Pairwise Span.Before
  fits : ∀ span ∈ spans, span.Fits source
  drawn : ∀ span ∈ spans, span.Drawn tokens

namespace Aligned

variable {source : List Char} {tokens : List Token} {older spans : List Span}
  {popped : List (Option Span)}

theorem nil (source : List Char) (tokens : List Token) : Aligned source tokens [] :=
  ⟨.nil, nofun, nofun⟩

theorem sublist (h : Aligned source tokens spans) (hsub : older.Sublist spans) :
    Aligned source tokens older :=
  ⟨h.order.sublist hsub, fun s hs => h.fits s (hsub.subset hs),
    fun s hs => h.drawn s (hsub.subset hs)⟩

theorem behind (h : Aligned source tokens (older ++ spans)) : Aligned source tokens spans :=
  h.sublist (List.sublist_append_right older spans)

/-- The span of a token that follows comes behind all. -/
theorem shift (h : Aligned source tokens spans) {token : Token}
    (hbefore : ∀ t ∈ tokens, t.span.Before token.span) (hfits : token.span.Fits source) :
    Aligned source (tokens ++ [token]) (spans ++ [token.span]) := by
  have hmem : token ∈ tokens ++ [token] := List.mem_append_right _ (List.mem_singleton_self _)
  refine ⟨List.pairwise_append.mpr ⟨h.order, List.pairwise_singleton _ _, ?_⟩,
    List.forall_mem_append.mpr ⟨h.fits, List.forall_mem_singleton.mpr hfits⟩,
    List.forall_mem_append.mpr ⟨?_, List.forall_mem_singleton.mpr
      ⟨⟨token, hmem, rfl⟩, token, hmem, rfl⟩⟩⟩
  · intro s hs s' hs'
    obtain rfl := List.mem_singleton.mp hs'
    obtain ⟨⟨t, ht, hstart⟩, u, hu, hstop⟩ := h.drawn s hs
    exact ⟨hstart ▸ (hbefore t ht).start, hstop ▸ (hbefore u hu).stop⟩
  · intro s hs
    obtain ⟨⟨t, ht, hstart⟩, u, hu, hstop⟩ := h.drawn s hs
    exact ⟨⟨t, List.mem_append_left _ ht, hstart⟩, u, List.mem_append_left _ hu, hstop⟩

/-- A span from one of the last to a later one takes their place. -/
theorem between (h : Aligned source tokens (older ++ spans)) {a b : Span} (ha : a ∈ spans)
    (hb : b ∈ spans) (hab : a.Before b) :
    Aligned source tokens (older ++ [Span.between a b]) := by
  obtain ⟨holder, -, hbehind⟩ := List.pairwise_append.mp h.order
  have hfits := (List.forall_mem_append.mp h.fits)
  have hdrawn := (List.forall_mem_append.mp h.drawn)
  refine ⟨List.pairwise_append.mpr ⟨holder, List.pairwise_singleton _ _, ?_⟩,
    List.forall_mem_append.mpr ⟨hfits.1, List.forall_mem_singleton.mpr ?_⟩,
    List.forall_mem_append.mpr ⟨hdrawn.1, List.forall_mem_singleton.mpr
      ⟨(hdrawn.2 a ha).start, (hdrawn.2 b hb).stop⟩⟩⟩
  · intro s hs s' hs'
    obtain rfl := List.mem_singleton.mp hs'
    exact ⟨(hbehind s hs a ha).start, (hbehind s hs b hb).stop⟩
  · exact (hfits.2 a ha).between (hfits.2 b hb) ((hfits.2 a ha).ordered.trans hab.stop)

/-- The merge of the first and the last span takes the place of all. -/
theorem merge (h : Aligned source tokens (older ++ popped.reduceOption)) :
    Aligned source tokens
      (older ++ (Span.merge popped.head?.join popped.getLast?.join).toList) := by
  have hone : ∀ s ∈ popped.reduceOption, Aligned source tokens (older ++ [s]) := by
    intro s hs
    exact h.sublist ((List.Sublist.refl older).append (List.singleton_sublist.mpr hs))
  cases hfirst : popped.head?.join with
  | none =>
      rw [Span.merge_none_left]
      cases hlast : popped.getLast?.join with
      | none => exact h.sublist ((List.Sublist.refl older).append (List.nil_sublist _))
      | some b =>
          have hb := Span.getLast?_reduceOption (Option.join_eq_some_iff.mp hlast)
          exact hone b (List.mem_of_getLast? hb)
  | some a =>
      have ha := Span.head?_reduceOption (Option.join_eq_some_iff.mp hfirst)
      cases hlast : popped.getLast?.join with
      | none =>
          rw [Span.merge_none_right]
          exact hone a (List.mem_of_head? ha)
      | some b =>
          have hb := Span.getLast?_reduceOption (Option.join_eq_some_iff.mp hlast)
          have hmem := List.mem_of_head? ha
          have hmem' := List.mem_of_getLast? hb
          have hab : a.Before b := (Span.Before.ends h.behind.order ha hb a hmem).2
          rw [Span.merge_some, hab.join_eq (h.behind.fits a hmem) (h.behind.fits b hmem')]
          exact h.between hmem hmem' hab

end Aligned

namespace Automaton

variable {ι σ α : Type} [TokenSource ι]

/-- The spans on a stack, the top one last. -/
def Stack.spans (s : Stack α) : List Span := (s.frames.filterMap Frame.span).reverse

@[simp] theorem Stack.spans_push (s : Stack α) (frame : Frame α) (q : Nat) :
    (s.push frame q).spans = s.spans ++ frame.span.toList := by
  rw [Stack.spans, Stack.push, List.filterMap_cons]
  cases frame.span <;> simp [Stack.spans]

theorem Stack.spans_of_pop {s below : Stack α} {count : Nat} {frames : List (Frame α)}
    (h : s.pop count = .ok (frames, below)) :
    s.spans = below.spans ++ (frames.map Frame.span).reduceOption := by
  obtain ⟨-, rfl, -, hframes⟩ := Stack.pop_eq_ok.mp h
  rw [List.reduceOption, List.filterMap_map, Function.id_comp, Stack.spans, Stack.spans,
    hframes, List.filterMap_reverse, ← List.reverse_append, ← List.filterMap_append,
    List.take_append_drop]

/-- A reduction of frames whose spans are in order covers them all. -/
theorem covering_of_aligned {source : List Char} {tokens : List Token} {frames : List (Frame α)}
    (h : Aligned source tokens (frames.map Frame.span).reduceOption) :
    (reductionOf true frames).Covering where
  order := h.order
  empty hempty := by
    have hnil : frames = [] := List.map_eq_nil_iff.mp hempty
    rw [hnil]
    rfl
  merged first last hfirst hlast := by
    have hspan : (reductionOf true frames).span = some (Span.join first last) := by
      show Span.merge (frames.map Frame.span).head?.join (frames.map Frame.span).getLast?.join = _
      rw [show (frames.map Frame.span).head? = _ from hfirst,
        show (frames.map Frame.span).getLast? = _ from hlast]
      rfl
    have ha := Span.head?_reduceOption hfirst
    have hb := Span.getLast?_reduceOption hlast
    have hends := Span.Before.ends h.order ha hb first (List.mem_of_head? ha)
    have hjoin := hends.2.join_eq (h.fits first (List.mem_of_head? ha))
      (h.fits last (List.mem_of_getLast? hb))
    rw [hjoin] at hspan
    refine ⟨?_, _, hspan, Span.encloses_between h.order h.fits ha hb⟩
    obtain ⟨later, hlater⟩ := List.head?_eq_some_iff.mp hfirst
    have hpresent : (reductionOf true frames).spans.reduceOption =
        first :: later.reduceOption := by
      rw [hlater, List.reduceOption_cons_of_some]
    rw [hspan, hlater, List.foldl_cons, Span.merge_none_left, Span.foldl_merge_some,
      Span.foldl_join_eq (hpresent ▸ h.order) (hpresent ▸ h.fits) (hpresent ▸ hb)]

/-! ## Runs -/

/-- A source of tokens whose spans are of a text and in its order. -/
def Orderly (text : List Char) (start : ι) : Prop :=
  ∀ tokens s, Feeds start tokens s →
    tokens.Pairwise (fun t u => t.span.Before u.span) ∧ ∀ t ∈ tokens, t.span.Fits text

/-- All reductions among some calls were given spans in order with their merge,
    as many as the production has on its right. -/
def Covered (t : Table) (calls : List (Call α)) : Prop :=
  ∀ index given result, .reduce index given result ∈ calls →
    given.Covering ∧ ∃ lhs, t.production index = some ⟨some lhs, given.spans.length⟩

/-- The memory of a run. -/
def Progress.memory : Progress ι σ α → σ
  | .running c => c.memory
  | .ended _ _ memory => memory

/-- The lookahead comes from the source behind the tokens that have been
    shifted, and the spans on the stack are drawn from these. -/
structure Ranged (text : List Char) (start : ι) (c : Configuration ι (Record σ α) (Made α)) :
    Prop where
  feeds : ∀ token, c.lookahead = some token →
    Feeds start (shifted c.memory.calls ++ [token]) c.source
  aligned : Aligned text (shifted c.memory.calls) c.stack.spans

/-- A run has covered all its reductions and, while it goes on, will. -/
structure Covers (t : Table) (text : List Char) (start : ι)
    (p : Progress ι (Record σ α) (Made α)) : Prop where
  calls : Covered t p.memory.calls
  ranged : ∀ c, p = .running c → Ranged text start c

variable {t : Table} {sem : Semantics σ α} {text : List Char} {start : ι}

theorem Covered.shift {calls : List (Call α)} (h : Covered t calls) (token : Token) (value : α) :
    Covered t (calls ++ [.shift token value]) := by
  intro index given result hmem
  rcases List.mem_append.mp hmem with hmem | hmem
  · exact h index given result hmem
  · cases List.mem_singleton.mp hmem

theorem Covered.reduce {calls : List (Call α)} (h : Covered t calls) {index : Nat} {lhs : Symbol}
    {given : Reduction (Made α)} (hgiven : given.Covering)
    (hproduction : t.production index = some ⟨some lhs, given.spans.length⟩)
    (result : Except Fault α) : Covered t (calls ++ [.reduce index given result]) := by
  intro index' given' result' hmem
  rcases List.mem_append.mp hmem with hmem | hmem
  · exact h index' given' result' hmem
  · cases List.mem_singleton.mp hmem
    exact ⟨hgiven, lhs, hproduction⟩

/-- A reduction that is due covers its frames, and the frames below stay
    aligned with its span. -/
theorem Ranged.reduction {c : Configuration ι (Record σ α) (Made α)} (h : Ranged text start c)
    {index : Nat} {lhs : Symbol} {frames : List (Frame (Made α))} {below : Stack (Made α)}
    (hdue : Due t c index lhs frames below) (hcalls : Covered t c.memory.calls)
    (result : Except Fault α) :
    Covered t (c.memory.calls ++ [.reduce index (reductionOf true frames) result]) ∧
      Aligned text (shifted c.memory.calls)
        (below.spans ++ (reductionOf true frames).span.toList) := by
  have haligned := h.aligned
  rw [Stack.spans_of_pop hdue.pop] at haligned
  have hproduction : t.production index =
      some ⟨some lhs, (reductionOf true frames).spans.length⟩ := by
    rw [hdue.production, reductionOf, List.length_map]
  exact ⟨hcalls.reduce (covering_of_aligned haligned.behind) hproduction result,
    haligned.merge⟩

theorem covers_fetch {stack : Stack (Made α)} {s : ι} {record : Record σ α}
    (hcalls : Covered t record.calls) (hfeeds : Feeds start (shifted record.calls) s)
    (haligned : Aligned text (shifted record.calls) stack.spans) :
    Covers t text start (fetch stack s record) := by
  rw [fetch]
  rcases hnext : TokenSource.next s with ⟨fault | lookahead, s'⟩
  · refine ⟨hcalls, ?_⟩
    rintro _ ⟨⟩
  · refine ⟨hcalls, ?_⟩
    rintro _ ⟨⟩
    refine ⟨?_, haligned⟩
    rintro token rfl
    exact hfeeds.append (.single hnext)

/-- A move covers its reduction, whatever becomes of it. -/
theorem covers_step (horderly : Orderly text start) (c : Configuration ι (Record σ α) (Made α))
    (h : Covers t text start (.running c)) : Covers t text start (step t true sem.recorded c) := by
  obtain ⟨hcalls, hranged⟩ := h
  replace hranged := hranged c rfl
  have hturn := step_turn t true sem.recorded c
  generalize step t true sem.recorded c = p at hturn
  cases hturn with
  | exhausted | undue | bare | accept | excess | broken | reject => exact ⟨hcalls, nofun⟩
  | @shift token q m record hmeets hv =>
      obtain ⟨value, memory, rfl, rfl⟩ := Semantics.recorded_shift hv
      have hfeeds := hranged.feeds token hmeets.lookahead
      obtain ⟨horder, hfits⟩ := horderly _ _ hfeeds
      refine covers_fetch (hcalls.shift token value) ?_ ?_ <;> rw [shifted_shift]
      · exact hfeeds
      · rw [Stack.spans_push]
        refine hranged.aligned.shift ?_ (hfits token (by simp))
        intro u hu
        exact (List.pairwise_append.mp horder).2.2 u hu token (List.mem_singleton_self token)
  | refused hdue hv | lost hdue hv =>
      obtain ⟨result, memory, -, rfl⟩ := Semantics.recorded_reduce hv
      exact ⟨(hranged.reduction hdue hcalls result).1, nofun⟩
  | reduce hdue hv =>
      obtain ⟨result, memory, -, rfl⟩ := Semantics.recorded_reduce hv
      obtain ⟨hcovered, haligned⟩ := hranged.reduction hdue hcalls result
      refine ⟨hcovered, ?_⟩
      rintro _ ⟨⟩
      refine ⟨?_, ?_⟩ <;> dsimp only <;> rw [shifted_reduce]
      · exact hranged.feeds
      · rw [Stack.spans_push]
        exact haligned

theorem covers_runFor (horderly : Orderly text start) (t : Table) (sem : Semantics σ α)
    (memory : σ) (limit : Nat) :
    Covers t text start (runFor t true sem.recorded limit start (.start α memory)) := by
  refine moves_induction (covers_step horderly) ?_ limit
  have hcalls : Covered t (Record.start α memory).calls := by
    intro index given result hmem
    cases hmem
  exact covers_fetch hcalls (.nil start) (.nil text [])

end Automaton

/-! ## Tokens of a lexer -/

/-- There is a symbol that a lexicon knows nothing of. -/
theorem Lexicon.exists_lone (l : Lexicon) : ∃ kind, l.Lone kind := by
  obtain ⟨kind, hfresh⟩ := Infinite.exists_notMem_finset
    ((l.structural.toList.flatMap fun structural => [structural.dedent, structural.newline]) ++
      l.rules.filterMap (·.action.kind?)).toFinset
  rw [List.mem_toFinset, List.mem_append, not_or] at hfresh
  obtain ⟨hstructural, hrules⟩ := hfresh
  refine ⟨kind, ?_, ?_⟩
  · intro structural hsome
    rw [hsome, Option.toList_some, List.flatMap_singleton] at hstructural
    exact ⟨fun h => hstructural (by simp [h]), fun h => hstructural (by simp [h])⟩
  · intro rule hrule haction
    exact hrules (List.mem_filterMap.mpr ⟨rule, hrule, by rw [haction]; rfl⟩)

namespace Lexer

/-- Tokens come with spans of their source and in its order, whatever the
    lexicon is. -/
theorem orderly_start (lexicon : Lexicon) (source : List Char) :
    Automaton.Orderly source (start lexicon source) := by
  intro tokens l hfeeds
  have hfits := fits_of_feeds hfeeds
  obtain ⟨lone, hlone⟩ := lexicon.exists_lone
  refine ⟨(follows_of_feeds hlone hfeeds).imp_of_mem ?_, hfits⟩
  rintro t u ht - (⟨hspan, -⟩ | ⟨hstart, hstop⟩)
  · rw [hspan]
    exact .refl t.span
  · exact ⟨(hfits t ht).ordered.trans hstart, hstart.trans hstop⟩

end Lexer

namespace Automaton

variable {σ α : Type}

/-- **Merging the first and the last span is enough.**  In every reduction that
    a run over a text hands to the semantics, whatever the table and the
    lexicon are, the spans that are present start and end in the order of the
    text.  There are as many as the production has symbols on its right, and
    with none of them there is no merge.  If the first and the last are
    present, their merge is that of all spans, one after the other: it is
    around all of them, starts with the line and column of the leftmost and
    ends with those of the rightmost.  (A match that ends inside a character
    passes all of it; a lexicon that is tied has none.) -/
theorem reductions_cover (t : Table) (lexicon : Lexicon) (source : List Char)
    (sem : Semantics σ α) (memory : σ) (limit : Nat) :
    let run := runFor t true sem.recorded limit (Lexer.start lexicon source) (.start α memory)
    run.map Made.value Record.memory =
      runFor t true sem limit (Lexer.start lexicon source) memory ∧
    ∀ index given result, .reduce index given result ∈ run.memory.calls →
      given.Covering ∧ ∃ lhs, t.production index = some ⟨some lhs, given.spans.length⟩ := by
  intro run
  constructor
  · exact (runFor_map t true sem.recorded_over limit (Lexer.start lexicon source)
      (.start α memory)).symm
  · exact (covers_runFor (Lexer.orderly_start lexicon source) t sem memory limit).calls

/-- The production and the spans that a reduction is given, with their merge. -/
def Call.merged? : Call α → Option (Nat × List (Option Span) × Option Span)
  | .shift .. => none
  | .reduce index given _ => some (index, given.spans, given.span)

end Automaton

namespace Language

open Automaton

/-- A declaration in a block that the end closes. -/
def blockText : List Char := "module a.b:\n    module c.d\n@@EOF@@".toList

/-- The record of a run over it. -/
def blockRecord : Record Unit Value :=
  (runFor table true Builder.semantics.recorded 40
    (Lexer.start (lexiconFor defaultMarker) blockText) (.start Value ())).memory

theorem reductions_cover_blockText : ∃ given : Reduction (Made Value), given.Covering ∧
    given.spans = [some ⟨0, 34, 1, 3, 0, 7⟩, some ⟨26, 34, 2, 3, 14, 7⟩] ∧
    given.span = some ⟨0, 34, 1, 3, 0, 7⟩ := by
  have hmem : (1, [some ⟨0, 34, 1, 3, 0, 7⟩, some ⟨26, 34, 2, 3, 14, 7⟩],
      some ⟨0, 34, 1, 3, 0, 7⟩) ∈ blockRecord.calls.filterMap Call.merged? := by
    decide +kernel
  obtain ⟨call, hcall, hmerged⟩ := List.mem_filterMap.mp hmem
  have hcover := (reductions_cover table (lexiconFor defaultMarker) blockText Builder.semantics
    () 40).2
  cases call with
  | shift => cases hmerged
  | reduce index given result =>
      simp only [Call.merged?, Option.some.injEq, Prod.mk.injEq] at hmerged
      obtain ⟨-, hspans, hspan⟩ := hmerged
      exact ⟨given, (hcover index given result hcall).1, hspans, hspan⟩

end Language

end Offside

import Offside.Proofs.Lexer.Recovery

/-! # Exhaustion — when a lexer has no more

    A lexer tells beforehand whether it has more.  It goes by the queue and by
    whether the end symbol has been handed out, and it need not look at the
    text: a call may pass matches over and may fail, but as long as the end
    symbol has not been handed out some call is still to answer something.

    * `Exhausted` is a lexer that has nothing left, and `exhausted_iff` says
      that this is what a lexer knows of itself;
    * `Exhausted.call` says that no call wakes it up, changes of mode included;
    * `Lexicon.EndApart` is said of lexicons in which only the end of the text
      comes to the end symbol, and `Unended` of queues without that symbol;
    * `hasMore_exact` joins these for every lexer that calls lead to. -/

namespace Offside

/-- No rule and no structural terminal comes to the end symbol. -/
structure Lexicon.EndApart (lexicon : Lexicon) : Prop where
  rules : ∀ rule ∈ lexicon.rules, rule.action.kind? ≠ some lexicon.endSymbol
  structural : ∀ structural, lexicon.structural = some structural →
    structural.indent ≠ lexicon.endSymbol ∧ structural.dedent ≠ lexicon.endSymbol ∧
      structural.newline ≠ lexicon.endSymbol

namespace Lexer

/-- A lexer with nothing in its queue, no text ahead and the end symbol handed
    out. -/
structure Exhausted (l : Lexer) : Prop where
  pending : l.pending = []
  ahead : l.ahead = []
  finished : l.finished = true

/-- A lexer in whose queue the end symbol does not wait. -/
structure Unended (lexicon : Lexicon) (l : Lexer) : Prop where
  pending : ∀ token ∈ l.pending, token.kind ≠ lexicon.endSymbol
  lexicon : l.lexicon = lexicon

/-- An answer that is a token of a kind. -/
def answersKind (kind : Symbol) : Except Fault (Option Token) → Bool
  | .ok (some token) => token.kind == kind
  | _ => false

variable {lexicon : Lexicon} {source : List Char} {l l' m : Lexer}

/-! ## Nothing left -/

/-- A lexer that has no more is exhausted. -/
theorem exhausted_iff (h : l.Proper) : l.Exhausted ↔ l.hasMore = false := by
  rw [hasMore_eq_false]
  constructor
  · intro hl
    exact ⟨hl.pending, hl.finished⟩
  · rintro ⟨hpending, hfinished⟩
    exact ⟨hpending, h hfinished, hfinished⟩

theorem Exhausted.next (h : l.Exhausted) : l.next = (.ok none, l) :=
  (next_eq_iff h.pending).mpr (.ended h.ahead h.finished)

/-- Nothing wakes an exhausted lexer up. -/
theorem Exhausted.call (h : l.Exhausted) (c : Call) : (l.call c).Exhausted := by
  cases c with
  | next =>
      rw [Lexer.call, h.next]
      exact h
  | pushMode mode => exact ⟨h.pending, h.ahead, h.finished⟩
  | popMode =>
      rw [Lexer.call, popMode]
      split
      next => exact h
      next => exact ⟨h.pending, h.ahead, h.finished⟩

theorem Exhausted.answers (h : l.Exhausted) (later : List Call) :
    ∀ answer ∈ l.answers later, answer = .ok none :=
  forall_answers (P := Exhausted) (Q := fun answer => answer = .ok none)
    (fun _ c hl => hl.call c) (fun _ hl => congrArg Prod.fst hl.next) h later

/-- A lexer is exhausted exactly if it hands out none. -/
theorem exhausted_iff_next (h : l.Proper) : l.Exhausted ↔ l.next.1 = .ok none := by
  constructor
  · intro hl
    rw [hl.next]
  · intro hnone
    exact (exhausted_iff h).mpr (hasMore_of_next (Prod.fst_eq_iff.mp hnone))

/-! ## The end symbol -/

/-- The tokens of a match are not of the end symbol. -/
theorem kind_ne_of_take (hend : lexicon.EndApart) (hl : l.lexicon = lexicon)
    {s : Selection} {tokens : List Token} (hselect : l.lexicon.select l.mode l.ahead = some s)
    (htake : l.take s = (.ok tokens, l')) : ∀ token ∈ tokens, token.kind ≠ lexicon.endSymbol := by
  subst hl
  intro token htoken
  rcases (take_ok htake).kinds token htoken with hkind | ⟨structural, hsome, hkind⟩
  · obtain ⟨rule, hrule, haction⟩ := exists_rule_of_select hselect
    rintro heq
    rw [← haction, heq] at hkind
    exact hend.rules rule hrule hkind
  · obtain ⟨hindent, hdedent, hnewline⟩ := hend.structural structural hsome
    rcases hkind with hkind | hkind | hkind <;> rw [hkind] <;> assumption

theorem unended_start (lexicon : Lexicon) (source : List Char) :
    Unended lexicon (start lexicon source) := ⟨nofun, rfl⟩

/-- A call hands out a token of another kind, or it comes to the end of the text
    and leaves the lexer exhausted. -/
theorem Unended.next (hend : lexicon.EndApart) (h : Unended lexicon l) :
    Unended lexicon l.next.2 ∧ ∀ token, l.next.1 = .ok (some token) →
      token.kind = lexicon.endSymbol → l.pending = [] ∧ l.next.2.Exhausted ∧
        token = ⟨lexicon.endSymbol, "", l.next.2.place.point⟩ := by
  cases hpending : l.pending with
  | cons first later =>
      have hqueue := h.pending
      rw [hpending] at hqueue
      obtain ⟨hfirst, hlater⟩ := List.forall_mem_cons.mp hqueue
      rw [next_of_pending hpending]
      refine ⟨⟨hlater, h.lexicon⟩, ?_⟩
      rintro token ⟨⟩ hkind
      exact absurd hkind hfirst
  | nil =>
      obtain ⟨m, action, hpasses, hstops⟩ := exists_stops_of_next hpending rfl
      obtain ⟨hlexicon, hempty⟩ := hpasses.unchanged
      rw [h.lexicon] at hlexicon
      rw [hpending] at hempty
      have hnone : ∀ token ∈ m.pending, token.kind ≠ lexicon.endSymbol :=
        hempty ▸ List.forall_mem_nil _
      generalize l.next = r at hstops
      cases hstops with
      | ended | stuck => exact ⟨⟨hnone, hlexicon⟩, nofun⟩
      | stop hahead hfinished =>
          refine ⟨⟨hnone, hlexicon⟩, ?_⟩
          rintro token ⟨⟩ -
          rw [hlexicon]
          exact ⟨rfl, ⟨hempty, hahead, rfl⟩, rfl⟩
      | fault hne hselect htake =>
          refine ⟨⟨?_, (take_lexicon htake).trans hlexicon⟩, nofun⟩
          rw [(take_ahead htake hselect hne).2.1]
          exact hnone
      | emit hne hselect htake =>
          obtain ⟨hfirst, hlater⟩ :=
            List.forall_mem_cons.mp (kind_ne_of_take hend hlexicon hselect htake)
          refine ⟨⟨hlater, (take_lexicon htake).trans hlexicon⟩, ?_⟩
          rintro token ⟨⟩ hkind
          exact absurd hkind hfirst

theorem Unended.call (hend : lexicon.EndApart) (h : Unended lexicon l) (c : Call) :
    Unended lexicon (l.call c) := by
  cases c with
  | next => exact (h.next hend).1
  | pushMode mode => exact ⟨h.pending, h.lexicon⟩
  | popMode =>
      rw [Lexer.call, popMode]
      split
      next => exact h
      next => exact ⟨h.pending, h.lexicon⟩

/-- Behind the end symbol only none is answered, so it comes once at most. -/
theorem Unended.countP_le_one (hend : lexicon.EndApart) (h : Unended lexicon l)
    (calls : List Call) : (l.answers calls).countP (answersKind lexicon.endSymbol) ≤ 1 := by
  induction calls generalizing l with
  | nil => exact Nat.zero_le 1
  | cons c calls ih =>
      have hlater := ih (h.call hend c)
      cases c with
      | pushMode | popMode => exact hlater
      | next =>
          rw [answers, List.countP_cons]
          by_cases hkind : answersKind lexicon.endSymbol l.next.1 = true
          · obtain ⟨token, htoken, heq⟩ : ∃ token, l.next.1 = .ok (some token) ∧
                token.kind = lexicon.endSymbol := by
              rw [answersKind.eq_def] at hkind
              split at hkind
              next token htoken => exact ⟨token, htoken, beq_iff_eq.mp hkind⟩
              next => cases hkind
            obtain ⟨-, hexhausted, -⟩ := (h.next hend).2 token htoken heq
            have hnone : ((l.call .next).answers calls).countP
                (answersKind lexicon.endSymbol) = 0 := by
              refine List.countP_eq_zero.mpr fun answer hanswer => ?_
              rw [hexhausted.answers calls answer hanswer]
              exact Bool.false_ne_true
            rw [hnone, if_pos hkind]
          · rw [if_neg hkind]
            exact hlater

/-! ## Lexers that calls lead to -/

/-- A lexer on its way that has no text ahead stands behind its source. -/
theorem Underway.place_eq (h : Underway lexicon source l) (hahead : l.ahead = []) :
    l.place = Place.start.after source := by
  obtain ⟨front, hsource, hplace⟩ := h.place
  rw [hahead, List.append_nil] at hsource
  rw [hplace, hsource]

/-- **A lexer knows whether it has more.**  Whatever the calls were, faults
    included: it has no more exactly if the next call for a token returns none,
    and then every call returns none, whatever modes are entered and left.  If
    only the end of the text comes to the end symbol, then a token of that
    symbol is handed out once at most, and it is the last one: nothing had been
    waiting, the source is behind the lexer, and nothing comes behind it.  (A
    match that ends inside a character passes all of it; a lexicon that is tied
    has none.) -/
theorem hasMore_exact (lexicon : Lexicon) (source : List Char) (calls : List Call)
    (hl : (start lexicon source).afterCalls calls = l) :
    (l.hasMore = false ↔ l.next.1 = .ok none) ∧
    (l.hasMore = false → ∀ later : List Call, (∀ answer ∈ l.answers later, answer = .ok none) ∧
      (l.afterCalls later).hasMore = false) ∧
    (lexicon.EndApart →
      ((start lexicon source).answers calls).countP (answersKind lexicon.endSymbol) ≤ 1 ∧
      ∀ token, l.next.1 = .ok (some token) → token.kind = lexicon.endSymbol →
        l.pending = [] ∧ l.next.2.pending = [] ∧ l.next.2.ahead = [] ∧
        token = ⟨lexicon.endSymbol, "", (Place.start.after source).point⟩ ∧
        ∀ later : List Call, ∀ answer ∈ l.next.2.answers later, answer = .ok none) := by
  subst hl
  have hunderway := (underway_start lexicon source).afterCalls calls
  generalize hl : (start lexicon source).afterCalls calls = l at hunderway
  refine ⟨?_, fun hmore later => ?_, fun hend => ⟨?_, fun token htoken hkind => ?_⟩⟩
  · rw [← exhausted_iff hunderway.proper, exhausted_iff_next hunderway.proper]
  · have hexhausted := (exhausted_iff hunderway.proper).mpr hmore
    have hafter : (l.afterCalls later).Exhausted :=
      afterCalls_keeps (fun _ c h => h.call c) hexhausted later
    exact ⟨hexhausted.answers later, hasMore_eq_false.mpr ⟨hafter.pending, hafter.finished⟩⟩
  · exact (unended_start lexicon source).countP_le_one hend calls
  · have hunended : Unended lexicon l :=
      hl ▸ afterCalls_keeps (fun _ c h => h.call hend c) (unended_start lexicon source) calls
    obtain ⟨hpending, hexhausted, rfl⟩ := (hunended.next hend).2 token htoken hkind
    refine ⟨hpending, hexhausted.pending, hexhausted.ahead, ?_, hexhausted.answers⟩
    rw [hunderway.next.place_eq hexhausted.ahead]

end Lexer

namespace Language

open Lexer

/-- In the language only the end of the text comes to the end symbol. -/
theorem endApart_lexiconFor (marker : String) : (lexiconFor marker).EndApart where
  rules rule hrule := by
    have hactions : ∀ action ∈ (Language.rules marker).map (·.action),
        action.kind? ≠ some Kind.stop := by
      show ∀ action ∈ (Language.rules "").map (·.action), _
      decide
    exact hactions _ (List.mem_map_of_mem hrule)
  structural structural h := by
    obtain rfl := Option.some.inj h
    show Kind.indent ≠ Kind.stop ∧ Kind.dedent ≠ Kind.stop ∧ Kind.newline ≠ Kind.stop
    decide

/-- The lexer that the calls leave behind. -/
def faultyRest : Lexer := (start (lexiconFor defaultMarker) faultyText).afterCalls faultyCalls

theorem hasMore_exact_faultyText :
    faultyRest.hasMore = true ∧ faultyRest.next.1 ≠ .ok none ∧
      faultyRest.next.1 = .ok (some ⟨Kind.stop, "", ⟨11, 11, 5, 5, 0, 0⟩⟩) ∧
      faultyRest.next.2.hasMore = false ∧
      ∀ later : List Call, ∀ answer ∈ faultyRest.next.2.answers later, answer = .ok none := by
  have hmore : faultyRest.hasMore = true := by decide +kernel
  have hlast : faultyRest.next.1 = .ok (some ⟨Kind.stop, "", ⟨11, 11, 5, 5, 0, 0⟩⟩) := by
    decide +kernel
  obtain ⟨hexact, -, hend⟩ := hasMore_exact (lexiconFor defaultMarker) faultyText faultyCalls rfl
  obtain ⟨-, -, -, -, hnone⟩ := (hend (endApart_lexiconFor _)).2 _ hlast rfl
  exact ⟨hmore, fun h => Bool.false_ne_true ((hexact.mpr h).symm.trans hmore), hlast,
    by decide +kernel, hnone⟩

end Language

end Offside

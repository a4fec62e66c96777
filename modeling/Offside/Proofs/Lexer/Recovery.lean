import Offside.Proofs.Lexer.Anchors

/-! # Recovery — what a call that fails leaves behind

    A call that fails has passed what it was to pass and changed nothing else.
    Where no rule matches, the lexer stands in front of the character and
    fails again; where a match is at fault, it stands behind the match, with
    the blocks that were open before.

    * `silent_of_take` and `offends_of_take` list what a match can come to
      besides tokens, where the structural terminals are there;
    * `PastOffender` is a lexer behind a match that is at fault;
    * `Stuck.again` says that a lexer in front of a character that no rule
      matches fails again and again;
    * `fault_leaves_lexer` says what every call that fails leaves. -/

namespace Offside

namespace Lexer

/-- A match is at fault on a line: it opens a block that must not open, or the
    line behind it must not stand where it does. -/
inductive Offends (l : Lexer) (s : Selection) (line : Nat) : Fault → Prop
  | block {cause : IndentFault} :
      s.action = .blockOpen → l.indentation.openBlock s.width line = .error cause →
      Offends l s line (.indentation cause)
  | line {fault : Fault} :
      s.action = .lineBreak → l.indentation.lineBreak s.width line = .error fault →
      Offends l s line fault

/-- A lexer stands right behind a match that is at fault, behind others that
    have been passed over, and nothing else about it has changed. -/
inductive PastOffender (source : List Char) (l : Lexer) (fault : Fault) : Lexer → Prop
  | intro {front text back : List Char} {s : Selection} :
      source = front ++ (text ++ back) →
      Meets l { l with place := Place.start.after front, ahead := text ++ back } s →
      s.found.start = 0 → s.found.length = Text.bytes text →
      Offends l s (Place.start.after (front ++ text)).line fault →
      PastOffender source l fault
        { l with place := Place.start.after (front ++ text), ahead := back }

variable {lexicon : Lexicon} {source : List Char} {l l' m : Lexer} {s : Selection} {fault : Fault}

/-! ## One match -/

/-- A match that comes to no token is one to pass over, or a line that stands
    deeper and means nothing. -/
theorem Outcome.silent {i j : Indentation} {action : RuleAction Symbol} {span : Span}
    {width : Nat} (h : Outcome lexicon i span width action ⟨[], j⟩) :
    (action = .skip ∨ (action = .lineBreak ∧
      i.lineBreak width span.endLine = .ok (.deeper, i))) ∧ j = i := by
  generalize hnone : [] = tokens at h
  cases h with
  | single | opening | same => cases hnone
  | closing | outward =>
      exact absurd hnone.symm (List.append_ne_nil_of_right_ne_nil _ (List.cons_ne_nil _ _))
  | skip => exact ⟨.inl rfl, rfl⟩
  | deeper hbreak => exact ⟨.inr ⟨rfl, hbreak⟩, rfl⟩

/-- Taking a match that leaves the blocks as they are is passing it. -/
theorem eq_past_of_take {r : Except Fault (List Token)} (h : l.take s = (r, l'))
    (hsame : l'.indentation = l.indentation) : l' = l.past s := by
  rw [take_passes h, hsame]
  rfl

/-- A match that comes to no token is passed over as its action says, or it is
    a line that stands deeper and means nothing. -/
theorem silent_of_take (h : l.take s = (.ok [], l')) :
    (s.action = .skip ∨ (s.action = .lineBreak ∧
      l.indentation.lineBreak s.width (l.past s).place.line = .ok (.deeper, l.indentation))) ∧
      l' = l.past s := by
  obtain ⟨hsilent, hsame⟩ := (take_ok h).silent
  obtain rfl := eq_past_of_take h hsame
  exact ⟨hsilent, rfl⟩

/-- A match that is at fault is so by its indentation, where the structural
    terminals are there for the rules that need them. -/
theorem offends_of_take (hstructural : s.action.isStructural = true → l.lexicon.structural ≠ none)
    (h : l.take s = (.error fault, l')) :
    l.Offends s (l.past s).place.line fault ∧ l' = l.past s := by
  have hmishap := take_error h
  obtain ⟨hoffends, hsame⟩ :
      l.Offends s l'.place.line fault ∧ l'.indentation = l.indentation := by
    generalize hfailed : (⟨fault, l'.indentation⟩ : Failed) = failed at hmishap
    generalize haction : s.action = action at hmishap hstructural
    cases hmishap with
    | unclosed hnone => exact absurd hnone (hstructural rfl)
    | unnamed hkind hnone =>
        rcases hkind with rfl | rfl <;> exact absurd hnone (hstructural rfl)
    | block hopen =>
        obtain ⟨rfl, hsame⟩ := Failed.mk.inj hfailed
        exact ⟨.block haction hopen, hsame⟩
    | line hbreak =>
        obtain ⟨rfl, hsame⟩ := Failed.mk.inj hfailed
        exact ⟨.line haction hbreak, hsame⟩
  obtain rfl := eq_past_of_take h hsame
  exact ⟨hoffends, rfl⟩

/-! ## Matches that are passed over -/

/-- Passing matches over moves a lexer and changes nothing else. -/
theorem Passes.moved (h : Passes l m) : m = { l with place := m.place, ahead := m.ahead } := by
  refine h.keeps (P := fun m => m = { l with place := m.place, ahead := m.ahead }) ?_ rfl
  intro m m' s _ _ htake hm
  obtain rfl := (silent_of_take htake).2
  rw [past, pass]
  dsimp only
  rw [hm]

/-! ## No rule matches -/

/-- A lexer whose mode and whose modes to return to are other ones. -/
def SameBut (l k : Lexer) : Prop := k = { l with mode := k.mode, suspended := k.suspended }

/-- A lexer in front of a character that no rule of its mode matches. -/
structure Stuck (l : Lexer) (fault : Fault) : Prop where
  empty : l.pending = []
  running : l.finished = false
  stuck : ∃ c cs, l.ahead = c :: cs ∧ l.lexicon.select l.mode l.ahead = none ∧
    fault = l.unexpectedCharacter c

/-- In the mode that it failed in, a lexer fails again. -/
theorem Stuck.next (h : l.Stuck fault) {k : Lexer} (hk : l.SameBut k) (hmode : k.mode = l.mode) :
    k.next = (.error fault, k) := by
  obtain ⟨c, cs, hahead, hselect, rfl⟩ := h.stuck
  rw [SameBut, hmode] at hk
  have hpending : k.pending = [] := by
    rw [hk]
    exact h.empty
  have hscan : Scan k (.error (k.unexpectedCharacter c), k) := by
    rw [hk]
    exact .stuck hahead hselect
  have hfault : k.unexpectedCharacter c = l.unexpectedCharacter c := by
    rw [hk]
    rfl
  rw [← hfault]
  exact (next_eq_iff hpending).mpr hscan

/-- Entering and leaving modes does not move a lexer, so it fails again
    whenever it is asked in the mode that it failed in. -/
theorem Stuck.again (h : l.Stuck fault) {k : Lexer} (hk : l.SameBut k) (later : List Call)
    (hmode : ∀ front, front ++ [.next] <+: later → (k.afterCalls front).mode = l.mode) :
    (∀ answer ∈ k.answers later, answer = .error fault) ∧
      (k.afterCalls later).hasMore = true := by
  induction later generalizing k with
  | nil =>
      refine ⟨nofun, ?_⟩
      show k.hasMore = true
      rw [hk, hasMore, h.running, Bool.not_false, Bool.or_true]
  | cons c later ih =>
      -- what holds after the call is about the calls behind it
      have hlater : ∀ front, front ++ [.next] <+: later →
          ((k.call c).afterCalls front).mode = l.mode := by
        intro front hfront
        exact hmode (c :: front) (List.cons_prefix_cons.mpr ⟨rfl, hfront⟩)
      cases c with
      | next =>
          have hsame : k.mode = l.mode := hmode [] ⟨later, rfl⟩
          have hfails := h.next hk hsame
          have hcall : k.call .next = k := by rw [call, hfails]
          rw [hcall] at hlater
          obtain ⟨hanswers, hmore⟩ := ih hk hlater
          rw [answers, hcall, hfails]
          refine ⟨List.forall_mem_cons.mpr ⟨rfl, hanswers⟩, ?_⟩
          rw [afterCalls, List.foldl_cons, hcall]
          exact hmore
      | pushMode mode =>
          have hpushed : l.SameBut (k.call (.pushMode mode)) := by
            rw [SameBut, call, pushMode, hk]
          exact ih hpushed hlater
      | popMode =>
          have hpopped : l.SameBut (k.call .popMode) := by
            rw [SameBut, call, popMode]
            split
            next => exact hk
            next =>
              dsimp only
              rw [hk]
          exact ih hpopped hlater

/-! ## Calls that fail -/

/-- What every call keeps holds after all calls. -/
theorem afterCalls_keeps {P : Lexer → Prop} (hcall : ∀ l c, P l → P (l.call c)) (hl : P l)
    (calls : List Call) : P (l.afterCalls calls) := by
  induction calls generalizing l with
  | nil => exact hl
  | cons c calls ih => exact ih (hcall l c hl)

/-- A lexer on its way through a source. -/
structure Underway (lexicon : Lexicon) (source : List Char) (l : Lexer) : Prop where
  lexicon : l.lexicon = lexicon
  place : l.StandsIn source
  proper : l.Proper

theorem underway_start (lexicon : Lexicon) (source : List Char) :
    Underway lexicon source (start lexicon source) :=
  ⟨rfl, standsIn_start lexicon source, proper_start lexicon source⟩

namespace Underway

theorem take (h : Underway lexicon source l) {r : Except Fault (List Token)}
    (hselect : l.lexicon.select l.mode l.ahead = some s) (hahead : l.ahead ≠ [])
    (htake : l.take s = (r, l')) : Underway lexicon source l' :=
  ⟨(take_lexicon htake).trans h.lexicon, h.place.take htake, h.proper.take htake hselect hahead⟩

theorem passes (h : Underway lexicon source l) (hpasses : Passes l m) :
    Underway lexicon source m :=
  hpasses.keeps (fun hahead hselect htake hl => hl.take hselect hahead htake) h

theorem next (h : Underway lexicon source l) : Underway lexicon source l.next.2 := by
  have hkeeps : Keeps (fun l => l.lexicon = lexicon ∧ l.StandsIn source) (fun _ => True)
      fun _ => True :=
    { queue := fun _ _ hl => hl
      take := fun hl _ htake =>
        ⟨⟨(take_lexicon htake).trans hl.1, hl.2.take htake⟩, fun _ _ => trivial⟩
      fault := fun hl _ htake =>
        ⟨⟨(take_lexicon htake).trans hl.1, hl.2.take htake⟩, trivial⟩
      stop := fun _ => trivial
      stuck := fun _ _ => trivial }
  obtain ⟨hlexicon, hplace⟩ :=
    (hkeeps.next ⟨h.lexicon, h.place⟩ (fun _ _ => trivial) (rfl : l.next = _)).1
  exact ⟨hlexicon, hplace, (proper_next (rfl : l.next = _) h.proper).1⟩

theorem call (h : Underway lexicon source l) (c : Call) : Underway lexicon source (l.call c) := by
  cases c with
  | next => exact h.next
  | pushMode mode => exact ⟨h.lexicon, h.place, h.proper⟩
  | popMode =>
      rw [Lexer.call, popMode]
      split
      next => exact h
      next => exact ⟨h.lexicon, h.place, h.proper⟩

theorem afterCalls (h : Underway lexicon source l) (calls : List Call) :
    Underway lexicon source (l.afterCalls calls) :=
  afterCalls_keeps (fun _ c hl => hl.call c) h calls

end Underway

/-- A call that fails leaves the lexer in front of a character that no rule
    matches, or behind a match that is at fault. -/
theorem Underway.stuck_or_past (hl : Underway lexicon source l)
    (hequipped : lexicon.Equipped) (htied : lexicon.Tied)
    (h : l.next = (.error fault, l')) :
    (l'.Stuck fault ∧ l' = { l with place := l'.place, ahead := l'.ahead }) ∨
      PastOffender source l fault l' := by
  have hpending : l.pending = [] := by
    cases hpending : l.pending with
    | nil => rfl
    | cons token later =>
        rw [next_of_pending hpending] at h
        cases h
  obtain ⟨m, action, hpasses, hstops⟩ := exists_stops_of_next hpending h
  have hmoved := hpasses.moved
  have hm := hl.passes hpasses
  cases hstops with
  | stuck hahead hselect =>
      have hne : l'.ahead ≠ [] := hahead ▸ List.cons_ne_nil _ _
      refine .inl ⟨⟨hpasses.unchanged.2.trans hpending, hm.proper.finished hne, ?_⟩, hmoved⟩
      exact ⟨_, _, hahead, hselect, rfl⟩
  | @fault _ s _ hne hselect htake =>
      right
      have hselect' := hselect
      rw [hm.lexicon] at hselect'
      obtain ⟨hstart, text, back, hahead, hlength⟩ :=
        exists_text_of_select htied hselect'
      obtain ⟨hoffends, rfl⟩ := offends_of_take
        (fun hs => hm.lexicon ▸ hequipped.structural_ne_none hselect' hs) htake
      obtain ⟨-, hpast⟩ := pass_of_append hahead hlength
      obtain ⟨front, hsource, hplace⟩ := hm.place
      rw [hahead] at hsource
      rw [hplace, hahead] at hmoved
      have hmeets : Meets l m s := ⟨hpending, hpasses, hne, hselect⟩
      rw [hpast] at hoffends ⊢
      subst hmoved
      rw [← Place.after_append] at hoffends ⊢
      refine .intro hsource hmeets hstart hlength ?_
      cases hoffends with
      | block haction hopen => exact .block haction hopen
      | line haction hbreak => exact .line haction hbreak

/-- A match is not at fault by a character that no rule matches. -/
theorem Offends.ne_unexpected {line : Nat} (h : l.Offends s line fault) :
    ¬ ∃ c line column excerpt, fault = .unexpectedCharacter c line column excerpt := by
  rintro ⟨c, line', column, excerpt, rfl⟩
  cases h with
  | line _ hbreak =>
      rcases Indentation.fault_of_lineBreak hbreak with ⟨_, hfault⟩ | ⟨_, hfault⟩ <;> cases hfault

/-- **Faults leave a lexer whole.**  A lexicon that has been compiled is equipped
    with the structural terminals that its rules need.  Let one that is, and
    that is tied, be given, and let a call fail, whatever the calls before it
    were.  The blocks that are open and the modes are as before, and nothing
    waits.  If no rule matches a character, then the lexer has more, and it
    fails in the same way whenever it is asked for a token in that mode.
    Otherwise it stands right behind the match that is at fault, at the line
    and column of that place, and all else is as it was. -/
theorem fault_leaves_lexer :
    (∀ {t : Automaton.Table} {d : LexiconDraft}, d.compile t = .ok lexicon →
      lexicon.Equipped) ∧
    (lexicon.Equipped → lexicon.Tied → ∀ {source : List Char} {l l' : Lexer} {fault : Fault}
      (calls : List Call), (start lexicon source).afterCalls calls = l →
      l.next = (.error fault, l') →
      (l'.indentation = l.indentation ∧ l'.mode = l.mode ∧ l'.suspended = l.suspended ∧
        l'.pending = []) ∧
      ((∃ c line column excerpt, fault = .unexpectedCharacter c line column excerpt) →
        ∀ later : List Call,
          (∀ front, front ++ [.next] <+: later → (l'.afterCalls front).mode = l'.mode) →
          (∀ answer ∈ l'.answers later, answer = .error fault) ∧
            (l'.afterCalls later).hasMore = true) ∧
      ((¬ ∃ c line column excerpt, fault = .unexpectedCharacter c line column excerpt) →
        PastOffender source l fault l' ∧
          Text.IsPosition source l'.place.offset l'.place.line l'.place.column)) := by
  refine ⟨LexiconDraft.equipped_of_compile, ?_⟩
  rintro hequipped htied source _ l' fault calls rfl h
  have hunderway := (underway_start lexicon source).afterCalls calls
  rcases hunderway.stuck_or_past hequipped htied h with ⟨hstuck, hmoved⟩ | hpast
  · refine ⟨?_, fun _ => hstuck.again (k := l') rfl, fun hne => absurd ?_ hne⟩
    · refine ⟨?_, ?_, ?_, hstuck.empty⟩ <;> rw [hmoved]
    · obtain ⟨c, cs, -, -, rfl⟩ := hstuck.stuck
      exact ⟨c, _, _, _, rfl⟩
  · refine ⟨?_, fun hunexpected => ?_, fun _ => ⟨hpast, ?_⟩⟩
    · cases hpast with
      | intro _ hmeets => exact ⟨rfl, rfl, rfl, hmeets.empty⟩
    · cases hpast with
      | intro _ _ _ _ hoffends => exact absurd hunexpected hoffends.ne_unexpected
    · cases hpast with
      | @intro front text back s hsource =>
          refine Place.isPosition_after ⟨back, ?_⟩
          rw [hsource, List.append_assoc]

end Lexer

namespace Language

open Lexer

theorem compile_draft (marker : String) :
    (draft marker).compile table = .ok (lexiconFor marker) := by
  obtain ⟨lexicon, hlexicon, h⟩ := exists_of_bind (withMarker_eq marker)
  cases h
  exact hlexicon

/-- All patterns of the language are patterns by themselves. -/
theorem tied_lexiconFor : (lexiconFor defaultMarker).Tied :=
  LexiconDraft.tied_of_all (compile_draft defaultMarker) (by decide +kernel)

/-- A lexer behind the word of that text, in a mode that has no rules. -/
def lostLexer : Lexer :=
  (start (lexiconFor defaultMarker) faultyText).afterCalls
    [.next, .next, .next, .pushMode "OTHER"]

theorem fault_leaves_faultyText :
    ((start (lexiconFor defaultMarker) faultyText).next.1 =
        .error (.indentation (.notDeeper 0 0 2)) ∧
      PastOffender faultyText (start (lexiconFor defaultMarker) faultyText)
        (.indentation (.notDeeper 0 0 2))
        (start (lexiconFor defaultMarker) faultyText).next.2) ∧
    lostLexer.next.1 = .error (.unexpectedCharacter '\n' 3 5 (some ⟨"    a", 5⟩)) ∧
      ∀ answer ∈ lostLexer.next.2.answers [.pushMode "MODE", .popMode, .next],
        answer = .error (.unexpectedCharacter '\n' 3 5 (some ⟨"    a", 5⟩)) := by
  have hindent : (start (lexiconFor defaultMarker) faultyText).next.1 =
      .error (.indentation (.notDeeper 0 0 2)) := by
    decide +kernel
  have hlost : lostLexer.next.1 =
      .error (.unexpectedCharacter '\n' 3 5 (some ⟨"    a", 5⟩)) := by
    decide +kernel
  have hmode : ∀ front, front ++ [.next] <+: [.pushMode "MODE", .popMode, .next] →
      (lostLexer.next.2.afterCalls front).mode = lostLexer.next.2.mode := by
    rintro front ⟨back, hfront⟩
    match front with
    | [] | [_] => cases hfront
    | [_, _] =>
        cases hfront
        decide +kernel
    | _ :: _ :: _ :: front =>
        rw [List.append_assoc] at hfront
        exact absurd (List.cons.inj (List.cons.inj (List.cons.inj hfront).2).2).2
          (List.append_ne_nil_of_right_ne_nil front (List.cons_ne_nil _ _))
  have hequipped : (lexiconFor defaultMarker).Equipped :=
    fault_leaves_lexer.1 (compile_draft defaultMarker)
  have hpast := (fault_leaves_lexer.2 hequipped tied_lexiconFor [] rfl
    (Prod.fst_eq_iff.mp hindent)).2.2 (by rintro ⟨_, _, _, _, ⟨⟩⟩)
  obtain ⟨calls, hcalls⟩ : ∃ calls,
      (start (lexiconFor defaultMarker) faultyText).afterCalls calls = lostLexer := ⟨_, rfl⟩
  have hagain := (fault_leaves_lexer.2 hequipped tied_lexiconFor calls hcalls
    (Prod.fst_eq_iff.mp hlost)).2.1 ⟨_, _, _, _, rfl⟩ _ hmode
  exact ⟨⟨hindent, hpast.1⟩, hlost, hagain.1⟩

end Language

end Offside

import Offside.Proofs.Language.Lexing
import Offside.Proofs.Lexer.Eager
import Offside.Proofs.Lexer.Rounds

/-! # Readings — a text read to its end

    Where the tokens stand in a text matters to no match, so a text comes to
    the same tokens wherever it stands, but for their places.

    * `Reads` is the reading of a text by a scanner, from one indentation to
      another, with tokens that have lost their places;
    * `Reads.rest` and `exists_reads` tie it to the lexer, whatever the end
      marker is. -/

namespace Offside

open Automaton

namespace Indentation

/-! ## Calls on other lines -/

variable {i j : Indentation}

theorem openBlock_line {width line : Nat}
    (h : i.openBlock width line = .ok j) (line' : Nat) : i.openBlock width line' = .ok j := by
  simp only [openBlock] at h ⊢
  split at h
  next => cases h
  next hdeeper =>
    rw [if_neg hdeeper]
    split at h
    next => exact h
    next unit hunit =>
      split at h
      next => cases h
      next hmod =>
        split at h
        next => cases h
        next hstep => rw [if_neg hmod, if_neg hstep, h]

theorem lineBreak_line {width line : Nat} {r : LineBreak × Indentation}
    (h : i.lineBreak width line = .ok r) (line' : Nat) : i.lineBreak width line' = .ok r := by
  simp only [lineBreak] at h ⊢
  split at h
  next hsame => rw [if_pos hsame, h]
  next hsame =>
    rw [if_neg hsame]
    split at h
    next hlt => rw [if_pos hlt, h]
    next hlt =>
      rw [if_neg hlt]
      split at h
      next => cases h
      next hopen => rw [if_neg hopen, h]

end Indentation

/-- A token with its place left out. -/
def Token.unplaced (t : Token) : Token := { t with span := .point 0 0 0 }

namespace Language

/-! ## Tokens without their places -/

/-- A place that stands for all of them. -/
def nowhere : Span := .point 0 0 0

/-- A lexer hands out tokens that are these but for their places. -/
def Utters (l : Lexer) (words : List Token) (l' : Lexer) : Prop :=
  ∃ tokens, Feeds l tokens l' ∧ tokens.map Token.unplaced = words

/-- What a lexeme comes to from an indentation, wherever it stands. -/
def ComesTo (i : Indentation) (x : Lexeme) (words : List Token) (j : Indentation) : Prop :=
  ∀ span, ∃ tokens, Lexer.perform (lexiconFor defaultMarker) i x.action x.text span x.width =
    .ok ⟨tokens, j⟩ ∧ tokens.map Token.unplaced = words

theorem unplaced_dedents (structural : Structural Symbol) (span : Span) (levels : Nat) :
    (Lexer.dedents structural span levels).map Token.unplaced =
      Lexer.dedents structural nowhere levels := by
  rw [Lexer.dedents, List.map_replicate]
  rfl

theorem unplaced_closing (span : Span) (levels : Nat) (t : Token) :
    (At.closing span levels t).map Token.unplaced =
      At.closing nowhere levels t.unplaced := by
  rw [At.closing, List.map_append, unplaced_dedents]
  rfl

theorem comesTo_of_perform {i j : Indentation} {x : Lexeme} (span : Span) {tokens : List Token}
    (h : Lexer.perform (lexiconFor defaultMarker) i x.action x.text span x.width =
      .ok ⟨tokens, j⟩) : ComesTo i x (tokens.map Token.unplaced) j := by
  intro span'
  obtain ⟨action, text, width⟩ := x
  cases action with
  | emit | emitStripped =>
      cases h
      exact ⟨_, rfl, rfl⟩
  | skip =>
      cases h
      exact ⟨[], rfl, rfl⟩
  | endOfInput kind =>
      simp only [Lexer.perform, Lexer.batch_concat, lexiconFor, Indentation.closeAll] at h ⊢
      cases hdepth : i.depth with
      | zero =>
          simp only [hdepth] at h ⊢
          cases h
          exact ⟨_, rfl, rfl⟩
      | succ levels =>
          simp only [hdepth] at h ⊢
          cases h
          exact ⟨_, rfl, by simp only [List.map_append, unplaced_dedents]; rfl⟩
  | blockOpen =>
      simp only [Lexer.perform, lexiconFor] at h ⊢
      split at h
      next => cases h
      next j hopen =>
        cases h
        rw [Indentation.openBlock_line hopen span'.endLine]
        exact ⟨_, rfl, rfl⟩
  | lineBreak =>
      simp only [Lexer.perform, Lexer.batch_concat, lexiconFor] at h ⊢
      split at h
      next => cases h
      next hbreak =>
        cases h
        rw [Indentation.lineBreak_line hbreak span'.endLine]
        exact ⟨_, rfl, rfl⟩
      next levels hbreak =>
        cases h
        rw [Indentation.lineBreak_line hbreak span'.endLine]
        exact ⟨_, rfl, by simp only [List.map_append, unplaced_dedents]; rfl⟩
      next hbreak =>
        cases h
        rw [Indentation.lineBreak_line hbreak span'.endLine]
        exact ⟨[], rfl, rfl⟩

/-- A lexeme comes to one thing. -/
theorem ComesTo.unique {i j j' : Indentation} {x : Lexeme} {words words' : List Token}
    (h : ComesTo i x words j) (h' : ComesTo i x words' j') : words = words' ∧ j = j' := by
  obtain ⟨tokens, htokens, rfl⟩ := h nowhere
  obtain ⟨tokens', htokens', rfl⟩ := h' nowhere
  cases htokens.symm.trans htokens'
  exact ⟨rfl, rfl⟩

/-! ## Readings -/

/-- All of a text is read by a scanner from an indentation: it comes to these
    tokens and leaves an indentation. -/
inductive Reads (scan : List Char → Option Lexeme) :
    List Char → Indentation → List Token → Indentation → Prop
  | done (i : Indentation) : Reads scan [] i [] i
  | step {x : Lexeme} {rest : List Char} {i j k : Indentation} {words words' : List Token} :
      x.text ≠ [] → scan (x.text ++ rest) = some x → ComesTo i x words j →
      Reads scan rest j words' k → Reads scan (x.text ++ rest) i (words ++ words') k

section

variable {scan : List Char → Option Lexeme} {text rest : List Char} {i k : Indentation}
  {x : Lexeme} {words : List Token}

/-- Nothing comes of no text. -/
theorem Reads.of_nil (h : Reads scan [] i words k) : words = [] ∧ k = i := by
  generalize htext : [] = text at h
  cases h with
  | done => exact ⟨rfl, rfl⟩
  | step hne => exact absurd (List.append_eq_nil_iff.mp htext.symm).1 hne

/-- A text that is read starts with a text that the scanner selects. -/
theorem Reads.exists_lexeme (h : Reads scan text i words k) (hne : text ≠ []) :
    ∃ x rest, text = x.text ++ rest ∧ x.text ≠ [] ∧ scan text = some x := by
  cases h with
  | done => exact absurd rfl hne
  | step hx hscan => exact ⟨_, _, rfl, hx, hscan⟩

/-- What is selected first comes to something, and the rest is read from
    there. -/
theorem Reads.uncons (h : Reads scan (x.text ++ rest) i words k)
    (hscan : scan (x.text ++ rest) = some x) (hne : x.text ≠ []) :
    ∃ first j later, ComesTo i x first j ∧ Reads scan rest j later k ∧
      words = first ++ later := by
  generalize htext : x.text ++ rest = text at h
  cases h with
  | done => exact absurd (List.append_eq_nil_iff.mp htext).1 hne
  | step _ hscan' hcomes hrest =>
      rw [htext, hscan'] at hscan
      cases hscan
      obtain rfl := List.append_cancel_left htext
      exact ⟨_, _, _, hcomes, hrest, rfl⟩

end

/-! ## The lexer -/

section

variable {marker : String}

theorem Utters.append {l l' l'' : Lexer} {words words' : List Token} (h : Utters l words l')
    (h' : Utters l' words' l'') : Utters l (words ++ words') l'' := by
  obtain ⟨tokens, hfeeds, rfl⟩ := h
  obtain ⟨tokens', hfeeds', rfl⟩ := h'
  exact ⟨tokens ++ tokens', hfeeds.append hfeeds', List.map_append⟩

/-- One match leads from a lexer to another one: it is passed over, or it comes
    to tokens. -/
inductive Advances (l : Lexer) : List Token → Lexer → Prop
  | silent {l' : Lexer} : l.next = l'.next → Advances l [] l'
  | aloud {l' : Lexer} {words : List Token} : words ≠ [] → Utters l words l' →
      Advances l words l'

/-- What a lexer hands out comes behind these tokens of another one. -/
def GoesOn (l : Lexer) (words : List Token) (l' : Lexer) : Prop :=
  ∀ ⦃word : Token⦄ ⦃words' : List Token⦄ ⦃l'' : Lexer⦄,
    Utters l' (word :: words') l'' → Utters l (words ++ word :: words') l''

theorem GoesOn.trans {l l' l'' : Lexer} {words words' : List Token} (h : GoesOn l words l')
    (h' : GoesOn l' words' l'') : GoesOn l (words ++ words') l'' := by
  intro word more l₃ hutters
  have hmore := h' hutters
  cases words' with
  | nil =>
      rw [List.append_nil]
      exact h hmore
  | cons word' words' =>
      rw [List.append_assoc]
      exact h hmore

theorem Advances.goesOn {l l' : Lexer} {words : List Token} (h : Advances l words l') :
    GoesOn l words l' := by
  intro word words' l'' hutters
  cases h with
  | aloud _ hwords => exact hwords.append hutters
  | silent hnext =>
      obtain ⟨tokens, hfeeds, hwords⟩ := hutters
      obtain ⟨token, tokens, rfl, -, -⟩ := List.map_eq_cons_iff.mp hwords
      rcases hfeeds with _ | ⟨hfirst, hothers⟩
      exact ⟨token :: tokens, .cons (hnext.trans hfirst) hothers, hwords⟩

/-- Where all tokens come out, a lexer before its end hands out one. -/
theorem exists_next_of_supplies {l : Lexer} {tokens : List Token} (hrunning : l.finished = false)
    (h : Supplies l tokens) : ∃ token later l', tokens = token :: later ∧
      l.next = (.ok (some token), l') ∧ Supplies l' later := by
  obtain ⟨l', hfeeds, hmore⟩ := h
  rcases hfeeds with _ | @⟨_, l₁, _, token, later, hnext, hlater⟩
  · have hend : (!l.pending.isEmpty || !l.finished) = false := hmore
    rw [hrunning, Bool.not_false, Bool.or_true] at hend
    cases hend
  · exact ⟨token, later, l₁, rfl, hnext, l', hlater, hmore⟩

/-- Where all tokens come out, they do so behind a match. -/
theorem Advances.supplies {l l' : Lexer} {words : List Token} (h : Advances l words l')
    (hrunning : l.finished = false) (hrunning' : l'.finished = false) {tokens : List Token}
    (hsupplies : Supplies l tokens) : ∃ tokens', Supplies l' tokens' := by
  cases h with
  | silent hnext =>
      obtain ⟨token, later, l₁, rfl, hfirst, hlater⟩ :=
        exists_next_of_supplies hrunning hsupplies
      exact ⟨token :: later, .cons (hnext.symm.trans hfirst) hlater⟩
  | aloud _ hwords =>
      obtain ⟨front, hfront, -⟩ := hwords
      obtain ⟨l'', hfeeds, hmore⟩ := hsupplies
      rcases hfront.comparable hfeeds with ⟨later, -, hlater⟩ | ⟨more, -, hbehind⟩
      · exact ⟨later, l'', hlater, hmore⟩
      · -- behind its end a lexer stays at it
        have hend : l''.finished = true := by
          simpa [Lexer.hasMore] using (Bool.or_eq_false_iff.mp hmore).2
        rw [Lexer.finished_of_feeds hbehind hend] at hrunning'
        cases hrunning'

/-- What the scanner selects is some text from the front. -/
theorem text_of_scanner {marker : String} {r : List Char} {x : Lexeme}
    (h : scanner marker.toList r = some x) : x.text ≠ [] ∧ x.text <+: r := by
  have hselect := select_eq_scanner marker r
  rw [h] at hselect
  obtain ⟨-, -, -, -, hne, hfront, -⟩ := hselect
  exact ⟨hne, hfront⟩

theorem Before.advances {l : Lexer} {x : Lexeme} {rest : List Char} {i j : Indentation}
    {words : List Token} (h : Before marker l (x.text ++ rest) i)
    (hscan : scanner marker.toList (x.text ++ rest) = some x)
    (hcomes : ComesTo i x words j) :
    ∃ l', Before marker l' rest j ∧ Advances l words l' := by
  by_cases hwords : words = []
  · subst hwords
    have hnone : ∀ span, Lexer.perform (lexiconFor defaultMarker) i x.action x.text span
        x.width = .ok ⟨[], j⟩ := by
      intro span
      obtain ⟨tokens, htokens, hwords⟩ := hcomes span
      rwa [List.map_eq_nil_iff.mp hwords] at htokens
    obtain ⟨l', hl', hnext⟩ := h.pass hscan hnone
    exact ⟨l', hl', .silent hnext⟩
  · have hsome : ∀ span, ∃ tokens j', Lexer.perform (lexiconFor defaultMarker) i x.action x.text
        span x.width = .ok ⟨tokens, j'⟩ ∧ tokens ≠ [] ∧
          (tokens.map Token.unplaced = words ∧ j' = j) := by
      intro span
      obtain ⟨tokens, htokens, hmap⟩ := hcomes span
      refine ⟨tokens, j, htokens, ?_, hmap, rfl⟩
      rintro rfl
      exact hwords hmap.symm
    obtain ⟨tokens, _, l', hfeeds, ⟨htokens, rfl⟩, hl'⟩ := h.emit
      (P := fun tokens j' => tokens.map Token.unplaced = words ∧ j' = j) hscan hsome
    exact ⟨l', hl', .aloud hwords ⟨tokens, hfeeds, htokens⟩⟩

/-- Where all tokens come out, the scanner selects some text, and it comes to
    something. -/
theorem Before.exists_lexeme {l : Lexer} {ahead : List Char} {i : Indentation}
    (h : Before marker l ahead i) (hne : ahead ≠ []) {tokens : List Token}
    (hsupplies : Supplies l tokens) : ∃ x words j,
      scanner marker.toList ahead = some x ∧ ComesTo i x words j := by
  obtain ⟨token, later, l', rfl, hnext, -⟩ := exists_next_of_supplies h.running hsupplies
  have hscan := (Lexer.next_eq_iff h.pending).mp hnext
  have hahead := h.ahead
  subst hahead
  cases hx : scanner marker.toList l.ahead with
  | none =>
      have hselect := select_eq_none h.lexicon h.mode hx
      obtain ⟨c, cs, hcons⟩ := List.exists_cons_of_ne_nil hne
      cases hnext.symm.trans ((Lexer.next_eq_iff h.pending).mpr (.stuck hcons hselect))
  | some x =>
      obtain ⟨rest, hrest⟩ := (text_of_scanner hx).2
      obtain ⟨s, hsome, hs, htake⟩ := take_of_scanner h.lexicon h.mode hrest.symm hx
      rw [taken, h.indentation] at htake
      split at htake
      next fault hfault =>
        cases hnext.symm.trans ((Lexer.next_eq_iff h.pending).mpr (.fault hsome hs htake))
      next scanned hperform => exact ⟨x, _, _, rfl, comesTo_of_perform _ hperform⟩

/-- The end symbol, without its place. -/
def stopWord : Token := ⟨Kind.stop, "", nowhere⟩

/-- The end symbol comes last. -/
theorem Before.utters_stop {l : Lexer} {i : Indentation} (h : Before marker l [] i) :
    ∃ l', Utters l [stopWord] l' ∧ l'.hasMore = false ∧ l'.indentation = i := by
  have hnext : l.next = (.ok (some ⟨l.lexicon.endSymbol, "", l.place.point⟩),
      { l with finished := true }) :=
    (Lexer.next_eq_iff h.pending).mpr (.stop h.ahead h.running)
  refine ⟨{ l with finished := true }, ⟨_, .single hnext, ?_⟩, ?_, h.indentation⟩
  · rw [h.lexicon]
    rfl
  · rw [Lexer.hasMore, h.pending]
    rfl

/-- The lexer hands out the tokens of a reading, and then the end symbol. -/
theorem Reads.utters {text : List Char} {i j : Indentation} {words : List Token}
    (h : Reads (scanner marker.toList) text i words j) {l : Lexer} (hl : Before marker l text i) :
    ∃ l', Utters l (words ++ [stopWord]) l' ∧ l'.hasMore = false ∧ l'.indentation = j := by
  induction h generalizing l with
  | done i => exact hl.utters_stop
  | @step x rest i j k words words' _ hscan hcomes _ ih =>
      obtain ⟨l₁, hl₁, hadvances⟩ := hl.advances hscan hcomes
      obtain ⟨l', hutters, hend⟩ := ih hl₁
      refine ⟨l', ?_, hend⟩
      -- at least the end symbol comes behind the match
      obtain ⟨word, later, hlater⟩ := List.exists_cons_of_ne_nil
        (List.append_ne_nil_of_right_ne_nil words' (List.cons_ne_nil stopWord []))
      rw [List.append_assoc, hlater]
      rw [hlater] at hutters
      exact hadvances.goesOn hutters

/-- A text whose tokens all come out is read. -/
theorem exists_reads {text : List Char} {l : Lexer} {i : Indentation} {tokens : List Token}
    (hl : Before marker l text i) (h : Supplies l tokens) :
    ∃ words j, Reads (scanner marker.toList) text i words j := by
  induction hlength : text.length using Nat.strongRecOn generalizing text l i tokens with
  | ind n ih =>
      by_cases htext : text = []
      · subst htext
        exact ⟨[], i, .done i⟩
      obtain ⟨x, words, j, hscan, hcomes⟩ := hl.exists_lexeme htext h
      obtain ⟨hne, rest, rfl⟩ := text_of_scanner hscan
      obtain ⟨l₁, hl₁, hadvances⟩ := hl.advances hscan hcomes
      obtain ⟨later, hlater⟩ := hadvances.supplies hl.running hl₁.running h
      have hshorter : rest.length < n := by
        have hpos := List.length_pos_iff.mpr hne
        rw [← hlength, List.length_append]
        omega
      obtain ⟨words', k, hreads⟩ := ih rest.length hshorter hl₁ hlater rfl
      exact ⟨words ++ words', k, .step hne hscan hcomes hreads⟩

/-- The tokens of a text that is read. -/
theorem Reads.rest {text : List Char} {words : List Token} {j : Indentation}
    (h : Reads (scanner marker.toList) text .start words j) : ∃ tokens l,
      (Lexer.start (lexiconFor marker) text).rest = (tokens, .ok (), l) ∧
      Supplies (Lexer.start (lexiconFor marker) text) tokens ∧
      tokens.map Token.unplaced = words ++ [stopWord] ∧ l.indentation = j := by
  obtain ⟨l, ⟨tokens, hfeeds, hwords⟩, hmore, hindentation⟩ :=
    h.utters (before_start marker text)
  exact ⟨tokens, l, Lexer.rest_of_feeds hfeeds hmore, ⟨l, hfeeds, hmore⟩, hwords, hindentation⟩

/-- A text whose tokens all come out is read to these. -/
theorem reads_of_supplies {text : List Char} {tokens : List Token}
    (h : Supplies (Lexer.start (lexiconFor marker) text) tokens) : ∃ words l,
      Reads (scanner marker.toList) text .start words l.indentation ∧
      (Lexer.start (lexiconFor marker) text).rest = (tokens, .ok (), l) ∧
      tokens.map Token.unplaced = words ++ [stopWord] := by
  obtain ⟨words, j, hreads⟩ := exists_reads (before_start marker text) h
  obtain ⟨tokens', l, hrest, -, hwords, rfl⟩ := hreads.rest
  obtain ⟨l', hfeeds, hmore⟩ := h
  obtain ⟨rfl, -⟩ := Prod.mk.inj ((Lexer.rest_of_feeds hfeeds hmore).symm.trans hrest)
  exact ⟨words, l, hreads, hrest, hwords⟩

/-- The tokens that a text is made into all come out. -/
theorem supplies_of_tokenize {text : List Char} {tokens : List Token}
    (h : (lexiconFor marker).tokenize text = .ok tokens) :
    Supplies (Lexer.start (lexiconFor marker) text) tokens := by
  obtain ⟨htokens, hends⟩ := Lexicon.tokenize_eq_ok_iff.mp h
  have hyields := Lexer.yields_rest (lexiconFor marker) text
  rw [htokens, hends] at hyields
  exact hyields.supplies

end

end Language

end Offside

import Offside.Proofs.Automaton.Sources
import Offside.Proofs.Language.Marker
import Offside.Proofs.Lexer

/-! # Eager and lazy lexing — one run, whenever the tokens are made

    A text can be made into tokens before a run or while it goes on.  The
    calls of the run are the same, and so is its result but for the excerpt
    in a message; a fault of the lexer cuts a lazy run off where an eager one
    would not have started.

    * `yields_collect` says that a lexer answers as its tokens tell;
    * `lazy_agrees` compares the two ways for every table and lexicon. -/

namespace Offside

open Automaton

variable {σ α : Type}

namespace Lexer

variable {l l' : Lexer}

/-! ## What a lexer answers -/

/-- Once the end symbol has been handed out, no text is ahead. -/
def Proper (l : Lexer) : Prop := l.finished = true → l.ahead = []

theorem proper_start (lexicon : Lexicon) (source : List Char) :
    (start lexicon source).Proper := nofun

/-- While text is ahead, the end symbol has not been handed out. -/
theorem Proper.finished (h : l.Proper) (hahead : l.ahead ≠ []) : l.finished = false :=
  Bool.eq_false_iff.mpr fun hfinished => hahead (h hfinished)

theorem Proper.take (h : l.Proper) {s : Selection} {result : Except Fault (List Token)}
    (htake : l.take s = (result, l')) (hselect : l.lexicon.select l.mode l.ahead = some s)
    (hahead : l.ahead ≠ []) : l'.Proper := by
  intro hfinished
  rw [(take_ahead htake hselect hahead).2.2, h.finished hahead] at hfinished
  cases hfinished

theorem Scan.proper {r : Except Fault (Option Token) × Lexer} (h : Scan l r) (hl : l.Proper) :
    r.2.Proper ∧ r.2.source = l.source := by
  induction h with
  | ended | stuck => exact ⟨hl, rfl⟩
  | stop hahead => exact ⟨fun _ => hahead, rfl⟩
  | fault hne hselect htake | emit hne hselect htake =>
      have hproper := hl.take htake hselect hne
      have hsource := take_source htake
      exact ⟨hproper, hsource⟩
  | pass hne hselect htake _ ih =>
      obtain ⟨hproper, hsource⟩ := ih (hl.take htake hselect hne)
      exact ⟨hproper, hsource.trans (take_source htake)⟩

theorem proper_next {r : Except Fault (Option Token)} (h : l.next = (r, l')) (hl : l.Proper) :
    l'.Proper ∧ l'.source = l.source := by
  cases hpending : l.pending with
  | nil => exact ((next_eq_iff hpending).mp h).proper hl
  | cons token tokens =>
      rw [next_of_pending hpending] at h
      cases h
      exact ⟨hl, rfl⟩

theorem hasMore_eq_false : l.hasMore = false ↔ l.pending = [] ∧ l.finished = true := by
  simp [hasMore]

/-- A lexer that has no more hands out none and stays as it is. -/
theorem next_of_hasMore_eq_false (hl : l.Proper) (h : l.hasMore = false) :
    l.next = (.ok none, l) := by
  obtain ⟨hpending, hfinished⟩ := hasMore_eq_false.mp h
  exact (next_eq_iff hpending).mpr (.ended (hl hfinished) hfinished)

theorem Scan.finished_of_none {r : Except Fault (Option Token) × Lexer} (h : Scan l r)
    (hnone : r.1 = .ok none) : l.finished = true := by
  induction h with
  | ended _ hfinished => exact hfinished
  | stop | stuck | fault | emit => cases hnone
  | pass hne hselect htake _ ih => exact (take_ahead htake hselect hne).2.2.symm.trans (ih hnone)

/-- A lexer that hands out none has no more. -/
theorem hasMore_of_next (h : l.next = (.ok none, l')) : l.hasMore = false := by
  cases hpending : l.pending with
  | nil =>
      exact hasMore_eq_false.mpr
        ⟨hpending, ((next_eq_iff hpending).mp h).finished_of_none rfl⟩
  | cons token tokens =>
      rw [next_of_pending hpending] at h
      cases h

theorem hasMore_of_next_ne (hl : l.Proper) {r : Except Fault (Option Token)}
    (h : l.next = (r, l')) (hr : r ≠ .ok none) : l.hasMore = true := by
  cases hmore : l.hasMore with
  | true => rfl
  | false =>
      rw [next_of_hasMore_eq_false hl hmore] at h
      cases h
      exact absurd rfl hr

/-- What is collected from a lexer within its potential is what it yields. -/
theorem yields_collect {n : Nat} (hl : l.Proper) (hn : l.potential < n) :
    Yields (Excerpt.ofSource l.source) l (l.collect n).1 (l.collect n).2.1 := by
  induction n generalizing l with
  | zero => exact absurd hn (Nat.not_lt_zero _)
  | succ n ih =>
      rw [collect]
      match hnext : l.next with
      | (.error fault, l') => exact .failed rfl (hasMore_of_next_ne hl hnext nofun) hnext
      | (.ok none, l') =>
          have hmore := hasMore_of_next hnext
          exact .done rfl hmore (next_of_hasMore_eq_false hl hmore)
      | (.ok (some token), l') =>
          obtain ⟨hproper, hsource⟩ := proper_next hnext hl
          have hlt := potential_lt_of_next hnext
          have hrest := ih hproper (by omega)
          rw [hsource] at hrest
          exact .cons rfl (hasMore_of_next_ne hl hnext nofun) hnext hrest

theorem potential_lt_tokenBound (lexicon : Lexicon) (source : List Char) :
    (start lexicon source).potential < (start lexicon source).tokenBound := by
  rw [potential_start]
  show 2 * source.length + 1 < 0 + 0 + 2 * source.length + 2
  omega

theorem yields_rest (lexicon : Lexicon) (source : List Char) :
    Yields (Excerpt.ofSource source) (start lexicon source) (start lexicon source).rest.1
      (start lexicon source).rest.2.1 :=
  yields_collect (proper_start lexicon source) (potential_lt_tokenBound lexicon source)

/-- Where a lexer hands out tokens and then has no more, they are collected
    within its potential. -/
theorem collect_of_feeds {tokens : List Token} (h : Feeds l tokens l') (hl : l.Proper)
    (hmore : l'.hasMore = false) {n : Nat} (hn : l.potential < n) :
    l.collect n = (tokens, .ok (), l') := by
  induction h generalizing n with
  | nil l =>
      obtain ⟨n, rfl⟩ := Nat.exists_eq_add_one_of_ne_zero (Nat.ne_zero_of_lt hn)
      rw [collect, next_of_hasMore_eq_false hl hmore]
  | @cons l l₁ l' token tokens hnext _ ih =>
      obtain ⟨n, rfl⟩ := Nat.exists_eq_add_one_of_ne_zero (Nat.ne_zero_of_lt hn)
      have hfirst : l.next = (.ok (some token), l₁) := hnext
      have hlt := potential_lt_of_next hfirst
      have hlater : l₁.potential < n := by omega
      rw [collect, hfirst]
      simp only [ih (proper_next hfirst hl).1 hmore hlater]

theorem rest_of_feeds {lexicon : Lexicon} {source : List Char} {tokens : List Token}
    (h : Feeds (start lexicon source) tokens l') (hmore : l'.hasMore = false) :
    (start lexicon source).rest = (tokens, .ok (), l') :=
  collect_of_feeds h (proper_start lexicon source) hmore
    (potential_lt_tokenBound lexicon source)

end Lexer

theorem Lexicon.tokenize_eq_ok_iff {lexicon : Lexicon} {source : List Char}
    {tokens : List Token} : lexicon.tokenize source = .ok tokens ↔
      (Lexer.start lexicon source).rest.1 = tokens ∧
        (Lexer.start lexicon source).rest.2.1 = .ok () := by
  rw [tokenize]
  obtain ⟨tokens', ⟨fault⟩ | ⟨⟨⟩⟩, l⟩ := (Lexer.start lexicon source).rest <;> simp

theorem Lexicon.tokenize_eq_error_iff {lexicon : Lexicon} {source : List Char}
    {failure : Fault} : lexicon.tokenize source = .error failure ↔
      (Lexer.start lexicon source).rest.2.1 = .error failure := by
  rw [tokenize]
  obtain ⟨tokens', ⟨fault⟩ | ⟨⟨⟩⟩, l⟩ := (Lexer.start lexicon source).rest <;> simp

/-! ## Runs over a text -/

/-- **Lazy and eager lexing agree.**  If a text can be made into tokens, then
    a run over its lexer makes the same calls as one over the tokens and
    ends with the same result, where an unexpected token comes with the
    excerpt of its line or with none.  If it cannot, then a run over its
    lexer shifts tokens from before the fault only, and it ends with that
    fault or with one that it met before it asked for more than those.  (A match
    that ends inside a character passes all of it, eagerly and lazily; a
    lexicon that is tied has none.) -/
theorem lazy_agrees (t : Table) (capture : Bool) (sem : Semantics σ α) (lexicon : Lexicon)
    (source : List Char) (memory : σ) :
    (∀ tokens, lexicon.tokenize source = .ok tokens → ∀ limit,
      Abreast (Excerpt.ofSource source) (fun _ _ => none)
        (runFor t capture sem.recorded limit (Lexer.start lexicon source) (.start α memory))
        (runFor t capture sem.recorded limit (TokenList.mk tokens) (.start α memory))) ∧
    ∀ failure, lexicon.tokenize source = .error failure → ∀ limit,
      BoundToFail (Excerpt.ofSource source) (Lexer.start lexicon source)
        (Lexer.start lexicon source).rest.1 failure
        (runFor t capture sem.recorded limit (Lexer.start lexicon source) (.start α memory)) := by
  have hyields := Lexer.yields_rest lexicon source
  constructor
  · intro tokens htokens limit
    obtain ⟨rfl, hend⟩ := Lexicon.tokenize_eq_ok_iff.mp htokens
    rw [hend] at hyields
    exact abreast_runFor t capture sem hyields (yields_tokenList _) memory limit
  · intro failure hfailure limit
    rw [Lexicon.tokenize_eq_error_iff.mp hfailure] at hyields
    exact boundToFail_runFor t capture sem hyields memory limit

namespace Language

/-- A keyword without a name, before a character that no rule matches. -/
def strangeSource : List Char := "module ?".toList

/-- A keyword in the place of a name. -/
def doubledSource : List Char := "module module".toList

theorem lazy_agrees_strangeSource :
    (∃ tokens, (lexiconFor defaultMarker).tokenize doubledSource = .ok tokens ∧
      ∀ limit, Abreast (Excerpt.ofSource doubledSource) (fun _ _ => none)
        (runFor table true treeSemantics.recorded limit
          (Lexer.start (lexiconFor defaultMarker) doubledSource) (.start ParseTree ()))
        (runFor table true treeSemantics.recorded limit (TokenList.mk tokens)
          (.start ParseTree ()))) ∧
    ∃ failure, (lexiconFor defaultMarker).tokenize strangeSource = .error failure ∧
      ∀ limit, BoundToFail (Excerpt.ofSource strangeSource)
        (Lexer.start (lexiconFor defaultMarker) strangeSource)
        (Lexer.start (lexiconFor defaultMarker) strangeSource).rest.1 failure
        (runFor table true treeSemantics.recorded limit
          (Lexer.start (lexiconFor defaultMarker) strangeSource) (.start ParseTree ())) := by
  have hdoubled : (lexiconFor defaultMarker).tokenize doubledSource =
      .ok [⟨Kind.keyword, "module", ⟨0, 6, 1, 1, 0, 6⟩⟩,
        ⟨Kind.keyword, "module", ⟨7, 13, 1, 1, 7, 13⟩⟩, ⟨Kind.stop, "", .point 13 1 13⟩] := by
    decide +kernel
  have hstrange : (lexiconFor defaultMarker).tokenize strangeSource =
      .error (.unexpectedCharacter '?' 1 7 (some ⟨"module ?", 7⟩)) := by
    decide +kernel
  exact ⟨⟨_, hdoubled, (lazy_agrees table true treeSemantics _ doubledSource ()).1 _ hdoubled⟩,
    ⟨_, hstrange, (lazy_agrees table true treeSemantics _ strangeSource ()).2 _ hstrange⟩⟩

end Language

end Offside

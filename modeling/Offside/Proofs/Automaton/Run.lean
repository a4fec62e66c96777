import Mathlib
import Offside.Automaton.Run

/-! # Runs and what they return

    A run is cut off after a number of moves; what it returns does not
    depend on that number once it is large enough.

    * `Returns` is the result of a run without the cut;
    * `Feeds` and `Supplies` say which tokens a source hands out. -/

namespace Offside.Automaton

variable {ι σ α : Type} [TokenSource ι]

/-- Some number of moves leads from one point of a run to another. -/
def Leads (t : Table) (capture : Bool) (sem : Semantics σ α) (p q : Progress ι σ α) : Prop :=
  ∃ n, moves t capture sem n p = q

/-- A run over a source ends with this result. -/
def Returns (t : Table) (capture : Bool) (sem : Semantics σ α) (source : ι) (memory : σ)
    (result : Except Fault α) : Prop :=
  ∃ limit source' memory',
    runFor t capture sem limit source memory = .ended result source' memory'

/-- A source hands out these tokens one after the other and is then as given. -/
inductive Feeds : ι → List Token → ι → Prop
  | nil (s : ι) : Feeds s [] s
  | cons {s s' s'' : ι} {token : Token} {tokens : List Token} :
      TokenSource.next s = (.ok (some token), s') → Feeds s' tokens s'' →
      Feeds s (token :: tokens) s''

/-- A source hands out exactly these tokens. -/
def Supplies (s : ι) (tokens : List Token) : Prop :=
  ∃ s', Feeds s tokens s' ∧ TokenSource.hasMore s' = false

variable {t : Table} {capture : Bool} {sem : Semantics σ α}

/-! ## Moves -/

namespace Leads

theorem refl (p : Progress ι σ α) : Leads t capture sem p p := ⟨0, rfl⟩

theorem trans {p q r : Progress ι σ α} (h : Leads t capture sem p q)
    (h' : Leads t capture sem q r) : Leads t capture sem p r := by
  obtain ⟨n, rfl⟩ := h
  obtain ⟨m, rfl⟩ := h'
  exact ⟨n + m, moves_add ..⟩

theorem of_step {c : Configuration ι σ α} {p : Progress ι σ α}
    (h : step t capture sem c = p) : Leads t capture sem (.running c) p := ⟨1, h⟩

theorem head {c : Configuration ι σ α} {p q : Progress ι σ α}
    (h : step t capture sem c = p) (h' : Leads t capture sem p q) :
    Leads t capture sem (.running c) q := (of_step h).trans h'

theorem unique {p : Progress ι σ α} {r r' : Except Fault α} {s s' : ι} {m m' : σ}
    (h : Leads t capture sem p (.ended r s m)) (h' : Leads t capture sem p (.ended r' s' m')) :
    r = r' := by
  obtain ⟨n, hn⟩ := h
  obtain ⟨k, hk⟩ := h'
  have h₁ : moves t capture sem (n + k) p = .ended r s m := by
    rw [moves_add, hn, moves_ended]
  have h₂ : moves t capture sem (n + k) p = .ended r' s' m' := by
    rw [Nat.add_comm, moves_add, hk, moves_ended]
  exact (Progress.ended.inj (h₁.symm.trans h₂)).1

end Leads

/-- A run returns what its first configuration leads to. -/
theorem returns_iff {source : ι} {memory : σ} {result : Except Fault α} :
    Returns t capture sem source memory result ↔
      ∃ source' memory', Leads t capture sem (fetch .start source memory)
        (.ended result source' memory') := by
  constructor
  · rintro ⟨limit, source', memory', h⟩
    exact ⟨source', memory', limit, h⟩
  · rintro ⟨source', memory', limit, h⟩
    exact ⟨limit, source', memory', h⟩

/-- A run returns one result only. -/
theorem Returns.unique {source : ι} {memory : σ} {r r' : Except Fault α}
    (h : Returns t capture sem source memory r) (h' : Returns t capture sem source memory r') :
    r = r' := by
  obtain ⟨_, _, h⟩ := returns_iff.mp h
  obtain ⟨_, _, h'⟩ := returns_iff.mp h'
  exact h.unique h'

/-- What every move preserves holds all along a run. -/
theorem moves_induction {P : Progress ι σ α → Prop}
    (hstep : ∀ c, P (.running c) → P (step t capture sem c)) {p : Progress ι σ α} (hp : P p)
    (n : Nat) : P (moves t capture sem n p) := by
  induction n generalizing p with
  | zero => exact hp
  | succ n ih =>
      cases p with
      | ended result source memory => exact hp
      | running c => exact ih (hstep c hp)

theorem exists_running_of_moves_succ {n : Nat} {p : Progress ι σ α} {c : Configuration ι σ α}
    (h : moves t capture sem (n + 1) p = .running c) :
    ∃ b, moves t capture sem n p = .running b ∧ step t capture sem b = .running c := by
  rw [moves_add] at h
  cases hb : moves t capture sem n p with
  | ended result source memory =>
      rw [hb, moves_ended] at h
      exact nomatch h
  | running b =>
      rw [hb] at h
      exact ⟨b, rfl, h⟩

/-- A run that has ended made a last move, unless it had ended before the
    first. -/
theorem exists_last_move {n : Nat} {p : Progress ι σ α} {result : Except Fault α} {s : ι}
    {memory : σ} (h : moves t capture sem n p = .ended result s memory) :
    p = .ended result s memory ∨ ∃ k < n, ∃ c, moves t capture sem k p = .running c ∧
      step t capture sem c = .ended result s memory := by
  induction n generalizing p with
  | zero => exact .inl h
  | succ n ih =>
      cases p with
      | ended result' s' memory' =>
          rw [moves_ended] at h
          exact .inl h
      | running c =>
          right
          rcases ih h with hc | ⟨k, hk, b, hb, hlast⟩
          · exact ⟨0, Nat.succ_pos n, c, rfl, hc⟩
          · exact ⟨k + 1, Nat.succ_lt_succ hk, b, hb, hlast⟩

theorem fetch_eq_running {st : Stack α} {s : ι} {memory : σ} {c : Configuration ι σ α} :
    fetch st s memory = .running c ↔ TokenSource.next s = (.ok c.lookahead, c.source) ∧
      c.stack = st ∧ c.memory = memory := by
  obtain ⟨stack, lookahead, source, memory'⟩ := c
  rw [fetch]
  match hnext : TokenSource.next s with
  | (.error fault, s') => exact ⟨nofun, nofun⟩
  | (.ok lookahead', s') =>
      constructor
      · rintro ⟨⟩
        exact ⟨rfl, rfl, rfl⟩
      · rintro ⟨⟨⟩, rfl, rfl⟩
        rfl

/-! ## Tokens of a source -/

namespace Feeds

theorem append {s s' s'' : ι} {ts us : List Token} (h : Feeds s ts s') (h' : Feeds s' us s'') :
    Feeds s (ts ++ us) s'' := by
  induction h with
  | nil s => exact h'
  | cons hnext _ ih => exact .cons hnext (ih h')

theorem single {s s' : ι} {token : Token} (h : TokenSource.next s = (.ok (some token), s')) :
    Feeds s [token] s' := .cons h (.nil s')

theorem split {s s'' : ι} {us : List Token} : ∀ {ts : List Token}, Feeds s (ts ++ us) s'' →
    ∃ s', Feeds s ts s' ∧ Feeds s' us s'' := by
  intro ts
  induction ts generalizing s with
  | nil => intro h; exact ⟨s, .nil s, h⟩
  | cons token ts ih =>
      intro h
      rcases h with _ | ⟨hnext, hrest⟩
      obtain ⟨s', hts, hus⟩ := ih hrest
      exact ⟨s', .cons hnext hts, hus⟩

/-- Of two lists that a source hands out the one starts with the other. -/
theorem comparable {s s' s'' : ι} {ts us : List Token} (h : Feeds s ts s')
    (h' : Feeds s us s'') :
    (∃ vs, us = ts ++ vs ∧ Feeds s' vs s'') ∨ (∃ vs, ts = us ++ vs ∧ Feeds s'' vs s') := by
  induction h generalizing us with
  | nil s => exact .inl ⟨us, rfl, h'⟩
  | @cons s s₁ s' token ts hnext hrest ih =>
      cases h' with
      | nil => exact .inr ⟨token :: ts, rfl, .cons hnext hrest⟩
      | @cons _ s₂ _ token' us hnext' hrest' =>
          -- a source has one next token, so both lists start alike
          have heq := hnext.symm.trans hnext'
          obtain ⟨rfl, rfl⟩ : token = token' ∧ s₁ = s₂ := by simpa using heq
          rcases ih hrest' with ⟨vs, rfl, hvs⟩ | ⟨vs, rfl, hvs⟩
          · exact .inl ⟨vs, rfl, hvs⟩
          · exact .inr ⟨vs, rfl, hvs⟩

end Feeds

theorem Supplies.cons {s s' : ι} {token : Token} {tokens : List Token}
    (h : TokenSource.next s = (.ok (some token), s')) (h' : Supplies s' tokens) :
    Supplies s (token :: tokens) := by
  obtain ⟨s'', hfeeds, hmore⟩ := h'
  exact ⟨s'', .cons h hfeeds, hmore⟩

/-- What a list has handed out stood in front of what it has left. -/
theorem feeds_tokenList_iff {ts : List Token} : ∀ {s s' : TokenList},
    Feeds s ts s' ↔ s.remaining = ts ++ s'.remaining := by
  induction ts with
  | nil =>
      intro s s'
      constructor
      · rintro ⟨⟩; rfl
      · intro h
        obtain rfl : s = s' := by cases s; cases s'; exact congrArg TokenList.mk h
        exact .nil s
  | cons token ts ih =>
      intro s s'
      constructor
      · rintro (_ | ⟨hnext, hrest⟩)
        obtain ⟨remaining⟩ := s
        cases remaining with
        | nil => exact nomatch hnext
        | cons first later =>
            cases hnext
            exact congrArg (List.cons _) (ih.mp hrest)
      · intro h
        have hnext : TokenSource.next s = (.ok (some token), ⟨ts ++ s'.remaining⟩) := by
          obtain ⟨remaining⟩ := s
          subst h
          rfl
        exact .cons hnext (ih.mpr rfl)

theorem hasMore_tokenList {s : TokenList} :
    TokenSource.hasMore s = false ↔ s.remaining = [] := by
  obtain ⟨remaining⟩ := s
  cases remaining <;> simp [TokenSource.hasMore, TokenList.hasMore]

/-- A list hands out its own tokens. -/
theorem supplies_tokenList_iff {tokens tokens' : List Token} :
    Supplies (TokenList.mk tokens) tokens' ↔ tokens' = tokens := by
  constructor
  · rintro ⟨s', hfeeds, hmore⟩
    have htokens : tokens = tokens' ++ s'.remaining := feeds_tokenList_iff.mp hfeeds
    rw [htokens, hasMore_tokenList.mp hmore, List.append_nil]
  · rintro rfl
    exact ⟨⟨[]⟩, feeds_tokenList_iff.mpr (List.append_nil _).symm, rfl⟩

end Offside.Automaton

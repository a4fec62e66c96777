import Offside.Proofs.Automaton.Soundness

/-! # Pace — how many moves a run takes

    Letters on the stack have a weight and its top state has a credit, which
    a certificate chooses so that every reduction spends some of it and a
    shift adds at most two.  A run therefore makes at most three moves for
    each token that it shifts.

    * `Spells.pace` counts the moves of a run that goes on;
    * `exists_ended` says that a run over a source with boundedly many tokens
      ends. -/

namespace Offside.Automaton

variable {ι σ α : Type} [TokenSource ι]

namespace Certificate

/-- The weight of letters one by one. -/
def load (cert : Certificate) (Xs : List Letter) : Nat := (Xs.map cert.weight).sum

/-- What may be spent when a state leads on with a letter: for a terminal
    what its token brings, for a nonterminal what each of its rules gives
    back. -/
def budgets (cert : Certificate) (g : Grammar) (state : Nat) : Letter → List Nat
  | .terminal _ => [3]
  | .nonterminal A =>
      (g.rules.filter (·.input == A)).map fun r =>
        if r.output = [] then cert.credit state else cert.load r.output

/-- Finite conditions under which weights and credits pay for all moves. -/
structure Bounded (cert : Certificate) (g : Grammar) (t : Table) : Prop where
  idle : cert.credit initialState = 0
  paid : ∀ s, ∀ e ∈ t.edges s, ∀ n ∈ cert.budgets g s e.1, cert.weight e.1 + cert.credit e.2 < n

/-- The weight of a stack with its credit. -/
def potential (cert : Certificate) (st : Stack α) (Xs : List Letter) : Nat :=
  cert.load Xs + cert.credit st.top

variable {cert : Certificate} {g : Grammar} {t : Table}

theorem load_cons (X : Letter) (Xs : List Letter) :
    cert.load (X :: Xs) = cert.weight X + cert.load Xs := by
  simp [load]

theorem load_append (Xs Ys : List Letter) :
    cert.load (Xs ++ Ys) = cert.load Xs + cert.load Ys := by
  simp [load]

theorem load_reverse (Xs : List Letter) : cert.load Xs.reverse = cert.load Xs := by
  simp [load, List.sum_reverse]

/-- Shifting adds at most two. -/
theorem Bounded.shift (hb : cert.Bounded g t) {st : Stack α} {k : Symbol} {q : Nat}
    (hq : t.target st.top (.terminal k) = some q) (Xs : List Letter) (f : Frame α) :
    cert.potential (st.push f q) (.terminal k :: Xs) ≤ cert.potential st Xs + 2 := by
  have hpaid : cert.weight (.terminal k) + cert.credit q < 3 :=
    hb.paid _ _ (Table.mem_edges hq) 3 (List.mem_singleton_self _)
  simp only [potential, load_cons, Stack.top_push]
  omega

/-- Reducing spends at least one. -/
theorem Bounded.reduce (hb : cert.Bounded g t) {r : GrammarRule} (hr : r ∈ g.rules)
    {st below : Stack α} {frames : List (Frame α)}
    (hpop : st.pop r.output.length = .ok (frames, below)) {q : Nat}
    (hq : t.target below.top (.nonterminal r.input) = some q) (Xs : List Letter) (f : Frame α) :
    cert.potential (below.push f q) (.nonterminal r.input :: Xs)
      < cert.potential st (r.output.reverse ++ Xs) := by
  have hpaid := hb.paid _ _ (Table.mem_edges hq) _
    (List.mem_map_of_mem (List.mem_filter.mpr ⟨hr, beq_self_eq_true r.input⟩))
  simp only [potential, load_cons, load_append, load_reverse, Stack.top_push] at hpaid ⊢
  by_cases hempty : r.output = []
  · -- nothing is popped, so the credit is that of the top itself
    rw [hempty, List.length_nil, Stack.pop_zero] at hpop
    cases hpop
    rw [if_pos hempty] at hpaid
    omega
  · rw [if_neg hempty] at hpaid
    omega

end Certificate

variable {t : Table} {g : Grammar} {cert : Certificate} {capture : Bool}
  {sem : Semantics σ α} {M : ParseTree → Frame α → Prop}

/-- A run that goes on has made at most three moves for each token that it
    has shifted. -/
theorem pace (hs : cert.Sound g t) (hb : cert.Bounded g t) (hm : Model g capture sem M)
    {source : ι} {memory : σ} {n : Nat} {c : Configuration ι σ α}
    (h : moves t capture sem n (fetch .start source memory) = .running c) :
    ∃ Xs Ts, Spells t g M source c Xs Ts ∧
      n + cert.potential c.stack Xs ≤ 3 * (ParseTree.yields Ts.reverse).length := by
  induction n generalizing c with
  | zero =>
      refine ⟨[], [], .of_fetch .start (.nil source) h, ?_⟩
      rw [(fetch_eq_running.mp h).2.1]
      exact Nat.le_of_eq ((Nat.zero_add _).trans ((Nat.zero_add _).trans hb.idle))
  | succ n ih =>
      obtain ⟨b, hrun, hstep⟩ := exists_running_of_moves_succ h
      obtain ⟨Xs, Ts, hspells, hcount⟩ := ih hrun
      have hmove := step_move hs hm hspells.holds
      rw [hstep] at hmove
      generalize hp : Progress.running c = p at hmove
      cases hmove with
      | exhausted | refused | reject | accept | excess | broken => exact nomatch hp
      -- a shift brings three moves along, two of which the potential keeps
      | @shift token q f memory' hla hq hf =>
          refine ⟨_, _, hspells.shift hla hq hf hp.symm, ?_⟩
          have hadded := hb.shift hq Xs f
          rw [(fetch_eq_running.mp hp.symm).2.1, List.reverse_cons, ParseTree.yields_append,
            ParseTree.yields_singleton, ParseTree.yield, List.length_append,
            List.length_singleton]
          omega
      | @reduce index r A frames below trees Xs' Ts' q f memory' hr hA hpop hbelow htrees hXs hTs
          hq hf =>
          cases hp
          subst hXs hTs
          -- a reduction brings nothing along, so the potential pays for it
          refine ⟨_, _, hspells.reduce hr hA hbelow htrees hq hf _, ?_⟩
          have hspent := hb.reduce (List.mem_of_getElem? hr) hpop (hA ▸ hq) Xs' f
          rw [hA] at hspent
          rw [List.reverse_append, List.reverse_reverse, ParseTree.yields_append] at hcount
          rw [List.reverse_cons, ParseTree.yields_append, ParseTree.yields_singleton,
            ParseTree.yield]
          calc n + 1 + cert.potential (below.push f q) (.nonterminal (some A) :: Xs')
              ≤ n + cert.potential b.stack (r.output.reverse ++ Xs') := by omega
            _ ≤ 3 * (ParseTree.yields Ts'.reverse ++ ParseTree.yields trees).length := hcount

/-- A run ends if its source hands out so many tokens at most. -/
theorem exists_ended (hs : cert.Sound g t) (hb : cert.Bounded g t) (hm : Model g capture sem M)
    {source : ι} {bound : Nat} (hbound : ∀ tokens s, Feeds source tokens s → tokens.length ≤ bound)
    (memory : σ) :
    ∃ result source' memory',
      runFor t capture sem (3 * bound + 1) source memory = .ended result source' memory' := by
  cases hrun : runFor t capture sem (3 * bound + 1) source memory with
  | ended result source' memory' => exact ⟨result, source', memory', rfl⟩
  | running c =>
      obtain ⟨Xs, Ts, hspells, hcount⟩ := pace hs hb hm hrun
      obtain ⟨s, hfeeds, -⟩ := hspells.tokens
      have hle := hbound _ _ hfeeds
      omega

end Offside.Automaton

import Offside.Proofs.Automaton.Completeness

/-! # Simulation — runs that build different values go alike

    What a run does depends on its tokens and its states only, as long as no
    reduction is given up.  Two runs over one source, whatever values they
    build and whether or not they capture locations, therefore make the same
    moves: their stacks stand for the same derivations all along.

    * `Alike` is that relation, and `alike_step` says that moves keep it;
    * `alike_of_returns` says what the two runs return. -/

namespace Offside.Automaton

variable {ι σ τ α β : Type} [TokenSource ι]

/-- Two runs at the same point: the stacks stand for the same derivations,
    or the runs have failed alike, or they return values of one derivation. -/
inductive Alike (t : Table) (g : Grammar) (M : ParseTree → Frame α → Prop)
    (N : ParseTree → Frame β → Prop) : Progress ι σ α → Progress ι τ β → Prop
  | running {st : Stack α} {st' : Stack β} {Xs : List Letter} {Ts : List ParseTree}
      {lookahead : Option Token} {source : ι} {memory : σ} {memory' : τ} :
      Holds t g M st Xs Ts → Holds t g N st' Xs Ts →
      Alike t g M N (.running ⟨st, lookahead, source, memory⟩)
        (.running ⟨st', lookahead, source, memory'⟩)
  | failed (fault : Fault) (source : ι) (memory : σ) (memory' : τ) :
      Alike t g M N (.ended (.error fault) source memory) (.ended (.error fault) source memory')
  | returned {tree : ParseTree} {f : Frame α} {f' : Frame β} {source : ι} {memory : σ}
      {memory' : τ} :
      g.Derives (.nonterminal (some g.start)) tree → M tree f → N tree f' →
      Alike t g M N (.ended (.ok f.value) source memory) (.ended (.ok f'.value) source memory')

variable {t : Table} {g : Grammar} {cert : Certificate} {capture capture' : Bool}
  {sem : Semantics σ α} {sem' : Semantics τ β} {M : ParseTree → Frame α → Prop}
  {N : ParseTree → Frame β → Prop}

/-- The letters on a stack determine its states. -/
theorem Holds.states_eq {st : Stack α} {st' : Stack β} {Xs : List Letter}
    {Ts Ts' : List ParseTree} (h : Holds t g M st Xs Ts) (h' : Holds t g N st' Xs Ts') :
    st.states = st'.states := by
  induction h generalizing st' Ts' with
  | start =>
      cases h'
      rfl
  | push hst _ _ hq ih =>
      cases h' with
      | push hst' _ _ hq' =>
          have hstates := ih hst'
          rw [Stack.top, hstates, ← Stack.top] at hq
          obtain rfl := Option.some.inj (hq.symm.trans hq')
          exact congrArg (_ :: ·) hstates

theorem Holds.top_eq {st : Stack α} {st' : Stack β} {Xs : List Letter}
    {Ts Ts' : List ParseTree} (h : Holds t g M st Xs Ts) (h' : Holds t g N st' Xs Ts') :
    st.top = st'.top := by
  rw [Stack.top, h.states_eq h', Stack.top]

/-- Fetching goes alike on stacks for the same derivations. -/
theorem alike_fetch {st : Stack α} {st' : Stack β} {Xs : List Letter} {Ts : List ParseTree}
    (h : Holds t g M st Xs Ts) (h' : Holds t g N st' Xs Ts) (source : ι) (memory : σ)
    (memory' : τ) : Alike t g M N (fetch st source memory) (fetch st' source memory') := by
  rw [fetch, fetch]
  split
  · exact .failed ..
  · exact .running h h'

variable {st : Stack α} {st' : Stack β} {Xs : List Letter} {Ts : List ParseTree}

omit [TokenSource ι] in
/-- Reductions go alike. -/
theorem alike_reduce (hs : cert.Sound g t) (hm : TotalModel g capture sem M)
    (hn : TotalModel g capture' sem' N) (h : Holds t g M st Xs Ts) (h' : Holds t g N st' Xs Ts)
    {k : Symbol} {index : Nat} (haction : t.action st.top k = .reduce index)
    (lookahead : Option Token) (source : ι) (memory : σ) (memory' : τ) :
    Alike t g M N (reduce t capture sem ⟨st, lookahead, source, memory⟩ index)
      (reduce t capture' sem' ⟨st', lookahead, source, memory'⟩ index) := by
  obtain ⟨r, A, frames, below, trees, Ys, Us, q, hr, hA, hproduction, hpop, hbelow, htrees,
    hframes, hXs, hTs, hq⟩ := h.reduction hs haction
  obtain ⟨r', A', frames', below', trees', Ys', Us', q', hr', hA', -, hpop', hbelow', htrees',
    hframes', hXs', hTs', hq'⟩ := h'.reduction hs (h.top_eq h' ▸ haction)
  obtain rfl : r = r' := Option.some.inj (hr.symm.trans hr')
  obtain rfl : A = A' := Option.some.inj (hA.symm.trans hA')
  -- one right-hand side is taken off both stacks, so the same trees are
  obtain rfl : Ys = Ys' := List.append_cancel_left (hXs.symm.trans hXs')
  obtain ⟨htrees_eq, rfl⟩ : trees.reverse = trees'.reverse ∧ Us = Us' := by
    refine List.append_inj (hTs.symm.trans hTs') ?_
    rw [List.length_reverse, List.length_reverse, ← htrees.length_eq, ← htrees'.length_eq]
  obtain rfl : trees = trees' := List.reverse_injective htrees_eq
  obtain rfl : q = q' := by
    rw [hbelow.top_eq hbelow'] at hq
    exact Option.some.inj (hq.symm.trans hq')
  have hinput : r.input ≠ none := by
    rw [hA]
    exact Option.some_ne_none A
  obtain ⟨v, m, hv⟩ := hm.total memory hr hinput htrees hframes
  obtain ⟨v', m', hv'⟩ := hn.total memory' hr hinput htrees hframes'
  simp only [reduce, hproduction, hpop, hpop', hv, hv', Table.target_nonterminal.mp hq,
    Table.target_nonterminal.mp hq']
  have hnode : g.Derives (.nonterminal (some A)) (.node index trees) := .node hr hA htrees
  exact .running (hbelow.push hnode (hm.reduce hr hinput htrees hframes hv) hq)
    (hbelow'.push hnode (hn.reduce hr hinput htrees hframes' hv') hq')

/-- Accepting goes alike. -/
theorem alike_accept (hs : cert.Sound g t) (h : Holds t g M st Xs Ts)
    (h' : Holds t g N st' Xs Ts) {token : Token}
    (haction : t.action st.top token.kind = .accept) (lookahead : Option Token) (source : ι)
    (memory : σ) (memory' : τ) :
    Alike t g M N (accept t ⟨st, lookahead, source, memory⟩ token)
      (accept t ⟨st', lookahead, source, memory'⟩ token) := by
  obtain ⟨-, tree, f, rfl, htree, hf, hpop⟩ := h.of_accept hs haction
  obtain ⟨-, tree', f', htrees, -, hf', hpop'⟩ := h'.of_accept hs (h.top_eq h' ▸ haction)
  obtain rfl : tree = tree' := List.singleton_inj.mp htrees
  simp only [accept, hpop, hpop', h.top_eq h']
  cases TokenSource.hasMore source with
  | false => exact .returned htree hf hf'
  | true =>
      simp only [Bool.not_true, Bool.and_false, Bool.false_eq_true, if_false]
      split <;> exact .failed ..

/-- Moves go alike. -/
theorem alike_step (hs : cert.Sound g t) (hm : TotalModel g capture sem M)
    (hn : TotalModel g capture' sem' N) (h : Holds t g M st Xs Ts) (h' : Holds t g N st' Xs Ts)
    (lookahead : Option Token) (source : ι) (memory : σ) (memory' : τ) :
    Alike t g M N (step t capture sem ⟨st, lookahead, source, memory⟩)
      (step t capture' sem' ⟨st', lookahead, source, memory'⟩) := by
  have htop := h.top_eq h'
  cases lookahead with
  | none => exact .failed ..
  | some token =>
      cases haction : t.action st.top token.kind with
      | shift q =>
          simp only [step, ← htop, haction, shift]
          have hq := Table.target_terminal.mpr haction
          exact alike_fetch (h.push (.leaf token) (hm.shift token memory) hq)
            (h'.push (.leaf token) (hn.shift token memory') (htop ▸ hq)) source _ _
      | reduce index =>
          simp only [step, ← htop, haction]
          exact alike_reduce hs hm hn h h' haction _ source memory memory'
      | accept =>
          simp only [step, ← htop, haction]
          exact alike_accept hs h h' haction _ source memory memory'
      | goto | error =>
          simp only [step, ← htop, haction]
          exact .failed ..

/-- Runs go alike. -/
theorem Alike.moves (hs : cert.Sound g t) (hm : TotalModel g capture sem M)
    (hn : TotalModel g capture' sem' N) {p : Progress ι σ α} {p' : Progress ι τ β}
    (h : Alike t g M N p p') (n : Nat) :
    Alike t g M N (moves t capture sem n p) (moves t capture' sem' n p') := by
  induction n generalizing p p' with
  | zero => exact h
  | succ n ih =>
      cases h with
      | running h h' => exact ih (alike_step hs hm hn h h' _ _ _ _)
      | failed => exact .failed ..
      | returned htree hf hf' => exact .returned htree hf hf'

/-- Two runs over one source fail alike, or they return values of one
    derivation. -/
theorem alike_of_returns (hs : cert.Sound g t) (hm : TotalModel g capture sem M)
    (hn : TotalModel g capture' sem' N) {source : ι} {memory : σ} {memory' : τ}
    {result : Except Fault α} {result' : Except Fault β}
    (h : Returns t capture sem source memory result)
    (h' : Returns t capture' sem' source memory' result') :
    (∃ fault, result = .error fault ∧ result' = .error fault) ∨
      ∃ tree f f', g.Derives (.nonterminal (some g.start)) tree ∧ M tree f ∧ N tree f' ∧
        result = .ok f.value ∧ result' = .ok f'.value := by
  obtain ⟨limit, s, m, hrun⟩ := h
  have halike : Alike t g M N (runFor t capture sem limit source memory)
      (runFor t capture' sem' limit source memory') :=
    (alike_fetch .start .start source memory memory').moves hs hm hn limit
  rw [hrun] at halike
  generalize hrun' : runFor t capture' sem' limit source memory' = p' at halike
  cases halike with
  | failed fault _ _ m' =>
      exact .inl ⟨fault, rfl, h'.unique ⟨limit, _, _, hrun'⟩⟩
  | returned htree hf hf' =>
      exact .inr ⟨_, _, _, htree, hf, hf', rfl, h'.unique ⟨limit, _, _, hrun'⟩⟩

end Offside.Automaton

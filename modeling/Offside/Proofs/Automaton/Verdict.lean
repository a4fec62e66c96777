import Offside.Proofs.Automaton.Extension
import Offside.Proofs.Automaton.Pace

/-! # Verdict — what a run over a list of tokens comes to

    A run knows the tokens that it has fetched and nothing else.  So where
    it stops, every list with the same tokens in front is refused: no
    sentence goes on from there, although one goes on from the token before.

    * `exists_fetched` says that moves depend on fetched tokens only;
    * `Refused` is a list with the first token that no sentence has there;
    * `verdict` tells the three ways in which a run ends. -/

namespace Offside.Automaton

variable {ι κ σ α : Type} [TokenSource ι] [TokenSource κ] {t : Table} {g : Grammar}
  {cert : Certificate} {capture : Bool} {sem : Semantics σ α} {M : ParseTree → Frame α → Prop}

/-! ## Runs over sources alike -/

/-- The same state of a run over another source. -/
def Configuration.over (c : Configuration ι σ α) (source : κ) : Configuration κ σ α :=
  ⟨c.stack, c.lookahead, source, c.memory⟩

theorem accept_ne_running (c : Configuration ι σ α) (token : Token) (c' : Configuration ι σ α) :
    accept t c token ≠ .running c' := by
  intro h
  rw [accept] at h
  split at h
  · cases h
  · dsimp only at h
    split at h
    · split at h
      · cases h
      · split at h <;> cases h
    · split at h <;> cases h

omit [TokenSource ι] [TokenSource κ] in
/-- A reduction that goes on goes on over every source. -/
theorem reduce_over {c c' : Configuration ι σ α} {index : Nat}
    (h : reduce t capture sem c index = .running c') :
    c'.lookahead = c.lookahead ∧ c'.source = c.source ∧
      ∀ s : κ, reduce t capture sem (c.over s) index = .running (c'.over s) := by
  simp only [reduce, Configuration.over] at h ⊢
  rcases hproduction : t.production index with _ | ⟨_ | lhs, length⟩
  · simp [hproduction] at h
  · simp [hproduction] at h
  · simp only [hproduction] at h ⊢
    rcases hpop : c.stack.pop length with fault | ⟨frames, below⟩
    · simp [hpop] at h
    · simp only [hpop] at h ⊢
      rcases hv : sem.reduce index (reductionOf capture frames) c.memory with ⟨fault | v, memory⟩
      · simp [hv] at h
      · simp only [hv] at h ⊢
        cases haction : t.action below.top lhs with
        | goto q =>
            simp only [haction, Progress.running.injEq] at h ⊢
            subst h
            exact ⟨rfl, rfl, fun _ => rfl⟩
        | shift | reduce | accept | error => simp [haction] at h

/-- A move that goes on has a lookahead.  It fetches the next token, or it
    leaves lookahead and source as they are, over every source. -/
theorem step_over {c c' : Configuration ι σ α} (h : step t capture sem c = .running c') :
    ∃ token, c.lookahead = some token ∧
      ((∃ st memory, fetch st c.source memory = .running c' ∧
          ∀ s : κ, step t capture sem (c.over s) = fetch st s memory) ∨
        (c'.lookahead = c.lookahead ∧ c'.source = c.source ∧
          ∀ s : κ, step t capture sem (c.over s) = .running (c'.over s))) := by
  cases hla : c.lookahead with
  | none => simp [step, hla] at h
  | some token =>
      refine ⟨token, rfl, ?_⟩
      cases haction : t.action c.stack.top token.kind with
      | shift q =>
          simp only [step, hla, haction] at h
          refine .inl ⟨_, _, h, ?_⟩
          intro s
          simp only [step, Configuration.over, hla, haction, Automaton.shift]
      | reduce index =>
          simp only [step, hla, haction] at h
          obtain ⟨hlookahead, hsource, hall⟩ := reduce_over (κ := κ) h
          refine .inr ⟨hlookahead.trans hla, hsource, ?_⟩
          intro s
          rw [← hall s]
          simp only [step, Configuration.over, hla, haction]
      | accept =>
          simp only [step, hla, haction] at h
          exact absurd h (accept_ne_running c token c')
      | goto | error => simp [step, hla, haction] at h

/-- A run depends on the tokens only that it has fetched. -/
theorem exists_fetched {a : ι} {memory : σ} {n : Nat} {c : Configuration ι σ α}
    (h : moves t capture sem n (fetch .start a memory) = .running c) {token : Token}
    (hla : c.lookahead = some token) :
    ∃ w, Feeds a (w ++ [token]) c.source ∧ ∀ {b b' : κ}, Feeds b (w ++ [token]) b' →
      moves t capture sem n (fetch .start b memory) = .running (c.over b') := by
  induction n generalizing c token with
  | zero =>
      obtain ⟨hnext, hstack, hmemory⟩ := fetch_eq_running.mp h
      rw [hla] at hnext
      refine ⟨[], .single hnext, ?_⟩
      rintro b b' (_ | ⟨hb, _ | _⟩)
      exact fetch_eq_running.mpr ⟨hla ▸ hb, hstack, hmemory⟩
  | succ n ih =>
      obtain ⟨d, hrun, hstep⟩ := exists_running_of_moves_succ h
      obtain ⟨last, hlast, hcases⟩ := step_over (κ := κ) hstep
      obtain ⟨w, hfeeds, hall⟩ := ih hrun hlast
      rcases hcases with ⟨st, memory', hfetch, hover⟩ | ⟨hlookahead, hsource, hover⟩
      · -- the move fetches, and the last token joins those before it
        obtain ⟨hnext, hstack, hmemory⟩ := fetch_eq_running.mp hfetch
        rw [hla] at hnext
        refine ⟨w ++ [last], hfeeds.append (.single hnext), ?_⟩
        intro b b' hb
        obtain ⟨b₁, hb₁, _ | ⟨hb₂, _ | _⟩⟩ := hb.split
        rw [moves_add, hall hb₁]
        refine (hover b₁).trans (fetch_eq_running.mpr ⟨hla ▸ hb₂, hstack, hmemory⟩)
      · -- the move keeps the lookahead
        obtain rfl : last = token := Option.some.inj ((hlast ▸ hlookahead).symm.trans hla)
        refine ⟨w, hsource ▸ hfeeds, ?_⟩
        intro b b' hb
        rw [moves_add, hall hb]
        exact hover b'

/-! ## Lists of tokens -/

theorem fetch_tokenList (st : Stack α) (s : TokenList) (memory : σ) :
    fetch st s memory = .running ⟨st, s.next.1, s.next.2, memory⟩ := rfl

/-- A list runs to the same state as every list with the same tokens in
    front. -/
theorem leads_of_spells {tokens : List Token} {memory : σ} {n : Nat}
    {c : Configuration TokenList σ α} {Xs : List Letter} {Ts : List ParseTree}
    (h : moves t capture sem n (fetch .start (TokenList.mk tokens) memory) = .running c)
    (hspells : Spells t g M (TokenList.mk tokens) c Xs Ts) {token : Token}
    (hla : c.lookahead = some token) :
    tokens = ParseTree.yields Ts.reverse ++ token :: c.source.remaining ∧
      ∀ z, Leads t capture sem
        (fetch .start (TokenList.mk (ParseTree.yields Ts.reverse ++ token :: z)) memory)
        (.running (c.over (TokenList.mk z))) := by
  have htokens := feeds_tokenList_iff.mp (hspells.feeds_lookahead hla)
  obtain ⟨w, hfeeds, hall⟩ := exists_fetched (κ := TokenList) h hla
  have hw : w = ParseTree.yields Ts.reverse := by
    have heq := htokens.symm.trans (feeds_tokenList_iff.mp hfeeds)
    exact (List.append_cancel_right (List.append_cancel_right heq)).symm
  subst hw
  refine ⟨htokens.trans (List.append_assoc ..), fun z => ⟨n, hall ?_⟩⟩
  rw [feeds_tokenList_iff, List.append_assoc]
  rfl

/-- No sentence goes on with a token if every list is refused that does. -/
theorem not_viable_of_refused (hs : cert.Sound g t) (hc : cert.Complete g t)
    (hm : TotalModel g capture sem M) {front : List Token} {token : Token} {memory : σ}
    (h : ∀ z, ∃ e, Returns t capture sem (TokenList.mk (front ++ token :: z)) memory (.error e)) :
    ¬ g.Viable t.endSymbol ((front ++ [token]).map Token.kind) := by
  intro hviable
  obtain ⟨tree, more, hparses⟩ := (Grammar.viable_iff _ _).mp hviable
  obtain ⟨f, -, hreturns⟩ :=
    returns_of_parses hs hc hm hparses (supplies_tokenList_iff.mpr rfl) memory
  obtain ⟨e, herror⟩ := h more
  rw [List.append_assoc] at hreturns
  exact nomatch hreturns.unique herror

/-- A list is refused with its first token that no sentence has there. -/
def Refused (t : Table) (g : Grammar) (capture : Bool) (sem : Semantics σ α)
    (tokens : List Token) (memory : σ) : Prop :=
  ∃ front token rest source state, tokens = front ++ token :: rest ∧
    g.Viable t.endSymbol (front.map Token.kind) ∧
    ¬ g.Viable t.endSymbol ((front ++ [token]).map Token.kind) ∧
    Returns t capture sem (TokenList.mk tokens) memory
      (.error (unexpected t (source : TokenList) state token))

variable {tokens : List Token} {memory : σ} {n : Nat} {c : Configuration TokenList σ α}
  {Xs : List Letter} {Ts : List ParseTree} {token : Token}

/-- A token that its state does not know is refused. -/
theorem refused_of_reject (hs : cert.Sound g t) (hc : cert.Complete g t)
    (he : cert.Extendable g t) (hm : TotalModel g capture sem M)
    (h : moves t capture sem n (fetch .start (TokenList.mk tokens) memory) = .running c)
    (hspells : Spells t g M (TokenList.mk tokens) c Xs Ts) (hla : c.lookahead = some token)
    (haction : t.action c.stack.top token.kind = .error ∨
      ∃ q, t.action c.stack.top token.kind = .goto q) :
    Refused t g capture sem tokens memory := by
  obtain ⟨htokens, hleads⟩ := leads_of_spells h hspells hla
  have hstep : ∀ z : TokenList, step t capture sem (c.over z) =
      .ended (.error (unexpected t z c.stack.top token)) z c.memory := by
    intro z
    rcases haction with haction | ⟨q, haction⟩ <;>
      simp only [step, Configuration.over, hla, haction]
  have hreturns : ∀ z, Returns t capture sem
      (TokenList.mk (ParseTree.yields Ts.reverse ++ token :: z)) memory
      (.error (unexpected t (TokenList.mk z) c.stack.top token)) := fun z =>
    returns_iff.mpr ⟨_, _, (hleads z).trans (.of_step (hstep _))⟩
  refine ⟨_, token, _, c.source, c.stack.top, htokens, hspells.holds.viable hs hc he,
    not_viable_of_refused hs hc hm fun z => ⟨_, hreturns z⟩, ?_⟩
  rw [htokens]
  exact hreturns _

/-- A token behind the end symbol of a sentence is refused. -/
theorem refused_of_excess (hs : cert.Sound g t) (hc : cert.Complete g t)
    (hm : TotalModel g capture sem M)
    (h : moves t capture sem n (fetch .start (TokenList.mk tokens) memory) = .running c)
    (hspells : Spells t g M (TokenList.mk tokens) c Xs Ts) (hla : c.lookahead = some token)
    (haction : t.action c.stack.top token.kind = .accept)
    (hmore : TokenSource.hasMore c.source = true) :
    Refused t g capture sem tokens memory := by
  obtain ⟨htokens, hleads⟩ := leads_of_spells h hspells hla
  obtain ⟨hend, tree, f, rfl, htree, -, hpop⟩ := hspells.holds.of_accept hs haction
  -- the error names the token behind the end symbol, not the end symbol
  obtain ⟨extra, rest, hrest⟩ : ∃ extra rest, c.source.remaining = extra :: rest :=
    List.exists_cons_of_ne_nil fun hnil => by
      rw [hasMore_tokenList.mpr hnil] at hmore
      exact nomatch hmore
  have hstep : ∀ z, step t capture sem (c.over (TokenList.mk (extra :: z))) =
      .ended (.error (unexpected t (TokenList.mk z) c.stack.top extra)) ⟨z⟩ c.memory := by
    intro z
    simp only [step, Configuration.over, hla, haction, accept, hpop]
    rfl
  rw [List.reverse_singleton, ParseTree.yields_singleton] at htokens hleads
  have hreturns : ∀ z, Returns t capture sem
      (TokenList.mk (tree.yield ++ [token] ++ extra :: z)) memory
      (.error (unexpected t (TokenList.mk z) c.stack.top extra)) := by
    intro z
    rw [List.append_assoc]
    exact returns_iff.mpr ⟨_, _, (hleads _).trans (.of_step (hstep z))⟩
  have hviable : g.Viable t.endSymbol ((tree.yield ++ [token]).map Token.kind) :=
    ((Grammar.sentence_iff _ _).mpr ⟨tree, htree, token, hend, rfl⟩).viable
  have hsplit : tokens = tree.yield ++ [token] ++ extra :: rest := by
    rw [htokens, hrest, List.append_assoc]
    rfl
  refine ⟨_, extra, rest, ⟨rest⟩, c.stack.top, hsplit, hviable,
    not_viable_of_refused hs hc hm fun z => ⟨_, hreturns z⟩, ?_⟩
  rw [hsplit]
  exact hreturns rest

/-- A run over a list returns the value of a derivation, or the list is only
    the beginning of a sentence and the end comes unexpected, or it is
    refused. -/
theorem verdict (hs : cert.Sound g t) (hc : cert.Complete g t) (he : cert.Extendable g t)
    (hb : cert.Bounded g t) (hm : TotalModel g capture sem M) (tokens : List Token) (memory : σ) :
    (∃ tree f, g.Parses t.endSymbol tree tokens ∧ M tree f ∧
        Returns t capture sem (TokenList.mk tokens) memory (.ok f.value)) ∨
      (g.Viable t.endSymbol (tokens.map Token.kind) ∧
        Returns t capture sem (TokenList.mk tokens) memory (.error .unexpectedEnd)) ∨
      Refused t g capture sem tokens memory := by
  have hbound : ∀ ts s, Feeds (TokenList.mk tokens) ts s → ts.length ≤ tokens.length := by
    intro ts s hfeeds
    have hlength := congrArg List.length (feeds_tokenList_iff.mp hfeeds)
    rw [List.length_append] at hlength
    exact hlength ▸ Nat.le_add_right ..
  obtain ⟨result, source, memory', hrun⟩ := exists_ended hs hb hm.toModel hbound memory
  have hreturns : Returns t capture sem (TokenList.mk tokens) memory result :=
    ⟨_, _, _, hrun⟩
  rcases exists_last_move hrun with hfetch | ⟨k, -, c, hc', hlast⟩
  · rw [fetch_tokenList] at hfetch
    exact nomatch hfetch
  · -- the cases are those of the last move that end a run
    obtain ⟨Xs, Ts, hspells, -⟩ := pace hs hb hm.toModel hc'
    have hmove := step_move hs hm.toModel hspells.holds
    rw [hlast] at hmove
    generalize hp : Progress.ended result source memory' = p at hmove
    cases hmove with
    | shift =>
        rw [fetch_tokenList] at hp
        exact nomatch hp
    | reduce => exact nomatch hp
    | broken hnext => exact nomatch hnext
    | refused hr hinput htrees hframes hv =>
        obtain ⟨v, m, htotal⟩ := hm.total c.memory hr hinput htrees hframes
        exact nomatch hv.symm.trans htotal
    | exhausted hla =>
        cases hp
        obtain ⟨⟨remaining⟩, hfeeds, hnext⟩ := hspells.tokens
        obtain rfl : remaining = [] := by
          cases remaining with
          | nil => rfl
          | cons token later =>
              rw [hla] at hnext
              exact nomatch hnext
        have htokens : tokens = ParseTree.yields Ts.reverse :=
          (feeds_tokenList_iff.mp hfeeds).trans (List.append_nil _)
        have hviable := hspells.holds.viable hs hc he
        rw [← htokens] at hviable
        exact .inr (.inl ⟨hviable, hreturns⟩)
    | reject hla haction =>
        exact .inr (.inr (refused_of_reject hs hc he hm hc' hspells hla haction))
    | excess hla _ _ _ haction hmore =>
        exact .inr (.inr (refused_of_excess hs hc hm hc' hspells hla haction hmore))
    | @accept token tree f hla hend hTs htree hf hmore =>
        cases hp
        have htokens := (leads_of_spells hc' hspells hla).1
        rw [hasMore_tokenList.mp hmore, hTs, List.reverse_singleton,
          ParseTree.yields_singleton] at htokens
        exact .inl ⟨tree, f, ⟨htree, token, hend, htokens⟩, hf, hreturns⟩

end Offside.Automaton

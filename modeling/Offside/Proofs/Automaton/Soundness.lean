import Offside.Proofs.Automaton.Certificate
import Offside.Proofs.Automaton.Run

/-! # Soundness — what an automaton accepts is derived

    A certificate is sound for a table if items go back along every edge and
    if a cell reduces or accepts only where a finished item allows it.  Then
    the stack of a run always spells the letters of a path through the
    automaton, each frame standing for a derivation tree:

    * `Holds` is that invariant, and `Holds.pop` finds the trees of a
      right-hand side on top of the stack;
    * `Move` lists all that a move can do, and `step_move` says so;
    * `Spells` ties the trees to what has been read, and every move that goes
      on keeps it;
    * `parses_of_returns` reads a derivation off a run that accepts. -/

namespace Offside.Automaton

variable {ι σ α : Type} [TokenSource ι]

/-- Finite conditions under which a table does nothing that its grammar does
    not allow. -/
structure Certificate.Sound (cert : Certificate) (g : Grammar) (t : Table) : Prop where
  /-- The productions are those of the grammar. -/
  productions : t.productions = g.rules.map fun r => ⟨r.input, r.output.length⟩
  /-- The start production has the start symbol alone on its right. -/
  startRule : ∀ r ∈ g.rules, r.input = none → r.output = [.nonterminal (some g.start)]
  /-- No edge leads to the initial state. -/
  fresh : ∀ s, ∀ e ∈ t.edges s, e.2 ≠ initialState
  /-- Nothing has been read in the initial state. -/
  unread : ∀ i ∈ cert.itemsOf initialState, i.dot = 0
  /-- An item with something before its dot comes from one with less. -/
  back : ∀ s, ∀ e ∈ t.edges s, ∀ i ∈ cert.itemsOf e.2, i.dot ≠ 0 →
    ∃ j ∈ cert.itemsOf s, j.rule = i.rule ∧ j.dot + 1 = i.dot ∧ j.letter? g = some e.1
  /-- A state reduces only by an item that is finished in it. -/
  reduces : ∀ s, ∀ cell ∈ t.row s, ∀ n ∈ cell.2.production?,
    ∃ r ∈ g.rules[n]?, r.input ≠ none ∧
      ∃ i ∈ cert.itemsOf s, i.rule = n ∧ i.dot = r.output.length
  /-- A state accepts only at the end, and by the start production. -/
  accepts : ∀ s, ∀ cell ∈ t.row s, cell.2 = .accept → cell.1 = t.endSymbol ∧
    ∃ i ∈ cert.itemsOf s, ∃ r ∈ g.rules[i.rule]?, r.input = none ∧ i.dot = r.output.length
  /-- Where a rule begins, its left-hand side leads on. -/
  gotos : ∀ s, ∀ i ∈ cert.itemsOf s, i.dot = 0 → ∀ r ∈ g.rules[i.rule]?, r.input ≠ none →
    (t.target s (.nonterminal r.input)).isSome
  /-- The start production begins in the initial state only. -/
  roots : ∀ s, ∀ i ∈ cert.itemsOf s, i.dot = 0 → ∀ r ∈ g.rules[i.rule]?, r.input = none →
    s = initialState

/-- A reading of frames as values of trees that the semantics respects: a
    shifted frame is the value of its token, and where a reduction succeeds
    its frame is the value of the node. -/
structure Model (g : Grammar) (capture : Bool) (sem : Semantics σ α)
    (M : ParseTree → Frame α → Prop) : Prop where
  shift : ∀ token memory,
    M (.leaf token) ⟨(sem.shift token memory).1, if capture then some token.span else none⟩
  reduce : ∀ {index : Nat} {r : GrammarRule} {trees : List ParseTree}
    {frames : List (Frame α)} {memory memory' : σ} {v : α},
    g.rules[index]? = some r → r.input ≠ none → g.DerivesAll r.output trees →
    List.Forall₂ M trees frames →
    sem.reduce index (reductionOf capture frames) memory = (.ok v, memory') →
    M (.node index trees) ⟨v, (reductionOf capture frames).span⟩

/-- The stack spells letters along edges of the table, and its frames are the
    values of derivations of these letters; all lists have the top first. -/
inductive Holds (t : Table) (g : Grammar) (M : ParseTree → Frame α → Prop) :
    Stack α → List Letter → List ParseTree → Prop
  | start : Holds t g M .start [] []
  | push {st : Stack α} {Xs : List Letter} {Ts : List ParseTree} {X : Letter}
      {T : ParseTree} {f : Frame α} {q : Nat} :
      Holds t g M st Xs Ts → g.Derives X T → M T f → t.target st.top X = some q →
      Holds t g M (st.push f q) (X :: Xs) (T :: Ts)

variable {t : Table} {g : Grammar} {cert : Certificate} {capture : Bool}
  {sem : Semantics σ α} {M : ParseTree → Frame α → Prop}

/-! ## Popping a right-hand side -/

theorem Holds.top_eq_initial {st : Stack α} {Xs : List Letter} {Ts : List ParseTree}
    (hs : cert.Sound g t) (h : Holds t g M st Xs Ts) (htop : st.top = initialState) :
    st = .start ∧ Xs = [] ∧ Ts = [] := by
  cases h with
  | start => exact ⟨rfl, rfl, rfl⟩
  | push _ _ _ hq => exact absurd htop (hs.fresh _ _ (Table.mem_edges hq))

/-- What an item of the top state has read lies on top of the stack, and the
    state below begins the item.  The induction is on the dot: one frame is
    taken off and the item goes back along its edge. -/
theorem Holds.pop (hs : cert.Sound g t) {i : Item} {r : GrammarRule}
    (hr : g.rules[i.rule]? = some r) {st : Stack α} {Xs : List Letter} {Ts : List ParseTree}
    (h : Holds t g M st Xs Ts) (hi : i ∈ cert.itemsOf st.top) :
    ∃ frames below trees Xs' Ts',
      st.pop i.dot = .ok (frames, below) ∧ Holds t g M below Xs' Ts' ∧
      g.DerivesAll (r.output.take i.dot) trees ∧ List.Forall₂ M trees frames ∧
      Xs = (r.output.take i.dot).reverse ++ Xs' ∧ Ts = trees.reverse ++ Ts' ∧
      ∃ j ∈ cert.itemsOf below.top, j.rule = i.rule ∧ j.dot = 0 := by
  induction hd : i.dot generalizing i st Xs Ts with
  | zero =>
      exact ⟨[], st, [], Xs, Ts, st.pop_zero, h, .nil, .nil, rfl, rfl, i, hi, rfl, hd⟩
  | succ d ih =>
      cases h with
      | start =>
          -- nothing has been read in the initial state
          exact absurd (hs.unread i hi) (hd ▸ Nat.succ_ne_zero d)
      | @push st Xs Ts X T f q hst hX hf hq =>
          -- the item goes back along the edge that the topmost frame came by
          obtain ⟨j, hj, hrule, hdot, hletter⟩ :=
            hs.back _ _ (Table.mem_edges hq) i hi (hd ▸ Nat.succ_ne_zero d)
          have hjd : j.dot = d := Nat.succ.inj (hdot.trans hd)
          obtain ⟨r', hr', hX'⟩ := Item.letter?_eq_some.mp hletter
          obtain rfl : r = r' := Option.some.inj (hr.symm.trans (hrule ▸ hr'))
          have htake : r.output.take (d + 1) = r.output.take d ++ [X] := by
            rw [List.take_add_one, ← hjd, hX']
            rfl
          obtain ⟨frames, below, trees, Xs', Ts', hpop, hbelow, htrees, hframes, rfl, rfl,
            k, hk, hkrule, hkdot⟩ := ih hr' hst hj hjd
          refine ⟨frames ++ [f], below, trees ++ [T], Xs', Ts', Stack.pop_push_succ hpop f q,
            hbelow, ?_, ?_, ?_, ?_, k, hk, hkrule.trans hrule, hkdot⟩
          · exact htake ▸ htrees.append (.cons hX .nil)
          · exact List.rel_append hframes (.cons hf .nil)
          · rw [htake, List.reverse_append]
            rfl
          · rw [List.reverse_append]
            rfl

/-! ## Moves -/

/-- All that a move can do on a stack that spells letters. -/
inductive Move (t : Table) (g : Grammar) (capture : Bool) (sem : Semantics σ α)
    (M : ParseTree → Frame α → Prop) (c : Configuration ι σ α) (Xs : List Letter)
    (Ts : List ParseTree) : Progress ι σ α → Prop
  /-- There is no lookahead. -/
  | exhausted : c.lookahead = none →
      Move t g capture sem M c Xs Ts (.ended (.error .unexpectedEnd) c.source c.memory)
  /-- The lookahead is shifted. -/
  | shift {token : Token} {q : Nat} {f : Frame α} {memory : σ} :
      c.lookahead = some token → t.target c.stack.top (.terminal token.kind) = some q →
      M (.leaf token) f →
      Move t g capture sem M c Xs Ts (fetch (c.stack.push f q) c.source memory)
  /-- The trees of a right-hand side become a node. -/
  | reduce {index : Nat} {r : GrammarRule} {A : Symbol} {frames : List (Frame α)}
      {below : Stack α} {trees : List ParseTree} {Xs' : List Letter} {Ts' : List ParseTree}
      {q : Nat} {f : Frame α} {memory : σ} :
      g.rules[index]? = some r → r.input = some A →
      c.stack.pop r.output.length = .ok (frames, below) → Holds t g M below Xs' Ts' →
      g.DerivesAll r.output trees → Xs = r.output.reverse ++ Xs' → Ts = trees.reverse ++ Ts' →
      t.target below.top (.nonterminal (some A)) = some q → M (.node index trees) f →
      Move t g capture sem M c Xs Ts
        (.running ⟨below.push f q, c.lookahead, c.source, memory⟩)
  /-- The semantics gives a reduction up. -/
  | refused {index : Nat} {r : GrammarRule} {frames : List (Frame α)} {trees : List ParseTree}
      {fault : Fault} {memory : σ} :
      g.rules[index]? = some r → r.input ≠ none → g.DerivesAll r.output trees →
      List.Forall₂ M trees frames →
      sem.reduce index (reductionOf capture frames) c.memory = (.error fault, memory) →
      Move t g capture sem M c Xs Ts (.ended (.error fault) c.source memory)
  /-- The state does not know the lookahead. -/
  | reject {token : Token} :
      c.lookahead = some token →
      (t.action c.stack.top token.kind = .error ∨
        ∃ q, t.action c.stack.top token.kind = .goto q) →
      Move t g capture sem M c Xs Ts
        (.ended (.error (unexpected t c.source c.stack.top token)) c.source c.memory)
  /-- The one tree on the stack is accepted. -/
  | accept {token : Token} {tree : ParseTree} {f : Frame α} :
      c.lookahead = some token → token.kind = t.endSymbol → Ts = [tree] →
      g.Derives (.nonterminal (some g.start)) tree → M tree f →
      TokenSource.hasMore c.source = false →
      Move t g capture sem M c Xs Ts (.ended (.ok f.value) c.source c.memory)
  /-- More tokens follow what could be accepted. -/
  | excess {token : Token} {tree : ParseTree} {extra : Option Token} {source : ι} :
      c.lookahead = some token → token.kind = t.endSymbol → Ts = [tree] →
      g.Derives (.nonterminal (some g.start)) tree →
      t.action c.stack.top token.kind = .accept →
      TokenSource.hasMore c.source = true → TokenSource.next c.source = (.ok extra, source) →
      Move t g capture sem M c Xs Ts
        (.ended (.error (unexpected t source c.stack.top (extra.getD token))) source c.memory)
  /-- The source fails behind what could be accepted. -/
  | broken {fault : Fault} {source : ι} :
      TokenSource.next c.source = (.error fault, source) →
      Move t g capture sem M c Xs Ts (.ended (.error fault) source c.memory)

/-- Where a table accepts, the stack holds one tree, and it derives the start
    symbol. -/
theorem Holds.of_accept (hs : cert.Sound g t) {st : Stack α} {Xs : List Letter}
    {Ts : List ParseTree} (h : Holds t g M st Xs Ts) {k : Symbol}
    (haction : t.action st.top k = .accept) :
    k = t.endSymbol ∧ ∃ tree f, Ts = [tree] ∧ g.Derives (.nonterminal (some g.start)) tree ∧
      M tree f ∧ st.pop 1 = .ok ([f], .start) := by
  obtain ⟨hend, i, hi, r, hr, hinput, hdot⟩ :=
    hs.accepts _ _ (Table.mem_row haction nofun) rfl
  obtain ⟨frames, below, trees, Xs', Ts', hpop, hbelow, htrees, hframes, -, rfl, j, hj, hjrule,
    hjdot⟩ := h.pop hs hr hi
  have houtput := hs.startRule r (List.mem_of_getElem? hr) hinput
  -- the start production begins in the initial state, so nothing lies below
  have hroot := hs.roots _ j hj hjdot r (hjrule ▸ hr) hinput
  obtain ⟨rfl, -, rfl⟩ := hbelow.top_eq_initial hs hroot
  rw [hdot, List.take_length, houtput] at htrees
  rw [hdot, houtput] at hpop
  rcases htrees with _ | ⟨htree, _ | _⟩
  rcases hframes with _ | ⟨hf, _ | _⟩
  exact ⟨hend, _, _, rfl, htree, hf, hpop⟩

/-- Where a table reduces, the trees of a right-hand side lie on top of the
    stack, and the state below them leads on with the left-hand side. -/
theorem Holds.reduction (hs : cert.Sound g t) {st : Stack α} {Xs : List Letter}
    {Ts : List ParseTree} (h : Holds t g M st Xs Ts) {k : Symbol} {index : Nat}
    (haction : t.action st.top k = .reduce index) :
    ∃ r A frames below trees Xs' Ts' q,
      g.rules[index]? = some r ∧ r.input = some A ∧
      t.production index = some ⟨some A, r.output.length⟩ ∧
      st.pop r.output.length = .ok (frames, below) ∧ Holds t g M below Xs' Ts' ∧
      g.DerivesAll r.output trees ∧ List.Forall₂ M trees frames ∧
      Xs = r.output.reverse ++ Xs' ∧ Ts = trees.reverse ++ Ts' ∧
      t.target below.top (.nonterminal (some A)) = some q := by
  obtain ⟨r, hr, hinput, i, hi, rfl, hdot⟩ :=
    hs.reduces _ _ (Table.mem_row haction nofun) index rfl
  obtain ⟨frames, below, trees, Xs', Ts', hpop, hbelow, htrees, hframes, hXs, hTs, j, hj,
    hjrule, hjdot⟩ := h.pop hs hr hi
  rw [hdot, List.take_length] at htrees hXs
  rw [hdot] at hpop
  -- where the rule begins, its left-hand side leads on
  have hgoto := hs.gotos _ j hj hjdot r (hjrule ▸ hr) hinput
  obtain ⟨A, hA⟩ := Option.ne_none_iff_exists'.mp hinput
  obtain ⟨q, hq⟩ := Option.isSome_iff_exists.mp (hA ▸ hgoto)
  have hproduction : t.production i.rule = some ⟨some A, r.output.length⟩ := by
    rw [Table.production, hs.productions, List.getElem?_map, hr, ← hA]
    rfl
  exact ⟨r, A, frames, below, trees, Xs', Ts', q, hr, hA, hproduction, hpop, hbelow, htrees,
    hframes, hXs, hTs, hq⟩

/-- A reduction does what the grammar says, or the semantics gives it up. -/
theorem reduce_move (hs : cert.Sound g t) (hm : Model g capture sem M)
    {c : Configuration ι σ α} {Xs : List Letter} {Ts : List ParseTree}
    (h : Holds t g M c.stack Xs Ts) {k : Symbol} {index : Nat}
    (haction : t.action c.stack.top k = .reduce index) :
    Move t g capture sem M c Xs Ts (Automaton.reduce t capture sem c index) := by
  obtain ⟨r, A, frames, below, trees, Xs', Ts', q, hr, hA, hproduction, hpop, hbelow, htrees,
    hframes, hXs, hTs, hq⟩ := h.reduction hs haction
  have hinput : r.input ≠ none := by
    rw [hA]
    exact Option.some_ne_none A
  simp only [Automaton.reduce, hproduction, hpop]
  match hv : sem.reduce index (reductionOf capture frames) c.memory with
  | (.error fault, memory) => exact .refused hr hinput htrees hframes hv
  | (.ok v, memory) =>
      simp only [Table.target_nonterminal.mp hq]
      exact .reduce hr hA hpop hbelow htrees hXs hTs hq (hm.reduce hr hinput htrees hframes hv)

/-- Every move is one of those listed. -/
theorem step_move (hs : cert.Sound g t) (hm : Model g capture sem M)
    {c : Configuration ι σ α} {Xs : List Letter} {Ts : List ParseTree}
    (h : Holds t g M c.stack Xs Ts) :
    Move t g capture sem M c Xs Ts (step t capture sem c) := by
  rw [step]
  cases hla : c.lookahead with
  | none => exact .exhausted hla
  | some token =>
      cases haction : t.action c.stack.top token.kind with
      | shift q =>
          simp only [haction, Automaton.shift]
          exact .shift hla (Table.target_terminal.mpr haction) (hm.shift token c.memory)
      | reduce index =>
          simp only [haction]
          exact reduce_move hs hm h haction
      | goto q =>
          simp only [haction]
          exact .reject hla (.inr ⟨q, haction⟩)
      | error =>
          simp only [haction]
          exact .reject hla (.inl haction)
      | accept =>
          obtain ⟨hend, tree, f, hTs, htree, hf, hpop⟩ := h.of_accept hs haction
          simp only [haction, Automaton.accept, hpop]
          -- nothing may follow the end symbol
          cases hmore : TokenSource.hasMore c.source with
          | false => exact .accept hla hend hTs htree hf hmore
          | true =>
              simp only [Bool.not_true, Bool.and_false, Bool.false_eq_true, if_false]
              match hnext : TokenSource.next c.source with
              | (.error fault, source) => exact .broken hnext
              | (.ok extra, source) => exact .excess hla hend hTs htree haction hmore hnext

/-! ## Runs -/

/-- The stack holds trees that yield the tokens which the source has handed
    out before the lookahead. -/
structure Spells (t : Table) (g : Grammar) (M : ParseTree → Frame α → Prop) (source : ι)
    (c : Configuration ι σ α) (Xs : List Letter) (Ts : List ParseTree) : Prop where
  holds : Holds t g M c.stack Xs Ts
  tokens : ∃ s, Feeds source (ParseTree.yields Ts.reverse) s ∧
    TokenSource.next s = (.ok c.lookahead, c.source)

namespace Spells

variable {source : ι} {c c' : Configuration ι σ α} {Xs : List Letter} {Ts : List ParseTree}

/-- What a lookahead is fetched for lies on the stack. -/
theorem of_fetch {s : ι} {st : Stack α} {memory : σ} (h : Holds t g M st Xs Ts)
    (hfeeds : Feeds source (ParseTree.yields Ts.reverse) s)
    (hfetch : fetch st s memory = .running c) : Spells t g M source c Xs Ts := by
  obtain ⟨hnext, rfl, -⟩ := fetch_eq_running.mp hfetch
  exact ⟨h, s, hfeeds, hnext⟩

theorem feeds_lookahead (h : Spells t g M source c Xs Ts) {token : Token}
    (hla : c.lookahead = some token) :
    Feeds source (ParseTree.yields Ts.reverse ++ [token]) c.source := by
  obtain ⟨-, s, hfeeds, hnext⟩ := h
  exact hfeeds.append (.single (hla ▸ hnext))

/-- A shift adds the lookahead to the trees. -/
theorem shift (h : Spells t g M source c Xs Ts) {token : Token}
    (hla : c.lookahead = some token) {q : Nat}
    (hq : t.target c.stack.top (.terminal token.kind) = some q) {f : Frame α}
    (hf : M (.leaf token) f) {memory : σ}
    (hfetch : fetch (c.stack.push f q) c.source memory = .running c') :
    Spells t g M source c' (.terminal token.kind :: Xs) (.leaf token :: Ts) := by
  refine of_fetch (h.holds.push (.leaf token) hf hq) ?_ hfetch
  rw [List.reverse_cons, ParseTree.yields_append, ParseTree.yields_singleton]
  exact h.feeds_lookahead hla

/-- A reduction leaves the tokens of the trees as they are. -/
theorem reduce {index : Nat} {r : GrammarRule} {A : Symbol} {below : Stack α}
    {trees : List ParseTree} (h : Spells t g M source c (r.output.reverse ++ Xs)
      (trees.reverse ++ Ts)) (hr : g.rules[index]? = some r) (hA : r.input = some A)
    (hbelow : Holds t g M below Xs Ts) (htrees : g.DerivesAll r.output trees) {q : Nat}
    (hq : t.target below.top (.nonterminal (some A)) = some q) {f : Frame α}
    (hf : M (.node index trees) f) (memory : σ) :
    Spells t g M source ⟨below.push f q, c.lookahead, c.source, memory⟩
      (.nonterminal (some A) :: Xs) (.node index trees :: Ts) := by
  obtain ⟨-, s, hfeeds, hnext⟩ := h
  refine ⟨hbelow.push (.node hr hA htrees) hf hq, s, ?_, hnext⟩
  rw [List.reverse_append, List.reverse_reverse, ParseTree.yields_append] at hfeeds
  rw [List.reverse_cons, ParseTree.yields_append, ParseTree.yields_singleton]
  exact hfeeds

end Spells

/-- All along a run the stack spells what has been read; a result is the
    value of a derivation of all tokens. -/
def Faithful (t : Table) (g : Grammar) (M : ParseTree → Frame α → Prop) (source : ι) :
    Progress ι σ α → Prop
  | .running c => ∃ Xs Ts, Spells t g M source c Xs Ts
  | .ended (.ok v) _ _ => ∃ tree f tokens, g.Parses t.endSymbol tree tokens ∧ M tree f ∧
      v = f.value ∧ Supplies source tokens
  | .ended (.error _) _ _ => True

theorem faithful_fetch {source s : ι} {st : Stack α} {memory : σ}
    (h : ∀ c, fetch st s memory = .running c → ∃ Xs Ts, Spells t g M source c Xs Ts) :
    Faithful t g M source (fetch st s memory) := by
  cases hfetch : fetch st s memory with
  | running c => exact h c hfetch
  | ended result s' memory' =>
      rw [fetch] at hfetch
      split at hfetch
      · cases hfetch
        exact True.intro
      · cases hfetch

/-- A move keeps a run faithful. -/
theorem faithful_step (hs : cert.Sound g t) (hm : Model g capture sem M) {source : ι}
    (c : Configuration ι σ α) (h : Faithful t g M source (.running c)) :
    Faithful t g M source (step t capture sem c) := by
  obtain ⟨Xs, Ts, h⟩ := h
  have hmove := step_move hs hm h.holds
  generalize step t capture sem c = p at hmove
  cases hmove with
  | exhausted | refused | reject | excess | broken => exact True.intro
  | shift hla hq hf =>
      exact faithful_fetch fun c' hfetch => ⟨_, _, h.shift hla hq hf hfetch⟩
  | reduce hr hA _ hbelow htrees hXs hTs hq hf =>
      subst hXs hTs
      exact ⟨_, _, h.reduce hr hA hbelow htrees hq hf _⟩
  | @accept token tree f hla hend hTs htree hf hmore =>
      refine ⟨tree, f, tree.yield ++ [token], ⟨htree, token, hend, rfl⟩, hf, rfl, c.source, ?_,
        hmore⟩
      have hfeeds := h.feeds_lookahead hla
      rw [hTs, List.reverse_singleton, ParseTree.yields_singleton] at hfeeds
      exact hfeeds

/-- A run is faithful from its first token on. -/
theorem faithful_moves (hs : cert.Sound g t) (hm : Model g capture sem M) (source : ι)
    (memory : σ) (n : Nat) :
    Faithful t g M source (moves t capture sem n (fetch .start source memory)) :=
  moves_induction (faithful_step hs hm)
    (faithful_fetch fun _ hfetch => ⟨[], [], .of_fetch .start (.nil source) hfetch⟩) n

/-- What a run returns is the value of a derivation of the tokens that its
    source supplies. -/
theorem parses_of_returns (hs : cert.Sound g t) (hm : Model g capture sem M) {source : ι}
    {memory : σ} {v : α} (h : Returns t capture sem source memory (.ok v)) :
    ∃ tree f tokens, g.Parses t.endSymbol tree tokens ∧ M tree f ∧ v = f.value ∧
      Supplies source tokens := by
  obtain ⟨limit, source', memory', hrun⟩ := h
  have hfaithful := faithful_moves hs hm source memory limit
  rw [← runFor, hrun] at hfaithful
  exact hfaithful

end Offside.Automaton

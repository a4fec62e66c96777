import Offside.Proofs.Automaton.Soundness

/-! # Completeness — what is derived is accepted

    A certificate is complete for a table if the items of a state are closed,
    go forward along the edges, and reduce as soon as they are finished.  A
    derivation then directs a run: each leaf is one move, and each node is
    the moves of its children and one more.

    The table reads one token ahead.  So a derivation is run in front of one
    more token, and the item that it belongs to has to expect that token. -/

namespace Offside.Automaton

variable {ι σ α : Type} [TokenSource ι]

/-- Finite conditions under which a table does all that its grammar allows. -/
structure Certificate.Complete (cert : Certificate) (g : Grammar) (t : Table) : Prop where
  /-- The start production begins in the initial state and expects the end. -/
  initial : ∃ i ∈ cert.itemsOf initialState, i.dot = 0 ∧
    (∃ r ∈ g.rules[i.rule]?, r.input = none) ∧ t.endSymbol ∈ i.ahead
  /-- The letter behind a dot leads on, and the dot passes it. -/
  advance : ∀ s, ∀ i ∈ cert.itemsOf s, ∀ X ∈ i.letter? g, ∃ q ∈ t.target s X,
    ∃ j ∈ cert.itemsOf q, j.rule = i.rule ∧ j.dot = i.dot + 1 ∧ ∀ k ∈ i.ahead, k ∈ j.ahead
  /-- Where a nonterminal may come, each of its rules may begin. -/
  closure : ∀ s, ∀ i ∈ cert.itemsOf s, ∀ p ∈ g.rules.zipIdx,
    i.letter? g = some (.nonterminal p.1.input) →
    ∃ j ∈ cert.itemsOf s, j.rule = p.2 ∧ j.dot = 0 ∧
      ∀ k ∈ cert.firstOf i.ahead (i.later g), k ∈ j.ahead
  /-- A finished item reduces, or accepts, on what it expects. -/
  finish : ∀ s, ∀ i ∈ cert.itemsOf s, ∀ r ∈ g.rules[i.rule]?, i.dot = r.output.length →
    ∀ k ∈ i.ahead, t.action s k = if r.input = none then .accept else .reduce i.rule
  /-- A rule that may vanish has its left-hand side among those that do. -/
  vanishes : ∀ r ∈ g.rules, cert.vanish r.output → r.input ∈ cert.nullable
  /-- What a rule can start with is listed for its left-hand side. -/
  starts : ∀ r ∈ g.rules, ∀ k ∈ cert.firstOf [] r.output, k ∈ cert.starters r.input

/-- A reading of frames under which no reduction of a derivation is given up. -/
structure TotalModel (g : Grammar) (capture : Bool) (sem : Semantics σ α)
    (M : ParseTree → Frame α → Prop) : Prop extends Model g capture sem M where
  total : ∀ {index : Nat} {r : GrammarRule} {trees : List ParseTree}
    {frames : List (Frame α)} (memory : σ),
    g.rules[index]? = some r → r.input ≠ none → g.DerivesAll r.output trees →
    List.Forall₂ M trees frames →
    ∃ v memory', sem.reduce index (reductionOf capture frames) memory = (.ok v, memory')

variable {t : Table} {g : Grammar} {cert : Certificate} {capture : Bool}
  {sem : Semantics σ α} {M : ParseTree → Frame α → Prop}

/-! ## First tokens -/

namespace Certificate

theorem vanish_cons (X : Letter) (Xs : List Letter) :
    cert.vanish (X :: Xs) = (cert.vanish [X] && cert.vanish Xs) := by
  cases X with
  | terminal k => rfl
  | nonterminal A => rw [vanish, vanish, vanish, Bool.and_true]

/-- What a letter can start with, letters with it in front can start with. -/
theorem mem_firstOf_head {k : Symbol} {X : Letter} {Xs : List Letter} {ahead : List Symbol}
    (h : k ∈ cert.firstOf [] [X]) : k ∈ cert.firstOf ahead (X :: Xs) := by
  cases X with
  | terminal k' => exact h
  | nonterminal A =>
      rw [firstOf, firstOf, ite_self, List.append_nil] at h
      exact List.mem_append_left _ h

/-- What comes behind a letter that may vanish can come first. -/
theorem mem_firstOf_tail {k : Symbol} {X : Letter} {Xs : List Letter} {ahead : List Symbol}
    (hX : cert.vanish [X]) (h : k ∈ cert.firstOf ahead Xs) :
    k ∈ cert.firstOf ahead (X :: Xs) := by
  cases X with
  | terminal k' => exact nomatch hX
  | nonterminal A =>
      rw [vanish, vanish, Bool.and_true] at hX
      rw [firstOf, if_pos hX]
      exact List.mem_append_right _ h

mutual

/-- A letter whose tree has no tokens may vanish, and a tree starts with what
    its letter can start with. -/
theorem Complete.first (hc : cert.Complete g t) {X : Letter} {T : ParseTree}
    (h : g.Derives X T) : (T.yield = [] → cert.vanish [X]) ∧
      ∀ a rest, T.yield = a :: rest → a.kind ∈ cert.firstOf [] [X] := by
  cases h with
  | leaf token =>
      constructor
      · exact nofun
      · intro a rest h
        obtain rfl : token = a := (List.cons.inj h).1
        exact List.mem_singleton_self _
  | @node index r A children hr hA hchildren =>
      obtain ⟨hempty, hfirst⟩ := hc.firstAll hchildren
      have hmem := List.mem_of_getElem? hr
      constructor
      · intro h
        have hnull := hc.vanishes r hmem (hempty h)
        rw [vanish, vanish, Bool.and_true]
        exact List.contains_iff_mem.mpr (hA ▸ hnull)
      · intro a rest h
        have hstart := hc.starts r hmem _ (hfirst a rest h)
        exact List.mem_append_left _ (hA ▸ hstart)

theorem Complete.firstAll (hc : cert.Complete g t) {Xs : List Letter}
    {Ts : List ParseTree} (h : g.DerivesAll Xs Ts) :
    (ParseTree.yields Ts = [] → cert.vanish Xs) ∧
      ∀ a rest, ParseTree.yields Ts = a :: rest → a.kind ∈ cert.firstOf [] Xs := by
  cases h with
  | nil => exact ⟨fun _ => rfl, nofun⟩
  | @cons X Xs T Ts hT hTs =>
      obtain ⟨hempty, hfirst⟩ := hc.first hT
      obtain ⟨hempties, hfirsts⟩ := hc.firstAll hTs
      rw [ParseTree.yields, vanish_cons, Bool.and_eq_true]
      constructor
      · intro h
        obtain ⟨hl, hr⟩ := List.append_eq_nil_iff.mp h
        exact ⟨hempty hl, hempties hr⟩
      · intro a rest h
        -- a tree without tokens leaves the start to the trees behind it
        cases hyield : T.yield with
        | nil =>
            rw [hyield, List.nil_append] at h
            exact mem_firstOf_tail (hempty hyield) (hfirsts a rest h)
        | cons b more =>
            rw [hyield] at h
            obtain rfl : b = a := (List.cons.inj h).1
            exact mem_firstOf_head (hfirst b more hyield)

end

/-- In front of a token that is expected behind some letters, their trees
    start with a token that these letters make expected. -/
theorem Complete.expects (hc : cert.Complete g t) {Xs : List Letter} {Ts : List ParseTree}
    (h : g.DerivesAll Xs Ts) {ahead : List Symbol} {b : Token} (hb : b.kind ∈ ahead)
    (rest : List Token) :
    ∃ a more, ParseTree.yields Ts ++ b :: rest = a :: more ∧
      a.kind ∈ cert.firstOf ahead Xs := by
  match h with
  | .nil => exact ⟨b, rest, rfl, hb⟩
  | @Grammar.DerivesAll.cons _ X Xs T Ts hT hTs =>
      obtain ⟨hempty, hfirst⟩ := hc.first hT
      rw [ParseTree.yields]
      cases hyield : T.yield with
      | nil =>
          obtain ⟨a, more, heq, ha⟩ := hc.expects hTs hb rest
          exact ⟨a, more, heq, mem_firstOf_tail (hempty hyield) ha⟩
      | cons a more => exact ⟨a, _, rfl, mem_firstOf_head (hfirst a more hyield)⟩

end Certificate

/-! ## Derivations direct runs -/

/-- The lookahead and the source together hold tokens, and the source is then
    as given. -/
inductive Ahead : Option Token → ι → List Token → ι → Prop
  | mk {token : Token} {tokens : List Token} {s s' : ι} :
      Feeds s tokens s' → Ahead (some token) s (token :: tokens) s'

/-- A leaf is one move. -/
theorem leads_shift (hm : TotalModel g capture sem M) {st : Stack α} {token b : Token} {q : Nat}
    (hq : t.target st.top (.terminal token.kind) = some q) {s s' : ι}
    (hnext : TokenSource.next s = (.ok (some b), s')) (memory : σ) :
    ∃ f memory', M (.leaf token) f ∧
      Leads t capture sem (.running ⟨st, some token, s, memory⟩)
        (.running ⟨st.push f q, some b, s', memory'⟩) := by
  refine ⟨_, (sem.shift token memory).2, hm.shift token memory, .of_step ?_⟩
  simp only [step, Table.target_terminal.mp hq, shift, fetch, hnext]

/-- A node is one move after those of its children. -/
theorem leads_reduce (hs : cert.Sound g t) (hm : TotalModel g capture sem M)
    {st below : Stack α} {b : Token} {index q : Nat} {r : GrammarRule}
    {frames : List (Frame α)} {trees : List ParseTree}
    (haction : t.action st.top b.kind = .reduce index) (hr : g.rules[index]? = some r)
    (hpop : st.pop r.output.length = .ok (frames, below))
    (hq : t.target below.top (.nonterminal r.input) = some q)
    (htrees : g.DerivesAll r.output trees) (hframes : List.Forall₂ M trees frames)
    (s : ι) (memory : σ) :
    ∃ f memory', M (.node index trees) f ∧
      Leads t capture sem (.running ⟨st, some b, s, memory⟩)
        (.running ⟨below.push f q, some b, s, memory'⟩) := by
  have hproduction : t.production index = some ⟨r.input, r.output.length⟩ := by
    rw [Table.production, hs.productions, List.getElem?_map, hr]
    rfl
  cases hA : r.input with
  | none =>
      rw [hA] at hq
      cases hq
  | some A =>
      have hinput : r.input ≠ none := by
        rw [hA]
        exact Option.some_ne_none A
      obtain ⟨v, memory', hv⟩ := hm.total memory hr hinput htrees hframes
      rw [hA] at hq hproduction
      refine ⟨_, memory', hm.reduce hr hinput htrees hframes hv, .of_step ?_⟩
      simp only [step, haction, reduce, hproduction, hpop, hv, Table.target_nonterminal.mp hq]

mutual

/-- A tree is run: its frame comes on the stack, and the tokens behind it are
    left. -/
theorem derives_runs (hs : cert.Sound g t) (hc : cert.Complete g t)
    (hm : TotalModel g capture sem M) {X : Letter} {T : ParseTree} (hT : g.Derives X T)
    {st : Stack α} {q : Nat} (hq : t.target st.top X = some q) {b : Token}
    (hbegin : ∀ p ∈ g.rules.zipIdx, X = .nonterminal p.1.input →
      ∃ j ∈ cert.itemsOf st.top, j.rule = p.2 ∧ j.dot = 0 ∧ b.kind ∈ j.ahead)
    {lookahead : Option Token} {s s' : ι} {rest : List Token} (memory : σ)
    (htokens : Ahead lookahead s (T.yield ++ b :: rest) s') :
    ∃ f memory' s'', M T f ∧ Feeds s'' rest s' ∧
      Leads t capture sem (.running ⟨st, lookahead, s, memory⟩)
        (.running ⟨st.push f q, some b, s'', memory'⟩) := by
  cases hT with
  | leaf token =>
      obtain ⟨_ | ⟨hnext, hrest⟩⟩ := htokens
      obtain ⟨f, memory', hf, hleads⟩ := leads_shift hm hq hnext memory
      exact ⟨f, memory', _, hf, hrest, hleads⟩
  | @node index r A children hr hA hchildren =>
      obtain ⟨j, hj, rfl, hdot, hb⟩ := hbegin (r, index)
        (List.mem_zipIdx_iff_getElem?.mpr hr) (by rw [hA])
      obtain ⟨st', frames, i, memory₁, s₁, hleads, hfeeds, hpop, hframes, hi, hrule, hlast,
        hbi⟩ := derivesAll_runs hs hc hm hchildren hj hr (by rw [hdot, List.drop_zero]) hb
          memory htokens
      have hinput : r.input ≠ none := by
        rintro hnone
        rw [← hA, hnone] at hq
        exact nomatch hq
      -- the dot has passed all letters, so the state reduces before the lookahead
      have haction := hc.finish _ i hi r (hrule ▸ hr) (by rw [hlast, hdot, Nat.zero_add])
        b.kind hbi
      rw [if_neg hinput, hrule] at haction
      obtain ⟨f, memory₂, hf, hreduce⟩ := leads_reduce hs hm haction hr hpop (hA ▸ hq)
        hchildren hframes s₁ memory₁
      exact ⟨f, memory₂, s₁, hf, hfeeds, hleads.trans hreduce⟩

/-- Trees are run one after the other, along an item that has their letters
    behind its dot. -/
theorem derivesAll_runs (hs : cert.Sound g t) (hc : cert.Complete g t)
    (hm : TotalModel g capture sem M) {Xs : List Letter} {Ts : List ParseTree}
    (hTs : g.DerivesAll Xs Ts) {st : Stack α} {i : Item} (hi : i ∈ cert.itemsOf st.top)
    {r : GrammarRule} (hr : g.rules[i.rule]? = some r) (hXs : r.output.drop i.dot = Xs)
    {b : Token} (hb : b.kind ∈ i.ahead) {lookahead : Option Token} {s s' : ι}
    {rest : List Token} (memory : σ)
    (htokens : Ahead lookahead s (ParseTree.yields Ts ++ b :: rest) s') :
    ∃ st' frames j memory' s'',
      Leads t capture sem (.running ⟨st, lookahead, s, memory⟩)
        (.running ⟨st', some b, s'', memory'⟩) ∧ Feeds s'' rest s' ∧
      st'.pop Xs.length = .ok (frames, st) ∧ List.Forall₂ M Ts frames ∧
      j ∈ cert.itemsOf st'.top ∧ j.rule = i.rule ∧ j.dot = i.dot + Xs.length ∧
      b.kind ∈ j.ahead := by
  cases hTs with
  | nil =>
      obtain ⟨hrest⟩ := htokens
      exact ⟨st, [], i, memory, s, .refl _, hrest, st.pop_zero, .nil, hi, rfl, rfl, hb⟩
  | @cons X Xs T Ts hT hTs =>
      have hX : r.output[i.dot]? = some X := by
        rw [← List.head?_drop, hXs]
        rfl
      have hlater : r.output.drop (i.dot + 1) = Xs := by
        rw [← List.drop_drop, hXs]
        rfl
      have hletter : i.letter? g = some X := Item.letter?_eq_some.mpr ⟨r, hr, hX⟩
      obtain ⟨q, hq, j, hj, hrule, hdot, hahead⟩ := hc.advance _ i hi X hletter
      -- the next tree is run in front of what its later siblings start with
      obtain ⟨a, more, hmore, ha⟩ := hc.expects hTs hb rest
      have hbegin : ∀ p ∈ g.rules.zipIdx, X = .nonterminal p.1.input →
          ∃ j ∈ cert.itemsOf st.top, j.rule = p.2 ∧ j.dot = 0 ∧ a.kind ∈ j.ahead := by
        intro p hp hXp
        obtain ⟨k, hk, hkrule, hkdot, hkahead⟩ := hc.closure _ i hi p hp (hXp ▸ hletter)
        have hlaterItem : i.later g = Xs := by
          rw [Item.later, hr]
          exact hlater
        exact ⟨k, hk, hkrule, hkdot, hkahead _ (hlaterItem ▸ ha)⟩
      rw [ParseTree.yields, List.append_assoc, hmore] at htokens
      obtain ⟨f, memory₁, s₁, hf, hfeeds, hleads⟩ :=
        derives_runs hs hc hm hT hq hbegin memory htokens
      have htokens' : Ahead (some a) s₁ (ParseTree.yields Ts ++ b :: rest) s' := by
        rw [hmore]
        exact .mk hfeeds
      obtain ⟨st', frames, k, memory₂, s₂, hleads', hfeeds', hpop, hframes, hk, hkrule, hkdot,
        hbk⟩ := derivesAll_runs hs hc hm hTs
          (show j ∈ cert.itemsOf (st.push f q).top from hj) (hrule ▸ hr)
          (by rw [hdot, hlater]) (hahead _ hb) memory₁ htokens'
      refine ⟨st', f :: frames, k, memory₂, s₂, hleads.trans hleads', hfeeds',
        Stack.pop_succ_of_pop hpop, .cons hf hframes, hk, hkrule.trans hrule, ?_, hbk⟩
      rw [hkdot, hdot, List.length_cons, Nat.add_assoc, Nat.add_comm 1]

end

/-- A run over a source that supplies the tokens of a derivation returns the
    value of the derivation. -/
theorem returns_of_parses (hs : cert.Sound g t) (hc : cert.Complete g t)
    (hm : TotalModel g capture sem M) {tree : ParseTree} {tokens : List Token}
    (hparses : g.Parses t.endSymbol tree tokens) {source : ι} (hsupplies : Supplies source tokens)
    (memory : σ) :
    ∃ f, M tree f ∧ Returns t capture sem source memory (.ok f.value) := by
  obtain ⟨htree, last, hlast, rfl⟩ := hparses
  obtain ⟨s', hfeeds, hend⟩ := hsupplies
  obtain ⟨i, hi, hdot, ⟨r, hr, hinput⟩, hahead⟩ := hc.initial
  have houtput := hs.startRule r (List.mem_of_getElem? hr) hinput
  have htrees : g.DerivesAll r.output [tree] := houtput ▸ .cons htree .nil
  obtain ⟨first, more, htokens⟩ : ∃ a more, tree.yield ++ [last] = a :: more :=
    List.exists_cons_of_ne_nil (List.append_ne_nil_of_right_ne_nil _ (List.cons_ne_nil _ _))
  rw [htokens] at hfeeds
  rcases hfeeds with _ | @⟨_, s₀, _, _, _, hnext, hrest⟩
  have hahead' : Ahead (some first) s₀ (ParseTree.yields [tree] ++ last :: []) s' := by
    rw [ParseTree.yields_singleton, htokens]
    exact .mk hrest
  obtain ⟨st, frames, j, memory', s₁, hleads, hfeeds, hpop, hframes, hj, hjrule, hjdot, hjahead⟩ :=
    derivesAll_runs hs hc hm htrees (show i ∈ cert.itemsOf Stack.start.top from hi) hr
      (by rw [hdot, List.drop_zero])
      (hlast ▸ hahead) memory hahead'
  obtain ⟨⟩ := hfeeds
  -- the derivation is on the stack, and only the end symbol is ahead
  have haction := hc.finish _ j hj r (hjrule ▸ hr) (by rw [hjdot, hdot, Nat.zero_add]) _ hjahead
  rw [if_pos hinput] at haction
  rw [houtput] at hpop
  rcases hframes with _ | ⟨hf, _ | _⟩
  refine ⟨_, hf, returns_iff.mpr ⟨s', memory', ?_⟩⟩
  rw [fetch, hnext]
  refine hleads.trans (.of_step ?_)
  simp only [step, haction, accept, List.length_singleton] at hpop ⊢
  rw [hpop]
  simp only [hend]
  rfl

/-! ## Derivations are unique -/

/-- The building of derivations as the semantics of a run. -/
def treeSemantics : Semantics Unit ParseTree where
  shift token memory := (.leaf token, memory)
  reduce index reduction memory := (.ok (.node index reduction.values), memory)

theorem treeSemantics_model : TotalModel g capture treeSemantics fun T f => f.value = T where
  shift _ _ := rfl
  reduce := by
    intro index r trees frames memory memory' v _ _ _ hframes hv
    have hvalues : frames.map Frame.value = trees := by
      rw [← List.forall₂_eq_eq_eq, List.forall₂_map_left_iff]
      exact hframes.flip
    obtain ⟨rfl, -⟩ : .node index (frames.map Frame.value) = v ∧ memory = memory' := by
      simpa [treeSemantics, reductionOf] using hv
    exact congrArg _ hvalues
  total memory _ _ _ _ := ⟨_, memory, rfl⟩

/-- Tokens have one derivation at most: a run that builds derivations returns
    every one of them. -/
theorem Certificate.Complete.unambiguous (hs : cert.Sound g t) (hc : cert.Complete g t)
    {T T' : ParseTree} {tokens : List Token} (h : g.Parses t.endSymbol T tokens)
    (h' : g.Parses t.endSymbol T' tokens) : T = T' := by
  have hsupplies : Supplies (TokenList.mk tokens) tokens := supplies_tokenList_iff.mpr rfl
  have hm : TotalModel g false treeSemantics fun T f => f.value = T := treeSemantics_model
  -- both derivations are what one run returns
  obtain ⟨f, rfl, hreturns⟩ := returns_of_parses hs hc hm h hsupplies ()
  obtain ⟨f', rfl, hreturns'⟩ := returns_of_parses hs hc hm h' hsupplies ()
  exact Except.ok.inj (hreturns.unique hreturns')

end Offside.Automaton

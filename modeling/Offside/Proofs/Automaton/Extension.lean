import Offside.Proofs.Automaton.Completeness

/-! # Extension — what an automaton has read can be completed

    A run that has come so far has read the beginning of some sentence.  The
    stack is completed from its top: the item of the top state is finished
    by some derivation of what stands behind its dot, its tree stands for a
    nonterminal that an earlier item of the state below waits for, and so on
    down to the start production.

    * `Holds.completed` is that descent, by the length of the stack and the
      place of the item in its state;
    * `Holds.viable` is its result. -/

namespace Offside.Automaton

variable {α : Type}

/-- Whether a letter is a terminal or one of some nonterminals. -/
def covered (As : List (Option Symbol)) : Letter → Bool
  | .terminal _ => true
  | .nonterminal A => As.contains A

/-- Finite conditions under which every state can be completed. -/
structure Certificate.Extendable (cert : Certificate) (g : Grammar) (t : Table) : Prop where
  /-- A state that an edge leads to has an item. -/
  inhabited : ∀ s, ∀ e ∈ t.edges s, cert.itemsOf e.2 ≠ []
  /-- An item belongs to a rule. -/
  known : ∀ s, ∀ i ∈ cert.itemsOf s, (g.rules[i.rule]?).isSome
  /-- Where a rule begins, an item listed before waits for its left-hand side. -/
  parents : ∀ s, ∀ p ∈ (cert.itemsOf s).zipIdx, p.1.dot = 0 → ∀ r ∈ g.rules[p.1.rule]?,
    r.input ≠ none →
    ∃ m < p.2, ∃ j ∈ (cert.itemsOf s)[m]?, j.letter? g = some (.nonterminal r.input)
  /-- In the order of nonterminals each has a rule over earlier ones. -/
  ordered : ∀ p ∈ cert.order.zipIdx, ∃ r ∈ g.rules, r.input = p.1 ∧
    ∀ X ∈ r.output, covered (cert.order.take p.2) X
  /-- The letters of all rules are covered by that order. -/
  covers : ∀ r ∈ g.rules, ∀ X ∈ r.output, covered cert.order X

variable {t : Table} {g : Grammar} {cert : Certificate} {M : ParseTree → Frame α → Prop}

/-! ## Every letter has a derivation -/

/-- Letters that have trees have trees side by side. -/
theorem exists_derivesAll {Xs : List Letter} (h : ∀ X ∈ Xs, ∃ T, g.Derives X T) :
    ∃ Ts, g.DerivesAll Xs Ts := by
  induction Xs with
  | nil => exact ⟨[], .nil⟩
  | cons X Xs ih =>
      obtain ⟨T, hT⟩ := h X (List.mem_cons_self ..)
      obtain ⟨Ts, hTs⟩ := ih fun Y hY => h Y (List.mem_cons_of_mem _ hY)
      exact ⟨T :: Ts, .cons hT hTs⟩

/-- What the first nonterminals of the order cover has derivations. -/
theorem exists_derives (he : cert.Extendable g t) (n : Nat) :
    ∀ X, covered (cert.order.take n) X → ∃ T, g.Derives X T := by
  induction n using Nat.strongRecOn with
  | ind n ih =>
      intro X hX
      cases X with
      | terminal k => exact ⟨_, .leaf ⟨k, "", default⟩⟩
      | nonterminal A =>
          obtain ⟨m, hm⟩ := List.mem_iff_getElem?.mp (List.contains_iff_mem.mp hX)
          obtain ⟨hlt, hA⟩ : m < n ∧ cert.order[m]? = some A := by
            rw [List.getElem?_take] at hm
            split at hm
            next hlt => exact ⟨hlt, hm⟩
            next => exact nomatch hm
          -- one of its rules has only terminals and nonterminals of a lower place
          obtain ⟨r, hr, hinput, houtput⟩ := he.ordered (A, m)
            (List.mem_zipIdx_iff_getElem?.mpr hA)
          obtain ⟨index, hindex⟩ := List.mem_iff_getElem?.mp hr
          obtain ⟨Ts, hTs⟩ := exists_derivesAll fun Y hY => ih m hlt Y (houtput Y hY)
          exact ⟨_, .node hindex hinput hTs⟩

/-- The letters behind a dot have derivations. -/
theorem exists_derives_drop (he : cert.Extendable g t) {r : GrammarRule} (hr : r ∈ g.rules)
    (n : Nat) : ∃ Ts, g.DerivesAll (r.output.drop n) Ts := by
  apply exists_derivesAll
  intro X hX
  refine exists_derives he cert.order.length X ?_
  rw [List.take_length]
  exact he.covers r hr X (List.mem_of_mem_drop hX)

/-! ## Completing a stack -/

/-- Behind the trees of a stack whose top state begins a rule, a tree of the
    left-hand side of that rule can be completed to a whole derivation. -/
theorem Holds.completed (hs : cert.Sound g t) (he : cert.Extendable g t) {st : Stack α}
    {Xs : List Letter} {Ts : List ParseTree} (h : Holds t g M st Xs Ts) {n : Nat} {i : Item}
    (hi : (cert.itemsOf st.top)[n]? = some i) (hdot : i.dot = 0) {r : GrammarRule}
    (hr : g.rules[i.rule]? = some r) {T : ParseTree} (hT : g.Derives (.nonterminal r.input) T) :
    ∃ tree more, g.Derives (.nonterminal (some g.start)) tree ∧
      tree.yield = ParseTree.yields Ts.reverse ++ T.yield ++ more := by
  by_cases hinput : r.input = none
  · -- the start production begins at the bottom of the stack
    have hroot := hs.roots _ i (List.mem_of_getElem? hi) hdot r hr hinput
    obtain ⟨rfl, -, rfl⟩ := h.top_eq_initial hs hroot
    rw [hinput] at hT
    rcases hT with _ | ⟨hr', hnone, hchildren⟩
    rw [hs.startRule _ (List.mem_of_getElem? hr') hnone] at hchildren
    rcases hchildren with _ | ⟨htree, _ | _⟩
    exact ⟨_, [], htree, by simp [ParseTree.yield, ParseTree.yields]⟩
  · obtain ⟨m, hm, j, hj, hletter⟩ := he.parents _ (i, n) (List.mem_zipIdx_iff_getElem?.mpr hi)
      hdot r hr hinput
    obtain ⟨r', hr', hX⟩ := Item.letter?_eq_some.mp hletter
    obtain ⟨later, hlater⟩ := exists_derives_drop he (List.mem_of_getElem? hr') (j.dot + 1)
    have hsplit : r'.output.take j.dot ++ .nonterminal r.input :: r'.output.drop (j.dot + 1)
        = r'.output := by
      obtain ⟨hlt, hget⟩ := List.getElem?_eq_some_iff.mp hX
      rw [← hget, List.cons_getElem_drop_succ, List.take_append_drop]
    have hparent : ∀ {trees}, g.DerivesAll (r'.output.take j.dot) trees →
        g.Derives (.nonterminal r'.input) (.node j.rule (trees ++ T :: later)) := by
      intro trees htrees
      have hall := htrees.append (.cons hT hlater)
      rw [hsplit] at hall
      exact .node hr' rfl hall
    by_cases hjdot : j.dot = 0
    · -- the parent begins in the same state and is listed before
      have hbegin : g.DerivesAll (r'.output.take j.dot) [] := by
        rw [hjdot]
        exact .nil
      obtain ⟨tree, more, htree, hyield⟩ :=
        h.completed hs he hj hjdot hr' (hparent hbegin)
      refine ⟨tree, ParseTree.yields later ++ more, htree, ?_⟩
      rw [hyield]
      simp only [List.nil_append, ParseTree.yield, ParseTree.yields, List.append_assoc]
    · -- the parent begins further down
      obtain ⟨frames, below, trees, Xs', Ts', hpop, hbelow, htrees, -, hXs, hTs, k, hk, hkrule,
        hkdot⟩ := h.pop hs hr' (List.mem_of_getElem? hj)
      obtain ⟨l, hl⟩ := List.mem_iff_getElem?.mp hk
      have hlt : Xs'.length < Xs.length := by
        have hpos := (List.getElem?_eq_some_iff.mp hX).1
        rw [hXs, List.length_append, List.length_reverse, List.length_take]
        omega
      obtain ⟨tree, more, htree, hyield⟩ :=
        hbelow.completed hs he hl hkdot (hkrule ▸ hr') (hparent htrees)
      refine ⟨tree, ParseTree.yields later ++ more, htree, ?_⟩
      rw [hyield, hTs]
      simp only [List.reverse_append, List.reverse_reverse, ParseTree.yield,
        ParseTree.yields_append, ParseTree.yields, List.append_assoc]
termination_by (Xs.length, n)
decreasing_by
  · exact Prod.Lex.right _ hm
  · exact Prod.Lex.left _ _ hlt

/-- What the trees of a stack yield is the beginning of a sentence. -/
theorem Holds.viable (hs : cert.Sound g t) (hc : cert.Complete g t) (he : cert.Extendable g t)
    {st : Stack α} {Xs : List Letter} {Ts : List ParseTree} (h : Holds t g M st Xs Ts) :
    g.Viable t.endSymbol ((ParseTree.yields Ts.reverse).map Token.kind) := by
  obtain ⟨i, hi⟩ : ∃ i, i ∈ cert.itemsOf st.top := by
    cases h with
    | start =>
        obtain ⟨i, hi, -⟩ := hc.initial
        exact ⟨i, hi⟩
    | push _ _ _ hq => exact List.exists_mem_of_ne_nil _ (he.inhabited _ _ (Table.mem_edges hq))
  -- what an item of the top state has read is completed by what it expects
  obtain ⟨r, hr⟩ := Option.isSome_iff_exists.mp (he.known _ i hi)
  obtain ⟨later, hlater⟩ := exists_derives_drop he (List.mem_of_getElem? hr) i.dot
  obtain ⟨frames, below, trees, Xs', Ts', hpop, hbelow, htrees, -, -, rfl, k, hk, hkrule, hkdot⟩ :=
    h.pop hs hr hi
  have htree : g.Derives (.nonterminal r.input) (.node i.rule (trees ++ later)) := by
    have hall := htrees.append hlater
    rw [List.take_append_drop] at hall
    exact .node hr rfl hall
  obtain ⟨n, hn⟩ := List.mem_iff_getElem?.mp hk
  obtain ⟨tree, more, htree, hyield⟩ := hbelow.completed hs he hn hkdot (hkrule ▸ hr) htree
  refine (Grammar.viable_iff _ _).mpr
    ⟨tree, ParseTree.yields later ++ more ++ [⟨t.endSymbol, "", default⟩], htree,
      ⟨t.endSymbol, "", default⟩, rfl, ?_⟩
  rw [hyield]
  simp only [List.reverse_append, List.reverse_reverse, ParseTree.yields_append,
    ParseTree.yield, List.append_assoc]

end Offside.Automaton

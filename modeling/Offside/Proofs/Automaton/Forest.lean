import Offside.Proofs.Automaton.Record

/-! # Forests — what the calls of a run build

    The calls of a run build trees from the bottom up: a shift puts a leaf
    behind the trees that are there, and a reduction puts the last of them
    under one node.  This holds for every table, since the stack is made to
    hold the roots and nothing else.

    * `Builds` is the order in which a forest is built;
    * `Accounts` says that no token and no value is lost, used twice or taken
      out of order;
    * `calls_build_forest` gives such a forest for every run that ends. -/

namespace Offside.Automaton

variable {ι σ α : Type}

/-- A tree of calls: shifts at the leaves, reductions inside. -/
inductive CallTree (α : Type) where
  | leaf (call : Nat) (token : Token) (value : α)
  | node (call : Nat) (production : Nat) (children : List (CallTree α)) (result : Except Fault α)

namespace CallTree

/-- The number of the call at the root. -/
def call : CallTree α → Nat
  | leaf call _ _ => call
  | node call _ _ _ => call

/-- The value that the call at the root made. -/
def made? : CallTree α → Option (Made α)
  | leaf call _ value => some ⟨call, value⟩
  | node call _ _ result => result.toOption.map (Made.mk call)

mutual

/-- The tokens at the leaves of a tree, left to right. -/
def leaves : CallTree α → List Token
  | leaf _ token _ => [token]
  | node _ _ children _ => allLeaves children

/-- The tokens at the leaves of several trees. -/
def allLeaves : List (CallTree α) → List Token
  | [] => []
  | tree :: trees => tree.leaves ++ allLeaves trees

end

@[simp] theorem allLeaves_append (trees trees' : List (CallTree α)) :
    allLeaves (trees ++ trees') = allLeaves trees ++ allLeaves trees' := by
  induction trees with
  | nil => rfl
  | cons tree trees ih =>
      rw [List.cons_append, allLeaves, ih, allLeaves, List.append_assoc]

@[simp] theorem allLeaves_singleton (tree : CallTree α) : allLeaves [tree] = tree.leaves :=
  List.append_nil _

theorem call_of_made? {tree : CallTree α} {m : Made α} (h : tree.made? = some m) :
    tree.call = m.call := by
  cases tree with
  | leaf => cases h; rfl
  | node call production children result =>
      obtain ⟨value, -, rfl⟩ := Option.map_eq_some_iff.mp h
      rfl

end CallTree

/-- Calls build a forest, call by call: the roots stand in the order of
    their leaves, and a reduction takes the last of them, as many as its
    production is long. -/
inductive Builds (t : Table) : List (Call α) → List (CallTree α) → Prop
  | nil : Builds t [] []
  | shift {calls : List (Call α)} {forest : List (CallTree α)} (token : Token) (value : α) :
      Builds t calls forest →
      Builds t (calls ++ [.shift token value]) (forest ++ [.leaf calls.length token value])
  | reduce {calls : List (Call α)} {older children : List (CallTree α)} {index : Nat}
      {lhs : Symbol} {given : Reduction (Made α)} (result : Except Fault α) :
      Builds t calls (older ++ children) →
      t.production index = some ⟨some lhs, children.length⟩ →
      children.map CallTree.made? = given.values.map some →
      Builds t (calls ++ [.reduce index given result])
        (older ++ [.node calls.length index children result])

/-- A value was made by one of these calls. -/
def MadeBy (calls : List (Call α)) (m : Made α) : Prop :=
  calls[m.call]?.bind Call.value? = some m.value

/-- The numbers of the calls whose values were given to another call. -/
def spent (calls : List (Call α)) : List Nat := (calls.flatMap Call.given).map Made.call

/-- The calls of a run over a list of tokens, and the forest they build. -/
structure Accounts (t : Table) (tokens : List Token) (calls : List (Call α))
    (forest : List (CallTree α)) : Prop where
  builds : Builds t calls forest
  /-- The leaves are the shifted tokens, in the order in which they were
      shifted and in which they stand in the list. -/
  leaves : CallTree.allLeaves forest = shifted calls
  ordered : shifted calls <+: tokens
  /-- A reduction is given as many values as its production is long, … -/
  length : ∀ index given result, .reduce index given result ∈ calls →
    ∃ lhs, t.production index = some ⟨some lhs, given.values.length⟩
  /-- … each of them the value of a call before it, … -/
  earlier : ∀ before index given result after,
    calls = before ++ .reduce index given result :: after → ∀ m ∈ given.values, MadeBy before m
  /-- … and no value is given twice. -/
  once : (spent calls).Nodup

variable {t : Table} {calls : List (Call α)} {forest : List (CallTree α)}

/-! ## What is built -/

theorem Builds.leaves (h : Builds t calls forest) :
    CallTree.allLeaves forest = shifted calls := by
  induction h with
  | nil => rfl
  | shift token value _ ih =>
      rw [CallTree.allLeaves_append, ih, shifted_shift, CallTree.allLeaves_singleton,
        CallTree.leaves]
  | reduce result _ _ _ ih =>
      rw [CallTree.allLeaves_append] at ih
      rw [CallTree.allLeaves_append, CallTree.allLeaves_singleton, CallTree.leaves, shifted_reduce,
        ih]

theorem Builds.length (h : Builds t calls forest) : ∀ index given result,
    .reduce index given result ∈ calls →
      ∃ lhs, t.production index = some ⟨some lhs, given.values.length⟩ := by
  induction h with
  | nil => exact fun _ _ _ hmem => absurd hmem List.not_mem_nil
  | shift token value _ ih =>
      intro index given result hmem
      rcases List.mem_append.mp hmem with hmem | hmem
      · exact ih index given result hmem
      · cases List.mem_singleton.mp hmem
  | reduce result _ hproduction hgiven ih =>
      intro index given result' hmem
      rcases List.mem_append.mp hmem with hmem | hmem
      · exact ih index given result' hmem
      · cases List.mem_singleton.mp hmem
        have hlength := congrArg List.length hgiven
        rw [List.length_map, List.length_map] at hlength
        exact ⟨_, hlength ▸ hproduction⟩

theorem map_call_of_given {children : List (CallTree α)} {values : List (Made α)}
    (h : children.map CallTree.made? = values.map some) :
    children.map CallTree.call = values.map Made.call := by
  induction children generalizing values with
  | nil =>
      cases values with
      | nil => rfl
      | cons => cases h
  | cons tree children ih =>
      cases values with
      | nil => cases h
      | cons m values =>
          obtain ⟨hhead, htail⟩ := List.cons.inj h
          rw [List.map_cons, List.map_cons, CallTree.call_of_made? hhead, ih htail]

/-- Every call made a root, or its value was given to one later call. -/
theorem Builds.perm_range (h : Builds t calls forest) :
    (spent calls ++ forest.map CallTree.call).Perm (List.range calls.length) := by
  induction h with
  | nil => exact .refl _
  | @shift calls forest token value _ ih =>
      have hspent : spent (calls ++ [.shift token value]) = spent calls := by
        simp [spent, Call.given]
      rw [hspent, List.map_append, ← List.append_assoc, List.length_append, List.length_singleton,
        List.range_succ]
      exact ih.append_right _
  | @reduce calls older children index lhs given result _ _ hgiven ih =>
      have hspent : spent (calls ++ [.reduce index given result]) =
          spent calls ++ children.map CallTree.call := by
        rw [map_call_of_given hgiven]
        simp [spent, Call.given]
      rw [hspent, List.map_append, List.length_append, List.length_singleton, List.range_succ,
        ← List.append_assoc]
      refine .append_right _ (.trans ?_ ih)
      rw [List.map_append, List.append_assoc]
      exact .append_left _ List.perm_append_comm

theorem Builds.once (h : Builds t calls forest) : (spent calls).Nodup :=
  (List.nodup_append.mp (h.perm_range.nodup_iff.mpr List.nodup_range)).1

theorem MadeBy.append {m : Made α} (h : MadeBy calls m) (calls' : List (Call α)) :
    MadeBy (calls ++ calls') m := by
  obtain ⟨call, hcall, hvalue⟩ := Option.bind_eq_some_iff.mp h
  obtain ⟨hlt, -⟩ := List.getElem?_eq_some_iff.mp hcall
  rw [MadeBy, List.getElem?_append_left hlt, hcall]
  exact hvalue

theorem madeBy_last {call : Call α} {value : α} (h : call.value? = some value) :
    MadeBy (calls ++ [call]) ⟨calls.length, value⟩ := by
  simp [MadeBy, h]

/-- The value at a root was made by the call at that root. -/
theorem Builds.madeBy (h : Builds t calls forest) :
    ∀ tree ∈ forest, ∀ m, tree.made? = some m → MadeBy calls m := by
  induction h with
  | nil => exact fun _ hmem => absurd hmem List.not_mem_nil
  | shift token value _ ih =>
      intro tree hmem m hm
      rcases List.mem_append.mp hmem with hmem | hmem
      · exact (ih tree hmem m hm).append _
      · cases List.mem_singleton.mp hmem
        cases hm
        exact madeBy_last rfl
  | reduce result _ _ _ ih =>
      intro tree hmem m hm
      rcases List.mem_append.mp hmem with hmem | hmem
      · exact (ih tree (List.mem_append_left _ hmem) m hm).append _
      · cases List.mem_singleton.mp hmem
        obtain ⟨value, hvalue, rfl⟩ := Option.map_eq_some_iff.mp hm
        exact madeBy_last hvalue

/-- A call in a list with one more call at its end is that call, or it stands
    in the list. -/
theorem eq_or_exists_of_concat {before after : List (Call α)} {call last : Call α}
    (h : calls ++ [last] = before ++ call :: after) :
    (before = calls ∧ call = last) ∨ ∃ after', calls = before ++ call :: after' := by
  rcases List.eq_nil_or_concat after with rfl | ⟨after', x, rfl⟩
  · obtain ⟨rfl, hlast⟩ := List.append_inj' h rfl
    exact .inl ⟨rfl, (List.singleton_inj.mp hlast).symm⟩
  · have hsplit : calls ++ [last] = (before ++ call :: after') ++ [x] := by
      rw [h]
      simp
    exact .inr ⟨after', (List.append_inj' hsplit rfl).1⟩

theorem Builds.earlier (h : Builds t calls forest) : ∀ before index given result after,
    calls = before ++ .reduce index given result :: after →
      ∀ m ∈ given.values, MadeBy before m := by
  induction h with
  | nil =>
      intro before index given result after hsplit
      exact absurd hsplit.symm (by simp)
  | shift token value _ ih =>
      intro before index given result after hsplit
      rcases eq_or_exists_of_concat hsplit with ⟨-, hcall⟩ | ⟨after', hsplit⟩
      · cases hcall
      · exact ih before index given result after' hsplit
  | reduce result hbuilds _ hgiven ih =>
      intro before index given result' after hsplit
      rcases eq_or_exists_of_concat hsplit with ⟨rfl, hcall⟩ | ⟨after', hsplit⟩
      · cases hcall
        intro m hm
        have hmade : some m ∈ List.map CallTree.made? _ :=
          hgiven ▸ List.mem_map_of_mem (f := some) hm
        obtain ⟨tree, htree, hm⟩ := List.mem_map.mp hmade
        exact hbuilds.madeBy tree (List.mem_append_right _ htree) m hm
      · exact ih before index given result' after' hsplit

theorem Builds.accounts (h : Builds t calls forest) {tokens : List Token}
    (hordered : shifted calls <+: tokens) : Accounts t tokens calls forest :=
  ⟨h, h.leaves, hordered, h.length, h.earlier, h.once⟩

/-! ## What a run keeps -/

/-- The values on a stack, the top one last. -/
def Stack.values (s : Stack α) : List α := (s.frames.map Frame.value).reverse

@[simp] theorem Stack.values_push (s : Stack α) (frame : Frame α) (q : Nat) :
    (s.push frame q).values = s.values ++ [frame.value] := by
  simp [Stack.values, Stack.push]

theorem Stack.values_of_pop {s below : Stack α} {count : Nat} {frames : List (Frame α)}
    (h : s.pop count = .ok (frames, below)) :
    s.values = below.values ++ frames.map Frame.value := by
  obtain ⟨-, rfl, -, hframes⟩ := Stack.pop_eq_ok.mp h
  rw [Stack.values, Stack.values, hframes, ← List.map_reverse, ← List.map_reverse,
    ← List.map_append, ← List.reverse_append, List.take_append_drop]

theorem Stack.values_of_isInitial {s : Stack α} (h : s.isInitial = true) : s.values = [] := by
  rw [Stack.values, (Stack.isInitial_iff.mp h).1]
  rfl

/-- The stack holds the roots of the forest, and what has not been shifted is
    still to come. -/
structure Follows (t : Table) (tokens : List Token)
    (c : Configuration TokenList (Record σ α) (Made α)) (forest : List (CallTree α)) : Prop where
  builds : Builds t c.memory.calls forest
  roots : forest.map CallTree.made? = c.stack.values.map some
  rest : shifted c.memory.calls ++ (c.lookahead.toList ++ c.source.remaining) = tokens

/-- A run has built a forest from the front of a list of tokens. -/
def Accounted (t : Table) (tokens : List Token) :
    Progress TokenList (Record σ α) (Made α) → Prop
  | .running c => ∃ forest, Follows t tokens c forest
  | .ended _ _ record =>
      ∃ forest, Builds t record.calls forest ∧ shifted record.calls <+: tokens

theorem Follows.ordered {tokens : List Token}
    {c : Configuration TokenList (Record σ α) (Made α)} (h : Follows t tokens c forest) :
    shifted c.memory.calls <+: tokens := ⟨_, h.rest⟩

/-- The last roots are the values that a reduction takes off the stack. -/
theorem Follows.exists_children {tokens : List Token}
    {c : Configuration TokenList (Record σ α) (Made α)} (h : Follows t tokens c forest)
    {count : Nat} {frames : List (Frame (Made α))} {below : Stack (Made α)}
    (hpop : c.stack.pop count = .ok (frames, below)) :
    ∃ older children, forest = older ++ children ∧
      older.map CallTree.made? = below.values.map some ∧
      children.map CallTree.made? = (frames.map Frame.value).map some := by
  have hroots := h.roots
  rw [Stack.values_of_pop hpop, List.map_append] at hroots
  exact List.map_eq_append_iff.mp hroots

/-- A reduction that is due puts the last roots under a node, whatever its
    call gives back. -/
theorem Follows.exists_node {tokens : List Token}
    {c : Configuration TokenList (Record σ α) (Made α)} (h : Follows t tokens c forest)
    {index : Nat} {lhs : Symbol} {frames : List (Frame (Made α))} {below : Stack (Made α)}
    (hdue : Due t c index lhs frames below) (capture : Bool) (result : Except Fault α) :
    ∃ older children, older.map CallTree.made? = below.values.map some ∧
      Builds t (c.memory.calls ++ [.reduce index (reductionOf capture frames) result])
        (older ++ [.node c.memory.calls.length index children result]) := by
  obtain ⟨older, children, rfl, holder, hchildren⟩ := h.exists_children hdue.pop
  have hlength : children.length = frames.length := by
    simpa using congrArg List.length hchildren
  exact ⟨older, children, holder, h.builds.reduce result (hlength ▸ hdue.production) hchildren⟩

theorem accounted_step {tokens : List Token} {capture : Bool} {sem : Semantics σ α}
    (c : Configuration TokenList (Record σ α) (Made α))
    (h : Accounted t tokens (.running c)) :
    Accounted t tokens (step t capture sem.recorded c) := by
  obtain ⟨forest, hf⟩ := h
  have hturn := step_turn t capture sem.recorded c
  generalize step t capture sem.recorded c = p at hturn
  cases hturn with
  | exhausted | undue | bare | accept | excess | broken | reject =>
      exact ⟨forest, hf.builds, hf.ordered⟩
  | @shift token q m record hm hv =>
      obtain ⟨value, memory, rfl, rfl⟩ := Semantics.recorded_shift hv
      refine ⟨_, hf.builds.shift token value, ?_, ?_⟩
      · rw [Stack.values_push, List.map_append, List.map_append, hf.roots]
        rfl
      · have hnext : c.source.remaining.head?.toList ++ c.source.remaining.tail =
            c.source.remaining := by
          cases c.source.remaining <;> rfl
        have hrest := hf.rest
        rw [hm.lookahead] at hrest
        change shifted (c.memory.calls ++ [.shift token value]) ++
          (c.source.remaining.head?.toList ++ c.source.remaining.tail) = tokens
        rw [hnext, shifted_shift, List.append_assoc]
        exact hrest
  | refused hdue hv | lost hdue hv =>
      obtain ⟨result, memory, -, rfl⟩ := Semantics.recorded_reduce hv
      obtain ⟨older, children, -, hbuilds⟩ := hf.exists_node hdue capture result
      exact ⟨_, hbuilds, by rw [shifted_reduce]; exact hf.ordered⟩
  | reduce hdue hv hgoto =>
      obtain ⟨result, memory, hmade, rfl⟩ := Semantics.recorded_reduce hv
      obtain ⟨older, children, holder, hbuilds⟩ := hf.exists_node hdue capture result
      refine ⟨_, hbuilds, ?_, ?_⟩
      · rcases result with fault | value
        · cases hmade
        cases hmade
        rw [Stack.values_push, List.map_append, List.map_append, holder]
        rfl
      · rw [shifted_reduce]
        exact hf.rest

theorem accounted_runFor (t : Table) (capture : Bool) (sem : Semantics σ α) (tokens : List Token)
    (memory : σ) (n : Nat) : Accounted t tokens
      (runFor t capture sem.recorded n (TokenList.mk tokens) (.start α memory)) := by
  refine moves_induction accounted_step ?_ n
  refine ⟨[], .nil, rfl, ?_⟩
  cases tokens <;> rfl

/-! ## Runs that end -/

/-- A run that ends well ends on a lookahead that its state accepts, over the
    only value on the stack and with nothing behind the lookahead. -/
theorem exists_accept_of_ok {t : Table} {capture : Bool} {sem : Semantics σ α}
    {tokens : List Token} {memory memory' : σ} {limit : Nat} {v : α} {s : TokenList}
    (h : runFor t capture sem limit (TokenList.mk tokens) memory = .ended (.ok v) s memory') :
    ∃ k < limit, ∃ c token, runFor t capture sem k (TokenList.mk tokens) memory = .running c ∧
      c.Meets t token .accept ∧ c.stack.values = [v] ∧ c.source = s ∧ c.memory = memory' ∧
      s.remaining = [] := by
  rcases exists_last_move h with hfetch | ⟨k, hk, c, hrun, hlast⟩
  · cases hfetch
  have hturn := step_turn t capture sem c
  rw [hlast] at hturn
  generalize hp : Progress.ended (.ok v) s memory' = p at hturn
  cases hturn with
  | @accept token frame below hm hpop hinitial hmore =>
      cases hp
      refine ⟨k, hk, c, token, hrun, hm, ?_, rfl, rfl, hasMore_tokenList.mp hmore⟩
      rw [Stack.values_of_pop hpop, Stack.values_of_isInitial hinitial]
      rfl
  | shift => cases hp
  | exhausted | undue | refused | reduce | lost | bare | excess | broken | reject => cases hp

/-- A run with a record that ends well has built one tree, and only the
    lookahead that was accepted is not in it. -/
theorem exists_tree_of_ok {t : Table} {capture : Bool} {sem : Semantics σ α}
    {tokens : List Token} {memory : σ} {record : Record σ α} {limit : Nat} {m : Made α}
    {s : TokenList} (h : runFor t capture sem.recorded limit (TokenList.mk tokens)
      (.start α memory) = .ended (.ok m) s record) :
    ∃ tree last, Builds t record.calls [tree] ∧ tree.made? = some m ∧
      shifted record.calls ++ [last] = tokens ∧ s.remaining = [] ∧
      ∃ k < limit, ∃ c, runFor t capture sem k (TokenList.mk tokens) memory = .running c ∧
        c.Meets t last .accept := by
  obtain ⟨k, hk, c, last, hrun, hm, hvalues, rfl, rfl, hempty⟩ := exists_accept_of_ok h
  have haccounted := accounted_runFor t capture sem tokens memory k
  rw [hrun] at haccounted
  obtain ⟨forest, hf⟩ := haccounted
  have hroots := hf.roots
  rw [hvalues] at hroots
  obtain ⟨tree, rfl, hmade⟩ := List.map_eq_singleton_iff.mp hroots
  refine ⟨tree, last, hf.builds, hmade, ?_, hempty, k, hk, c.map Made.value Record.memory, ?_,
    hm.lookahead, hm.action⟩
  · have hrest := hf.rest
    rw [hm.lookahead, hempty] at hrest
    exact hrest
  · exact (runFor_map t capture sem.recorded_over k (TokenList.mk tokens) (.start α memory)).trans
      (by rw [hrun]; rfl)

/-- **Nothing is lost, duplicated or reordered.**  The calls of a run over a
    list that ends build a forest, whose leaves are tokens from the front of
    the list.  If the run ends well, then the forest is one tree whose root
    made the result, and only the lookahead that was accepted is not in it. -/
theorem calls_build_forest (t : Table) (capture : Bool) (sem : Semantics σ α) (tokens : List Token)
    (memory : σ) {limit : Nat} {result : Except Fault α} {source : TokenList} {memory' : σ}
    (h : runFor t capture sem limit (TokenList.mk tokens) memory =
      .ended result source memory') :
    ∃ (made : Except Fault (Made α)) (calls : List (Call α)) (forest : List (CallTree α)),
      runFor t capture sem.recorded limit (TokenList.mk tokens) (.start α memory) =
        .ended made source ⟨memory', calls⟩ ∧
      result = made.map Made.value ∧ Accounts t tokens calls forest ∧
      ∀ m, made = .ok m → ∃ tree last, forest = [tree] ∧ tree.made? = some m ∧
        tokens = tree.leaves ++ [last] ∧ source.remaining = [] ∧
        ∃ k < limit, ∃ c, runFor t capture sem k (TokenList.mk tokens) memory = .running c ∧
          c.Meets t last .accept := by
  have hmap := runFor_map t capture sem.recorded_over limit
    (TokenList.mk tokens) (.start α memory)
  rcases hrun : runFor t capture sem.recorded limit (TokenList.mk tokens) (.start α memory) with
    c | ⟨made, source', memory'', calls⟩
  · rw [hrun] at hmap
    exact nomatch h.symm.trans hmap
  rw [hrun] at hmap
  cases h.symm.trans hmap
  cases made with
  | error fault =>
      have haccounted := accounted_runFor t capture sem tokens memory limit
      rw [hrun] at haccounted
      obtain ⟨forest, hbuilds, hordered⟩ := haccounted
      exact ⟨_, calls, forest, rfl, rfl, hbuilds.accounts hordered, nofun⟩
  | ok m =>
      obtain ⟨tree, last, hbuilds, hmade, rfl, hempty, hlast⟩ := exists_tree_of_ok hrun
      refine ⟨_, calls, [tree], rfl, rfl, hbuilds.accounts ⟨[last], rfl⟩, ?_⟩
      rintro _ ⟨⟩
      refine ⟨tree, last, rfl, hmade, ?_, hempty, hlast⟩
      rw [← hbuilds.leaves, CallTree.allLeaves_singleton]

/-- A list is empty, or it is a list and one word more. -/
def wordList : Table where
  rows := [[(0, .reduce 0), (1, .reduce 0), (2, .goto 1)], [(0, .accept), (1, .shift 2)],
    [(0, .reduce 1), (1, .reduce 1)]]
  productions := [⟨some 2, 0⟩, ⟨some 2, 2⟩]
  terminals := [("$", 0), ("word", 1)]
  nonterminals := [("list", 2)]
  endSymbol := 0

/-- The value is the number of words, the memory that of calls. -/
def wordCount : Semantics Nat Nat where
  shift _ memory := (1, memory + 1)
  reduce _ r memory := (.ok r.values.sum, memory + 1)

/-- Two words and the end. -/
def twoWords : List Token :=
  [⟨1, "a", .point 0 1 0⟩, ⟨1, "b", .point 1 1 1⟩, ⟨0, "", .point 2 1 2⟩]

theorem calls_build_forest_twoWords :
    runFor wordList true wordCount 9 (TokenList.mk twoWords) 0 = .ended (.ok 2) ⟨[]⟩ 5 ∧
      ∃ calls tree, Accounts wordList twoWords calls [tree] ∧ tree.leaves = twoWords.take 2 ∧
        tree.made?.map Made.value = some 2 := by
  have hrun : runFor wordList true wordCount 9 (TokenList.mk twoWords) 0 =
      .ended (.ok 2) ⟨[]⟩ 5 := rfl
  refine ⟨hrun, ?_⟩
  obtain ⟨made, calls, forest, -, hmade, haccounts, hok⟩ :=
    calls_build_forest wordList true wordCount twoWords 0 hrun
  obtain _ | m := made
  · cases hmade
  obtain ⟨tree, last, rfl, hroot, htokens, -⟩ := hok m rfl
  have hsplit : twoWords.take 2 ++ [twoWords[2]] = tree.leaves ++ [last] := htokens
  refine ⟨calls, tree, haccounts, (List.append_inj' hsplit rfl).1.symm, ?_⟩
  rw [hroot, Option.map_some, ← Except.ok.inj hmade]

end Offside.Automaton

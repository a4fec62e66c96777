import Offside.Proofs.Automaton.Lookup
import Offside.Proofs.Automaton.Turns

/-! # Expected terminals — what a message offers and what a move takes

    A message about a token that a state does not know lists the terminals on
    which the state has an action.  A move goes by the same cells, but it takes
    a state to go to for no action at all, and the loader lets such a cell
    stand in the column of a terminal.

    * `Table.Makes` says that all runs make one move on a kind of lookahead;
      `Table.Takes` and `Table.FailsAtOnce` are the two sorts of moves;
    * `expected_iff` tells what is listed: what is taken, and what the state
      has a bare number for;
    * `Document.GotosApart` keeps bare numbers to the columns of
      nonterminals, and then exactly what is taken is listed. -/

namespace Offside.Automaton

/-! ## Moves on a kind of lookahead -/

/-- What a run does with its lookahead. -/
abbrev Reaction : Type 1 :=
  ∀ {ι σ α : Type} [TokenSource ι],
    Bool → Semantics σ α → Configuration ι σ α → Token → Progress ι σ α

/-- The move of a run that fails on its lookahead. -/
def reject (t : Table) : Reaction := fun _ _ c token =>
  .ended (.error (unexpected t c.source c.stack.top token)) c.source c.memory

namespace Table

/-- All runs in a state make one move on a lookahead of a kind, whatever is
    below the state, the source and the semantics. -/
def Makes (t : Table) (state : Nat) (kind : Symbol) (move : Reaction) : Prop :=
  ∀ {ι σ α : Type} [TokenSource ι] (capture : Bool) (sem : Semantics σ α)
    (c : Configuration ι σ α) (token : Token),
    c.stack.top = state → c.lookahead = some token → token.kind = kind →
      step t capture sem c = move capture sem c token

/-- A state shifts a kind of lookahead, reduces before it or accepts. -/
inductive Takes (t : Table) (state : Nat) (kind : Symbol) : Prop
  | shift (q : Nat) : t.Makes state kind (fun capture sem c token =>
      Automaton.shift capture sem c token q) → Takes t state kind
  | reduce (index : Nat) : t.Makes state kind (fun capture sem c _ =>
      Automaton.reduce t capture sem c index) → Takes t state kind
  | accept : t.Makes state kind (fun _ _ c token => Automaton.accept t c token) →
      Takes t state kind

/-- A state fails at once on a kind of lookahead. -/
def FailsAtOnce (t : Table) (state : Nat) (kind : Symbol) : Prop :=
  t.Makes state kind (reject t)

variable {t : Table} {state : Nat} {kind : Symbol}

/-- What is neither an error nor a state to go to is taken. -/
theorem takes_of_action (herror : t.action state kind ≠ .error)
    (hgoto : ∀ q, t.action state kind ≠ .goto q) : t.Takes state kind := by
  cases haction : t.action state kind with
  | shift q =>
      refine .shift q fun _ _ c token htop hla hkind => ?_
      subst htop hkind
      simp only [step, hla, haction]
  | reduce index =>
      refine .reduce index fun _ _ c token htop hla hkind => ?_
      subst htop hkind
      simp only [step, hla, haction]
  | accept =>
      refine .accept fun _ _ c token htop hla hkind => ?_
      subst htop hkind
      simp only [step, hla, haction]
  | goto q => exact absurd haction (hgoto q)
  | error => exact absurd haction herror

/-- On an error or a state to go to a run fails at once. -/
theorem failsAtOnce_of_action
    (h : t.action state kind = .error ∨ ∃ q, t.action state kind = .goto q) :
    t.FailsAtOnce state kind := by
  intro ι σ α _ capture sem c token htop hla hkind
  subst htop hkind
  exact (Turn.reject ⟨hla, rfl⟩ h).step_eq

end Table

/-! ## No state does both -/

/-- The fault of an unexpected token is no breach. -/
theorem unexpected_ne_breach {ι : Type} [TokenSource ι] (t : Table) (source : ι) (state : Nat)
    (token : Token) (cause : Breach) : unexpected t source state token ≠ .breach cause := by
  rw [unexpected]
  split <;> exact nofun

/-- A run in a state with nothing on the stack, before a token of a kind. -/
def probe (state : Nat) (kind : Symbol) : Configuration TokenList Unit Unit :=
  ⟨⟨[state], [], rfl⟩, some ⟨kind, "", .point 0 1 0⟩, ⟨[]⟩, ()⟩

/-- A semantics that gives every reduction up. -/
def refusal : Semantics Unit Unit where
  shift _ _ := ((), ())
  reduce _ _ _ := (.error (.breach .startProduction), ())

/-- A reduction that is always given up ends in a breach. -/
theorem exists_breach_of_reduce (t : Table) (c : Configuration TokenList Unit Unit)
    (index : Nat) : ∃ cause source memory,
      reduce t false refusal c index = .ended (.error (.breach cause)) source memory := by
  rw [reduce]
  rcases t.production index with _ | ⟨_ | lhs, length⟩
  · exact ⟨_, _, _, rfl⟩
  · exact ⟨_, _, _, rfl⟩
  · rcases hpop : c.stack.pop length with fault | popped
    · obtain ⟨-, rfl⟩ := Stack.pop_eq_error.mp hpop
      simp only [hpop]
      exact ⟨_, _, _, rfl⟩
    · simp only [hpop]
      exact ⟨_, _, _, rfl⟩

/-- A state that takes a kind of lookahead does not fail on it at once. -/
theorem Table.Takes.not_failsAtOnce {t : Table} {state : Nat} {kind : Symbol}
    (h : t.Takes state kind) : ¬ t.FailsAtOnce state kind := by
  intro hfails
  have hprobe := hfails false refusal (probe state kind) ⟨kind, "", .point 0 1 0⟩ rfl rfl rfl
  cases h with
  | shift q hmakes =>
      exact nomatch (hmakes _ _ _ _ rfl rfl rfl).symm.trans hprobe
  | reduce index hmakes =>
      obtain ⟨cause, source, memory, hbreach⟩ :=
        exists_breach_of_reduce t (probe state kind) index
      have heq := hbreach.symm.trans ((hmakes _ _ _ _ rfl rfl rfl).symm.trans hprobe)
      injection heq with hresult
      injection hresult with hfault
      exact unexpected_ne_breach _ _ _ _ _ hfault.symm
  | accept hmakes =>
      -- there is no frame to accept
      have heq := (hmakes _ _ _ _ rfl rfl rfl).symm.trans hprobe
      injection heq with hresult
      injection hresult with hfault
      exact unexpected_ne_breach _ _ _ _ _ hfault.symm

namespace Table

variable {t : Table} {state : Nat} {kind : Symbol}

/-- A state takes a kind of lookahead or fails on it at once. -/
theorem failsAtOnce_iff : t.FailsAtOnce state kind ↔ ¬ t.Takes state kind := by
  constructor
  · intro hfails htakes
    exact htakes.not_failsAtOnce hfails
  · intro hnot
    by_contra hfails
    refine hnot (takes_of_action (fun herror => ?_) fun q hgoto => ?_)
    · exact hfails (failsAtOnce_of_action (.inl herror))
    · exact hfails (failsAtOnce_of_action (.inr ⟨q, hgoto⟩))

/-- A state takes a kind of lookahead exactly if its action on it is neither an
    error nor a state to go to. -/
theorem takes_iff : t.Takes state kind ↔
    t.action state kind ≠ .error ∧ ∀ q, t.action state kind ≠ .goto q := by
  constructor
  · intro htakes
    refine ⟨fun herror => ?_, fun q hgoto => ?_⟩
    · exact htakes.not_failsAtOnce (failsAtOnce_of_action (.inl herror))
    · exact htakes.not_failsAtOnce (failsAtOnce_of_action (.inr ⟨q, hgoto⟩))
  · rintro ⟨herror, hgoto⟩
    exact takes_of_action herror hgoto

/-- What is listed is the terminals with an action. -/
theorem mem_expected {name : String} : name ∈ t.expected state ↔
    ∃ symbol, (name, symbol) ∈ t.terminals ∧ t.action state symbol ≠ .error := by
  simp only [expected, List.mem_map, List.mem_mergeSort, List.mem_filter, bne_iff_ne]
  constructor
  · rintro ⟨⟨name, symbol⟩, ⟨hmem, haction⟩, rfl⟩
    exact ⟨symbol, hmem, haction⟩
  · rintro ⟨symbol, hmem, haction⟩
    exact ⟨(name, symbol), ⟨hmem, haction⟩, rfl⟩

end Table

/-! ## Loaded tables -/

/-- Whether a cell is a bare number. -/
def Entry.isNumber : Entry → Bool
  | number _ => true
  | text _ => false

/-- No bare number stands in the column of a token. -/
def Document.GotosApart (d : Document) : Prop :=
  ∀ row ∈ d.table, ∀ c ∈ row, c.2.isNumber = true →
    ∀ token ∈ d.tokens, token.2.id? ≠ Text.word? c.1.toList

instance (d : Document) : Decidable d.GotosApart :=
  inferInstanceAs (Decidable (∀ row ∈ d.table, ∀ c ∈ row, c.2.isNumber = true →
    ∀ token ∈ d.tokens, token.2.id? ≠ Text.word? c.1.toList))

section Loaded

variable {d : Document} {t : Table} {state : Nat} {symbol : Symbol} {name : String}

/-- In a list with each key once a lookup finds what is there. -/
theorem Ascending.lookup_of_mem {α : Type} {entries : List (String × α)} {value : α}
    (h : Ascending entries) (hmem : (name, value) ∈ entries) :
    entries.lookup name = some value := by
  induction entries with
  | nil => cases hmem
  | cons entry entries ih =>
      obtain ⟨hfirst, hrest⟩ := List.pairwise_cons.mp h
      rw [List.lookup_cons]
      rcases List.mem_cons.mp hmem with rfl | hmem
      · rw [beq_self_eq_true]
      · rw [beq_false_of_ne (hfirst _ hmem).ne']
        exact ih hrest hmem

/-- The terminals of a table are named in order if the tokens are. -/
theorem Document.Gives.ascending_terminals (h : d.Gives t) (htokens : Ascending d.tokens) :
    Ascending t.terminals := by
  rw [Ascending, ← List.pairwise_map] at htokens ⊢
  rw [h.terminals.names]
  exact htokens

/-- An action of a table stands in a cell of its document. -/
theorem Document.Gives.exists_cell (h : d.Gives t) (haction : t.action state symbol ≠ .error) :
    ∃ row ∈ d.table, ∃ c ∈ row,
      Text.word? c.1.toList = some symbol ∧ c.2.Spells (t.action state symbol) := by
  have hmem := Table.mem_row rfl haction
  rw [Table.row] at hmem
  cases hrow : t.rows[state]? with
  | none =>
      rw [hrow] at hmem
      cases hmem
  | some row =>
      rw [hrow, Option.getD_some] at hmem
      exact h.exists_written (List.mem_of_getElem? hrow) hmem

/-- If bare numbers are kept apart, no terminal has a state to go to. -/
theorem Document.GotosApart.action_ne_goto (hapart : d.GotosApart) (h : d.Gives t)
    (hmem : (name, symbol) ∈ t.terminals) (q : Nat) : t.action state symbol ≠ .goto q := by
  intro hgoto
  have hcell : t.action state symbol ≠ .error := by
    rw [hgoto]
    exact nofun
  obtain ⟨row, hrow, c, hc, hkey, hspells⟩ := h.exists_cell hcell
  obtain ⟨token, htoken, -, hid⟩ := exists_of_forall₂ h.terminals _ hmem
  have hnumber : c.2.isNumber = true := by
    rw [hgoto] at hspells
    generalize c.2 = entry at hspells
    cases hspells
    rfl
  exact hapart row hrow c hc hnumber token htoken (hid.trans hkey.symm)

/-- **The terminals that are listed are those that are taken, and those with a
    bare number.**  A state fails at once on all others, and on the latter as
    well.  If a document keeps bare numbers to the columns of nonterminals,
    exactly the terminals that are taken are listed. -/
theorem expected_iff {json : Json} (hd : Document.ofJson? json = some d)
    (ht : d.toTable = .ok t) (hname : t.terminal name = some symbol) (state : Nat) :
    (name ∈ t.expected state ↔
      t.Takes state symbol ∨ ∃ q, t.action state symbol = .goto q) ∧
    (t.FailsAtOnce state symbol ↔ ¬ t.Takes state symbol) ∧
    (d.GotosApart → (name ∈ t.expected state ↔ t.Takes state symbol)) := by
  have hgives := Document.gives_toTable ht
  have hterminals := hgives.ascending_terminals (ascending_tokens hd)
  have hmem : (name, symbol) ∈ t.terminals := mem_of_lookup hname
  have hlisted : name ∈ t.expected state ↔ t.action state symbol ≠ .error := by
    rw [Table.mem_expected]
    constructor
    · rintro ⟨other, hother, haction⟩
      obtain rfl := Option.some.inj (hname.symm.trans (hterminals.lookup_of_mem hother))
      exact haction
    · exact fun haction => ⟨symbol, hmem, haction⟩
  refine ⟨?_, Table.failsAtOnce_iff, fun hapart => ?_⟩
  · rw [hlisted, Table.takes_iff]
    cases t.action state symbol <;> simp
  · rw [hlisted, Table.takes_iff]
    exact (and_iff_left fun q => hapart.action_ne_goto hgives hmem q).symm

end Loaded

theorem expected_iff_aliased : ∃ d t, Document.ofJson? aliasedJson = some d ∧
    d.toTable = .ok t ∧ d.GotosApart ∧ t.terminal "x" = some 1 ∧ "x" ∈ t.expected 0 ∧
    t.Takes 0 1 ∧ t.FailsAtOnce 1 1 := by
  obtain ⟨d, hd, hapart, t, ht, hname, hreduce, herror⟩ : ∃ d,
      Document.ofJson? aliasedJson = some d ∧ d.GotosApart ∧ ∃ t, d.toTable = .ok t ∧
        t.terminal "x" = some 1 ∧ t.action 0 1 = .reduce 1 ∧ t.action 1 1 = .error :=
    ⟨_, rfl, by decide, _, rfl, by decide⟩
  have htakes : t.Takes 0 1 := Table.takes_iff.mpr (by rw [hreduce]; simp)
  exact ⟨d, t, hd, ht, hapart, hname, ((expected_iff hd ht hname 0).2.2 hapart).mpr htakes,
    htakes, Table.failsAtOnce_of_action (.inl herror)⟩

/-- A document with a bare number in the column of a token. -/
def strayJson : Json := .object [
  ("tokens", .object [("x", .integer 1), ("$", .integer 2)]),
  ("nonterminals", .object [("S", .integer 0)]),
  ("productions", .array [.array [.integer (-1), .integer 1], .array [.integer 0, .integer 1]]),
  ("table", .array [.object [("0", .integer 1), ("1", .integer 1)],
    .object [("2", .string "acc")]])]

/-- A table can be loaded that lists a terminal on which it fails at once. -/
theorem expected_stray : ∃ d t, Document.ofJson? strayJson = some d ∧ d.toTable = .ok t ∧
    0 < t.stateCount ∧ t.terminal "x" = some 1 ∧ "x" ∈ t.expected 0 ∧ ¬ t.Takes 0 1 ∧
    t.FailsAtOnce 0 1 := by
  obtain ⟨d, hd, t, ht, hstate, hname, hmem, hgoto⟩ : ∃ d,
      Document.ofJson? strayJson = some d ∧ ∃ t, d.toTable = .ok t ∧ 0 < t.stateCount ∧
        t.terminal "x" = some 1 ∧ ("x", 1) ∈ t.terminals ∧ t.action 0 1 = .goto 1 :=
    ⟨_, rfl, _, rfl, by decide⟩
  have hfails : t.FailsAtOnce 0 1 := Table.failsAtOnce_of_action (.inr ⟨1, hgoto⟩)
  have hcell : t.action 0 1 ≠ .error := by
    rw [hgoto]
    exact nofun
  exact ⟨d, t, hd, ht, hstate, hname, Table.mem_expected.mpr ⟨1, hmem, hcell⟩,
    Table.failsAtOnce_iff.mp hfails, hfails⟩

end Offside.Automaton

import Offside.Proofs.Automaton.Expected
import Offside.Proofs.Automaton.Faults
import Offside.Proofs.Automaton.Record

/-! # Inside a table — what a loaded table keeps a run from

    The cells of a document are checked once, when it is loaded.  A run over
    the table then meets states and productions that the table has and no
    others, also if the table fits no grammar: it may still reduce by the start
    production, reduce what is not on the stack, or lead nowhere.

    * `Table.Closed` is what loading has checked, and `Stack.Inside` what every
      move keeps of the stack;
    * `reduceOn` is a reduction that works on its stack in place, so that it
      can be said what it leaves behind, and `step_eq_reduceOn` says that it
      is what a move does;
    * `Violation` lists the moves that end in a breach. -/

namespace Offside.Automaton

variable {ι σ α : Type} [TokenSource ι]

/-- The states and productions that the cells of a table name are there, and
    so is the initial state. -/
structure Table.Closed (t : Table) : Prop where
  initial : initialState < t.stateCount
  cell : ∀ state symbol, (t.action state symbol).Inside t.stateCount t.productions.length

/-- A stack of states of a table, one more than there are frames, with the
    initial state at the bottom. -/
structure Stack.Inside (t : Table) (s : Stack α) : Prop where
  state : ∀ q ∈ s.states, q < t.stateCount
  height : s.states.length = s.frames.length + 1
  bottom : s.states.getLast? = some initialState

/-- A reduction that works on a stack in place: whether it has been made, and
    the stack and the memory that it leaves behind. -/
def reduceOn (t : Table) (capture : Bool) (sem : Semantics σ α) (index : Nat) (stack : Stack α)
    (memory : σ) : Except Fault Unit × Stack α × σ :=
  match t.production index with
  | none => (.error (.breach (.unknownProduction index)), stack, memory)
  | some ⟨none, _⟩ => (.error (.breach .startProduction), stack, memory)
  | some ⟨some lhs, length⟩ =>
      match stack.pop length with
      | .error fault => (.error fault, stack, memory)
      | .ok (frames, below) =>
          let r := reductionOf capture frames
          match sem.reduce index r memory with
          | (.error fault, memory) => (.error fault, below, memory)
          | (.ok value, memory) =>
              match t.action below.top lhs with
              | .goto state => (.ok (), below.push ⟨value, r.span⟩ state, memory)
              | found => (.error (.breach (.missingGoto below.top lhs found)), below, memory)

/-- A run behind a reduction in place: with what it leaves the run goes on, or it
    ends if the reduction has not been made. -/
def Configuration.resume (c : Configuration ι σ α) :
    Except Fault Unit × Stack α × σ → Progress ι σ α
  | (.ok (), stack, memory) => .running ⟨stack, c.lookahead, c.source, memory⟩
  | (.error fault, _, memory) => .ended (.error fault) c.source memory

/-- All the ways in which a move ends in a breach, with the memory that is left. -/
inductive Violation (t : Table) (capture : Bool) (sem : Semantics σ α)
    (c : Configuration ι σ α) : Breach → σ → Prop
  /-- A reduction by a start production, which touches nothing. -/
  | start {token : Token} {index length : Nat} : c.Meets t token (.reduce index) →
      t.production index = some ⟨none, length⟩ →
      reduceOn t capture sem index c.stack c.memory =
        (.error (.breach .startProduction), c.stack, c.memory) →
      Violation t capture sem c .startProduction c.memory
  /-- A reduction of more than there is, for which the semantics is not asked. -/
  | overPop {token : Token} {index length : Nat} {lhs : Symbol} :
      c.Meets t token (.reduce index) → t.production index = some ⟨some lhs, length⟩ →
      c.stack.depth < length →
      Violation t capture sem c (.overPop length c.stack.depth) c.memory
  /-- An acceptance of nothing, for which the semantics is not asked. -/
  | bare {token : Token} : c.Meets t token .accept → c.stack.depth = 0 →
      Violation t capture sem c (.overPop 1 0) c.memory
  /-- A reduction that has been made and leads nowhere. -/
  | missingGoto {index : Nat} {lhs : Symbol} {frames : List (Frame α)} {below : Stack α}
      {value : α} {memory : σ} : Due t c index lhs frames below →
      sem.reduce index (reductionOf capture frames) c.memory = (.ok value, memory) →
      (∀ q, t.action below.top lhs ≠ .goto q) →
      Violation t capture sem c (.missingGoto below.top lhs (t.action below.top lhs)) memory
  /-- A reduction that the semantics itself gives up. -/
  | refused {index : Nat} {lhs : Symbol} {frames : List (Frame α)} {below : Stack α}
      {breach : Breach} {memory : σ} : Due t c index lhs frames below →
      sem.reduce index (reductionOf capture frames) c.memory = (.error (.breach breach), memory) →
      Violation t capture sem c breach memory

variable {t : Table} {capture : Bool} {sem : Semantics σ α} {c : Configuration ι σ α}

/-! ## What loading has checked -/

/-- A cell spells one action only. -/
theorem Entry.Spells.unique {e : Entry} {a b : Action} (ha : e.Spells a) (hb : e.Spells b) :
    a = b := by
  have hok : e.action 0 0 = .ok a := Entry.action_eq_ok_iff.mpr ha
  exact Except.ok.inj (hok.symm.trans (Entry.action_eq_ok_iff.mpr hb))

/-- A document that has been loaded is sound. -/
theorem Document.sound_of_toTable {d : Document} (h : d.toTable = .ok t) : d.Sound :=
  Document.sound_iff.mpr (d.checks_toTable.ok_iff.mp ⟨t, h⟩)

theorem Document.closed_of_toTable {d : Document} (h : d.toTable = .ok t) : t.Closed := by
  have hgives := gives_toTable h
  have hsound := sound_of_toTable h
  have hstates : t.stateCount = d.table.length := hgives.rows.length_eq.symm
  have hproductions : t.productions.length = d.productions.length := by
    rw [hgives.productions, List.length_map]
  constructor
  · rw [hstates]
    exact List.length_pos_iff.mpr hsound.row
  · intro state symbol
    rw [hstates, hproductions]
    by_cases herror : t.action state symbol = .error
    · rw [herror]
      exact ⟨nofun, nofun⟩
    · obtain ⟨row, hrow, c, hc, -, hspells⟩ := hgives.exists_cell herror
      obtain ⟨a, ha, hinside⟩ := hsound.cell row hrow c hc
      exact ha.unique hspells ▸ hinside

/-- A table that has been read is closed. -/
theorem Table.closed_of_read {text : String} (h : Table.read text = .ok t) : t.Closed := by
  rw [Table.read] at h
  split at h
  next => cases h
  next d => exact Document.closed_of_toTable h

namespace Table.Closed

theorem shift_lt (h : t.Closed) {state symbol q : Nat} (ha : t.action state symbol = .shift q) :
    q < t.stateCount :=
  (h.cell state symbol).1 q (by rw [ha]; rfl)

theorem goto_lt (h : t.Closed) {state symbol q : Nat} (ha : t.action state symbol = .goto q) :
    q < t.stateCount :=
  (h.cell state symbol).1 q (by rw [ha]; rfl)

theorem exists_production (h : t.Closed) {state symbol index : Nat}
    (ha : t.action state symbol = .reduce index) : ∃ p, t.production index = some p := by
  have hlt := (h.cell state symbol).2 index (by rw [ha]; rfl)
  exact ⟨_, List.getElem?_eq_getElem hlt⟩

end Table.Closed

/-! ## The stack -/

namespace Stack

variable {s below : Stack α}

theorem inside_start (h : t.Closed) : (start : Stack α).Inside t where
  state q hq := by
    rw [List.mem_singleton.mp hq]
    exact h.initial
  height := rfl
  bottom := rfl

namespace Inside

theorem push (h : s.Inside t) (frame : Frame α) {q : Nat} (hq : q < t.stateCount) :
    (s.push frame q).Inside t where
  state := List.forall_mem_cons.mpr ⟨hq, h.state⟩
  height := (s.push frame q).height
  bottom := by
    rw [Stack.push, List.getLast?_cons, h.bottom]
    rfl

theorem pop (h : s.Inside t) {count : Nat} {frames : List (Frame α)}
    (hpop : s.pop count = .ok (frames, below)) : below.Inside t := by
  obtain ⟨hle, -, hstates, -⟩ := pop_eq_ok.mp hpop
  refine ⟨fun q hq => ?_, below.height, ?_⟩
  · rw [hstates] at hq
    exact h.state q (List.mem_of_mem_drop hq)
  · -- the state at the bottom is not among those that come off
    have hkept : ¬ s.states.length ≤ count := by
      rw [s.height]
      omega
    rw [hstates, List.getLast?_drop, if_neg hkept]
    exact h.bottom

end Inside

end Stack

/-! ## Moves -/

/-- The stack of a run that goes on is inside the table. -/
def Progress.Inside (t : Table) (p : Progress ι σ α) : Prop :=
  ∀ c, p = .running c → c.stack.Inside t

theorem inside_fetch {stack : Stack α} (h : stack.Inside t) (source : ι) (memory : σ) :
    (fetch stack source memory).Inside t := by
  intro c hc
  rw [(fetch_eq_running.mp hc).2.1]
  exact h

/-- A move keeps the stack inside the table. -/
theorem inside_step (ht : t.Closed) (h : c.stack.Inside t) :
    (step t capture sem c).Inside t := by
  have hturn := step_turn t capture sem c
  generalize step t capture sem c = p at hturn
  cases hturn with
  | shift hmeets => exact inside_fetch (h.push _ (ht.shift_lt hmeets.action)) _ _
  | reduce hdue _ hgoto =>
      rintro _ ⟨⟩
      exact (h.pop hdue.pop).push _ (ht.goto_lt hgoto)
  | exhausted | undue | refused | lost | bare | accept | excess | broken | reject => exact nofun

/-- A run keeps the stack inside the table. -/
theorem inside_runFor (ht : t.Closed) (limit : Nat) (source : ι) (memory : σ) :
    (runFor t capture sem limit source memory).Inside t :=
  moves_induction (P := Progress.Inside t) (fun c hc => inside_step ht (hc c rfl))
    (inside_fetch (Stack.inside_start ht) source memory) limit

/-! ## Breaches -/

omit [TokenSource ι] in
/-- A reduction does in place what a move makes of it. -/
theorem reduce_eq_reduceOn (t : Table) (capture : Bool) (sem : Semantics σ α)
    (c : Configuration ι σ α) (index : Nat) :
    reduce t capture sem c index =
      c.resume (reduceOn t capture sem index c.stack c.memory) := by
  rw [reduce, reduceOn]
  rcases hproduction : t.production index with _ | ⟨_ | lhs, length⟩
  · rfl
  · rfl
  rcases hpop : c.stack.pop length with fault | ⟨frames, below⟩
  · simp only [hpop]
    rfl
  rcases hv : sem.reduce index (reductionOf capture frames) c.memory with ⟨fault | value, memory⟩
  · simp only [hpop, hv]
    rfl
  simp only [hpop, hv]
  cases t.action below.top lhs <;> rfl

/-- A move that reduces goes on with what the reduction leaves in place. -/
theorem step_eq_reduceOn {token : Token} {index : Nat} (h : c.Meets t token (.reduce index)) :
    step t capture sem c = c.resume (reduceOn t capture sem index c.stack c.memory) := by
  rw [step, h.lookahead]
  simp only [h.action]
  exact reduce_eq_reduceOn t capture sem c index

/-- A move over a closed table breaches in one of the listed ways, if the source
    does not. -/
theorem violation_of_step (ht : t.Closed)
    (hsource : ∀ s s' : ι, ∀ b, TokenSource.next s ≠ (.error (.breach b), s'))
    {breach : Breach} {source : ι} {memory : σ}
    (h : step t capture sem c = .ended (.error (.breach breach)) source memory) :
    Violation t capture sem c breach memory := by
  have hturn := step_eq_iff.mp h
  generalize hp : Progress.ended (.error (.breach breach)) source memory = p at hturn
  cases hturn with
  | exhausted | reduce | accept => cases hp
  | shift => exact absurd (fetch_eq_error hp.symm) (hsource _ _ _)
  | undue hmeets hundue =>
      cases hundue with
      | unknown hnone =>
          obtain ⟨p, hsome⟩ := ht.exists_production hmeets.action
          exact nomatch hnone.symm.trans hsome
      | start hproduction =>
          cases hp
          refine .start hmeets hproduction ?_
          simp only [reduceOn, hproduction]
      | overPop hproduction hpop =>
          obtain ⟨hlt, rfl⟩ := Stack.pop_eq_error.mp hpop
          cases hp
          exact .overPop hmeets hproduction hlt
  | refused hdue hv =>
      cases hp
      exact .refused hdue hv
  | lost hdue hv hnot =>
      cases hp
      exact .missingGoto hdue hv hnot
  | bare hmeets hpop =>
      obtain ⟨hlt, rfl⟩ := Stack.pop_eq_error.mp hpop
      have hdepth : c.stack.depth = 0 := Nat.lt_one_iff.mp hlt
      rw [hdepth] at hp
      cases hp
      exact .bare hmeets hdepth
  | broken _ _ _ hnext =>
      cases hp
      exact absurd hnext (hsource _ _ _)
  | excess | reject =>
      injection hp with hfault
      injection hfault with hfault
      exact absurd hfault.symm (unexpected_ne_breach _ _ _ _ _)

/-- A list of tokens has no faults. -/
theorem TokenList.next_ne_error (s s' : TokenList) (fault : Fault) :
    TokenSource.next s ≠ (.error fault, s') := nofun

/-- **A run stays inside a table that has been read.**  Whatever the tokens and
    the semantics are, and although the table may fit no grammar: all states on
    the stack are those of the table, there is one more of them than there are
    frames, the initial state is at the bottom, and every production that is to
    be reduced is there, with a reduction that works on the stack in place.  If
    a run ends in a breach, the semantics has given a reduction up, or its last
    move is one of these: a reduction by a start production, which leaves the
    stack and the record of calls as they were; a reduction or an acceptance of
    more frames than there are, before any call; or a reduction that leads
    nowhere. -/
theorem stays_inside {text : String} (ht : Table.read text = .ok t) (tokens : List Token)
    (capture : Bool) (sem : Semantics σ α) (memory : σ) (limit : Nat) :
    (∀ c, runFor t capture sem limit (TokenList.mk tokens) memory = .running c →
      c.stack.Inside t ∧ ∀ token index, c.Meets t token (.reduce index) →
        (∃ p, t.production index = some p) ∧
          step t capture sem c = c.resume (reduceOn t capture sem index c.stack c.memory)) ∧
    ∀ breach source memory', runFor t capture sem limit (TokenList.mk tokens) memory =
        .ended (.error (.breach breach)) source memory' →
      ∃ k < limit, ∃ c record, runFor t capture sem.recorded k (TokenList.mk tokens)
          (Record.start α memory) = .running c ∧
        Violation t capture sem.recorded c breach record ∧ record.memory = memory' := by
  have hclosed := Table.closed_of_read ht
  refine ⟨fun c hc => ⟨inside_runFor hclosed _ _ _ c hc, ?_⟩, ?_⟩
  · intro token index hmeets
    exact ⟨hclosed.exists_production hmeets.action, step_eq_reduceOn hmeets⟩
  · intro breach source memory' hrun
    -- the calls are written down in a run that makes the same moves
    have hmap := runFor_map t capture sem.recorded_over limit (TokenList.mk tokens)
      (Record.start α memory)
    rw [show (Record.start α memory).memory = memory from rfl, hrun] at hmap
    cases hrecorded : runFor t capture sem.recorded limit (TokenList.mk tokens)
        (Record.start α memory) with
    | running c =>
        rw [hrecorded] at hmap
        cases hmap
    | ended result source' record =>
        rw [hrecorded] at hmap
        obtain ⟨hresult, -, hmemory⟩ := Progress.ended.inj hmap
        obtain rfl : result = .error (.breach breach) := by
          cases result with
          | ok value => cases hresult
          | error fault =>
              cases hresult
              rfl
        rcases exists_last_move hrecorded with hfetch | ⟨k, hk, c, hc, hlast⟩
        · cases hfetch
        · exact ⟨k, hk, c, record, hc,
            violation_of_step hclosed (fun s s' b => TokenList.next_ne_error s s' _) hlast,
            hmemory.symm⟩

/-- A document of two states that fits no grammar. -/
def looseText : String :=
  "\x7b\"tokens\": \x7b\"x\": 1, \"y\": 2, \"$\": 3\x7d, " ++
    "\"productions\": [[-1, 1], [0, 1], [0, 2]], \"table\": [" ++
    "\x7b\"1\": \"s1\", \"2\": \"r0\", \"3\": \"r2\"\x7d, " ++
    "\x7b\"1\": \"r1\", \"2\": \"r0\", \"3\": \"acc\"\x7d]\x7d"

/-- The table that it describes. -/
def looseTable : Table where
  rows := [[(3, .reduce 2), (2, .reduce 0), (1, .shift 1)],
    [(3, .accept), (2, .reduce 0), (1, .reduce 1)]]
  productions := [⟨none, 1⟩, ⟨some 0, 1⟩, ⟨some 0, 2⟩]
  terminals := [("$", 3), ("x", 1), ("y", 2)]
  nonterminals := []
  endSymbol := 3

/-- Tokens of these kinds. -/
def looseTokens (kinds : List Symbol) : TokenList :=
  ⟨kinds.map fun kind => ⟨kind, "", .point 0 1 0⟩⟩

/-- A semantics that keeps the productions it has reduced. -/
def listing : Semantics (List Nat) Unit where
  shift _ reduced := ((), reduced)
  reduce index _ reduced := (.ok (), reduced ++ [index])

/-- The last move of a run over the table is a violation. -/
def LooseViolation (kinds : List Symbol) (breach : Breach) (reduced : List Nat) : Prop :=
  ∃ k < 3, ∃ c record, runFor looseTable true listing.recorded k (looseTokens kinds)
      (Record.start Unit []) = .running c ∧
    Violation looseTable true listing.recorded c breach record ∧ record.memory = reduced

theorem stays_inside_looseText : Table.read looseText = .ok looseTable ∧
    LooseViolation [1, 2] .startProduction [] ∧ LooseViolation [3] (.overPop 2 0) [] ∧
    LooseViolation [1, 1] (.missingGoto 0 0 .error) [1] := by
  have hread : Table.read looseText = .ok looseTable := by decide +kernel
  have hlast (kinds : List Symbol) :=
    (stays_inside hread (looseTokens kinds).remaining true listing [] 3).2
  exact ⟨hread, hlast [1, 2] _ _ _ rfl, hlast [3] _ _ _ rfl, hlast [1, 1] _ _ _ rfl⟩

end Offside.Automaton

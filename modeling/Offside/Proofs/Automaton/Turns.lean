import Offside.Proofs.Automaton.Run

/-! # Turns — what a move does, whatever the table

    A table need not fit any grammar: it may reduce what is not on the stack,
    lead nowhere after a reduction, or accept in the middle of a text.  All
    that a move can come to is listed here once, for every table, semantics
    and source.

    * `Due` is a reduction for which the stack has the frames;
    * `Turn` lists the moves, and `step_eq_iff` says that it is the list. -/

namespace Offside.Automaton

variable {ι σ α : Type} [TokenSource ι]

/-- The lookahead of a configuration and what its state does on it. -/
structure Configuration.Meets (t : Table) (c : Configuration ι σ α) (token : Token)
    (action : Action) : Prop where
  lookahead : c.lookahead = some token
  action : t.action c.stack.top token.kind = action

/-- A reduction is to be made, and the stack has the frames for it. -/
structure Due (t : Table) (c : Configuration ι σ α) (index : Nat) (lhs : Symbol)
    (frames : List (Frame α)) (below : Stack α) : Prop where
  meets : ∃ token, c.Meets t token (.reduce index)
  production : t.production index = some ⟨some lhs, frames.length⟩
  pop : c.stack.pop frames.length = .ok (frames, below)

/-- Why a reduction cannot be made at all. -/
inductive Undue (t : Table) (stack : Stack α) (index : Nat) : Fault → Prop
  | unknown : t.production index = none →
      Undue t stack index (.breach (.unknownProduction index))
  | start {length : Nat} : t.production index = some ⟨none, length⟩ →
      Undue t stack index (.breach .startProduction)
  | overPop {lhs : Symbol} {length : Nat} {fault : Fault} :
      t.production index = some ⟨some lhs, length⟩ → stack.pop length = .error fault →
      Undue t stack index fault

/-- All that a move can come to. -/
inductive Turn (t : Table) (capture : Bool) (sem : Semantics σ α) (c : Configuration ι σ α) :
    Progress ι σ α → Prop
  /-- There is no lookahead. -/
  | exhausted : c.lookahead = none →
      Turn t capture sem c (.ended (.error .unexpectedEnd) c.source c.memory)
  /-- The lookahead is shifted. -/
  | shift {token : Token} {q : Nat} {value : α} {memory : σ} : c.Meets t token (.shift q) →
      sem.shift token c.memory = (value, memory) →
      Turn t capture sem c (fetch
        (c.stack.push ⟨value, if capture then some token.span else none⟩ q) c.source memory)
  /-- A reduction cannot be made, and the semantics is not asked. -/
  | undue {token : Token} {index : Nat} {fault : Fault} : c.Meets t token (.reduce index) →
      Undue t c.stack index fault →
      Turn t capture sem c (.ended (.error fault) c.source c.memory)
  /-- The semantics gives a reduction up. -/
  | refused {index : Nat} {lhs : Symbol} {frames : List (Frame α)} {below : Stack α}
      {fault : Fault} {memory : σ} : Due t c index lhs frames below →
      sem.reduce index (reductionOf capture frames) c.memory = (.error fault, memory) →
      Turn t capture sem c (.ended (.error fault) c.source memory)
  /-- A reduction is made. -/
  | reduce {index : Nat} {lhs : Symbol} {frames : List (Frame α)} {below : Stack α} {value : α}
      {memory : σ} {q : Nat} : Due t c index lhs frames below →
      sem.reduce index (reductionOf capture frames) c.memory = (.ok value, memory) →
      t.action below.top lhs = .goto q →
      Turn t capture sem c (.running
        ⟨below.push ⟨value, (reductionOf capture frames).span⟩ q, c.lookahead, c.source, memory⟩)
  /-- A reduction is made, and it leads nowhere. -/
  | lost {index : Nat} {lhs : Symbol} {frames : List (Frame α)} {below : Stack α} {value : α}
      {memory : σ} : Due t c index lhs frames below →
      sem.reduce index (reductionOf capture frames) c.memory = (.ok value, memory) →
      (∀ q, t.action below.top lhs ≠ .goto q) →
      Turn t capture sem c (.ended
        (.error (.breach (.missingGoto below.top lhs (t.action below.top lhs)))) c.source memory)
  /-- There is nothing on the stack that could be accepted. -/
  | bare {token : Token} {fault : Fault} : c.Meets t token .accept →
      c.stack.pop 1 = .error fault →
      Turn t capture sem c (.ended (.error fault) c.source c.memory)
  /-- The only frame on the stack is accepted at the end of the source. -/
  | accept {token : Token} {frame : Frame α} {below : Stack α} : c.Meets t token .accept →
      c.stack.pop 1 = .ok ([frame], below) → below.isInitial = true →
      TokenSource.hasMore c.source = false →
      Turn t capture sem c (.ended (.ok frame.value) c.source c.memory)
  /-- More is on the stack or in the source, and what comes next is to blame. -/
  | excess {token : Token} {frame : Frame α} {below : Stack α} {extra : Option Token}
      {source : ι} : c.Meets t token .accept → c.stack.pop 1 = .ok ([frame], below) →
      (below.isInitial && !TokenSource.hasMore c.source) = false →
      TokenSource.next c.source = (.ok extra, source) →
      Turn t capture sem c
        (.ended (.error (unexpected t source c.stack.top (extra.getD token))) source c.memory)
  /-- More is on the stack or in the source, and the source fails. -/
  | broken {token : Token} {frame : Frame α} {below : Stack α} {fault : Fault} {source : ι} :
      c.Meets t token .accept → c.stack.pop 1 = .ok ([frame], below) →
      (below.isInitial && !TokenSource.hasMore c.source) = false →
      TokenSource.next c.source = (.error fault, source) →
      Turn t capture sem c (.ended (.error fault) source c.memory)
  /-- The state does not know the lookahead. -/
  | reject {token : Token} {action : Action} : c.Meets t token action →
      action = .error ∨ (∃ q, action = .goto q) →
      Turn t capture sem c
        (.ended (.error (unexpected t c.source c.stack.top token)) c.source c.memory)

variable {t : Table} {capture : Bool} {sem : Semantics σ α} {c : Configuration ι σ α}

/-! ## Popping -/

/-- As many frames come off a stack as are asked for. -/
theorem Stack.length_of_pop {s below : Stack α} {count : Nat} {frames : List (Frame α)}
    (h : s.pop count = .ok (frames, below)) : frames.length = count := by
  obtain ⟨hle, rfl, -⟩ := Stack.pop_eq_ok.mp h
  rw [List.length_reverse, List.length_take, Nat.min_eq_left hle]

/-- One frame comes off a stack at a time. -/
theorem Stack.exists_of_pop_one {s below : Stack α} {frames : List (Frame α)}
    (h : s.pop 1 = .ok (frames, below)) : ∃ frame, frames = [frame] :=
  List.length_eq_one_iff.mp (Stack.length_of_pop h)

/-! ## The list is complete -/

theorem reduce_turn {token : Token} {index : Nat} (h : c.Meets t token (.reduce index)) :
    Turn t capture sem c (reduce t capture sem c index) := by
  rw [Automaton.reduce]
  rcases hproduction : t.production index with _ | ⟨_ | lhs, length⟩
  · exact .undue h (.unknown hproduction)
  · exact .undue h (.start hproduction)
  rcases hpop : c.stack.pop length with fault | ⟨frames, below⟩
  · simp only [hpop]
    exact .undue h (.overPop hproduction hpop)
  simp only [hpop]
  have hlength := Stack.length_of_pop hpop
  have hdue : Due t c index lhs frames below :=
    ⟨⟨token, h⟩, hlength.symm ▸ hproduction, hlength.symm ▸ hpop⟩
  rcases hvalue : sem.reduce index (reductionOf capture frames) c.memory with
    ⟨fault | value, memory⟩
  · exact .refused hdue hvalue
  simp only
  cases haction : t.action below.top lhs with
  | goto q => exact .reduce hdue hvalue haction
  | shift | reduce | accept | error =>
      simp only
      rw [← haction]
      exact .lost hdue hvalue fun q hgoto => nomatch haction.symm.trans hgoto

theorem accept_turn {token : Token} (h : c.Meets t token .accept) :
    Turn t capture sem c (accept t c token) := by
  rw [Automaton.accept]
  rcases hpop : c.stack.pop 1 with fault | ⟨frames, below⟩
  · exact .bare h hpop
  obtain ⟨frame, rfl⟩ := Stack.exists_of_pop_one hpop
  simp only
  cases hend : below.isInitial && !TokenSource.hasMore c.source with
  | true =>
      obtain ⟨hinitial, hmore⟩ := Bool.and_eq_true_iff.mp hend
      exact .accept h hpop hinitial (by simpa using hmore)
  | false =>
      simp only [Bool.false_eq_true, if_false]
      match hnext : TokenSource.next c.source with
      | (.error fault, source) => exact .broken h hpop hend hnext
      | (.ok extra, source) => exact .excess h hpop hend hnext

theorem step_turn (t : Table) (capture : Bool) (sem : Semantics σ α) (c : Configuration ι σ α) :
    Turn t capture sem c (step t capture sem c) := by
  rw [step]
  cases hla : c.lookahead with
  | none => exact .exhausted hla
  | some token =>
      cases haction : t.action c.stack.top token.kind with
      | shift q =>
          simp only [haction]
          exact .shift ⟨hla, haction⟩ rfl
      | reduce index =>
          simp only [haction]
          exact reduce_turn ⟨hla, haction⟩
      | accept =>
          simp only [haction]
          exact accept_turn ⟨hla, haction⟩
      | goto q =>
          simp only [haction]
          exact .reject ⟨hla, haction⟩ (.inr ⟨q, rfl⟩)
      | error =>
          simp only [haction]
          exact .reject ⟨hla, haction⟩ (.inl rfl)

/-! ## Each case is a move -/

/-- A turn is what the move does. -/
theorem Turn.step_eq {p : Progress ι σ α} (h : Turn t capture sem c p) :
    step t capture sem c = p := by
  cases h with
  | exhausted hla => simp only [step, hla]
  | shift hmeets hvalue =>
      simp only [step, hmeets.lookahead, hmeets.action, Automaton.shift, hvalue]
  | undue hmeets hundue =>
      simp only [step, hmeets.lookahead, hmeets.action, Automaton.reduce]
      cases hundue with
      | unknown hproduction => simp only [hproduction]
      | start hproduction => simp only [hproduction]
      | overPop hproduction hpop => simp only [hproduction, hpop]
  | refused hdue hvalue =>
      obtain ⟨⟨token, hla, haction⟩, hproduction, hpop⟩ := hdue
      simp only [step, hla, haction, Automaton.reduce, hproduction, hpop, hvalue]
  | reduce hdue hvalue hgoto =>
      obtain ⟨⟨token, hla, haction⟩, hproduction, hpop⟩ := hdue
      simp only [step, hla, haction, Automaton.reduce, hproduction, hpop, hvalue, hgoto]
  | lost hdue hvalue hnot =>
      obtain ⟨⟨token, hla, haction⟩, hproduction, hpop⟩ := hdue
      simp only [step, hla, haction, Automaton.reduce, hproduction, hpop, hvalue]
  | bare hmeets hpop =>
      simp only [step, hmeets.lookahead, hmeets.action, Automaton.accept, hpop]
  | accept hmeets hpop hinitial hmore =>
      simp only [step, hmeets.lookahead, hmeets.action, Automaton.accept, hpop, hinitial, hmore]
      rfl
  | excess hmeets hpop hend hnext | broken hmeets hpop hend hnext =>
      simp only [step, hmeets.lookahead, hmeets.action, Automaton.accept, hpop, hend, hnext]
      simp only [Bool.false_eq_true, if_false]
  | reject hmeets hunknown =>
      rcases hunknown with rfl | ⟨q, rfl⟩ <;>
        simp only [step, hmeets.lookahead, hmeets.action]

/-- A move comes to exactly one of the turns that are listed. -/
theorem step_eq_iff {p : Progress ι σ α} :
    step t capture sem c = p ↔ Turn t capture sem c p := by
  constructor
  · rintro rfl
    exact step_turn t capture sem c
  · exact Turn.step_eq

end Offside.Automaton

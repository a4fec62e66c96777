import Offside.Proofs.Automaton.Turns

/-! # Records — the calls that a run makes

    A run can be watched without being disturbed.  Values are replaced by
    values that carry more, and as long as the calls to the semantics agree
    on what both have, the moves do.

    * `Semantics.Over` says that one semantics carries more than another,
      and `step_map` that the moves do not notice;
    * `Semantics.recorded` numbers the calls, writes them down and marks each
      value with the number of the call that made it. -/

namespace Offside.Automaton

variable {ι σ ρ α β : Type} [TokenSource ι]

/-! ## Richer values -/

/-- A frame with another value. -/
def Frame.map (f : β → α) (frame : Frame β) : Frame α := ⟨f frame.value, frame.span⟩

/-- A stack with other values. -/
def Stack.map (f : β → α) (s : Stack β) : Stack α :=
  ⟨s.states, s.frames.map (Frame.map f), by rw [List.length_map]; exact s.height⟩

/-- A reduction of other values. -/
def Reduction.map (f : β → α) (r : Reduction β) : Reduction α :=
  ⟨r.values.map f, r.spans, r.span⟩

/-- A configuration with other values and another memory. -/
def Configuration.map (f : β → α) (g : ρ → σ) (c : Configuration ι ρ β) :
    Configuration ι σ α := ⟨c.stack.map f, c.lookahead, c.source, g c.memory⟩

/-- A point of a run with other values and another memory. -/
def Progress.map (f : β → α) (g : ρ → σ) : Progress ι ρ β → Progress ι σ α
  | .running c => .running (c.map f g)
  | .ended result source memory => .ended (result.map f) source (g memory)

/-- The values of one semantics hold those of another, and so do their
    memories. -/
structure Semantics.Over (rich : Semantics ρ β) (sem : Semantics σ α) (f : β → α) (g : ρ → σ) :
    Prop where
  shift : ∀ token memory,
    sem.shift token (g memory) = Prod.map f g (rich.shift token memory)
  reduce : ∀ index r memory,
    sem.reduce index (r.map f) (g memory) = Prod.map (Except.map f) g (rich.reduce index r memory)

variable {t : Table} {capture : Bool} {rich : Semantics ρ β} {sem : Semantics σ α} {f : β → α}
  {g : ρ → σ}

@[simp] theorem Stack.isInitial_map (s : Stack β) : (s.map f).isInitial = s.isInitial := by
  simp [Stack.isInitial, Stack.map]

@[simp] theorem Stack.depth_map (s : Stack β) : (s.map f).depth = s.depth := List.length_map _

theorem Stack.pop_map_ok {s below : Stack β} {count : Nat} {frames : List (Frame β)}
    (h : s.pop count = .ok (frames, below)) :
    (s.map f).pop count = .ok (frames.map (Frame.map f), below.map f) := by
  obtain ⟨hle, rfl, hstates, hframes⟩ := Stack.pop_eq_ok.mp h
  refine Stack.pop_eq_ok.mpr ⟨hle.trans_eq (Stack.depth_map s).symm, ?_, hstates, ?_⟩
  · rw [Stack.map, List.map_reverse, List.map_take]
  · exact (congrArg (List.map (Frame.map f)) hframes).trans List.map_drop

theorem Stack.pop_map_error {s : Stack β} {count : Nat} {fault : Fault}
    (h : s.pop count = .error fault) : (s.map f).pop count = .error fault := by
  obtain ⟨hlt, rfl⟩ := Stack.pop_eq_error.mp h
  rw [← Stack.depth_map s] at hlt ⊢
  exact Stack.pop_eq_error.mpr ⟨hlt, rfl⟩

theorem reductionOf_map (capture : Bool) (frames : List (Frame β)) :
    reductionOf capture (frames.map (Frame.map f)) = (reductionOf capture frames).map f := by
  simp [reductionOf, Reduction.map, Frame.map, Function.comp_def]

theorem span_reductionOf_map (capture : Bool) (frames : List (Frame β)) :
    (reductionOf capture (frames.map (Frame.map f))).span = (reductionOf capture frames).span := by
  rw [reductionOf_map]
  rfl

theorem fetch_map (st : Stack β) (s : ι) (memory : ρ) :
    (fetch st s memory).map f g = fetch (st.map f) s (g memory) := by
  simp only [fetch]
  rcases TokenSource.next s with ⟨fault | lookahead, s'⟩ <;> rfl

omit [TokenSource ι] in
theorem Due.map {c : Configuration ι ρ β} {index : Nat} {lhs : Symbol} {frames : List (Frame β)}
    {below : Stack β} (h : Due t c index lhs frames below) (f : β → α) (g : ρ → σ) :
    Due t (c.map f g) index lhs (frames.map (Frame.map f)) (below.map f) where
  meets := h.meets.imp fun _ hmeets => ⟨hmeets.lookahead, hmeets.action⟩
  production := by simpa using h.production
  pop := by simpa [Configuration.map] using Stack.pop_map_ok h.pop

/-- What a move comes to, it comes to with less in the values. -/
theorem Turn.map (h : rich.Over sem f g) {c : Configuration ι ρ β} {p : Progress ι ρ β}
    (hturn : Turn t capture rich c p) : Turn t capture sem (c.map f g) (p.map f g) := by
  have hmeets {token : Token} {action : Action} (hm : c.Meets t token action) :
      (c.map f g).Meets t token action := ⟨hm.lookahead, hm.action⟩
  have hreduce {index : Nat} {frames : List (Frame β)} {result : Except Fault β} {memory : ρ}
      (hv : rich.reduce index (reductionOf capture frames) c.memory = (result, memory)) :
      sem.reduce index (reductionOf capture (frames.map (Frame.map f))) (g c.memory) =
        (result.map f, g memory) := by
    rw [reductionOf_map, h.reduce, hv]
    rfl
  cases hturn with
  | exhausted hla => exact .exhausted hla
  | @shift token q value memory hm hv =>
      rw [fetch_map]
      have hvalue : sem.shift token (g c.memory) = (f value, g memory) := by
        rw [h.shift, hv]
        rfl
      exact .shift (hmeets hm) hvalue
  | undue hm hundue =>
      refine .undue (hmeets hm) ?_
      cases hundue with
      | unknown hproduction => exact .unknown hproduction
      | start hproduction => exact .start hproduction
      | overPop hproduction hpop => exact .overPop hproduction (Stack.pop_map_error hpop)
  | refused hdue hv => exact .refused (hdue.map f g) (hreduce hv)
  | @reduce index lhs frames below value memory q hdue hv hgoto =>
      change Turn t capture sem (c.map f g) (.running
        ⟨(below.map f).push ⟨f value, (reductionOf capture frames).span⟩ q, c.lookahead, c.source,
          g memory⟩)
      rw [← span_reductionOf_map (f := f)]
      exact .reduce (hdue.map f g) (hreduce hv) hgoto
  | lost hdue hv hnot => exact .lost (hdue.map f g) (hreduce hv) hnot
  | bare hm hpop => exact .bare (hmeets hm) (Stack.pop_map_error hpop)
  | accept hm hpop hinitial hmore =>
      exact .accept (hmeets hm) (Stack.pop_map_ok hpop) ((Stack.isInitial_map _).trans hinitial)
        hmore
  | excess hm hpop hend hnext =>
      exact .excess (hmeets hm) (Stack.pop_map_ok hpop) (by rwa [Stack.isInitial_map]) hnext
  | broken hm hpop hend hnext =>
      exact .broken (hmeets hm) (Stack.pop_map_ok hpop) (by rwa [Stack.isInitial_map]) hnext
  | reject hm hunknown => exact .reject (hmeets hm) hunknown

/-- A move does the same with less in the values. -/
theorem step_map (h : rich.Over sem f g) (c : Configuration ι ρ β) :
    step t capture sem (c.map f g) = (step t capture rich c).map f g :=
  ((step_turn t capture rich c).map h).step_eq

/-- A run does the same with less in the values. -/
theorem runFor_map (t : Table) (capture : Bool) (h : rich.Over sem f g) (limit : Nat)
    (source : ι) (memory : ρ) :
    runFor t capture sem limit source (g memory) =
      (runFor t capture rich limit source memory).map f g := by
  have hmoves : ∀ (n : Nat) (p : Progress ι ρ β),
      moves t capture sem n (p.map f g) = (moves t capture rich n p).map f g := by
    intro n
    induction n with
    | zero => intro p; rfl
    | succ n ih =>
        rintro (c | ⟨result, source, memory⟩)
        · rw [Progress.map, moves, moves, step_map h, ih]
        · rfl
  rw [runFor, runFor, ← hmoves, fetch_map]
  rfl

/-! ## Calls -/

/-- A value with the number of the call that made it. -/
structure Made (α : Type) where
  call : Nat
  value : α
deriving DecidableEq, Repr

/-- A call to the semantics: what it was given and what it gave back. -/
inductive Call (α : Type) where
  | shift (token : Token) (value : α)
  | reduce (production : Nat) (given : Reduction (Made α)) (result : Except Fault α)

/-- The memory of a semantics, and the calls up to now. -/
structure Record (σ α : Type) where
  memory : σ
  calls : List (Call α)

/-- Nothing has been called yet. -/
def Record.start (α : Type) (memory : σ) : Record σ α := ⟨memory, []⟩

/-- The semantics that writes its calls down. -/
def Semantics.recorded (sem : Semantics σ α) : Semantics (Record σ α) (Made α) where
  shift token record :=
    let (value, memory) := sem.shift token record.memory
    (⟨record.calls.length, value⟩, ⟨memory, record.calls ++ [.shift token value]⟩)
  reduce index r record :=
    let (result, memory) := sem.reduce index (r.map Made.value) record.memory
    (result.map (Made.mk record.calls.length), ⟨memory, record.calls ++ [.reduce index r result]⟩)

/-- Writing the calls down does not change them. -/
theorem Semantics.recorded_over (sem : Semantics σ α) :
    sem.recorded.Over sem Made.value Record.memory where
  shift _ _ := rfl
  reduce index r record := by
    rcases hv : sem.reduce index (r.map Made.value) record.memory with ⟨fault | value, memory⟩ <;>
      simp only [Semantics.recorded, hv, Prod.map, Except.map]

theorem Semantics.recorded_shift {token : Token} {record record' : Record σ α} {m : Made α}
    (h : sem.recorded.shift token record = (m, record')) : ∃ value memory,
      m = ⟨record.calls.length, value⟩ ∧
      record' = ⟨memory, record.calls ++ [.shift token value]⟩ := by
  rcases hv : sem.shift token record.memory with ⟨value, memory⟩
  simp only [Semantics.recorded, hv, Prod.mk.injEq] at h
  exact ⟨value, memory, h.1.symm, h.2.symm⟩

theorem Semantics.recorded_reduce {index : Nat} {r : Reduction (Made α)}
    {record record' : Record σ α} {made : Except Fault (Made α)}
    (h : sem.recorded.reduce index r record = (made, record')) : ∃ result memory,
      made = result.map (Made.mk record.calls.length) ∧
      record' = ⟨memory, record.calls ++ [.reduce index r result]⟩ := by
  rcases hv : sem.reduce index (r.map Made.value) record.memory with ⟨result, memory⟩
  simp only [Semantics.recorded, hv, Prod.mk.injEq] at h
  exact ⟨result, memory, h.1.symm, h.2.symm⟩

/-- The value that a call made. -/
def Call.value? : Call α → Option α
  | .shift _ value => some value
  | .reduce _ _ result => result.toOption

/-- The token that a call shifted. -/
def Call.token? : Call α → Option Token
  | .shift token _ => some token
  | .reduce .. => none

/-- The values that a call was given. -/
def Call.given : Call α → List (Made α)
  | .shift .. => []
  | .reduce _ given _ => given.values

/-- The tokens that were shifted, in order. -/
def shifted (calls : List (Call α)) : List Token := calls.filterMap Call.token?

@[simp] theorem shifted_shift (calls : List (Call α)) (token : Token) (value : α) :
    shifted (calls ++ [.shift token value]) = shifted calls ++ [token] := by
  simp [shifted, Call.token?]

@[simp] theorem shifted_reduce (calls : List (Call α)) (index : Nat) (r : Reduction (Made α))
    (result : Except Fault α) : shifted (calls ++ [.reduce index r result]) = shifted calls := by
  simp [shifted, Call.token?]

end Offside.Automaton

import Offside.Automaton.Stack

/-! # The stack in pairs — two lists that are cut apart

    Frames and states are kept in two lists, and a pop cuts each of them on
    its own: from the bottom up it keeps one state more than frames.  A single
    cut cannot tell whether a state is the one that was pushed with a frame.
    That it is depends on all that has been pushed and popped before, so it
    is said here of all operations in a row.

    * `Pairs` is the list of the frames, each with its state, on which the
      same operations are as plain as can be;
    * `StandsFor` is what ties a stack to its pairs, and `standsFor_perform`
      says that every operation keeps it and is answered alike;
    * `agrees_with_pairs` says so of all operations, and what can then be
      seen of the stack. -/

namespace Offside.Automaton

namespace Stack

variable {α : Type}

/-- What may be done with a stack. -/
inductive Operation (α : Type) where
  | push (frame : Frame α) (state : Nat)
  | pop (count : Nat)
deriving DecidableEq, Repr

/-- The answer to an operation. -/
inductive Answer (α : Type) where
  | pushed
  | popped (frames : List (Frame α))
  | refused (fault : Fault)
deriving DecidableEq, Repr

/-- An operation, with its answer and the stack after it. -/
def perform (s : Stack α) : Operation α → Answer α × Stack α
  | .push frame state => (.pushed, s.push frame state)
  | .pop count =>
      match s.pop count with
      | .ok (frames, below) => (.popped frames, below)
      | .error fault => (.refused fault, s)

/-- The stack after operations one after the other. -/
def after (s : Stack α) (operations : List (Operation α)) : Stack α :=
  operations.foldl (fun s operation => (s.perform operation).2) s

end Stack

/-! ## The pairs -/

/-- Frames with the states that they lead to, in the order in which they were
    pushed. -/
abbrev Pairs (α : Type) : Type := List (Frame α × Nat)

namespace Pairs

open Stack (Operation Answer)

variable {α : Type}

/-- The state of the last pair, the initial one if there is no pair. -/
def top (p : Pairs α) : Nat :=
  match p.getLast? with
  | some (_, state) => state
  | none => initialState

/-- Put a pair behind the others, or take pairs off the end. -/
def perform (p : Pairs α) : Operation α → Answer α × Pairs α
  | .push frame state => (.pushed, p ++ [(frame, state)])
  | .pop count =>
      if p.length < count then
        (.refused (.breach (.overPop count p.length)), p)
      else
        (.popped ((p.drop (p.length - count)).map Prod.fst), p.take (p.length - count))

/-- The pairs after operations one after the other. -/
def after (p : Pairs α) (operations : List (Operation α)) : Pairs α :=
  operations.foldl (fun p operation => (p.perform operation).2) p

end Pairs

/-! ## One operation -/

namespace Stack

variable {α : Type} {s : Stack α} {p : Pairs α}

/-- From the bottom up, the frames on a stack are those of the pairs, and the
    states are the initial one and those of the pairs. -/
structure StandsFor (s : Stack α) (p : Pairs α) : Prop where
  frames : s.frames.reverse = p.map Prod.fst
  states : s.states.reverse = initialState :: p.map Prod.snd

/-- A pop cuts the frames at the number of those that stay, from the bottom
    up, and the states one further. -/
theorem pop_from_bottom {count : Nat} (hle : count ≤ s.depth) : ∃ below,
    s.pop count = .ok (s.frames.reverse.drop (s.depth - count), below) ∧
      below.frames.reverse = s.frames.reverse.take (s.depth - count) ∧
      below.states.reverse = s.states.reverse.take (s.depth - count + 1) := by
  have hkept : s.states.length - count = s.depth - count + 1 := by
    rw [s.height]
    exact Nat.sub_add_comm hle
  have htaken : ¬ (s.frames.take count).length < count := fun hlt =>
    Nat.not_lt.mpr hle (length_take_lt_iff.mp hlt)
  refine ⟨⟨s.states.drop count, s.frames.drop count, s.height_drop htaken⟩,
    pop_eq_ok.mpr ⟨hle, List.reverse_take.symm, rfl, rfl⟩, List.reverse_drop, ?_⟩
  rw [List.reverse_drop, hkept]

namespace StandsFor

theorem start : (Stack.start : Stack α).StandsFor [] := ⟨rfl, rfl⟩

theorem depth (h : s.StandsFor p) : s.depth = p.length := by
  have hlength := congrArg List.length h.frames
  rwa [List.length_reverse, List.length_map] at hlength

theorem bottom (h : s.StandsFor p) : s.states.getLast? = some initialState := by
  rw [← List.head?_reverse, h.states]
  rfl

theorem top (h : s.StandsFor p) : s.top = p.top := by
  have hstates : s.states = (initialState :: p.map Prod.snd).reverse := by
    rw [← h.states, List.reverse_reverse]
  rw [Stack.top, hstates]
  rcases p.eq_nil_or_concat with rfl | ⟨q, ⟨frame, state⟩, rfl⟩
  · rfl
  · simp [Pairs.top]

theorem initial (h : s.StandsFor p) : s.isInitial = true ↔ s.depth = 0 := by
  rw [isInitial_iff, Stack.depth, List.length_eq_zero_iff]
  constructor
  · exact And.left
  · intro hframes
    have hnone : p = [] := by
      rw [← List.length_eq_zero_iff, ← h.depth, Stack.depth, hframes]
      rfl
    refine ⟨hframes, ?_⟩
    rw [← List.reverse_reverse s.states, h.states, hnone]
    rfl

theorem push (h : s.StandsFor p) (frame : Frame α) (state : Nat) :
    (s.push frame state).StandsFor (p ++ [(frame, state)]) where
  frames := by
    rw [Stack.push, List.reverse_cons, h.frames, List.map_append]
    rfl
  states := by
    rw [Stack.push, List.reverse_cons, h.states, List.map_append]
    rfl

/-- The frames of the last pairs come off, and the stack that is left stands
    for the pairs in front of them. -/
theorem pop (h : s.StandsFor p) {count : Nat} (hle : count ≤ p.length) : ∃ below,
    s.pop count = .ok ((p.drop (p.length - count)).map Prod.fst, below) ∧
      below.StandsFor (p.take (p.length - count)) := by
  obtain ⟨below, hpop, hframes, hstates⟩ := pop_from_bottom (h.depth.symm ▸ hle)
  rw [h.depth] at hpop hframes hstates
  rw [h.frames, ← List.map_drop] at hpop
  refine ⟨below, hpop, ?_, ?_⟩
  · rw [hframes, h.frames, List.map_take]
  · -- the initial state is the one that is kept besides
    rw [hstates, h.states, List.take_succ_cons, List.map_take]

end StandsFor

/-- An operation is answered alike, and the stack stands for the pairs again. -/
theorem standsFor_perform (h : s.StandsFor p) (operation : Operation α) :
    (s.perform operation).1 = (p.perform operation).1 ∧
      (s.perform operation).2.StandsFor (p.perform operation).2 := by
  cases operation with
  | push frame state => exact ⟨rfl, h.push frame state⟩
  | pop count =>
      rw [perform, Pairs.perform]
      by_cases hlt : p.length < count
      · have hpop := pop_eq_error.mpr ⟨h.depth.symm ▸ hlt, rfl⟩
        rw [hpop, if_pos hlt, h.depth]
        exact ⟨rfl, h⟩
      · obtain ⟨below, hpop, hbelow⟩ := h.pop (Nat.not_lt.mp hlt)
        rw [hpop, if_neg hlt]
        exact ⟨rfl, hbelow⟩

/-! ## All operations -/

/-- After the same operations a stack stands for the pairs. -/
theorem standsFor_after (operations : List (Operation α)) (h : s.StandsFor p) :
    (s.after operations).StandsFor (p.after operations) := by
  induction operations generalizing s p with
  | nil => exact h
  | cons operation operations ih => exact ih (standsFor_perform h operation).2

/-- A pop changes nothing, and is told how many frames there are, exactly if
    there are fewer than it asks for. -/
theorem perform_pop_refused_iff (s : Stack α) (count : Nat) :
    s.perform (.pop count) = (.refused (.breach (.overPop count s.depth)), s) ↔
      s.depth < count := by
  rw [perform]
  cases hpop : s.pop count with
  | ok popped =>
      have hle := (pop_eq_ok.mp hpop).1
      exact ⟨nofun, fun hlt => absurd hle (Nat.not_le.mpr hlt)⟩
  | error fault =>
      obtain ⟨hlt, rfl⟩ := pop_eq_error.mp hpop
      exact ⟨fun _ => hlt, fun _ => rfl⟩

/-- A stack holds the frames and the states of the pairs, it looks like them
    from outside, and it answers the next operation as they do. -/
structure Agrees (s : Stack α) (p : Pairs α) : Prop extends StandsFor s p where
  height : s.states.length = s.frames.length + 1
  bottom : s.states.getLast? = some initialState
  top : s.top = p.top
  depth : s.depth = p.length
  initial : s.isInitial = true ↔ s.depth = 0
  answer : ∀ next, (s.perform next).1 = (p.perform next).1
  refused : ∀ count,
    s.perform (.pop count) = (.refused (.breach (.overPop count s.depth)), s) ↔ s.depth < count

/-- Whatever has been pushed and popped, the stack has one state more than
    frames, with the initial state at the bottom, and agrees with the pairs
    that are left.  A pop of more frames than there are is refused and changes
    nothing. -/
theorem agrees_with_pairs (operations : List (Operation α)) :
    (Stack.start.after operations).Agrees (Pairs.after [] operations) := by
  have h : (Stack.start.after operations).StandsFor (Pairs.after [] operations) :=
    standsFor_after operations .start
  exact {
    toStandsFor := h
    height := (Stack.start.after operations).height
    bottom := h.bottom
    top := h.top
    depth := h.depth
    initial := h.initial
    answer := fun next => (standsFor_perform h next).1
    refused := perform_pop_refused_iff _ }

-- two pairs come off together, and then three are asked for where one is left
example : Stack.start.after [.push ⟨"a", none⟩ 3, .push ⟨"b", none⟩ 5, .push ⟨"c", none⟩ 8,
    .pop 2, .pop 3, .push ⟨"d", none⟩ 6] = ⟨[6, 3, 0], [⟨"d", none⟩, ⟨"a", none⟩], rfl⟩ := rfl

end Stack

end Offside.Automaton

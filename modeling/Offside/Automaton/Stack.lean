import Offside.Fault

/-! # The parse stack — values above the states they lead to

    Read as one sequence the stack alternates states and values and both
    starts and ends with a state.  States and frames are kept apart, each
    with the top first: there is one more state than there are frames, which
    every stack carries with it, and the state at the bottom is the initial
    one. -/

namespace Offside.Automaton

/-- A value and the source it covers. -/
structure Frame (α : Type) where
  value : α
  span : Option Span
deriving DecidableEq, Repr

/-- The initial state of every automaton. -/
def initialState : Nat := 0

/-- A stack of states and frames, with one state more than frames. -/
@[ext]
structure Stack (α : Type) where
  states : List Nat
  frames : List (Frame α)
  height : states.length = frames.length + 1
deriving DecidableEq, Repr

namespace Stack

variable {α : Type}

/-- The stack that holds the initial state alone. -/
def start : Stack α := ⟨[initialState], [], rfl⟩

/-- The state on top. -/
def top (s : Stack α) : Nat := s.states.headD initialState

/-- The number of frames. -/
def depth (s : Stack α) : Nat := s.frames.length

/-- Put a frame on top, and the state that it leads to. -/
def push (s : Stack α) (frame : Frame α) (state : Nat) : Stack α :=
  ⟨state :: s.states, frame :: s.frames, congrArg (· + 1) s.height⟩

/-- As many states as frames may go, and the state below them stays. -/
theorem height_drop (s : Stack α) {count : Nat} (h : ¬ (s.frames.take count).length < count) :
    (s.states.drop count).length = (s.frames.drop count).length + 1 := by
  rw [List.length_take] at h
  rw [List.length_drop, List.length_drop, s.height]
  omega

/-- Take frames off the top together with their states; the frames come in
    the order in which they were pushed. -/
def pop (s : Stack α) (count : Nat) : Except Fault (List (Frame α) × Stack α) :=
  let taken := s.frames.take count
  if h : taken.length < count then
    .error (.breach (.overPop count s.frames.length))
  else
    .ok (taken.reverse, ⟨s.states.drop count, s.frames.drop count, s.height_drop h⟩)

/-- Whether nothing is left but the initial state. -/
def isInitial (s : Stack α) : Bool := s.frames.isEmpty && s.states == [initialState]

@[simp] theorem top_push (s : Stack α) (frame : Frame α) (state : Nat) :
    (s.push frame state).top = state := rfl

@[simp] theorem depth_push (s : Stack α) (frame : Frame α) (state : Nat) :
    (s.push frame state).depth = s.depth + 1 := rfl

theorem isInitial_iff {s : Stack α} :
    s.isInitial = true ↔ s.frames = [] ∧ s.states = [initialState] := by
  simp [isInitial]

/-- Fewer frames can be taken than are asked for exactly if there are fewer. -/
theorem length_take_lt_iff {s : Stack α} {count : Nat} :
    (s.frames.take count).length < count ↔ s.depth < count := by
  rw [List.length_take, depth]
  omega

/-- Frames come off a stack exactly if it has so many, and as many states go
    with them. -/
theorem pop_eq_ok {s below : Stack α} {count : Nat} {frames : List (Frame α)} :
    s.pop count = .ok (frames, below) ↔ count ≤ s.frames.length ∧
      frames = (s.frames.take count).reverse ∧
      below.states = s.states.drop count ∧ below.frames = s.frames.drop count := by
  rw [← depth, ← Nat.not_lt, ← length_take_lt_iff, pop]
  split
  case isTrue h => exact ⟨nofun, fun hok => absurd h hok.1⟩
  case isFalse h =>
    rw [Except.ok.injEq, Prod.mk.injEq, Stack.ext_iff]
    constructor
    · rintro ⟨rfl, hstates, hframes⟩
      exact ⟨h, rfl, hstates.symm, hframes.symm⟩
    · rintro ⟨-, rfl, hstates, hframes⟩
      exact ⟨rfl, hstates.symm, hframes.symm⟩

/-- Frames do not come off a stack that has fewer. -/
theorem pop_eq_error {s : Stack α} {count : Nat} {fault : Fault} :
    s.pop count = .error fault ↔
      s.depth < count ∧ fault = .breach (.overPop count s.depth) := by
  rw [← length_take_lt_iff, pop]
  split
  case isTrue h =>
    rw [Except.error.injEq]
    exact ⟨fun hfault => ⟨h, hfault.symm⟩, fun hfault => hfault.2.symm⟩
  case isFalse h => exact ⟨nofun, fun herror => absurd herror.1 h⟩

/-- What was pushed last is popped first. -/
theorem pop_push (s : Stack α) (frame : Frame α) (state : Nat) :
    (s.push frame state).pop 1 = .ok ([frame], s) :=
  pop_eq_ok.mpr ⟨Nat.succ_le_succ (Nat.zero_le _), rfl, rfl, rfl⟩

theorem pop_zero (s : Stack α) : s.pop 0 = .ok ([], s) :=
  pop_eq_ok.mpr ⟨Nat.zero_le _, rfl, rfl, rfl⟩

/-- A frame on top comes last of those that are popped with it. -/
theorem pop_push_succ {s below : Stack α} {count : Nat} {frames : List (Frame α)}
    (h : s.pop count = .ok (frames, below)) (frame : Frame α) (state : Nat) :
    (s.push frame state).pop (count + 1) = .ok (frames ++ [frame], below) := by
  obtain ⟨hle, rfl, hstates, hframes⟩ := pop_eq_ok.mp h
  exact pop_eq_ok.mpr ⟨Nat.succ_le_succ hle, by simp [push], hstates, hframes⟩

/-- The next frame below comes first of those that are popped with it. -/
theorem pop_succ_of_pop {s below : Stack α} {count : Nat} {frames : List (Frame α)}
    {frame : Frame α} {state : Nat} (h : s.pop count = .ok (frames, below.push frame state)) :
    s.pop (count + 1) = .ok (frame :: frames, below) := by
  obtain ⟨hle, rfl, hstates, hframes⟩ := pop_eq_ok.mp h
  have hlt : count < s.frames.length := by
    have hlen := congrArg List.length hframes
    simp only [push, List.length_cons, List.length_drop] at hlen
    omega
  have hget : s.frames[count] = frame := by
    have hhead := congrArg List.head? hframes
    rw [List.head?_drop, List.getElem?_eq_getElem hlt] at hhead
    exact Option.some.inj hhead.symm
  refine pop_eq_ok.mpr ⟨hlt, ?_, ?_, ?_⟩
  · rw [List.take_succ_eq_append_getElem hlt, hget, List.reverse_append]
    rfl
  · rw [← List.drop_drop, ← hstates]
    rfl
  · rw [← List.drop_drop, ← hframes]
    rfl

end Stack

end Offside.Automaton

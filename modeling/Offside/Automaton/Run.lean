import Offside.Automaton.Stack
import Offside.Automaton.Table
import Offside.TokenSource

/-! # Runs — the automaton at work

    A run goes from configuration to configuration: it shifts the lookahead
    and fetches the next token, or it reduces by a production, until it
    accepts or fails.  What values are built is up to the `Semantics`,
    which keeps a memory of its own, so that a run can be observed through
    it.

    When locations are not captured, frames carry no span and nothing is
    merged; tokens keep their spans. -/

namespace Offside.Automaton

/-- The values and spans that a reduction takes off the stack, in the order
    of the source, and the merge of the first and the last span. -/
structure Reduction (α : Type) where
  values : List α
  spans : List (Option Span)
  span : Option Span
deriving DecidableEq, Repr

/-- How values are built: one call for each shifted token, one for each
    reduction.  The memory passes through all calls. -/
structure Semantics (σ α : Type) where
  shift : Token → σ → α × σ
  reduce : Nat → Reduction α → σ → Except Fault α × σ

/-- The state of a run between two moves. -/
structure Configuration (ι σ α : Type) where
  stack : Stack α
  lookahead : Option Token
  source : ι
  memory : σ

/-- A run that goes on, or one that has ended with its result. -/
inductive Progress (ι σ α : Type) where
  | running (c : Configuration ι σ α)
  | ended (result : Except Fault α) (source : ι) (memory : σ)

variable {ι σ α : Type} [TokenSource ι]

/-- The fault of meeting a token on which a state has no action. -/
def unexpected (t : Table) (source : ι) (state : Nat) (token : Token) : Fault :=
  if token.kind = t.endSymbol then
    .unexpectedEnd
  else
    .unexpectedToken token.text token.span.startLine token.span.startColumn
      (t.expected state)
      (TokenSource.excerpt source token.span.startLine token.span.startColumn)

/-- Fetch the next token into the lookahead. -/
def fetch (stack : Stack α) (source : ι) (memory : σ) : Progress ι σ α :=
  match TokenSource.next source with
  | (.error fault, source) => .ended (.error fault) source memory
  | (.ok lookahead, source) => .running ⟨stack, lookahead, source, memory⟩

/-- Shift a token and go to a state. -/
def shift (capture : Bool) (sem : Semantics σ α) (c : Configuration ι σ α) (token : Token)
    (state : Nat) : Progress ι σ α :=
  let (value, memory) := sem.shift token c.memory
  fetch (c.stack.push ⟨value, if capture then some token.span else none⟩ state) c.source memory

/-- What a reduction gets from the frames it takes off the stack. -/
def reductionOf (capture : Bool) (frames : List (Frame α)) : Reduction α :=
  let spans := frames.map Frame.span
  ⟨frames.map Frame.value, spans,
    if capture then Span.merge spans.head?.join spans.getLast?.join else none⟩

/-- Reduce by a production: take its frames off the stack, build its value
    and go where the exposed state leads on its left-hand side. -/
def reduce (t : Table) (capture : Bool) (sem : Semantics σ α) (c : Configuration ι σ α)
    (index : Nat) : Progress ι σ α :=
  let fail (cause : Breach) (memory : σ) : Progress ι σ α :=
    .ended (.error (.breach cause)) c.source memory
  match t.production index with
  | none => fail (.unknownProduction index) c.memory
  | some ⟨none, _⟩ => fail .startProduction c.memory
  | some ⟨some lhs, length⟩ =>
      match c.stack.pop length with
      | .error fault => .ended (.error fault) c.source c.memory
      | .ok (frames, below) =>
          let r := reductionOf capture frames
          match sem.reduce index r c.memory with
          | (.error fault, memory) => .ended (.error fault) c.source memory
          | (.ok value, memory) =>
              match t.action below.top lhs with
              | .goto state =>
                  .running ⟨below.push ⟨value, r.span⟩ state, c.lookahead, c.source, memory⟩
              | found => fail (.missingGoto below.top lhs found) memory

/-- Accept: the last frame holds the result, provided that nothing is below
    it on the stack and nothing is left in the source. -/
def accept (t : Table) (c : Configuration ι σ α) (token : Token) : Progress ι σ α :=
  match c.stack.pop 1 with
  | .error fault => .ended (.error fault) c.source c.memory
  | .ok (frames, below) =>
      let refuse : Progress ι σ α :=
        match TokenSource.next c.source with
        | (.error fault, source) => .ended (.error fault) source c.memory
        | (.ok extra, source) =>
            let culprit := extra.getD token
            .ended (.error (unexpected t source c.stack.top culprit)) source c.memory
      match frames with
      | [frame] =>
          if below.isInitial && !TokenSource.hasMore c.source then
            .ended (.ok frame.value) c.source c.memory
          else
            refuse
      | _ => refuse

/-- One move of a run. -/
def step (t : Table) (capture : Bool) (sem : Semantics σ α) (c : Configuration ι σ α) :
    Progress ι σ α :=
  match c.lookahead with
  | none => .ended (.error .unexpectedEnd) c.source c.memory
  | some token =>
      match t.action c.stack.top token.kind with
      | .shift state => shift capture sem c token state
      | .reduce index => reduce t capture sem c index
      | .accept => accept t c token
      | .goto _ | .error =>
          .ended (.error (unexpected t c.source c.stack.top token)) c.source c.memory

/-- Up to so many moves of a run. -/
def moves (t : Table) (capture : Bool) (sem : Semantics σ α) :
    Nat → Progress ι σ α → Progress ι σ α
  | 0, p => p
  | _ + 1, .ended result source memory => .ended result source memory
  | n + 1, .running c => moves t capture sem n (step t capture sem c)

/-- A run over a source, cut off after so many moves. -/
def runFor (t : Table) (capture : Bool) (sem : Semantics σ α) (limit : Nat) (source : ι)
    (memory : σ) : Progress ι σ α :=
  moves t capture sem limit (fetch .start source memory)

/-- A run that has ended makes no further moves. -/
@[simp] theorem moves_ended (t : Table) (capture : Bool) (sem : Semantics σ α) (n : Nat)
    (result : Except Fault α) (source : ι) (memory : σ) :
    moves t capture sem n (.ended result source memory) = .ended result source memory := by
  cases n <;> rfl

/-- Moves add up. -/
theorem moves_add (t : Table) (capture : Bool) (sem : Semantics σ α) (m n : Nat)
    (p : Progress ι σ α) :
    moves t capture sem (m + n) p = moves t capture sem n (moves t capture sem m p) := by
  induction m generalizing p with
  | zero => rw [Nat.zero_add, moves]
  | succ m ih =>
      cases p with
      | ended result source memory => simp only [moves_ended]
      | running c => rw [Nat.add_right_comm, moves, moves, ih]

end Offside.Automaton

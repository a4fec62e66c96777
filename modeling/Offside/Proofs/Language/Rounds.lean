import Offside.Proofs.Automaton.Forest
import Offside.Proofs.Language.Grammar

/-! # Rounds — how often a run goes round

    A run goes round once for each move, the one that ends it included.
    Reductions read nothing, so the tokens of a source do not bound them; what
    has been shifted does, since weights and credits pay for each reduction
    with a token that is on the stack.

    * `Rounds` says how often a run goes round, and how it ends;
    * `le_shifted` counts the rounds of a run that goes on, by the shifts
      that are in its record;
    * `rounds_le_shifted` bounds the rounds of every run over a list of
      tokens, whatever their kinds, the semantics and the way the run ends. -/

namespace Offside

namespace Automaton

variable {ι σ α : Type} [TokenSource ι]

/-- A run goes round so many times: it makes that many moves, and the last of
    them ends it. -/
structure Rounds (t : Table) (capture : Bool) (sem : Semantics σ α) (source : ι) (memory : σ)
    (n : Nat) (result : Except Fault α) (source' : ι) (memory' : σ) : Prop where
  runs : ∀ m < n, ∃ c, runFor t capture sem m source memory = .running c
  ends : runFor t capture sem n source memory = .ended result source' memory'

variable {t : Table} {capture : Bool} {sem : Semantics σ α} {source source' : ι} {memory : σ}

/-- A run that goes on after some moves went on after each of them. -/
theorem exists_running_of_le {m n : Nat} {c : Configuration ι σ α} (hle : m ≤ n)
    (h : runFor t capture sem n source memory = .running c) :
    ∃ b, runFor t capture sem m source memory = .running b := by
  obtain ⟨k, rfl⟩ := Nat.exists_eq_add_of_le hle
  rw [runFor, moves_add, ← runFor] at h
  cases hm : runFor t capture sem m source memory with
  | running b => exact ⟨b, rfl⟩
  | ended result s memory' =>
      rw [hm, moves_ended] at h
      cases h

/-- A run that a move ends has gone round up to this move. -/
theorem rounds_of_step {k : Nat} {c : Configuration ι σ α} {result : Except Fault α}
    {memory' : σ} (hrun : runFor t capture sem k source memory = .running c)
    (hstep : step t capture sem c = .ended result source' memory') :
    Rounds t capture sem source memory (k + 1) result source' memory' where
  runs m hm := exists_running_of_le (Nat.le_of_lt_succ hm) hrun
  ends := by
    rw [runFor, moves_add, ← runFor, hrun]
    exact hstep

/-- A run goes round as often if its calls are written down. -/
theorem Rounds.of_recorded {n : Nat} {made : Except Fault (Made α)} {record : Record σ α}
    (h : Rounds t capture sem.recorded source (.start α memory) n made source' record) :
    Rounds t capture sem source memory n (made.map Made.value) source' record.memory where
  runs m hm := by
    obtain ⟨c, hc⟩ := h.runs m hm
    have hmap := runFor_map t capture sem.recorded_over m source (.start α memory)
    rw [hc] at hmap
    exact ⟨_, hmap⟩
  ends := by
    have hmap := runFor_map t capture sem.recorded_over n source (.start α memory)
    rw [h.ends] at hmap
    exact hmap

/-- The move that ends a run takes no shift back. -/
theorem shifted_le_of_step {c : Configuration ι (Record σ α) (Made α)}
    {made : Except Fault (Made α)} {record : Record σ α}
    (h : step t capture sem.recorded c = .ended made source record) :
    (shifted c.memory.calls).length ≤ (shifted record.calls).length := by
  have hturn := step_turn t capture sem.recorded c
  rw [h] at hturn
  generalize hp : Progress.ended made source record = p at hturn
  cases hturn with
  | exhausted | undue | bare | accept | excess | broken | reject =>
      cases hp
      exact Nat.le_refl _
  | shift hmeets hvalue =>
      obtain ⟨value, memory, rfl, rfl⟩ := Semantics.recorded_shift hvalue
      rw [fetch] at hp
      split at hp <;> cases hp
      rw [shifted_shift, List.length_append]
      exact Nat.le_add_right ..
  | refused hdue hvalue | lost hdue hvalue =>
      obtain ⟨result, memory, -, rfl⟩ := Semantics.recorded_reduce hvalue
      cases hp
      rw [shifted_reduce]
  | reduce => cases hp

/-- Every semantics is a model if nothing is asked of the values. -/
theorem model_true (g : Grammar) (capture : Bool) (sem : Semantics σ α) :
    Model g capture sem fun _ _ => True :=
  ⟨fun _ _ => trivial, fun _ _ _ _ _ => trivial⟩

section Lists

variable {g : Grammar} {cert : Certificate} {tokens : List Token}

/-- What is on the stack of a run over a list is what has been shifted. -/
theorem Follows.shifted_eq {c : Configuration TokenList (Record σ α) (Made α)}
    {forest : List (CallTree α)} {M : ParseTree → Frame (Made α) → Prop} {Xs : List Letter}
    {Ts : List ParseTree} (h : Follows t tokens c forest)
    (hspells : Spells t g M (TokenList.mk tokens) c Xs Ts) :
    shifted c.memory.calls = ParseTree.yields Ts.reverse := by
  obtain ⟨⟨remaining⟩, hfeeds, hnext⟩ := hspells.tokens
  have htokens : tokens = ParseTree.yields Ts.reverse ++ remaining :=
    feeds_tokenList_iff.mp hfeeds
  have hremaining : c.lookahead.toList ++ c.source.remaining = remaining := by
    obtain ⟨stack, lookahead, rest, record⟩ := c
    cases hnext
    cases remaining <;> rfl
  have hrest := h.rest
  rw [hremaining, htokens] at hrest
  exact List.append_cancel_right hrest

/-- A run over a list that goes on has gone round at most three times for each
    shift. -/
theorem le_shifted (hs : cert.Sound g t) (hb : cert.Bounded g t) {n : Nat}
    {c : Configuration TokenList (Record σ α) (Made α)}
    (h : runFor t capture sem.recorded n (TokenList.mk tokens) (.start α memory) = .running c) :
    n ≤ 3 * (shifted c.memory.calls).length := by
  obtain ⟨Xs, Ts, hspells, hcount⟩ := pace hs hb (model_true g capture sem.recorded) h
  have haccounted := accounted_runFor t capture sem tokens memory n
  rw [h] at haccounted
  obtain ⟨forest, hfollows⟩ := haccounted
  rw [hfollows.shifted_eq hspells]
  exact Nat.le_of_add_right_le hcount

/-- A run over a list ends, and it has gone round at most three times for each
    shift and once more. -/
theorem exists_rounds (hs : cert.Sound g t) (hb : cert.Bounded g t) (capture : Bool)
    (sem : Semantics σ α) (tokens : List Token) (memory : σ) :
    ∃ n made source record,
      Rounds t capture sem.recorded (TokenList.mk tokens) (.start α memory) n made source record ∧
      n ≤ 3 * (shifted record.calls).length + 1 := by
  have hbound : ∀ ts s, Feeds (TokenList.mk tokens) ts s → ts.length ≤ tokens.length := by
    intro ts s hfeeds
    have htokens : tokens = ts ++ s.remaining := feeds_tokenList_iff.mp hfeeds
    rw [htokens, List.length_append]
    exact Nat.le_add_right ..
  obtain ⟨made, source, record, hended⟩ :=
    exists_ended hs hb (model_true g capture sem.recorded) hbound (.start α memory)
  rcases exists_last_move hended with hfetch | ⟨k, -, c, hrun, hlast⟩
  · cases hfetch
  refine ⟨k + 1, made, source, record, rounds_of_step hrun hlast, Nat.succ_le_succ ?_⟩
  calc k ≤ 3 * (shifted c.memory.calls).length := le_shifted hs hb hrun
    _ ≤ 3 * (shifted record.calls).length := Nat.mul_le_mul_left 3 (shifted_le_of_step hlast)

end Lists

end Automaton

namespace Language

open Automaton

/-- **Rounds are paid for by shifts.**  Every run over a list of tokens ends,
    and it goes round at most three times for each token that it has shifted
    and once more.  The tokens need not come from a lexer, and the semantics may
    give up any reduction; what has been shifted is told by the calls that it
    has got. -/
theorem rounds_le_shifted {σ α : Type} (capture : Bool) (sem : Semantics σ α)
    (tokens : List Token) (memory : σ) :
    ∃ n result source memory' made calls,
      Rounds table capture sem (TokenList.mk tokens) memory n result source memory' ∧
      runFor table capture sem.recorded n (TokenList.mk tokens) (.start α memory) =
        .ended made source ⟨memory', calls⟩ ∧ result = made.map Made.value ∧
      shifted calls <+: tokens ∧ n ≤ 3 * (shifted calls).length + 1 := by
  obtain ⟨n, made, source, ⟨memory', calls⟩, hrounds, hle⟩ :=
    exists_rounds sound bounded capture sem tokens memory
  have haccounted := accounted_runFor table capture sem tokens memory n
  rw [hrounds.ends] at haccounted
  obtain ⟨-, -, hordered⟩ := haccounted
  exact ⟨n, _, source, memory', made, calls, hrounds.of_recorded, hrounds.ends, rfl, hordered, hle⟩

/-- A declaration in front of the end of a block that was never opened: two
    shifts and four reductions, and only the seventh round tells. -/
example : (∃ c, runFor table false treeSemantics 6
      (TokenList.mk [⟨Kind.keyword, "module", .point 0 1 0⟩, ⟨Kind.name, "a.b", .point 7 1 7⟩,
        ⟨Kind.dedent, "", .point 10 1 10⟩]) () = .running c) ∧
    ∃ result source memory, runFor table false treeSemantics 7
      (TokenList.mk [⟨Kind.keyword, "module", .point 0 1 0⟩, ⟨Kind.name, "a.b", .point 7 1 7⟩,
        ⟨Kind.dedent, "", .point 10 1 10⟩]) () = .ended result source memory :=
  ⟨⟨_, rfl⟩, _, _, _, rfl⟩

end Language

end Offside

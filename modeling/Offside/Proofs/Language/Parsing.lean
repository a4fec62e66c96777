import Offside.Proofs.Language.Recognition
import Offside.Proofs.Lexer

/-! # Parsing — a parse is a run without the cut

    A text makes at most twice as many tokens as it has characters and one
    more, and the automaton makes at most three moves for each of them.  The
    bound on the moves of a parse is therefore never reached. -/

namespace Offside

namespace Language

open Automaton

/-- The run of a parse ends before it is cut off. -/
theorem exists_ended_parse (l : Language) (source : String) (capture : Bool) :
    ∃ result s memory, runFor table capture Builder.semantics (moveBound source.toList)
      (Lexer.start l.lexicon source.toList) () = .ended result s memory := by
  -- the text bounds the tokens, and the tokens bound the moves
  have hbound : ∀ tokens s, Feeds (Lexer.start l.lexicon source.toList) tokens s →
      tokens.length ≤ 2 * source.toList.length + 1 := by
    intro tokens s hfeeds
    have hle := Lexer.feeds_length hfeeds
    rw [Lexer.potential_start] at hle
    omega
  obtain ⟨result, s, memory, hrun⟩ :=
    exists_ended sound bounded (builder_model capture).toModel hbound ()
  have hlimit : 3 * (2 * source.toList.length + 1) + 1 ≤ moveBound source.toList := by
    rw [moveBound]
    omega
  obtain ⟨more, hmore⟩ := Nat.exists_eq_add_of_le hlimit
  exact ⟨result, s, memory, by rw [hmore, runFor, moves_add, ← runFor, hrun, moves_ended]⟩

/-- The run of a parse returns a program, which the parse gives, or a fault,
    which the parse gives. -/
theorem exists_returns_parse (l : Language) (source : String) (capture : Bool) :
    ∃ result : Except Fault Program, l.parse source capture = result ∧
      Returns table capture Builder.semantics (Lexer.start l.lexicon source.toList) ()
        (result.map .program) := by
  obtain ⟨result, s, memory, hended⟩ := exists_ended_parse l source capture
  have hreturns : Returns table capture Builder.semantics (Lexer.start l.lexicon source.toList) ()
      result := ⟨_, s, memory, hended⟩
  rw [parse, hended]
  cases result with
  | error fault => exact ⟨.error fault, rfl, hreturns⟩
  | ok v =>
      obtain ⟨T, tokens, -, -, rfl⟩ := parses_of_returns hreturns
      exact ⟨.ok (readProgram capture T), rfl, hreturns⟩

/-- A parse gives what its run returns. -/
theorem parse_eq_iff {l : Language} {source : String} {capture : Bool}
    {result : Except Fault Program} : l.parse source capture = result ↔
      Returns table capture Builder.semantics (Lexer.start l.lexicon source.toList) ()
        (result.map .program) := by
  obtain ⟨result', hparse, hreturns⟩ := exists_returns_parse l source capture
  rw [hparse]
  constructor
  · rintro rfl
    exact hreturns
  · intro h
    have hmap : result'.map Value.program = result.map Value.program := hreturns.unique h
    cases result' <;> cases result <;> cases hmap <;> rfl

/-- A parse gives a program exactly if its run returns it. -/
theorem parse_eq_ok_iff {l : Language} {source : String} {capture : Bool} {p : Program} :
    l.parse source capture = .ok p ↔
      Returns table capture Builder.semantics (Lexer.start l.lexicon source.toList) ()
        (.ok (.program p)) := parse_eq_iff

/-- A parse fails exactly if its run does. -/
theorem parse_eq_error_iff {l : Language} {source : String} {capture : Bool} {fault : Fault} :
    l.parse source capture = .error fault ↔
      Returns table capture Builder.semantics (Lexer.start l.lexicon source.toList) ()
        (.error fault) := parse_eq_iff

end Language

end Offside

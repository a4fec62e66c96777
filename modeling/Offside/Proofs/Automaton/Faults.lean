import Offside.Proofs.Automaton.Completeness

/-! # Faults — how a run fails

    Under a certificate that is sound, values that never give a reduction up
    leave three ways to fail: the end comes too early, a token is not
    expected, or the source itself is at fault.  Everything else that a move
    guards against does not happen.

    * `Failure` lists the three ways;
    * `failure_of_returns` says that there are no others. -/

namespace Offside.Automaton

variable {ι σ α : Type} [TokenSource ι]

/-- Why a run over a source fails. -/
inductive Failure (source : ι) : Fault → Prop
  | unexpectedEnd : Failure source .unexpectedEnd
  | unexpectedToken (text : String) (line column : Nat) (expected : List String)
      (excerpt : Option Excerpt) :
      Failure source (.unexpectedToken text line column expected excerpt)
  /-- The source fails behind the tokens that it has handed out. -/
  | source {tokens : List Token} {s s' : ι} {fault : Fault} :
      Feeds source tokens s → TokenSource.next s = (.error fault, s') → Failure source fault

variable {t : Table} {g : Grammar} {cert : Certificate} {capture : Bool}
  {sem : Semantics σ α} {M : ParseTree → Frame α → Prop} {source : ι}

theorem failure_unexpected (s : ι) (state : Nat) (token : Token) :
    Failure source (unexpected t s state token) := by
  rw [unexpected]
  split
  · exact .unexpectedEnd
  · exact .unexpectedToken ..

/-- A fetch that ends a run ends it with the fault of the source. -/
theorem fetch_eq_error {st : Stack α} {s s' : ι} {memory memory' : σ}
    {fault : Fault} (h : fetch st s memory = .ended (.error fault) s' memory') :
    TokenSource.next s = (.error fault, s') := by
  rw [fetch] at h
  split at h
  next hnext =>
    cases h
    exact hnext
  next => cases h

/-- A move that fails does so in one of the three ways. -/
theorem failure_of_step (hs : cert.Sound g t) (hm : TotalModel g capture sem M)
    {c : Configuration ι σ α} {Xs : List Letter} {Ts : List ParseTree}
    (hspells : Spells t g M source c Xs Ts) {fault : Fault} {s : ι} {memory : σ}
    (h : step t capture sem c = .ended (.error fault) s memory) : Failure source fault := by
  cases hla : c.lookahead with
  | none =>
      simp only [step, hla] at h
      cases h
      exact .unexpectedEnd
  | some token =>
      have hfeeds := hspells.feeds_lookahead hla
      have hmove := step_move hs hm.toModel hspells.holds
      rw [h] at hmove
      generalize hp : Progress.ended (.error fault) s memory = p at hmove
      cases hmove with
      | exhausted hnone =>
          rw [hla] at hnone
          cases hnone
      | shift => exact .source hfeeds (fetch_eq_error hp.symm)
      | reduce | accept => cases hp
      | refused hr hinput htrees hframes hv =>
          obtain ⟨v, m, htotal⟩ := hm.total c.memory hr hinput htrees hframes
          rw [htotal] at hv
          cases hv
      | reject | excess =>
          cases hp
          exact failure_unexpected ..
      | broken hnext =>
          cases hp
          exact .source hfeeds hnext

/-- A run fails in one of the three ways. -/
theorem failure_of_returns (hs : cert.Sound g t) (hm : TotalModel g capture sem M) {memory : σ}
    {fault : Fault} (h : Returns t capture sem source memory (.error fault)) :
    Failure source fault := by
  obtain ⟨limit, s, memory', hrun⟩ := h
  rcases exists_last_move hrun with hfetch | ⟨k, -, c, hc, hlast⟩
  · exact .source (.nil source) (fetch_eq_error hfetch)
  · have hfaithful := faithful_moves hs hm.toModel source memory k
    rw [hc] at hfaithful
    obtain ⟨Xs, Ts, hspells⟩ := hfaithful
    exact failure_of_step hs hm hspells hlast

end Offside.Automaton

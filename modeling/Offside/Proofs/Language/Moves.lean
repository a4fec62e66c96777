import Offside.Proofs.Indentation
import Offside.Proofs.Language.Reading
import Offside.Proofs.Lexer.Balance

/-! # Moves — what a reading does to the indentation

    A match leaves the indentation, opens a block, or leaves some blocks or
    all of them.  So what holds of the two numbers of an indentation is kept
    by a reading, whatever is read.

    * `Moves` lists what a match can do;
    * `Reads.unit_eq` says that a unit never changes once it is known;
    * `Reads.counts` weighs block starts against block ends. -/

namespace Offside

open Automaton

namespace Indentation

variable {i j : Indentation}

theorem unit_openBlock {width line unit : Nat}
    (h : i.openBlock width line = .ok j) (hi : i.unit = some unit) : j.unit = some unit := by
  simp only [openBlock, hi] at h
  split at h
  next => cases h
  next =>
    split at h
    next => cases h
    next =>
      split at h
      next => cases h
      next => cases h; rfl

theorem unit_lineBreak {width line : Nat} {r : LineBreak}
    (h : i.lineBreak width line = .ok (r, j)) : j.unit = i.unit := by
  simp only [lineBreak] at h
  split at h
  next => cases h; rfl
  next =>
    split at h
    next =>
      split at h
      next => cases h
      next hunit =>
        split at h
        next => cases h; exact hunit.symm
        next => cases h
    next =>
      split at h
      next => cases h
      next => cases h; rfl

end Indentation

namespace Language

/-! ## Matches and readings -/

/-- How a match moves the indentation: not at all, out of all blocks, into a
    block with a token that says so, or out of some blocks. -/
inductive Moves (i : Indentation) (words : List Token) : Indentation → Prop
  | stays : Moves i words i
  | closes : Moves i words i.closeAll.2
  | opens {j : Indentation} {width line : Nat} {word : Token} : i.openBlock width line = .ok j →
      word ∈ words → word.kind = Kind.indent → Moves i words j
  | leaves {j : Indentation} {width line levels : Nat} :
      i.lineBreak width line = .ok (.outward levels, j) → Moves i words j

section

variable {scan : List Char → Option Lexeme} {i j k : Indentation} {x : Lexeme}
  {text : List Char} {words words' : List Token}

theorem ComesTo.moves (h : ComesTo i x words j) : Moves i words j := by
  obtain ⟨action, text, width⟩ := x
  obtain ⟨tokens, htokens, rfl⟩ := h nowhere
  have houtcome := Lexer.perform_outcome htokens
  generalize hscanned : Lexer.Scanned.mk tokens j = scanned at houtcome
  cases houtcome with
  | single | same | deeper | skip =>
      cases hscanned
      exact .stays
  | closing =>
      cases hscanned
      exact .closes
  | opening _ hstructural hopen =>
      cases hscanned
      cases hstructural
      exact .opens hopen (List.mem_cons_self ..) rfl
  | outward _ hbreak =>
      cases hscanned
      exact .leaves hbreak

/-- Matches keep what two numbers can tell of the open blocks. -/
theorem Moves.standsFor (h : Moves i words j) (hi : ∃ b, i.StandsFor b) :
    ∃ b, j.StandsFor b := by
  obtain ⟨b, hb⟩ := hi
  cases h with
  | stays => exact ⟨b, hb⟩
  | closes => exact ⟨_, hb.closeAll.2⟩
  | @opens _ width line _ hopen =>
      have hnext := (hb.openBlock width line).2
      rw [Indentation.call, hopen] at hnext
      exact ⟨_, hnext⟩
  | @leaves _ width line _ hbreak =>
      have hnext := (hb.lineBreak width line).2
      rw [Indentation.call, hbreak] at hnext
      exact ⟨_, hnext⟩

/-- A unit that is known never changes. -/
theorem Moves.unit_eq (h : Moves i words j) {unit : Nat} (hi : i.unit = some unit) :
    j.unit = some unit := by
  cases h with
  | stays | closes => exact hi
  | opens hopen => exact Indentation.unit_openBlock hopen hi
  | leaves hbreak => exact (Indentation.unit_lineBreak hbreak).trans hi

/-- A unit that fits later fits before. -/
theorem Moves.unit_before (h : Moves i words j) {unit : Nat}
    (hj : j.unit = none ∨ j.unit = some unit) : i.unit = none ∨ i.unit = some unit := by
  cases hi : i.unit with
  | none => exact .inl rfl
  | some unit' =>
      rw [h.unit_eq hi] at hj
      exact hj

/-- Where no block opens, no unit is learned. -/
theorem Moves.unit_of_noBlocks (h : Moves i words j)
    (hwords : ∀ word ∈ words, word.kind ≠ Kind.indent) : j.unit = i.unit := by
  cases h with
  | stays | closes => rfl
  | opens _ hword hkind => exact absurd hkind (hwords _ hword)
  | leaves hbreak => exact Indentation.unit_lineBreak hbreak

theorem Reads.standsFor (h : Reads scan text i words j) (hi : ∃ b, i.StandsFor b) :
    ∃ b, j.StandsFor b := by
  induction h with
  | done => exact hi
  | step _ _ hcomes _ ih => exact ih (hcomes.moves.standsFor hi)

theorem Reads.unit_eq (h : Reads scan text i words j) {unit : Nat} (hi : i.unit = some unit) :
    j.unit = some unit := by
  induction h with
  | done => exact hi
  | step _ _ hcomes _ ih => exact ih (hcomes.moves.unit_eq hi)

theorem Reads.unit_of_noBlocks (h : Reads scan text i words j)
    (hwords : ∀ word ∈ words, word.kind ≠ Kind.indent) : j.unit = i.unit := by
  induction h with
  | done => rfl
  | step _ _ hcomes _ ih =>
      obtain ⟨hfirst, hlater⟩ := List.forall_mem_append.mp hwords
      exact (ih hlater).trans (hcomes.moves.unit_of_noBlocks hfirst)

/-! ## Balance -/

/-- Texts of matches name no kind that stands for blocks. -/
theorem Lexeme.Formed.kind_ne {x : Lexeme} (h : x.Formed) :
    ∀ kind, x.action.kind? = some kind → kind ≠ Kind.indent ∧ kind ≠ Kind.dedent := by
  cases h with
  | opening | lineBreak | skip => exact nofun
  | remark | keyword | name | word | marker =>
      rintro _ ⟨⟩
      decide

theorem countIn_unplaced (kind : Symbol) (tokens : List Token) :
    kind.countIn (tokens.map Token.unplaced) = kind.countIn tokens := by
  rw [Symbol.countIn, Symbol.countIn, List.map_map]
  rfl

theorem ComesTo.counts (h : ComesTo i x words j) (hx : x.Formed) :
    Kind.indent.countIn words + i.depth = Kind.dedent.countIn words + j.depth := by
  obtain ⟨tokens, htokens, rfl⟩ := h nowhere
  have hbatch := (Lexer.perform_outcome htokens).batch (separates_lexiconFor defaultMarker)
    hx.kind_ne
  rw [countIn_unplaced, countIn_unplaced]
  exact hbatch.counts

/-- The tokens of a reading make up for the blocks that it opens and closes. -/
theorem Reads.counts {marker : List Char} (h : Reads (scanner marker) text i words j) :
    Kind.indent.countIn words + i.depth = Kind.dedent.countIn words + j.depth := by
  induction h with
  | done => rfl
  | step _ hscan hcomes _ ih =>
      have hfirst := hcomes.counts (scanner_formed hscan)
      rw [Symbol.countIn_append, Symbol.countIn_append]
      omega

end

end Language

end Offside

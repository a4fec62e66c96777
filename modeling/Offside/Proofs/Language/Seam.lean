import Offside.Proofs.Language.Lines
import Offside.Proofs.Language.Moves

/-! # Seams — lines put behind one another

    What stands behind the end of a line is read from the indentation that is
    left.  A line further out leaves every block that is open, and then only
    the unit of the indentation tells what came before.

    * `Reads.of_unknown` moves a reading to a unit that is known before;
    * `Reads.seam` puts two readings together. -/

namespace Offside

open Automaton

namespace Language

section

variable {scan : List Char → Option Lexeme} {i j k : Indentation} {x : Lexeme}
  {text : List Char} {words words' : List Token}

/-! ## Units that are known before -/

/-- Outside of all blocks a match comes to the same with a unit and without
    one, unless it opens the first block with another unit. -/
theorem ComesTo.of_unknown (h : ComesTo ⟨0, none⟩ x words j) :
    (j = ⟨0, none⟩ ∧ ∀ unit, ComesTo ⟨0, some unit⟩ x words ⟨0, some unit⟩) ∨
      ∃ unit, j = ⟨unit, some unit⟩ ∧ ComesTo ⟨0, some unit⟩ x words j := by
  obtain ⟨action, text, width⟩ := x
  obtain ⟨tokens, htokens, rfl⟩ := h nowhere
  cases action with
  | emit | emitStripped | skip =>
      cases htokens
      exact .inl ⟨rfl, fun _ => comesTo_of_perform nowhere rfl⟩
  | endOfInput kind =>
      cases htokens
      refine .inl ⟨rfl, fun unit => comesTo_of_perform nowhere ?_⟩
      simp only [Lexer.perform, Indentation.closeAll, Indentation.depth, Nat.zero_div]
      rfl
  | blockOpen =>
      simp only [Lexer.perform, lexiconFor, Indentation.openBlock] at htokens
      by_cases hdeeper : width ≤ 0
      · simp only [hdeeper, if_true] at htokens
        cases htokens
      · simp only [hdeeper, if_false] at htokens
        cases htokens
        refine .inr ⟨width, rfl, comesTo_of_perform nowhere ?_⟩
        simp only [Lexer.perform, lexiconFor, Indentation.openBlock, hdeeper, if_false,
          Nat.mod_self, Nat.zero_add, ne_eq, not_true_eq_false]
  | lineBreak =>
      simp only [Lexer.perform, lexiconFor, Indentation.lineBreak] at htokens
      by_cases hsame : width = 0
      · simp only [hsame, if_true] at htokens
        cases htokens
        refine .inl ⟨rfl, fun unit => comesTo_of_perform nowhere ?_⟩
        simp only [Lexer.perform, lexiconFor, Indentation.lineBreak, hsame, if_true]
      · simp only [hsame, if_false, Nat.not_lt_zero, if_true] at htokens
        cases htokens

/-- A text in which no other unit is learned reads the same with a unit that
    is known before. -/
theorem Reads.of_unknown (h : Reads scan text ⟨0, none⟩ words k) {unit : Nat}
    (hunit : k.unit = none ∨ k.unit = some unit) :
    ∃ k', Reads scan text ⟨0, some unit⟩ words k' ∧ k'.depth = k.depth := by
  generalize hi : (⟨0, none⟩ : Indentation) = i at h
  induction h with
  | done i =>
      subst hi
      exact ⟨⟨0, some unit⟩, .done _, Nat.zero_div unit⟩
  | @step x rest i j k words words' hne hscan hcomes hreads ih =>
      subst hi
      rcases hcomes.of_unknown with ⟨rfl, hsame⟩ | ⟨unit', rfl, hsame⟩
      · obtain ⟨k', hreads', hdepth⟩ := ih hunit rfl
        exact ⟨k', .step hne hscan (hsame unit) hreads', hdepth⟩
      · -- the first block has opened, and the unit is the one known before
        have hk : k.unit = some unit' := hreads.unit_eq rfl
        obtain rfl : unit' = unit := by
          rw [hk] at hunit
          rcases hunit with hnone | hsome
          · cases hnone
          · exact Option.some.inj hsome
        exact ⟨k, .step hne hscan hsame hreads, rfl⟩

/-- A text reads the same behind another one that has learned no unit or the
    same one, or if it learns none itself. -/
theorem Reads.behind (h : Reads scan text .start words k) {unit : Option Nat}
    (hunit : unit = none ∨ k.unit = none ∨ k.unit = unit) :
    ∃ k', Reads scan text ⟨0, unit⟩ words k' ∧ k'.depth = k.depth := by
  cases unit with
  | none => exact ⟨k, h, rfl⟩
  | some unit =>
      rcases hunit with hnone | hunit
      · cases hnone
      · exact h.of_unknown hunit

/-! ## The seam -/

/-- A line separator, without its place. -/
def separatorWord : Token := ⟨Kind.newline, "", nowhere⟩

/-- Between two lines outside of all blocks stand an end for every block that
    was open, and a line separator. -/
theorem comesTo_break (hi : ∃ b, i.StandsFor b) : ComesTo i ⟨.lineBreak, ['\n'], 0⟩
    (endWords i.depth ++ [separatorWord]) ⟨0, i.unit⟩ := by
  have hperform : Lexer.perform (lexiconFor defaultMarker) i .lineBreak ['\n'] nowhere 0 =
      .ok ⟨At.closing nowhere i.depth separatorWord, ⟨0, i.unit⟩⟩ := by
    obtain ⟨b, ⟨⟩ | @⟨depth, unit, hunit⟩⟩ := hi
    · rfl
    · have hlevel : Level unit depth ⟨depth * unit, some unit⟩ := ⟨rfl, .inl rfl⟩
      rw [hlevel.depth_eq hunit]
      rcases Nat.eq_zero_or_pos depth with rfl | hpos
      · have hsame := hlevel.lineBreak_same nowhere.endLine
        simp only [Nat.zero_mul] at hsame ⊢
        simp only [Lexer.perform, lexiconFor, hsame]
        rfl
      · have hout := hlevel.lineBreak_outward hunit hpos nowhere.endLine
        simp only [Nat.zero_mul] at hout
        simp only [Lexer.perform, Lexer.batch_concat, lexiconFor, hout]
        rfl
  have hcomes := comesTo_of_perform (x := ⟨.lineBreak, ['\n'], 0⟩) nowhere hperform
  rwa [unplaced_closing] at hcomes

/-- A text and one that starts with a declaration read in a row, the second
    one with the unit that the first one has left. -/
theorem Reads.seam {rest : List Char} (h : Reads (scanner defaultMarker.toList) text i words j)
    (hi : ∃ b, i.StandsFor b)
    (hrest : Reads (scanner defaultMarker.toList) rest ⟨0, j.unit⟩ words' k)
    (hkeyword : keyword <+: rest) :
    Reads (scanner defaultMarker.toList) (text ++ '\n' :: rest) i
      (words ++ (endWords j.depth ++ [separatorWord] ++ words')) k := by
  refine h.append (foretells_scanner (by decide) rest text) ?_
  obtain ⟨front, rfl⟩ := hkeyword
  have hscan : scanner defaultMarker.toList ('\n' :: (keyword ++ front)) =
      some ⟨.lineBreak, ['\n'], 0⟩ := by
    refine scanner_break (c := 'm') (by decide) 0 ?_
    intro hmarker
    exact absurd (List.cons_prefix_cons.mp hmarker).1 (by decide)
  exact Reads.step (x := ⟨.lineBreak, ['\n'], 0⟩) (List.cons_ne_nil '\n' []) hscan
    (comesTo_break (h.standsFor hi)) hrest

end

end Language

end Offside

import Offside.Lexicon
import Offside.Proofs.Checks
import Offside.Proofs.Regex.Acceptance

/-! # Compiled lexicons — what a draft comes to

    A draft is compiled rule by rule.  Each rule has the machine of its text
    with the group around it that ties it, and all the names in it are
    terminals of the table.

    * `LexiconDraft.Compiles` says what a rule comes to, and `exists_draft`
      that all rules of a lexicon come from the draft;
    * `Lexicon.Equipped` is said of lexicons that have the structural
      terminals their rules need, as all compiled ones do;
    * `Lexicon.Tied` is said of lexicons whose rules match at the place of
      the search only;
    * `exists_text_of_select` says what such a match takes. -/

namespace Offside

/-- All matches of the rules start where the search does. -/
def Lexicon.Tied (l : Lexicon) : Prop :=
  ∀ rule ∈ l.rules, ∀ ahead found, rule.match? ahead = some found → found.start = 0

/-- Where a rule needs the structural terminals, they are there. -/
def Lexicon.Equipped (l : Lexicon) : Prop :=
  ∀ rule ∈ l.rules, rule.action.isStructural = true → l.structural ≠ none

namespace LexiconDraft

variable {t : Automaton.Table} {d : LexiconDraft} {lexicon : Lexicon} {r : RuleDraft}
  {compiled : Rule}

/-- What a rule of a draft comes to. -/
structure Compiles (t : Automaton.Table) (r : RuleDraft) (compiled : Rule) : Prop where
  pattern : ∃ p, Regex.Pattern.read? (anchoredText r.pattern) = some p ∧
    compiled.machine = .ofPattern p
  action : r.action.resolve (resolve t) = .ok compiled.action
  modes : compiled.modes = r.modes

/-! ## Compiling -/

theorem compiles_of_rule (h : rule t r = .ok compiled) : Compiles t r compiled := by
  obtain ⟨m, hm, h⟩ := exists_of_bind h
  have hpattern : ∃ p, Regex.Pattern.read? (anchoredText r.pattern) = some p ∧
      m = .ofPattern p := by
    rw [machine] at hm
    split at hm
    next p hp => exact ⟨p, hp, (Except.ok.inj hm).symm⟩
    next => cases hm
  split at h
  next =>
    obtain ⟨-, h, -⟩ := exists_of_bind h
    cases h
  next =>
    obtain ⟨action, haction, h⟩ := exists_of_bind h
    cases h
    exact ⟨hpattern, haction, rfl⟩

/-- A lexicon has the rules of its draft, in order. -/
theorem rules_of_compile (h : d.compile t = .ok lexicon) :
    List.Forall₂ (fun r compiled => rule t r = .ok compiled) d.rules lexicon.rules := by
  obtain ⟨structural, -, h⟩ := exists_of_bind h
  obtain ⟨rules, hrules, h⟩ := exists_of_bind h
  cases h
  exact mapM_eq_ok_iff.mp hrules

theorem structural_of_compile (h : d.compile t = .ok lexicon) :
    structuralFor t d = .ok lexicon.structural := by
  obtain ⟨structural, hstructural, h⟩ := exists_of_bind h
  obtain ⟨rules, -, h⟩ := exists_of_bind h
  cases h
  exact hstructural

theorem endSymbol_of_compile (h : d.compile t = .ok lexicon) :
    lexicon.endSymbol = t.endSymbol := by
  obtain ⟨structural, -, h⟩ := exists_of_bind h
  obtain ⟨rules, -, h⟩ := exists_of_bind h
  cases h
  rfl

/-- Every rule of a lexicon comes from one of the draft. -/
theorem exists_draft (h : d.compile t = .ok lexicon) :
    ∀ rule ∈ lexicon.rules, ∃ r ∈ d.rules, Compiles t r rule :=
  exists_of_forall₂ ((rules_of_compile h).imp fun _ _ => compiles_of_rule)

end LexiconDraft

/-! ## Structural terminals -/

/-- Resolving the kind of an action leaves what the action is for. -/
theorem isStructural_of_resolve {f : String → Except GrammarFault Symbol}
    {action : RuleAction String} {resolved : RuleAction Symbol}
    (h : action.resolve f = .ok resolved) : resolved.isStructural = action.isStructural := by
  cases action with
  | emit kind | emitStripped kind dropped | endOfInput kind =>
      obtain ⟨symbol, -, h⟩ := exists_of_bind h
      cases h
      rfl
  | blockOpen | lineBreak | skip =>
      cases h
      rfl

/-- Compiling sees to the structural terminals. -/
theorem LexiconDraft.equipped_of_compile {t : Automaton.Table} {d : LexiconDraft}
    {lexicon : Lexicon} (hcompile : d.compile t = .ok lexicon) : lexicon.Equipped := by
  intro rule hrule h hnone
  obtain ⟨r, hr, hcompiles⟩ := LexiconDraft.exists_draft hcompile rule hrule
  have hany : d.rules.any (·.action.isStructural) = true := by
    rw [isStructural_of_resolve hcompiles.action] at h
    exact List.any_eq_true.mpr ⟨r, hr, h⟩
  have hstructural := LexiconDraft.structural_of_compile hcompile
  rw [LexiconDraft.structuralFor, if_pos hany] at hstructural
  obtain ⟨indent, -, hstructural⟩ := exists_of_bind hstructural
  obtain ⟨dedent, -, hstructural⟩ := exists_of_bind hstructural
  obtain ⟨newline, -, hstructural⟩ := exists_of_bind hstructural
  exact nomatch (Except.ok.inj hstructural).trans hnone

/-! ## Matches -/

variable {lexicon : Lexicon} {mode : String} {ahead : List Char} {s : Selection}

/-- A selection is a match of a rule of the mode. -/
theorem Lexicon.exists_match_of_select (h : lexicon.select mode ahead = some s) :
    ∃ rule ∈ lexicon.rules, rule.isActiveIn mode = true ∧ rule.action = s.action ∧
      rule.match? ahead = some s.found := by
  obtain ⟨rule, hrule, hmatch⟩ := List.exists_of_findSome?_eq_some h
  obtain ⟨found, hfound, rfl⟩ := Option.map_eq_some_iff.mp hmatch
  obtain ⟨hmem, hactive⟩ := List.mem_filter.mp hrule
  exact ⟨rule, hmem, hactive, rfl, hfound⟩

/-- What a lexicon selects for a rule with structure, it has the terminals for. -/
theorem Lexicon.Equipped.structural_ne_none (hequipped : lexicon.Equipped)
    (h : lexicon.select mode ahead = some s) (hs : s.action.isStructural = true) :
    lexicon.structural ≠ none := by
  obtain ⟨rule, hmem, -, haction, -⟩ := Lexicon.exists_match_of_select h
  exact hequipped rule hmem (haction ▸ hs)

/-- A match that starts at the place of the search takes what stands there. -/
theorem exists_text_of_select (htied : lexicon.Tied) (h : lexicon.select mode ahead = some s) :
    s.found.start = 0 ∧ ∃ text back, ahead = text ++ back ∧
      s.found.length = Text.bytes text := by
  obtain ⟨rule, hmem, -, -, hmatch⟩ := Lexicon.exists_match_of_select h
  have hstart := htied rule hmem ahead s.found hmatch
  obtain ⟨front, text, back, hahead, hfront, hlength⟩ :=
    Regex.Machine.search_takes (Option.filter_eq_some_iff.mp hmatch).1
  obtain rfl : front = [] := by
    by_contra hne
    exact Nat.ne_of_gt (Text.bytes_pos hne) (hfront.symm.trans hstart)
  exact ⟨hstart, text, back, hahead, hlength⟩

end Offside

import Offside.Proofs.Automaton.Faults
import Offside.Proofs.Language.Marker
import Offside.Proofs.Language.Parsing
import Offside.Proofs.Language.Tokens
import Offside.Proofs.Lexer.Rounds

/-! # Faults of the module language — the one breach that a source can cause

    Levels of indentation come in steps of four spaces.  The unit of a file
    is a multiple of that, and the width of the innermost block a multiple of
    the unit, so a line leaves blocks by halves only if the unit is wider
    than four.

    * `Levelled` is what indentation can be while a source is read;
    * `breach_of_parse` says which breach a source can cause. -/

namespace Offside

/-- A block that opens with eight spaces or more. -/
def wideOpening : List Char := ':' :: '\n' :: List.replicate 8 ' '

/-- Indentation that a source can lead to. -/
inductive Indentation.Levelled (source : List Char) : Indentation → Prop
  | fresh : Levelled source ⟨0, none⟩
  /-- So many blocks, each as wide as so many times four spaces. -/
  | blocks (depth : Nat) {n : Nat} : 0 < n → (1 < n → wideOpening <:+: source) →
      Levelled source ⟨depth * (4 * n), some (4 * n)⟩

/-- The breach of a line that leaves blocks by halves, in a file whose unit is
    wider than four. -/
def Breach.HalfBlock (source : List Char) (breach : Breach) : Prop :=
  ∃ current width unit, breach = .partialDedent current width (some unit) ∧ width < current ∧
    ¬ unit ∣ current - width ∧ 4 < unit ∧ wideOpening <:+: source

namespace Indentation.Levelled

variable {source : List Char} {i j : Indentation} {n line : Nat}

theorem openBlock (h : i.Levelled source) (hwide : 1 < n → wideOpening <:+: source)
    (hopen : i.openBlock (4 * n) line = .ok j) : j.Levelled source := by
  cases h with
  | fresh =>
      rw [Indentation.openBlock] at hopen
      split at hopen
      next => cases hopen
      next hpos =>
        cases hopen
        have hn : 0 < n := Nat.pos_of_ne_zero fun hzero => hpos (by rw [hzero])
        have hone := blocks 1 hn hwide
        rwa [Nat.one_mul] at hone
  | blocks depth hn hwide' =>
      rw [Indentation.openBlock] at hopen
      split at hopen
      next => cases hopen
      next =>
        dsimp only at hopen
        split at hopen
        next => cases hopen
        next =>
          split at hopen
          next => cases hopen
          next hstep =>
            cases hopen
            rw [Decidable.not_not.mp hstep, ← Nat.succ_mul]
            exact .blocks _ hn hwide'

theorem closeAll (h : i.Levelled source) : i.closeAll.2.Levelled source := by
  cases h with
  | fresh => exact .fresh
  | blocks depth hn hwide =>
      have hnone := blocks 0 hn hwide
      rwa [Nat.zero_mul] at hnone

theorem lineBreak {r : LineBreak} {width : Nat} (h : i.Levelled source)
    (hbreak : i.lineBreak width line = .ok (r, j)) : j.Levelled source := by
  have hsame := Indentation.depth_lineBreak hbreak
  cases r with
  | same | deeper => exact hsame ▸ h
  | outward levels =>
      cases h with
      | fresh =>
          rw [Indentation.lineBreak] at hbreak
          split at hbreak
          next => cases hbreak
          next => split at hbreak <;> cases hbreak
      | @blocks depth n hn hwide =>
          rw [Indentation.lineBreak] at hbreak
          split at hbreak
          next => cases hbreak
          next =>
            split at hbreak
            next hlt =>
              dsimp only at hbreak hlt
              split at hbreak
              next hmod =>
                cases hbreak
                -- what is left of whole blocks are whole blocks
                obtain ⟨left, hleft⟩ : 4 * n ∣ width := by
                  have hdvd := Nat.dvd_sub (Nat.dvd_mul_left (4 * n) depth)
                    (Nat.dvd_of_mod_eq_zero hmod)
                  rwa [Nat.sub_sub_self (Nat.le_of_lt hlt)] at hdvd
                rw [hleft, Nat.mul_comm]
                exact .blocks left hn hwide
              next => cases hbreak
            next => split at hbreak <;> cases hbreak

/-- A line break is at fault for its indentation, or it leaves blocks by
    halves. -/
theorem halfBlock_of_lineBreak (h : i.Levelled source) {breach : Breach}
    (hbreak : i.lineBreak (4 * n) line = .error (.breach breach)) : breach.HalfBlock source := by
  rw [Indentation.lineBreak] at hbreak
  split at hbreak
  next => cases hbreak
  next =>
    split at hbreak
    next hlt =>
      cases h with
      | fresh => exact absurd hlt (Nat.not_lt_zero _)
      | @blocks depth unit hunit hwide =>
          dsimp only at hbreak hlt
          split at hbreak
          next => cases hbreak
          next hmod =>
            cases hbreak
            have hdvd : ¬ 4 * unit ∣ depth * (4 * unit) - 4 * n :=
              fun hdvd => hmod (Nat.mod_eq_zero_of_dvd hdvd)
            -- whole blocks of four spaces can be left in steps of four
            have hne : unit ≠ 1 := by
              rintro rfl
              exact hdvd (Nat.dvd_sub (Nat.dvd_mul_left _ depth) (Nat.dvd_mul_right 4 n))
            exact ⟨_, _, _, rfl, hlt, hdvd, by omega, hwide (by omega)⟩
    next => split at hbreak <;> cases hbreak

end Indentation.Levelled

namespace Language

open Automaton

/-! ## One match -/

/-- An indentation of more than four spaces has at least eight. -/
theorem wideOpening_isPrefix {n : Nat} (h : 1 < n) :
    wideOpening <+: ':' :: '\n' :: indentation n := by
  refine ⟨List.replicate (4 * n - 8) ' ', ?_⟩
  rw [wideOpening, indentation, List.cons_append, List.cons_append, List.replicate_append_replicate]
  congr 3
  omega

section

variable {x : Lexeme} {marker : String} {source : List Char} {i : Indentation} {span : Span}

/-- A match keeps indentation in levels. -/
theorem Lexeme.Formed.levelled (hx : x.Formed) (hi : i.Levelled source)
    (htext : x.text <:+: source) {scanned : Lexer.Scanned}
    (h : Lexer.perform (lexiconFor marker) i x.action x.text span x.width = .ok scanned) :
    scanned.indentation.Levelled source := by
  have houtcome := Lexer.perform_outcome h
  generalize haction : x.action = action at houtcome
  cases houtcome with
  | single | same | deeper | skip => exact hi
  | closing => exact hi.closeAll
  | outward _ hbreak => exact hi.lineBreak hbreak
  | opening _ _ hopen =>
      cases hx with
      | opening n =>
          have hwide : 1 < n → wideOpening <:+: source := fun hn =>
            (wideOpening_isPrefix hn).isInfix.trans htext
          exact hi.openBlock hwide hopen
      | remark | keyword | name | word | marker | lineBreak | skip => cases haction

/-- The only breach of a match is that of half a block. -/
theorem Lexeme.Formed.halfBlock (hx : x.Formed) (hi : i.Levelled source) {breach : Breach}
    (h : Lexer.Mishap (lexiconFor marker) i span x.width x.action ⟨.breach breach, i⟩) :
    breach.HalfBlock source := by
  generalize hfailed : (⟨.breach breach, i⟩ : Lexer.Failed) = failed at h
  generalize haction : x.action = action at h
  cases h with
  | unclosed hnone | unnamed _ hnone => cases hnone
  | block => cases hfailed
  | line hbreak =>
      cases hfailed
      cases hx with
      | lineBreak n => exact hi.halfBlock_of_lineBreak hbreak
      | remark | keyword | name | word | marker | opening | skip => cases haction

end

/-! ## All matches -/

/-- A lexer of the language at work on a source. -/
structure Measuring (marker : String) (source : List Char) (l : Lexer) : Prop
    extends Serving marker l where
  ahead : l.ahead <:+ source
  indentation : l.indentation.Levelled source

namespace Measuring

variable {marker : String} {source : List Char} {l l' : Lexer}

theorem start (marker : String) (source : List Char) :
    Measuring marker source (Lexer.start (lexiconFor marker) source) :=
  ⟨.start marker source, List.suffix_refl source, .fresh⟩

/-- What a lexer takes is a piece of the source, and so is what is left. -/
theorem pieces (h : Measuring marker source l) {text : List Char}
    (hahead : l.ahead = text ++ l'.ahead) : text <:+: source ∧ l'.ahead <:+ source :=
  ⟨(hahead ▸ (List.prefix_append text l'.ahead).isInfix).trans h.ahead.isInfix,
    (hahead ▸ List.suffix_append text l'.ahead).trans h.ahead⟩

/-- Matches keep the measure, and their only breach is that of half a block. -/
theorem keeps : Lexer.Keeps (Measuring marker source) (fun _ => True) fun fault =>
    ∀ breach, fault = .breach breach → breach.HalfBlock source where
  queue _ _ h := ⟨⟨h.lexicon, h.mode⟩, h.ahead, h.indentation⟩
  take h hselect htake := by
    obtain ⟨x, hx, hahead, hperform⟩ := h.exists_performed hselect htake
    obtain ⟨htext, hrest⟩ := h.pieces hahead
    exact ⟨⟨h.toServing.take htake, hrest, hx.levelled h.indentation htext hperform⟩,
      fun _ _ => trivial⟩
  fault h hselect htake := by
    obtain ⟨x, hx, hahead, hsame, hmishap⟩ := h.exists_failed hselect htake
    refine ⟨⟨h.toServing.take htake, (h.pieces hahead).2, hsame ▸ h.indentation⟩, ?_⟩
    rintro breach rfl
    exact hx.halfBlock h.indentation hmishap
  stop _ := trivial
  stuck _ _ := nofun

end Measuring

/-! ## Parsing -/

/-- With every end marker, the one breach that a source can cause is a line
    that leaves blocks by halves.  That takes a unit wider than four, and so
    the source opens some block with eight spaces or more. -/
theorem breach_of_parse (marker : String) :
    ∃ l, withMarker marker = .ok l ∧ ∀ (s : String) (capture : Bool) (breach : Breach),
      l.parse s capture = .error (.breach breach) →
      ∃ current width unit, breach = .partialDedent current width (some unit) ∧
        width < current ∧ ¬ unit ∣ current - width ∧ 4 < unit ∧
        ':' :: '\n' :: List.replicate 8 ' ' <:+: s.toList := by
  refine ⟨_, withMarker_eq marker, fun s capture breach hparse => ?_⟩
  have hfailure := failure_of_returns sound (builder_model capture) (parse_eq_error_iff.mp hparse)
  cases hfailure with
  | source hfeeds hnext =>
      obtain ⟨hl, hqueue, -⟩ :=
        Measuring.keeps.feeds (Measuring.start marker s.toList) (fun _ _ => trivial) hfeeds
      obtain ⟨-, -, -, hfault⟩ := Measuring.keeps.next hl hqueue hnext
      exact hfault _ rfl breach rfl

/-- A line that leaves half of a block of eight spaces. -/
def halfBlockSource : String :=
  "module a.b:\n        ;x\n    module c.d\n@@EOF@@"

theorem parse_halfBlockSource :
    standard.parse halfBlockSource true = .error (.breach (.partialDedent 8 4 (some 8))) := by
  decide +kernel

theorem breach_of_parse_halfBlockSource :
    standard.parse halfBlockSource true = .error (.breach (.partialDedent 8 4 (some 8))) ∧
      ∃ current width unit, Breach.partialDedent 8 4 (some 8) =
        .partialDedent current width (some unit) ∧ width < current ∧ ¬ unit ∣ current - width ∧
        4 < unit ∧ ':' :: '\n' :: List.replicate 8 ' ' <:+: halfBlockSource.toList := by
  obtain ⟨l, hl, hbreach⟩ := breach_of_parse defaultMarker
  obtain rfl := Except.ok.inj (hl.symm.trans withMarker_defaultMarker)
  exact ⟨parse_halfBlockSource, hbreach _ _ _ parse_halfBlockSource⟩

end Language

end Offside

import Offside.Lexer

/-! # Outcomes — what one match comes to, and how it fails

    All that a lexer does to tokens and blocks it does match by match.  What
    a match can come to is listed here once, and so are the ways in which it
    fails; all that is said of lexers later is read off the two lists.

    * `Outcome` lists what a match comes to, and `perform_outcome` says so;
    * `Mishap` lists its faults, each with the blocks as it leaves them, and
      `perform_mishap` says so;
    * `take_ok` and `take_error` say it of a lexer that takes a match. -/

namespace Offside

/-! ## Depth -/

namespace Indentation

variable {i j : Indentation} {width line : Nat}

theorem depth_openBlock (h : i.openBlock width line = .ok j) : j.depth = i.depth + 1 := by
  obtain ⟨current, unit⟩ := i
  simp only [openBlock] at h
  split at h
  next => exact nomatch h
  next hdeeper =>
    have hlt : current < width := Nat.not_le.mp hdeeper
    cases unit with
    | none =>
        cases h
        exact Nat.div_self (Nat.zero_lt_of_lt hlt)
    | some unit =>
        simp only at h
        split at h
        next => exact nomatch h
        next =>
          split at h
          next => exact nomatch h
          next hstep =>
            cases h
            have hwidth : width = current + unit := Decidable.not_not.mp hstep
            have hunit : 0 < unit := by omega
            rw [depth, hwidth]
            exact Nat.add_div_right current hunit

/-- A line further out leaves as many blocks as it says. -/
theorem depth_lineBreak {r : LineBreak} (h : i.lineBreak width line = .ok (r, j)) :
    match r with
    | .outward levels => j.depth + levels = i.depth
    | _ => j = i := by
  obtain ⟨current, unit⟩ := i
  simp only [lineBreak] at h
  split at h
  next => cases h; rfl
  next =>
    split at h
    next hlt =>
      cases unit with
      | none => exact nomatch h
      | some unit =>
          simp only at h
          split at h
          next hmod =>
            cases h
            obtain ⟨levels, hlevels⟩ : unit ∣ current - width := Nat.dvd_of_mod_eq_zero hmod
            have hunit : 0 < unit := by
              rcases Nat.eq_zero_or_pos unit with rfl | hpos
              · omega
              · exact hpos
            have hcurrent : current = width + unit * levels := by omega
            -- the levels that are left and those that stay make up all there were
            show width / unit + (current - width) / unit = current / unit
            rw [hlevels, hcurrent, Nat.mul_div_cancel_left levels hunit,
              Nat.add_mul_div_left width levels hunit]
          next => exact nomatch h
    next =>
      split at h
      next => exact nomatch h
      next => cases h; rfl

theorem depth_closeAll (i : Indentation) : i.closeAll.2.depth = 0 := by
  obtain ⟨current, unit⟩ := i
  cases unit with
  | none => rfl
  | some unit => exact Nat.zero_div unit

end Indentation

/-- The kind of token that an action asks for by itself. -/
def RuleAction.kind? {κ : Type} : RuleAction κ → Option κ
  | emit kind => some kind
  | emitStripped kind _ => some kind
  | endOfInput kind => some kind
  | _ => none

namespace Lexer

/-! ## What a match comes to -/

/-- What a match that covers a span can come to, by the action of its rule and
    the width of its first group. -/
inductive Outcome (lexicon : Lexicon) (i : Indentation) (span : Span) (width : Nat) :
    RuleAction Symbol → Scanned → Prop
  /-- One token. -/
  | single {action : RuleAction Symbol} {kind : Symbol} (text : String) :
      action.kind? = some kind → action.isStructural = false →
      Outcome lexicon i span width action ⟨[⟨kind, text, span⟩], i⟩
  /-- The end of the input: an end for every open block, and the mark. -/
  | closing {structural : Structural Symbol} {kind : Symbol} (text : String) :
      lexicon.structural = some structural ∨ i.depth = 0 →
      Outcome lexicon i span width (.endOfInput kind)
        ⟨dedents structural span i.depth ++ [⟨kind, text, span⟩], i.closeAll.2⟩
  /-- A block opens. -/
  | opening {structural : Structural Symbol} {j : Indentation} (text : String) :
      lexicon.structural = some structural → i.openBlock width span.endLine = .ok j →
      Outcome lexicon i span width .blockOpen ⟨[⟨structural.indent, text, span⟩], j⟩
  /-- A line at the same level. -/
  | same {structural : Structural Symbol} :
      lexicon.structural = some structural →
      Outcome lexicon i span width .lineBreak ⟨[⟨structural.newline, "", span⟩], i⟩
  /-- A line further out. -/
  | outward {structural : Structural Symbol} {levels : Nat} {j : Indentation} :
      lexicon.structural = some structural →
      i.lineBreak width span.endLine = .ok (.outward levels, j) →
      Outcome lexicon i span width .lineBreak
        ⟨dedents structural span levels ++ [⟨structural.newline, "", span⟩], j⟩
  /-- A line further in, which comes to nothing. -/
  | deeper : i.lineBreak width span.endLine = .ok (.deeper, i) →
      Outcome lexicon i span width .lineBreak ⟨[], i⟩
  | skip : Outcome lexicon i span width .skip ⟨[], i⟩

/-- What a match comes to is listed. -/
theorem perform_outcome {lexicon : Lexicon} {i : Indentation} {action : RuleAction Symbol}
    {text : List Char} {span : Span} {width : Nat} {scanned : Scanned}
    (h : perform lexicon i action text span width = .ok scanned) :
    Outcome lexicon i span width action scanned := by
  cases action with
  | emit kind =>
      cases h
      exact .single _ rfl rfl
  | emitStripped kind dropped =>
      cases h
      exact .single _ rfl rfl
  | endOfInput kind =>
      have hclosing (structural : Structural Symbol)
          (hs : lexicon.structural = some structural ∨ i.depth = 0) :
          Outcome lexicon i span width (.endOfInput kind)
            ⟨dedents structural span i.depth ++ [⟨kind, String.ofList text, span⟩],
              i.closeAll.2⟩ :=
        .closing _ hs
      rw [perform, show i.closeAll = (i.depth, i.closeAll.2) from rfl] at h
      simp only at h
      split at h
      next hdepth =>
        cases h
        rw [hdepth] at hclosing
        exact hclosing ⟨0, 0, 0⟩ (.inr rfl)
      next => cases h
      next n structural hdepth hs =>
        rw [batch_concat] at h
        cases h
        exact hclosing structural (.inl hs)
  | blockOpen =>
      rw [perform] at h
      split at h
      next => cases h
      next structural hs =>
        split at h
        next => cases h
        next j hj =>
          cases h
          exact .opening _ hs hj
  | lineBreak =>
      rw [perform] at h
      split at h
      next => cases h
      next structural hs =>
        split at h
        next => cases h
        next j hj =>
          cases h
          obtain rfl : j = i := Indentation.depth_lineBreak hj
          exact .same hs
        next levels j hj =>
          rw [batch_concat] at h
          cases h
          exact .outward hs hj
        next j hj =>
          cases h
          obtain rfl : j = i := Indentation.depth_lineBreak hj
          exact .deeper hj
  | skip =>
      cases h
      exact .skip

/-- A token of a match has the kind that its rule asks for, or it stands for
    structure. -/
theorem Outcome.kinds {lexicon : Lexicon} {i : Indentation} {span : Span} {width : Nat}
    {action : RuleAction Symbol} {scanned : Scanned}
    (h : Outcome lexicon i span width action scanned) :
    ∀ token ∈ scanned.tokens, action.kind? = some token.kind ∨
      ∃ structural, lexicon.structural = some structural ∧ (token.kind = structural.indent ∨
        token.kind = structural.dedent ∨ token.kind = structural.newline) := by
  cases h with
  | single text hkind => exact List.forall_mem_singleton.mpr (.inl hkind)
  | @closing structural kind text hstructural =>
      refine List.forall_mem_append.mpr ⟨fun token htoken => .inr ?_,
        List.forall_mem_singleton.mpr (.inl rfl)⟩
      obtain ⟨hdepth, rfl⟩ := List.mem_replicate.mp htoken
      exact ⟨structural, hstructural.resolve_right hdepth, .inr (.inl rfl)⟩
  | opening text hstructural =>
      exact List.forall_mem_singleton.mpr (.inr ⟨_, hstructural, .inl rfl⟩)
  | same hstructural =>
      exact List.forall_mem_singleton.mpr (.inr ⟨_, hstructural, .inr (.inr rfl)⟩)
  | outward hstructural =>
      refine List.forall_mem_append.mpr ⟨fun token htoken => .inr ⟨_, hstructural, ?_⟩,
        List.forall_mem_singleton.mpr (.inr ⟨_, hstructural, .inr (.inr rfl)⟩)⟩
      obtain rfl := List.eq_of_mem_replicate htoken
      exact .inr (.inl rfl)
  | deeper | skip => exact nofun

/-- Without structural terminals no block opens. -/
theorem Outcome.depth_of_bare {lexicon : Lexicon} {i j : Indentation} {span : Span}
    {width : Nat} {action : RuleAction Symbol} {tokens : List Token}
    (h : Outcome lexicon i span width action ⟨tokens, j⟩) (hnone : lexicon.structural = none)
    (hdepth : i.depth = 0) : j.depth = 0 := by
  cases h with
  | single | same | deeper | skip => exact hdepth
  | closing => exact i.depth_closeAll
  | opening text hstructural => exact nomatch hnone.symm.trans hstructural
  | outward hstructural => exact nomatch hnone.symm.trans hstructural

/-! ## How a match fails -/

/-- The faults of a match, by the action of its rule, each with the blocks as
    it leaves them.  A batch without tokens is none of them. -/
inductive Mishap (lexicon : Lexicon) (i : Indentation) (span : Span) (width : Nat) :
    RuleAction Symbol → Failed → Prop
  /-- Blocks are closed, and there is no terminal for their ends. -/
  | unclosed {kind : Symbol} : lexicon.structural = none → i.depth ≠ 0 →
      Mishap lexicon i span width (.endOfInput kind)
        ⟨.breach .noStructuralTerminals, i.closeAll.2⟩
  /-- There is no terminal for a block that opens or a line. -/
  | unnamed {action : RuleAction Symbol} : action = .blockOpen ∨ action = .lineBreak →
      lexicon.structural = none →
      Mishap lexicon i span width action ⟨.breach .noStructuralTerminals, i⟩
  /-- A block does not open at this width. -/
  | block {cause : IndentFault} : i.openBlock width span.endLine = .error cause →
      Mishap lexicon i span width .blockOpen ⟨.indentation cause, i⟩
  /-- A line does not stand at this width. -/
  | line {fault : Fault} : i.lineBreak width span.endLine = .error fault →
      Mishap lexicon i span width .lineBreak ⟨fault, i⟩

/-- How a match fails is listed. -/
theorem perform_mishap {lexicon : Lexicon} {i : Indentation} {action : RuleAction Symbol}
    {text : List Char} {span : Span} {width : Nat} {failed : Failed}
    (h : perform lexicon i action text span width = .error failed) :
    Mishap lexicon i span width action failed := by
  cases action with
  | emit | emitStripped | skip => cases h
  | endOfInput kind =>
      rw [perform, show i.closeAll = (i.depth, i.closeAll.2) from rfl] at h
      simp only at h
      split at h
      next => cases h
      next n hdepth hs =>
        cases h
        exact .unclosed hs (hdepth ▸ Nat.succ_ne_zero n)
      next =>
        rw [batch_concat] at h
        cases h
  | blockOpen =>
      rw [perform] at h
      split at h
      next hs =>
        cases h
        exact .unnamed (.inl rfl) hs
      next =>
        split at h
        next hopen =>
          cases h
          exact .block hopen
        next => cases h
  | lineBreak =>
      rw [perform] at h
      split at h
      next hs =>
        cases h
        exact .unnamed (.inr rfl) hs
      next =>
        split at h
        next hbreak =>
          cases h
          exact .line hbreak
        next => cases h
        next =>
          rw [batch_concat] at h
          cases h
        next => cases h

/-- A fault leaves the blocks as they were.  It could not where blocks are open
    and there is no terminal for their ends. -/
theorem Mishap.indentation_eq {lexicon : Lexicon} {i : Indentation} {span : Span} {width : Nat}
    {action : RuleAction Symbol} {failed : Failed}
    (h : Mishap lexicon i span width action failed)
    (hstructural : lexicon.structural = none → i.depth = 0) : failed.indentation = i := by
  cases h with
  | unclosed hnone hdepth => exact absurd (hstructural hnone) hdepth
  | unnamed | block | line => rfl

/-! ## Taking a match -/

variable {l l' : Lexer} {s : Selection}

/-- Taking a match moves the place and the text ahead, whatever comes of it,
    and nothing else changes but the blocks. -/
theorem take_passes {r : Except Fault (List Token)} (h : l.take s = (r, l')) :
    l' = { (l.pass s.found.length).2 with indentation := l'.indentation } := by
  simp only [take] at h
  split at h <;> cases h <;> rfl

/-- Taking a match that is not at fault comes to what is listed. -/
theorem take_ok {tokens : List Token} (h : l.take s = (.ok tokens, l')) :
    Outcome l.lexicon l.indentation (l.place.spanTo l'.place) ((s.found.width 1).getD 0)
      s.action ⟨tokens, l'.indentation⟩ := by
  simp only [take] at h
  split at h
  next => cases h
  next scanned hperform =>
    cases h
    exact perform_outcome hperform

/-- Taking a match that is at fault comes to a mishap that is listed. -/
theorem take_error {fault : Fault} (h : l.take s = (.error fault, l')) :
    Mishap l.lexicon l.indentation (l.place.spanTo l'.place) ((s.found.width 1).getD 0)
      s.action ⟨fault, l'.indentation⟩ := by
  simp only [take] at h
  split at h
  next failed hperform =>
    cases h
    exact perform_mishap hperform
  next => cases h

/-- Taking a match keeps the lexicon. -/
theorem take_lexicon {r : Except Fault (List Token)} (h : l.take s = (r, l')) :
    l'.lexicon = l.lexicon := by
  rw [take_passes h]
  rfl

/-- Taking a match keeps the source. -/
theorem take_source {r : Except Fault (List Token)} (h : l.take s = (r, l')) :
    l'.source = l.source := by
  rw [take_passes h]
  rfl

/-- Taking a match keeps the mode. -/
theorem take_mode {r : Except Fault (List Token)} (h : l.take s = (r, l')) :
    l'.mode = l.mode := by
  rw [take_passes h]
  rfl

end Lexer

end Offside

import Offside.Proofs.Language.Rendering
import Offside.Proofs.Language.Scanner

/-! # Lexemes — what the scanner says of written texts, and what it takes

    A text that is written in the way of a layout is taken piece by piece;
    and of any text nothing else is taken for a name or a comment than what
    has the form of one.

    * `scanner_keyword` and the lemmas beside it follow the pieces of a
      layout;
    * `scanner_formed` lists what is selected, with the form that it has. -/

namespace Offside

namespace Language

/-! ## Dotted names -/

theorem IsDotted.exists_head {text : List Char} (h : IsDotted text) :
    ∃ c cs, text = c :: cs ∧ isWordChar c = true := by
  obtain ⟨first, others, ⟨hne, hword⟩, -, -, rfl⟩ := h
  obtain ⟨c, cs, rfl⟩ := List.exists_cons_of_ne_nil hne
  exact ⟨c, cs ++ others.flatMap ('.' :: ·), rfl, hword c (List.mem_cons_self ..)⟩

theorem IsDotted.dot_mem {text : List Char} (h : IsDotted text) : '.' ∈ text := by
  obtain ⟨first, others, -, hne, -, rfl⟩ := h
  obtain ⟨w, ws, rfl⟩ := List.exists_cons_of_ne_nil hne
  exact List.mem_append_right first (List.mem_cons_self ..)

theorem dottedRun_append {w : List Char} (h : ∀ c ∈ w, isWordChar c = true) (r : List Char) :
    dottedRun (w ++ r) = w ++ dottedRun r := by
  induction w with
  | nil => rfl
  | cons c w ih =>
      rw [List.cons_append, dottedRun_word (h c (List.mem_cons_self ..)),
        ih fun d hd => h d (List.mem_cons_of_mem c hd)]
      rfl

/-- Words behind dots are gone through up to a character that is neither. -/
theorem dottedRun_words {others : List (List Char)} (h : ∀ w ∈ others, IsWord w) {r : List Char}
    (hr : dottedRun r = []) : dottedRun (others.flatMap ('.' :: ·) ++ r) =
      others.flatMap ('.' :: ·) := by
  induction others with
  | nil => exact hr
  | cons w ws ih =>
      obtain ⟨hne, hword⟩ := h w (List.mem_cons_self ..)
      obtain ⟨d, ds, rfl⟩ := List.exists_cons_of_ne_nil hne
      have hws := ih fun v hv => h v (List.mem_cons_of_mem _ hv)
      rw [List.flatMap_cons, List.append_assoc, List.cons_append, List.cons_append,
        dottedRun_dotWord (hword d (List.mem_cons_self ..)), ← List.cons_append,
        dottedRun_append hword, hws]
      rfl

/-- A dotted name is gone through up to a character that is not of it. -/
theorem IsDotted.dottedRun_append {text : List Char} (h : IsDotted text) {c : Char}
    (hc : isWordChar c = false) (hdot : c ≠ '.') (r : List Char) :
    dottedRun (text ++ c :: r) = text := by
  obtain ⟨first, others, ⟨-, hfirst⟩, -, hothers, rfl⟩ := h
  have hstop : dottedRun (c :: r) = [] := by
    refine dottedRun_eq_nil ?_ ?_
    · rintro _ _ ⟨⟩
      exact hc
    · rintro ⟨_, _, ⟨⟩, -⟩
      exact hdot rfl
  rw [List.append_assoc, Language.dottedRun_append hfirst, dottedRun_words hothers hstop]

/-- What is gone through are words, the first perhaps empty. -/
theorem exists_words (r : List Char) : ∃ (first : List Char) (others : List (List Char)),
    (∀ c ∈ first, isWordChar c = true) ∧ (∀ w ∈ others, IsWord w) ∧
      dottedRun r = first ++ others.flatMap ('.' :: ·) := by
  induction r using dottedRun_induction with
  | stop r hstop => exact ⟨[], [], nofun, nofun, hstop⟩
  | word c cs hc ih =>
      obtain ⟨first, others, hfirst, hothers, hrun⟩ := ih
      refine ⟨c :: first, others, List.forall_mem_cons.mpr ⟨hc, hfirst⟩, hothers, ?_⟩
      rw [dottedRun_word hc, hrun]
      rfl
  | dotWord d ds hd ih =>
      obtain ⟨first, others, hfirst, hothers, hrun⟩ := ih
      have hword : IsWord (d :: first) :=
        ⟨List.cons_ne_nil _ _, List.forall_mem_cons.mpr ⟨hd, hfirst⟩⟩
      refine ⟨[], (d :: first) :: others, nofun, List.forall_mem_cons.mpr ⟨hword, hothers⟩, ?_⟩
      rw [dottedRun_dotWord hd, dottedRun_word hd, hrun]
      rfl

/-- What starts with a word and has a dot in it is a dotted name. -/
theorem isDotted_dottedRun {c : Char} {cs : List Char} (hc : isWordChar c = true)
    (hdot : (dottedRun (c :: cs)).contains '.' = true) : IsDotted (dottedRun (c :: cs)) := by
  obtain ⟨first, others, hfirst, hothers, hrun⟩ := exists_words cs
  have hwords : ∀ d ∈ c :: first, isWordChar d = true := List.forall_mem_cons.mpr ⟨hc, hfirst⟩
  have hsplit : dottedRun (c :: cs) = (c :: first) ++ others.flatMap ('.' :: ·) := by
    rw [dottedRun_word hc, hrun]
    rfl
  refine ⟨c :: first, others, ⟨List.cons_ne_nil _ _, hwords⟩, ?_, hothers, hsplit⟩
  rintro rfl
  rw [List.contains_iff_mem, hsplit, List.flatMap_nil, List.append_nil] at hdot
  exact absurd (hwords '.' hdot) (by decide)

/-- A text is a dotted name exactly if all of it is gone through. -/
theorem isDotted_iff {text : List Char} : IsDotted text ↔
    text.head?.any isWordChar = true ∧ dottedRun text = text ∧ '.' ∈ text := by
  constructor
  · intro h
    obtain ⟨c, cs, hhead, hc⟩ := h.exists_head
    refine ⟨by rw [hhead]; exact hc, ?_, h.dot_mem⟩
    obtain ⟨first, others, ⟨-, hfirst⟩, -, hothers, rfl⟩ := h
    have hrest := dottedRun_words hothers (r := []) rfl
    rw [List.append_nil] at hrest
    rw [dottedRun_append hfirst, hrest]
  · rintro ⟨hhead, hrun, hdot⟩
    cases text with
    | nil => exact nomatch hhead
    | cons c cs =>
        rw [← hrun] at hdot ⊢
        exact isDotted_dottedRun hhead (List.contains_iff_mem.mpr hdot)

instance (text : List Char) : Decidable (IsDotted text) := decidable_of_iff' _ isDotted_iff

instance (text : List Char) : Decidable (IsName text) :=
  inferInstanceAs (Decidable (IsDotted text ∧ ¬ keyword <+: text))

example : IsName ['a', '.', 'b'] ∧ ¬ IsName ['a', '.'] := by decide

/-! ## Pieces of a layout -/

theorem toNat_of_isWordChar {c : Char} (h : isWordChar c = true) :
    0x30 ≤ c.toNat ∧ c.toNat ≤ 0x7a := by
  simp only [isWordChar, Bool.or_eq_true, Bool.and_eq_true, decide_eq_true_eq, beq_iff_eq] at h
  rcases h with ((⟨hlo, hhi⟩ | ⟨hlo, hhi⟩) | ⟨hlo, hhi⟩) | rfl
  · have h₁ : 0x61 ≤ c.toNat := hlo
    have h₂ : c.toNat ≤ 0x7a := hhi
    omega
  · have h₁ : 0x41 ≤ c.toNat := hlo
    have h₂ : c.toNat ≤ 0x5a := hhi
    omega
  · have h₁ : 0x30 ≤ c.toNat := hlo
    have h₂ : c.toNat ≤ 0x39 := hhi
    omega
  · decide

theorem isBlank_of_isWordChar {c : Char} (h : isWordChar c = true) : isBlank c = false := by
  obtain ⟨hlo, hhi⟩ := toNat_of_isWordChar h
  have hspace : Unicode.isSpace c = false := by
    rw [Unicode.isSpace, Unicode.whiteSpace, Unicode.Ranges.has, if_neg (by omega),
      if_neg (by omega), Unicode.Ranges.has, if_neg (by omega), if_neg (by omega),
      Unicode.Ranges.has_of_lt (by omega)]
  rw [isBlank, hspace, Bool.false_and]

/-- The levels of an indentation with something else behind it. -/
theorem levels_indentation (n : Nat) {c : Char} (hc : c ≠ ' ') (r : List Char) :
    levels (indentation n ++ c :: r) = n := by
  induction n with
  | zero =>
      apply levels_eq_zero
      intro hfront
      exact hc (List.cons_prefix_cons.mp hfront).1.symm
  | succ n ih => exact congrArg (· + 1) ih

section

variable {marker text : List Char} {c : Char} {r : List Char}

theorem scanKeyword_eq_none (h : 'm' ≠ c) : scanKeyword (c :: r) = none := by
  have hnot : ¬ keyword <+: c :: r := fun hfront => h (List.cons_prefix_cons.mp hfront).1
  exact if_neg hnot

theorem scanMarker_eq_none (h : '\n' ≠ c) : scanMarker marker (c :: r) = none := by
  have hnot : ¬ '\n' :: marker <+: c :: r := fun hfront =>
    h (List.cons_prefix_cons.mp hfront).1
  exact if_neg hnot

theorem scanner_keyword :
    scanner marker (keyword ++ r) = some ⟨.emit Kind.keyword, keyword, 0⟩ := by
  have hkeyword : scanKeyword (keyword ++ r) = some ⟨.emit Kind.keyword, keyword, 0⟩ :=
    if_pos (List.prefix_append keyword r)
  have hremark : scanRemark (keyword ++ r) = none := rfl
  simp only [scanner, scans, List.findSome?_cons, hremark, hkeyword]

theorem scanner_remark (h : IsRemark text) (hc : isRemarkChar c = false) :
    scanner marker (';' :: text ++ c :: r) =
      some ⟨.emitStripped Kind.comment 1, ';' :: text, 0⟩ := by
  have hrun : (text ++ c :: r).takeWhile isRemarkChar = text := by
    rw [List.takeWhile_append_of_pos h, List.takeWhile_cons_of_neg (Bool.eq_false_iff.mp hc),
      List.append_nil]
  show some (Lexeme.mk (.emitStripped Kind.comment 1)
    (';' :: (text ++ c :: r).takeWhile isRemarkChar) 0) = _
  rw [hrun]

theorem stripped_remark (text : List Char) : Lexer.stripped 1 (';' :: text) = text := by
  have hdrop : Text.dropBytes? 1 (';' :: text) = some text := by
    rw [Text.dropBytes?, if_pos (by decide)]
    exact Text.dropBytes?.eq_1 text
  rw [Lexer.stripped, hdrop, Option.getD_some]

/-- The keyword has no dot, so it is the beginning of a text exactly if it is
    that of the dotted name that the text begins with. -/
theorem keyword_front (h : IsDotted text) (hfront : keyword <+: text ++ r) :
    keyword <+: text := by
  rcases List.prefix_or_prefix_of_prefix hfront (List.prefix_append text r) with hkeyword | htext
  · exact hkeyword
  · have hdot : '.' ∈ keyword := htext.subset h.dot_mem
    exact absurd hdot (by decide)

/-- A dotted name that does not begin like the keyword is taken for one. -/
theorem scanner_name (h : IsName text) (hc : isWordChar c = false) (hdot : c ≠ '.') :
    scanner marker (text ++ c :: r) = some ⟨.emit Kind.name, text, 0⟩ := by
  obtain ⟨hdotted, hplain⟩ := h
  have hrun : dottedRun (text ++ c :: r) = text := hdotted.dottedRun_append hc hdot r
  have hmem : text.contains '.' = true := List.contains_iff_mem.mpr hdotted.dot_mem
  have hkeyword : scanKeyword (text ++ c :: r) = none :=
    if_neg fun hfront => hplain (keyword_front hdotted hfront)
  have hhead : (text ++ c :: r).head?.any isWordChar = true ∧
      scanRemark (text ++ c :: r) = none := by
    obtain ⟨d, ds, rfl, hd⟩ := hdotted.exists_head
    refine ⟨hd, ?_⟩
    rw [scanRemark.eq_def]
    split
    next heq =>
      obtain ⟨rfl, -⟩ := List.cons.inj heq
      exact absurd hd (by decide)
    next => rfl
  have hname : scanName (text ++ c :: r) = some ⟨.emit Kind.name, text, 0⟩ := by
    rw [scanName, hhead.1, hrun, hmem]
    rfl
  simp only [scanner, scans, List.findSome?_cons, hhead.2, hkeyword, hname]

theorem scanner_space (h : isWordChar c = true) :
    scanner marker ([' '] ++ c :: r) = some ⟨.skip, [' '], 0⟩ := by
  show scanner marker (' ' :: c :: r) = _
  have hkeyword : scanKeyword (' ' :: c :: r) = none := scanKeyword_eq_none (by decide)
  have hmarker : scanMarker marker (' ' :: c :: r) = none := scanMarker_eq_none (by decide)
  have hrun : (' ' :: c :: r).takeWhile isBlank = [' '] := by
    rw [List.takeWhile_cons_of_pos (by decide),
      List.takeWhile_cons_of_neg (Bool.eq_false_iff.mp (isBlank_of_isWordChar h))]
  have hblank : scanRun isBlank .skip (' ' :: c :: r) = some ⟨.skip, [' '], 0⟩ := by
    rw [← hrun]
    rfl
  simp only [scanner, scans, List.findSome?_cons, hkeyword, hmarker, hblank]
  rfl

/-- A colon at the end of a line opens a block as deep as the next line is
    indented. -/
theorem scanner_atColon (cs : List Char) : scanner marker (':' :: '\n' :: cs) =
    some ⟨.blockOpen, ':' :: '\n' :: indentation (levels cs), 4 * levels cs⟩ := by
  have hkeyword : scanKeyword (':' :: '\n' :: cs) = none := scanKeyword_eq_none (by decide)
  have hmarker : scanMarker marker (':' :: '\n' :: cs) = none := scanMarker_eq_none (by decide)
  simp only [scanner, scans, List.findSome?_cons, hkeyword, hmarker, scanOpening]
  rfl

theorem scanner_opening (hc : c ≠ ' ') (n : Nat) :
    scanner marker (':' :: '\n' :: indentation n ++ c :: r) =
      some ⟨.blockOpen, ':' :: '\n' :: indentation n, 4 * n⟩ := by
  have hscan : scanner marker (':' :: '\n' :: (indentation n ++ c :: r)) = _ := scanner_atColon _
  rwa [levels_indentation n hc] at hscan

/-- The end of a line goes with the indentation of the next one, unless that is
    the end marker. -/
theorem scanner_atNewline {cs : List Char} (h : ¬ marker <+: cs) : scanner marker ('\n' :: cs) =
    some ⟨.lineBreak, '\n' :: indentation (levels cs), 4 * levels cs⟩ := by
  have hkeyword : scanKeyword ('\n' :: cs) = none := scanKeyword_eq_none (by decide)
  have hmarker : scanMarker marker ('\n' :: cs) = none :=
    if_neg fun hfront => h (List.cons_prefix_cons.mp hfront).2
  simp only [scanner, scans, List.findSome?_cons, hkeyword, hmarker, scanBreak]
  rfl

theorem scanner_break (hc : c ≠ ' ') (n : Nat) (h : ¬ marker <+: indentation n ++ c :: r) :
    scanner marker ('\n' :: indentation n ++ c :: r) =
      some ⟨.lineBreak, '\n' :: indentation n, 4 * n⟩ := by
  have hscan := scanner_atNewline h
  rwa [levels_indentation n hc] at hscan

theorem scanner_marker : scanner marker ('\n' :: marker ++ r) =
    some ⟨.endOfInput Kind.marker, '\n' :: marker, 0⟩ := by
  have hkeyword : scanKeyword ('\n' :: marker ++ r) = none := scanKeyword_eq_none (by decide)
  have hmarker : scanMarker marker ('\n' :: marker ++ r) =
      some ⟨.endOfInput Kind.marker, '\n' :: marker, 0⟩ :=
    if_pos (List.prefix_append ('\n' :: marker) r)
  simp only [scanner, scans, List.findSome?_cons, hkeyword, hmarker]
  rfl

end

/-! ## What is taken for what -/

/-- All that the scanner can select, with the form that each action asks for. -/
inductive Lexeme.Formed : Lexeme → Prop
  | remark {text : List Char} : IsRemark text →
      Lexeme.Formed ⟨.emitStripped Kind.comment 1, ';' :: text, 0⟩
  | keyword : Lexeme.Formed ⟨.emit Kind.keyword, keyword, 0⟩
  | name {text : List Char} : IsName text → Lexeme.Formed ⟨.emit Kind.name, text, 0⟩
  | word (text : List Char) : Lexeme.Formed ⟨.emit Kind.word, text, 0⟩
  | marker (text : List Char) : Lexeme.Formed ⟨.endOfInput Kind.marker, '\n' :: text, 0⟩
  | opening (n : Nat) : Lexeme.Formed ⟨.blockOpen, ':' :: '\n' :: indentation n, 4 * n⟩
  | lineBreak (n : Nat) : Lexeme.Formed ⟨.lineBreak, '\n' :: indentation n, 4 * n⟩
  | skip {text : List Char} : (∀ c ∈ text, isBlank c = true) → Lexeme.Formed ⟨.skip, text, 0⟩

section

variable {r : List Char} {x : Lexeme}

theorem formed_of_scanRemark (h : scanRemark r = some x) : x.Formed := by
  rw [scanRemark.eq_def] at h
  split at h
  next cs =>
    cases h
    exact .remark fun c hc => List.mem_takeWhile_imp hc
  next => cases h

theorem formed_of_scanKeyword (h : scanKeyword r = some x) : x.Formed := by
  rw [scanKeyword] at h
  split at h
  next =>
    cases h
    exact .keyword
  next => cases h

/-- What is taken for a name is one, because the keyword is tried before. -/
theorem formed_of_scanName (hkeyword : scanKeyword r = none) (h : scanName r = some x) :
    x.Formed := by
  rw [scanName] at h
  split at h
  next hname =>
    cases h
    obtain ⟨hhead, hdot⟩ := Bool.and_eq_true_iff.mp hname
    cases r with
    | nil => cases hhead
    | cons c cs =>
        refine .name ⟨isDotted_dottedRun hhead hdot, ?_⟩
        intro hfront
        rw [scanKeyword, if_pos (hfront.trans (dottedRun_isPrefix (c :: cs)))] at hkeyword
        cases hkeyword
  next => cases h

theorem formed_of_scanRun {p : Char → Bool} {action : RuleAction Symbol}
    (hform : ∀ text, (∀ c ∈ text, p c = true) → (Lexeme.mk action text 0).Formed)
    (h : scanRun p action r = some x) : x.Formed := by
  rw [scanRun] at h
  split at h
  next =>
    cases h
    exact hform _ fun c hc => List.mem_takeWhile_imp hc
  next => cases h

theorem formed_of_scanMarker {marker : List Char} (h : scanMarker marker r = some x) :
    x.Formed := by
  rw [scanMarker] at h
  split at h
  next =>
    cases h
    exact .marker _
  next => cases h

theorem formed_of_scanOpening (h : scanOpening r = some x) : x.Formed := by
  rw [scanOpening.eq_def] at h
  split at h
  next =>
    cases h
    exact .opening _
  next => cases h

theorem formed_of_scanBreak (h : scanBreak r = some x) : x.Formed := by
  rw [scanBreak.eq_def] at h
  split at h
  next =>
    cases h
    exact .lineBreak _
  next => cases h

/-- Whatever is selected has its form. -/
theorem scanner_formed {marker : List Char} (h : scanner marker r = some x) : x.Formed := by
  simp only [scanner, scans, List.findSome?_cons, List.findSome?_nil] at h
  split at h
  next hscan => exact formed_of_scanRemark (hscan.trans h)
  split at h
  next hscan => exact formed_of_scanKeyword (hscan.trans h)
  next hkeyword =>
    split at h
    next hscan => exact formed_of_scanName hkeyword (hscan.trans h)
    split at h
    next hscan => exact formed_of_scanRun (fun text _ => .word text) (hscan.trans h)
    split at h
    next hscan => exact formed_of_scanMarker (hscan.trans h)
    split at h
    next hscan => exact formed_of_scanOpening (hscan.trans h)
    split at h
    next hscan => exact formed_of_scanBreak (hscan.trans h)
    split at h
    next hscan => exact formed_of_scanRun (fun _ htext => .skip htext) (hscan.trans h)
    next => cases h

/-- A block opens as deep as the next line is indented. -/
theorem levels_of_opening {marker : List Char} {n : Nat}
    (h : scanner marker (':' :: '\n' :: indentation n ++ r) =
      some ⟨.blockOpen, ':' :: '\n' :: indentation n, 4 * n⟩) :
    levels (indentation n ++ r) = n := by
  have hwidth := congrArg (Option.map Lexeme.width) h
  rw [List.cons_append, List.cons_append, scanner_atColon] at hwidth
  have hlevels : 4 * levels (indentation n ++ r) = 4 * n := Option.some.inj hwidth
  omega

/-- A line break measures all of the indentation of the next line. -/
theorem levels_of_lineBreak {marker : List Char} {n : Nat}
    (h : scanner marker ('\n' :: indentation n ++ r) =
      some ⟨.lineBreak, '\n' :: indentation n, 4 * n⟩) : levels (indentation n ++ r) = n := by
  have hmarker : ¬ marker <+: indentation n ++ r := by
    rintro ⟨rest, hrest⟩
    rw [List.cons_append, ← hrest, ← List.cons_append, scanner_marker] at h
    cases h
  have hwidth := congrArg (Option.map Lexeme.width) h
  rw [List.cons_append, scanner_atNewline hmarker] at hwidth
  have hlevels : 4 * levels (indentation n ++ r) = 4 * n := Option.some.inj hwidth
  omega

end

end Language

end Offside

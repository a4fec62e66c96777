import Offside.Proofs.Language.Lexemes
import Offside.Proofs.Language.Margins
import Offside.Proofs.Language.Marker

/-! # Selection — what the rules pick, said by the forms of texts

    The rules of the lexicon are patterns that search and give up.  What they
    come to can be said without them: the next characters decide which form
    a text is looked at for, and the longest text of that form is picked.

    * `Longest` is the longest text of a form at the start of a text;
    * `Picks` goes through the forms in their order;
    * `select_iff_picks` says that this is what the rules select. -/

namespace Offside

/-- A match as its user sees it: what is done, how many bytes are taken, and
    how wide an indentation is measured, if one is. -/
structure Pick where
  action : RuleAction Symbol
  length : Nat
  width : Option Nat

/-- What there is to see of a selected match. -/
def Selection.pick (s : Selection) : Pick where
  action := s.action
  length := s.found.length
  width := if s.action.measuresIndentation then s.found.width 1 else none

namespace Language

/-! ## Longest texts -/

/-- The longest text of a form that a text starts with. -/
structure Longest (P : List Char → Prop) (r text : List Char) : Prop where
  form : P text
  front : text <+: r
  longest : ∀ other, P other → other <+: r → other.length ≤ text.length

theorem Longest.unique {P : List Char → Prop} {r text text' : List Char} (h : Longest P r text)
    (h' : Longest P r text') : text = text' := by
  have hle : text.length ≤ text'.length := h'.longest text h.form h.front
  have hge : text'.length ≤ text.length := h.longest text' h'.form h'.front
  exact (List.prefix_of_prefix_length_le h.front h'.front hle).eq_of_length
    (Nat.le_antisymm hle hge)

/-- What is said of some longest text is said of the longest one. -/
theorem Longest.exists_iff {P Q : List Char → Prop} {r text : List Char} (h : Longest P r text) :
    (∃ text', Longest P r text' ∧ Q text') ↔ Q text := by
  constructor
  · rintro ⟨text', h', hQ⟩
    exact h'.unique h ▸ hQ
  · exact fun hQ => ⟨text, h, hQ⟩

/-- A front of characters of one kind is part of the run of them. -/
theorem isPrefix_takeWhile {p : Char → Bool} {text r : List Char} (h : ∀ c ∈ text, p c = true)
    (hfront : text <+: r) : text <+: r.takeWhile p := by
  obtain ⟨rest, rfl⟩ := hfront
  rw [List.takeWhile_append_of_pos h]
  exact List.prefix_append text _

/-- A run of characters of one kind is the longest text of them. -/
theorem longest_run {P : List Char → Prop} {p : Char → Bool} {r : List Char}
    (hP : ∀ text, P text → ∀ c ∈ text, p c = true) (hrun : P (r.takeWhile p)) :
    Longest P r (r.takeWhile p) where
  form := hrun
  front := List.takeWhile_prefix p
  longest other hother hfront := (isPrefix_takeWhile (hP other hother) hfront).length_le

theorem longest_remark (r : List Char) : Longest IsRemark r (r.takeWhile isRemarkChar) :=
  longest_run (fun _ h => h) fun _ => List.mem_takeWhile_imp

/-- White space inside a line. -/
def IsBlankText (text : List Char) : Prop := text ≠ [] ∧ ∀ c ∈ text, isBlank c = true

section

variable {r : List Char}

theorem takeWhile_ne_nil {p : Char → Bool} (h : r.head?.any p = true) : r.takeWhile p ≠ [] := by
  cases r with
  | nil => cases h
  | cons c cs =>
      rw [List.takeWhile_cons_of_pos (show p c = true from h)]
      exact List.cons_ne_nil _ _

theorem longest_word (h : r.head?.any isWordChar = true) :
    Longest IsWord r (r.takeWhile isWordChar) :=
  longest_run (fun _ => And.right) ⟨takeWhile_ne_nil h, fun _ => List.mem_takeWhile_imp⟩

theorem longest_blank (h : r.head?.any isBlank = true) :
    Longest IsBlankText r (r.takeWhile isBlank) :=
  longest_run (fun _ => And.right) ⟨takeWhile_ne_nil h, fun _ => List.mem_takeWhile_imp⟩

end

/-- Going through a text does not end before going through a front of it
    does. -/
theorem dottedRun_mono (text rest : List Char) : dottedRun text <+: dottedRun (text ++ rest) := by
  induction text using dottedRun_induction with
  | stop text hstop =>
      rw [hstop]
      exact List.nil_prefix
  | word c cs hc ih =>
      rw [List.cons_append, dottedRun_word hc, dottedRun_word hc]
      exact List.cons_prefix_cons.mpr ⟨rfl, ih⟩
  | dotWord d ds hd ih =>
      rw [List.cons_append, List.cons_append, dottedRun_dotWord hd, dottedRun_dotWord hd,
        dottedRun_word hd, dottedRun_word hd]
      exact List.cons_prefix_cons.mpr ⟨rfl, List.cons_prefix_cons.mpr ⟨rfl, ih⟩⟩

/-- A dotted name at the start of a text is gone through. -/
theorem IsDotted.isPrefix_dottedRun {text r : List Char} (h : IsDotted text)
    (hfront : text <+: r) : text <+: dottedRun r := by
  obtain ⟨rest, rfl⟩ := hfront
  have hmono := dottedRun_mono text rest
  rwa [(isDotted_iff.mp h).2.1] at hmono

theorem longest_name {r : List Char} (hhead : r.head?.any isWordChar = true)
    (hdot : (dottedRun r).contains '.' = true) : Longest IsDotted r (dottedRun r) where
  form := by
    cases r with
    | nil => cases hhead
    | cons c cs => exact isDotted_dottedRun hhead hdot
  front := dottedRun_isPrefix r
  longest other hother hfront := (hother.isPrefix_dottedRun hfront).length_le

/-! ## Picking -/

/-- What is to be picked where a word starts. -/
def PicksWord (r : List Char) (p : Option Pick) : Prop :=
  (∃ name, Longest IsDotted r name ∧ p = some ⟨.emit Kind.name, Text.bytes name, none⟩) ∨
    (∀ name, IsDotted name → ¬ name <+: r) ∧
      ∃ word, Longest IsWord r word ∧ p = some ⟨.emit Kind.word, Text.bytes word, none⟩

/-- What is to be picked at the end of a line or in white space. -/
def PicksBreak (marker r : List Char) (p : Option Pick) : Prop :=
  if '\n' :: marker <+: r then
    p = some ⟨.endOfInput Kind.marker, 1 + Text.bytes marker, none⟩
  else if [':', '\n'] <+: r then
    p = some ⟨.blockOpen, 2 + marginOf (r.drop 2), some (marginOf (r.drop 2))⟩
  else if ['\n'] <+: r then
    p = some ⟨.lineBreak, 1 + marginOf (r.drop 1), some (marginOf (r.drop 1))⟩
  else if r.head?.any isBlank then
    ∃ blank, Longest IsBlankText r blank ∧ p = some ⟨.skip, Text.bytes blank, none⟩
  else
    p = none

/-- What is to be picked at the start of a text, with the end marker of its
    language. -/
def Picks (marker r : List Char) (p : Option Pick) : Prop :=
  if r.head? = some ';' then
    ∃ remark, Longest IsRemark r.tail remark ∧
      p = some ⟨.emitStripped Kind.comment 1, 1 + Text.bytes remark, none⟩
  else if keyword <+: r then
    p = some ⟨.emit Kind.keyword, 6, none⟩
  else if r.head?.any isWordChar then
    PicksWord r p
  else
    PicksBreak marker r p

/-- What there is to see of what the scanner selects. -/
def Lexeme.pick (x : Lexeme) : Pick where
  action := x.action
  length := Text.bytes x.text
  width := if x.action.measuresIndentation then some x.width else none

/-- A block that opens is picked with the width that its lexeme has. -/
theorem pick_opening (cs : List Char) :
    Lexeme.pick ⟨.blockOpen, ':' :: '\n' :: indentation (levels cs), 4 * levels cs⟩ =
      ⟨.blockOpen, 2 + marginOf cs, some (marginOf cs)⟩ := by
  rw [Lexeme.pick, Text.bytes_cons, Text.bytes_cons, bytes_indentation, ← marginOf_eq,
    ← Nat.add_assoc]
  rfl

theorem pick_lineBreak (cs : List Char) :
    Lexeme.pick ⟨.lineBreak, '\n' :: indentation (levels cs), 4 * levels cs⟩ =
      ⟨.lineBreak, 1 + marginOf cs, some (marginOf cs)⟩ := by
  rw [Lexeme.pick, Text.bytes_cons, bytes_indentation, ← marginOf_eq]
  rfl

section

variable {marker r : List Char} {p : Option Pick}

/-- At a word the dotted name is selected if there is one, and the word if not. -/
theorem picksWord_iff (hremark : scanRemark r = none) (hkeyword : scanKeyword r = none)
    (hhead : r.head?.any isWordChar = true) :
    PicksWord r p ↔ p = (scanner marker r).map Lexeme.pick := by
  unfold PicksWord
  by_cases hdot : (dottedRun r).contains '.' = true
  · have hname : scanName r = some ⟨.emit Kind.name, dottedRun r, 0⟩ := by
      rw [scanName, hhead, hdot]
      rfl
    have hlongest := longest_name hhead hdot
    have hsome : ¬ ∀ name, IsDotted name → ¬ name <+: r :=
      fun hnone => hnone _ hlongest.form hlongest.front
    rw [hlongest.exists_iff]
    simp only [hsome, false_and, or_false, scanner, scans, List.findSome?_cons, hremark, hkeyword,
      hname]
    rfl
  · have hname : scanName r = none := by
      rw [scanName, Bool.eq_false_iff.mpr hdot, Bool.and_false]
      rfl
    have hword : scanRun isWordChar (.emit Kind.word) r =
        some ⟨.emit Kind.word, r.takeWhile isWordChar, 0⟩ := if_pos hhead
    have hnone : ∀ name, IsDotted name → ¬ name <+: r := fun name hdotted hfront =>
      hdot (List.contains_iff_mem.mpr ((hdotted.isPrefix_dottedRun hfront).subset hdotted.dot_mem))
    have hnot : ¬ ∃ name, Longest IsDotted r name ∧
        p = some ⟨.emit Kind.name, Text.bytes name, none⟩ := by
      rintro ⟨name, hlongest, -⟩
      exact hnone name hlongest.form hlongest.front
    rw [(longest_word hhead).exists_iff]
    simp only [hnot, false_or, scanner, scans, List.findSome?_cons, hremark, hkeyword, hname,
      hword]
    exact and_iff_right hnone

/-- Where neither a comment nor a word starts, only the last four rules can
    match. -/
theorem scanner_noWord (hremark : scanRemark r = none) (hkeyword : scanKeyword r = none)
    (hhead : ¬ r.head?.any isWordChar = true) : scanner marker r =
      [scanMarker marker, scanOpening, scanBreak, scanRun isBlank .skip].findSome?
        fun scan => scan r := by
  have hname : scanName r = none := by
    rw [scanName, Bool.eq_false_iff.mpr hhead]
    rfl
  have hword : scanRun isWordChar (.emit Kind.word) r = none := if_neg hhead
  simp only [scanner, scans, List.findSome?_cons, hremark, hkeyword, hname, hword]

theorem picksBreak_iff (hremark : scanRemark r = none) (hkeyword : scanKeyword r = none)
    (hhead : ¬ r.head?.any isWordChar = true) :
    PicksBreak marker r p ↔ p = (scanner marker r).map Lexeme.pick := by
  unfold PicksBreak
  by_cases hmarker : '\n' :: marker <+: r
  · rw [if_pos hmarker]
    obtain ⟨rest, rfl⟩ := hmarker
    rw [scanner_marker]
    exact Iff.rfl
  rw [if_neg hmarker]
  by_cases hcolon : [':', '\n'] <+: r
  · rw [if_pos hcolon]
    obtain ⟨cs, rfl⟩ := hcolon
    rw [List.cons_append, List.cons_append, scanner_atColon, Option.map_some, pick_opening]
    exact Iff.rfl
  rw [if_neg hcolon]
  by_cases hnewline : ['\n'] <+: r
  · rw [if_pos hnewline]
    obtain ⟨cs, rfl⟩ := hnewline
    have hplain : ¬ marker <+: cs := fun hfront =>
      hmarker (List.cons_prefix_cons.mpr ⟨rfl, hfront⟩)
    rw [List.cons_append, List.nil_append, scanner_atNewline hplain, Option.map_some,
      pick_lineBreak]
    exact Iff.rfl
  rw [if_neg hnewline]
  -- no line ends here, so only white space is left to be passed over
  have hopening : scanOpening r = none := by
    rw [scanOpening.eq_def]
    split
    next cs => exact absurd (List.prefix_append [':', '\n'] cs) hcolon
    next => rfl
  have hbreak : scanBreak r = none := by
    rw [scanBreak.eq_def]
    split
    next cs => exact absurd (List.prefix_append ['\n'] cs) hnewline
    next => rfl
  have hscanner : scanner marker r = scanRun isBlank .skip r := by
    rw [scanner_noWord hremark hkeyword hhead]
    simp only [List.findSome?_cons, List.findSome?_nil, scanMarker, if_neg hmarker, hopening,
      hbreak]
    cases scanRun isBlank .skip r <;> rfl
  rw [hscanner, scanRun]
  split
  next hblank =>
    rw [(longest_blank hblank).exists_iff]
    exact Iff.rfl
  next => exact Iff.rfl

/-- What is to be picked is what the scanner selects. -/
theorem picks_iff : Picks marker r p ↔ p = (scanner marker r).map Lexeme.pick := by
  unfold Picks
  by_cases hsemicolon : r.head? = some ';'
  · rw [if_pos hsemicolon]
    obtain ⟨cs, rfl⟩ := List.head?_eq_some_iff.mp hsemicolon
    exact (longest_remark cs).exists_iff
  rw [if_neg hsemicolon]
  by_cases hfront : keyword <+: r
  · rw [if_pos hfront]
    obtain ⟨rest, rfl⟩ := hfront
    rw [scanner_keyword]
    exact Iff.rfl
  rw [if_neg hfront]
  have hkeyword : scanKeyword r = none := if_neg hfront
  have hremark : scanRemark r = none := by
    rw [scanRemark.eq_def]
    split
    next => exact absurd rfl hsemicolon
    next => rfl
  split
  next hhead => exact picksWord_iff hremark hkeyword hhead
  next hhead => exact picksBreak_iff hremark hkeyword hhead

end

/-- What there is to see of a match is what there is to see of what the scanner
    selects. -/
theorem pick_select (marker : String) (r : List Char) :
    ((lexiconFor marker).select initialMode r).map Selection.pick =
      (scanner marker.toList r).map Lexeme.pick := by
  have hselect := select_eq_scanner marker r
  split at hselect
  next hnone => rw [hselect, hnone]; rfl
  next x hx =>
    obtain ⟨s, hs, haction, hlength, -, -, hwidth⟩ := hselect
    rw [hs, hx]
    simp only [Option.map_some, Selection.pick, Lexeme.pick, haction, hlength]
    split
    next hmeasures => rw [hwidth hmeasures]
    next => rfl

/-- **What the rules select.**  Whatever the end marker and the text ahead are,
    the match that is selected is the one to be picked. -/
theorem select_iff_picks (marker : String) : ∃ l, withMarker marker = .ok l ∧ ∀ r p,
    (l.lexicon.select initialMode r).map Selection.pick = p ↔ Picks marker.toList r p := by
  refine ⟨_, withMarker_eq marker, fun r p => ?_⟩
  rw [pick_select, picks_iff]
  exact eq_comm

end Language

end Offside

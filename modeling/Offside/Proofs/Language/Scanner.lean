import Offside.Proofs.Language.Lexicon

/-! # The scanner of the module language

    What the rules of the lexicon select is said here without patterns: each
    rule takes the longest text of its form, and the first rule that takes
    any text is selected.

    * `scanner` is that scanner, a list of functions that stand beside the
      rules;
    * `select_eq_scanner` says that it selects what the rules select. -/

namespace Offside

namespace Language

open Regex

/-- A text that is selected, what is done with it, and the width of the
    indentation that it ends in. -/
structure Lexeme where
  action : RuleAction Symbol
  text : List Char
  width : Nat

/-! ## Runs of characters -/

/-- The longest way to go on with a word and with dots before further words. -/
def dottedRun : List Char → List Char
  | [] => []
  | c :: cs =>
      if isWordChar c then
        c :: dottedRun cs
      else if c = '.' then
        match cs with
        | [] => []
        | d :: ds => if isWordChar d then '.' :: d :: dottedRun ds else []
      else
        []

/-- The levels of the narrowest indentation that a text starts with. -/
def levels : List Char → Nat
  | ' ' :: ' ' :: ' ' :: ' ' :: cs => levels cs + 1
  | _ => 0

/-- The indentation of so many levels. -/
def indentation (n : Nat) : List Char := List.replicate (4 * n) ' '

/-! ## Rules as functions -/

/-- A comment. -/
def scanRemark : List Char → Option Lexeme
  | ';' :: cs => some ⟨.emitStripped Kind.comment 1, ';' :: cs.takeWhile isRemarkChar, 0⟩
  | _ => none

/-- The keyword. -/
def scanKeyword (r : List Char) : Option Lexeme :=
  if keyword <+: r then some ⟨.emit Kind.keyword, keyword, 0⟩ else none

/-- Words with dots between them. -/
def scanName (r : List Char) : Option Lexeme :=
  if r.head?.any isWordChar && (dottedRun r).contains '.' then
    some ⟨.emit Kind.name, dottedRun r, 0⟩
  else
    none

/-- A run of characters of one kind. -/
def scanRun (p : Char → Bool) (action : RuleAction Symbol) (r : List Char) : Option Lexeme :=
  if r.head?.any p then some ⟨action, r.takeWhile p, 0⟩ else none

/-- A newline and the end marker. -/
def scanMarker (marker r : List Char) : Option Lexeme :=
  if '\n' :: marker <+: r then some ⟨.endOfInput Kind.marker, '\n' :: marker, 0⟩ else none

/-- A colon at the end of a line, and the indentation of the next one. -/
def scanOpening : List Char → Option Lexeme
  | ':' :: '\n' :: cs =>
      some ⟨.blockOpen, ':' :: '\n' :: indentation (levels cs), 4 * levels cs⟩
  | _ => none

/-- The end of a line, and the indentation of the next one. -/
def scanBreak : List Char → Option Lexeme
  | '\n' :: cs => some ⟨.lineBreak, '\n' :: indentation (levels cs), 4 * levels cs⟩
  | _ => none

/-- The functions in the order of the rules. -/
def scans (marker : List Char) : List (List Char → Option Lexeme) := [
  scanRemark, scanKeyword, scanName, scanRun isWordChar (.emit Kind.word), scanMarker marker,
  scanOpening, scanBreak, scanRun isBlank .skip]

/-- The text that is selected at the start of a text. -/
def scanner (marker r : List Char) : Option Lexeme := (scans marker).findSome? fun scan => scan r

/-! ## Matches of single rules -/

/-- A rule takes what a function says, or nothing. -/
def Takes (rule : Rule) (r : List Char) : Option Lexeme → Prop
  | none => rule.match? r = none
  | some x => ∃ found, rule.match? r = some found ∧ rule.action = x.action ∧
      found.length = Text.bytes x.text ∧ x.text ≠ [] ∧ x.text <+: r ∧
      (x.action.measuresIndentation → found.width 1 = some x.width)

/-- The end of a search. -/
abbrev found : Continuation := fun u _ => .ok u

theorem found_finds (u : Thread) (offset : Nat) (labels : List Nat) :
    Finds (found u) offset labels u := fun _ _ => rfl

section

variable {pattern : String} {m : Machine} {action : RuleAction Symbol} {r : List Char}

/-- A rule whose machine finds the end of a text takes that text. -/
theorem takes_of_finds {x : Lexeme} {u : Thread} (haction : action = x.action)
    (h : Finds (m.run found (.start r)) 0 [] u) (hoffset : u.offset = Text.bytes x.text)
    (hne : x.text ≠ []) (hfront : x.text <+: r)
    (hwidth : x.action.measuresIndentation →
      (u.widths.find? (·.1 == 1)).map Prod.snd = some x.width) :
    Takes (initialRule pattern m action) r (some x) := by
  have hlength : (Match.between (.start r) u).length = Text.bytes x.text := by
    rw [← hoffset]
    exact Nat.sub_zero _
  refine ⟨.between (.start r) u, ?_, haction, hlength, hne, hfront, hwidth⟩
  rw [Rule.match?, initialRule, search_of_finds h, Option.filter_some, hlength,
    decide_eq_true (Text.bytes_pos hne)]
  rfl

theorem takes_of_fails (h : Fails (m.run found (.start r))) :
    Takes (initialRule pattern m action) r none := by
  rw [Takes, Rule.match?, initialRule, search_of_fails h]
  rfl

end

/-- A literal text is taken where it stands. -/
theorem takes_literal {pattern : String} {text : List Char} (hne : text ≠ [])
    {action : RuleAction Symbol} (haction : action.measuresIndentation = false) (r : List Char) :
    Takes (initialRule pattern (.literal text) action) r
      (if text <+: r then some ⟨action, text, 0⟩ else none) := by
  split
  next h =>
    obtain ⟨rest, rfl⟩ := h
    refine takes_of_finds rfl
      (literal_finds hne rfl (found_finds ((Thread.start (text ++ rest)).past text rest) _ _))
      (Nat.zero_add _) hne (List.prefix_append _ _) fun hmeasures => ?_
    exact absurd hmeasures (by rw [haction]; exact Bool.false_ne_true)
  next h => exact takes_of_fails (literal_refuses hne h).fails

theorem takes_run {pattern : String} {s : Charset} {p : Char → Bool} (hs : s.has = p)
    {action : RuleAction Symbol} (haction : action.measuresIndentation = false) (r : List Char) :
    Takes (initialRule pattern (.many 0 s) action) r (scanRun p action r) := by
  subst hs
  cases r with
  | nil => exact takes_of_fails (many_refuses fun c cs (hcs : [] = c :: cs) => nomatch hcs).fails
  | cons c cs =>
      rw [scanRun, List.head?_cons, Option.any_some]
      split
      next hc =>
        refine takes_of_finds rfl (many_finds (t := .start (c :: cs)) rfl hc (found_finds _ _ _))
          (Nat.zero_add _) ?_ (List.takeWhile_prefix _) fun hmeasures => ?_
        · rw [List.takeWhile_cons_of_pos hc]
          exact List.cons_ne_nil _ _
        · exact absurd hmeasures (by rw [haction]; exact Bool.false_ne_true)
      next hc =>
        refine takes_of_fails (many_refuses fun d ds hds => ?_).fails
        obtain rfl : c = d := (List.cons.inj hds).1
        exact Bool.eq_false_iff.mpr hc

theorem takes_remark {pattern : String} (r : List Char) :
    Takes (initialRule pattern (.seq (.set (.single ';')) (.loop 0 true (.set remarkSet)))
      (.emitStripped Kind.comment 1)) r (scanRemark r) := by
  rw [scanRemark.eq_def]
  split
  next cs =>
    have hloop : Finds ((Machine.loop 0 true (.set remarkSet)).run found
        ((Thread.start (';' :: cs)).past [';'] cs)) 1 []
        ((Thread.start (';' :: cs)).past (';' :: cs.takeWhile remarkSet.has)
          (cs.dropWhile remarkSet.has)) := by
      refine loop_set_finds (t := (Thread.start (';' :: cs)).past [';'] cs) List.not_mem_nil ?_
      rw [Thread.past_past]
      exact found_finds _ _ _
    rw [has_remarkSet] at hloop
    refine takes_of_finds rfl (set_finds (t := .start (';' :: cs)) rfl (has_single_self ';') hloop)
      (Nat.zero_add _) (List.cons_ne_nil _ _) ?_ nofun
    exact List.cons_prefix_cons.mpr ⟨rfl, List.takeWhile_prefix _⟩
  next hne =>
    refine takes_of_fails (set_refuses fun c cs hcs hc => ?_).fails
    rw [Charset.has_single, beq_iff_eq] at hc
    exact absurd (hc ▸ hcs) (hne cs)

/-! ## Indentation -/

theorem levels_fourSpaces (cs : List Char) : levels (fourSpaces ++ cs) = levels cs + 1 := rfl

theorem levels_eq_zero {r : List Char} (h : ¬ fourSpaces <+: r) : levels r = 0 := by
  rw [levels.eq_def]
  split
  next cs => exact absurd (List.prefix_append fourSpaces cs) h
  next => rfl

theorem indentation_levels_isPrefix (r : List Char) : indentation (levels r) <+: r := by
  induction r using levels.induct with
  | case1 cs ih => exact (List.prefix_append_right_inj fourSpaces).mpr ih
  | case2 r hr =>
      rw [levels.eq_def]
      split
      next cs => exact absurd rfl (hr cs)
      next => exact List.nil_prefix

theorem bytes_indentation (n : Nat) : Text.bytes (indentation n) = 4 * n := by
  rw [indentation]
  induction 4 * n with
  | zero => rfl
  | succ k ih => rw [List.replicate_succ, Text.bytes_cons, ih, Nat.add_comm]; rfl

/-- The rounds of an indentation, with the group around them closed. -/
abbrev marginRounds (opened : Nat) (bound : List Char) : Continuation :=
  Machine.roundsOf 0 true (Machine.group 2 (.literal fourSpaces)).run
    (fun u => found (u.close 1 opened)) bound

theorem marginRounds_stop (opened : Nat) (bound : List Char) {t : Thread} {labels : List Nat}
    (hnew : 0 ∉ labels) (h : ¬ fourSpaces <+: t.rest) :
    Finds (marginRounds opened bound t) t.offset labels (t.close 1 opened) :=
  rounds_stop hnew (fun _ => literal_refuses (List.cons_ne_nil _ _) h) (found_finds _ _ _)

/-- Rounds of four spaces go on as long as four spaces stand there. -/
theorem marginRounds_find (opened : Nat) (bound : List Char) {t : Thread} {labels : List Nat}
    (hbound : t.rest.length ≤ bound.length) (hnew : 0 ∉ labels) :
    ∃ u : Thread, u.offset = t.offset + 4 * levels t.rest ∧
      Finds (marginRounds opened bound t) t.offset labels (u.close 1 opened) := by
  induction bound generalizing t labels with
  | nil =>
      have hstop : ¬ fourSpaces <+: t.rest := fun h =>
        absurd (Nat.le_trans h.length_le hbound) (by decide)
      exact ⟨t, by rw [levels_eq_zero hstop]; rfl, marginRounds_stop opened [] hnew hstop⟩
  | cons x fewer ih =>
      -- another round starts past four spaces, so the label is free again
      by_cases hfront : fourSpaces <+: t.rest
      · obtain ⟨cs, hcs⟩ := hfront
        have hfewer : cs.length ≤ fewer.length := by
          have hlength := congrArg List.length hcs
          rw [List.length_append, show fourSpaces.length = 4 from rfl] at hlength
          rw [List.length_cons] at hbound
          omega
        obtain ⟨u, hu, hfinds⟩ :=
          ih (t := (t.past fourSpaces cs).close 2 t.offset) hfewer List.not_mem_nil
        refine ⟨u, ?_, rounds_again hnew (literal_finds (List.cons_ne_nil _ _) hcs.symm hfinds)⟩
        rw [hu, ← hcs, levels_fourSpaces, Nat.mul_succ, Nat.add_comm (4 * levels cs),
          ← Nat.add_assoc]
        rfl
      · exact ⟨t, by rw [levels_eq_zero hfront]; rfl,
          marginRounds_stop opened (x :: fewer) hnew hfront⟩

/-- An indentation is measured by its levels. -/
theorem margin_finds (t : Thread) {labels : List Nat} (hnew : 0 ∉ labels) :
    ∃ u : Thread, u.offset = t.offset + 4 * levels t.rest ∧
      (u.widths.find? (·.1 == 1)).map Prod.snd = some (4 * levels t.rest) ∧
      Finds (margin.run found t) t.offset labels u := by
  obtain ⟨u, hu, hfinds⟩ := marginRounds_find t.offset t.rest (Nat.le_refl _) hnew
  refine ⟨u.close 1 t.offset, hu, ?_, hfinds⟩
  rw [Thread.close, hu, Nat.add_sub_cancel_left]
  rfl

theorem takes_break {pattern : String} (r : List Char) :
    Takes (initialRule pattern (.seq (.set (.single '\n')) margin) .lineBreak) r
      (scanBreak r) := by
  rw [scanBreak.eq_def]
  split
  next cs =>
    obtain ⟨u, hu, hwidth, hfinds⟩ :=
      margin_finds ((Thread.start ('\n' :: cs)).past ['\n'] cs) (List.not_mem_nil (a := 0))
    refine takes_of_finds rfl
      (set_finds (t := .start ('\n' :: cs)) rfl (has_single_self '\n') hfinds) ?_
      (List.cons_ne_nil _ _) ?_ fun _ => hwidth
    · rw [hu, Text.bytes_cons, bytes_indentation]
      rfl
    · exact List.cons_prefix_cons.mpr ⟨rfl, indentation_levels_isPrefix cs⟩
  next hne =>
    refine takes_of_fails (set_refuses fun c cs hcs hc => ?_).fails
    rw [Charset.has_single, beq_iff_eq] at hc
    exact absurd (hc ▸ hcs) (hne cs)

theorem takes_opening {pattern : String} (r : List Char) :
    Takes (initialRule pattern (.seq (.set (.single ':')) (.seq (.set (.single '\n')) margin))
      .blockOpen) r (scanOpening r) := by
  rw [scanOpening.eq_def]
  split
  next cs =>
    obtain ⟨u, hu, hwidth, hfinds⟩ :=
      margin_finds ((Thread.start (':' :: '\n' :: cs)).past [':', '\n'] cs)
        (List.not_mem_nil (a := 0))
    have hsecond : Finds ((Machine.seq (.set (.single '\n')) margin).run found
        ((Thread.start (':' :: '\n' :: cs)).past [':'] ('\n' :: cs))) 1 [] u :=
      set_finds (t := (Thread.start (':' :: '\n' :: cs)).past [':'] ('\n' :: cs)) rfl
        (has_single_self '\n') hfinds
    refine takes_of_finds rfl
      (set_finds (t := .start (':' :: '\n' :: cs)) rfl (has_single_self ':') hsecond) ?_
      (List.cons_ne_nil _ _) ?_ fun _ => hwidth
    · rw [hu, Text.bytes_cons, Text.bytes_cons, bytes_indentation]
      exact Nat.add_assoc 1 1 _
    · exact List.cons_prefix_cons.mpr
        ⟨rfl, List.cons_prefix_cons.mpr ⟨rfl, indentation_levels_isPrefix cs⟩⟩
  next hne =>
    refine takes_of_fails (set_refuses fun c cs hcs hc => ?_).fails
    rw [Charset.has_single, beq_iff_eq] at hc
    refine set_refuses (k := margin.run found) ?_
    intro d ds hds hd
    rw [Charset.has_single, beq_iff_eq] at hd
    have hcs' : r = c :: cs := hcs
    have hds' : cs = d :: ds := hds
    exact absurd (by rw [hcs', hds', hc, hd]) (hne ds)

/-! ## Dotted names -/

/-- A dot with a word behind it. -/
def StartsDotWord (r : List Char) : Prop := ∃ d ds, r = '.' :: d :: ds ∧ isWordChar d = true

theorem dottedRun_word {c : Char} (hc : isWordChar c = true) (cs : List Char) :
    dottedRun (c :: cs) = c :: dottedRun cs := by
  rw [dottedRun.eq_def]
  exact if_pos hc

theorem dottedRun_dotWord {d : Char} (hd : isWordChar d = true) (ds : List Char) :
    dottedRun ('.' :: d :: ds) = '.' :: dottedRun (d :: ds) := by
  rw [dottedRun_word hd, dottedRun.eq_def]
  exact if_pos hd

theorem dottedRun_split (cs : List Char) :
    dottedRun cs = cs.takeWhile isWordChar ++ dottedRun (cs.dropWhile isWordChar) := by
  induction cs with
  | nil => rfl
  | cons c cs ih =>
      by_cases hc : isWordChar c = true
      · rw [dottedRun_word hc, List.takeWhile_cons_of_pos hc, List.dropWhile_cons_of_pos hc, ih]
        rfl
      · rw [List.takeWhile_cons_of_neg hc, List.dropWhile_cons_of_neg hc]
        rfl

/-- Nothing goes on where neither a word nor a dot before a word stands. -/
theorem dottedRun_eq_nil {r : List Char} (hword : ∀ c cs, r = c :: cs → isWordChar c = false)
    (hdot : ¬ StartsDotWord r) : dottedRun r = [] := by
  rw [dottedRun.eq_def]
  split
  next => rfl
  next c cs =>
    rw [if_neg (Bool.eq_false_iff.mp (hword c cs rfl))]
    split
    next hc =>
      subst hc
      split
      next => rfl
      next d ds =>
        split
        next hd => exact absurd ⟨d, ds, rfl, hd⟩ hdot
        next => rfl
    next => rfl

/-- Going through a text stops at once, or it goes on with a character of
    words, or with a dot and one. -/
theorem dottedRun_induction {P : List Char → Prop} (stop : ∀ r, dottedRun r = [] → P r)
    (word : ∀ c cs, isWordChar c = true → P cs → P (c :: cs))
    (dotWord : ∀ d ds, isWordChar d = true → P ds → P ('.' :: d :: ds)) (r : List Char) : P r := by
  induction r using dottedRun.induct with
  | case1 => exact stop [] rfl
  | case2 c cs hc ih => exact word c cs hc ih
  | case3 => exact stop ['.'] rfl
  | case4 d ds hd _ ih => exact dotWord d ds hd ih
  | case5 d ds hd hdot =>
      refine stop _ (dottedRun_eq_nil ?_ ?_)
      · rintro _ _ ⟨⟩
        exact Bool.eq_false_iff.mpr hdot
      · rintro ⟨_, _, ⟨⟩, hd'⟩
        exact hd hd'
  | case6 c cs hc hdot =>
      refine stop _ (dottedRun_eq_nil ?_ ?_)
      · rintro _ _ ⟨⟩
        exact Bool.eq_false_iff.mpr hc
      · rintro ⟨_, _, ⟨⟩, -⟩
        exact hdot rfl

theorem dottedRun_isPrefix (r : List Char) : dottedRun r <+: r := by
  induction r using dottedRun_induction with
  | stop r hstop =>
      rw [hstop]
      exact List.nil_prefix
  | word c cs hc ih =>
      rw [dottedRun_word hc]
      exact List.cons_prefix_cons.mpr ⟨rfl, ih⟩
  | dotWord d ds hd ih =>
      rw [dottedRun_dotWord hd, dottedRun_word hd]
      exact List.cons_prefix_cons.mpr ⟨rfl, List.cons_prefix_cons.mpr ⟨rfl, ih⟩⟩

theorem dropWhile_wordChar {r cs : List Char} {c : Char}
    (h : r.dropWhile isWordChar = c :: cs) : isWordChar c = false := by
  have hne : r.dropWhile isWordChar ≠ [] := h ▸ List.cons_ne_nil c cs
  have hhead := List.head_dropWhile_not isWordChar hne
  simp only [h, List.head_cons] at hhead
  exact hhead

/-- A word has a dot behind it exactly if a dot and a word follow. -/
theorem contains_dot_iff {c : Char} {cs : List Char} :
    (dottedRun (c :: cs)).contains '.' = true ↔
      StartsDotWord ((c :: cs).dropWhile isWordChar) := by
  rw [List.contains_iff_mem, dottedRun_split, List.mem_append]
  constructor
  · rintro (hmem | hmem)
    · -- the dot is none of the characters of words
      have hword : isWordChar '.' = true := List.mem_takeWhile_imp hmem
      exact absurd hword (by decide)
    · by_contra hdot
      rw [dottedRun_eq_nil (fun _ _ h => dropWhile_wordChar h) hdot] at hmem
      exact nomatch hmem
  · rintro ⟨d, ds, hrest, hd⟩
    rw [hrest, dottedRun_dotWord hd]
    exact .inr (List.mem_cons_self ..)

section

variable {k : Continuation} {t u : Thread} {labels : List Nat}

theorem dotWord_finds {d : Char} {ds : List Char} (ht : t.rest = '.' :: d :: ds)
    (hd : isWordChar d = true)
    (h : Finds (k ((t.past ('.' :: (d :: ds).takeWhile isWordChar)
        ((d :: ds).dropWhile isWordChar)).close 1 t.offset))
      (t.offset + Text.bytes ('.' :: (d :: ds).takeWhile isWordChar)) [2] u) :
    Finds ((Machine.group 1 dotWord).run k t) t.offset labels u := by
  have hword : wordSet.has d = true := has_wordSet ▸ hd
  refine set_finds (t := t) ht (has_single_self '.') ?_
  refine many_finds (t := t.past ['.'] (d :: ds)) rfl hword ?_
  rw [Thread.past_past, show (t.past ['.'] (d :: ds)).rest = d :: ds from rfl, has_wordSet]
  rw [Text.bytes_cons, ← Nat.add_assoc] at h
  exact h

theorem dotWord_refuses (h : ¬ StartsDotWord t.rest) :
    Refuses ((Machine.group 1 dotWord).run k t) := by
  refine set_refuses fun c cs hcs hc => many_refuses fun d ds hds => ?_
  rw [Charset.has_single, beq_iff_eq] at hc
  rw [has_wordSet, Bool.eq_false_iff]
  intro hd
  have hcs' : cs = d :: ds := hds
  exact h ⟨d, ds, by rw [hcs, hc, hcs'], hd⟩

/-- Further words are taken as long as a dot and a word stand there. -/
theorem nameRounds_find (bound : List Char) (hbound : t.rest.length ≤ bound.length)
    (hword : ∀ c cs, t.rest = c :: cs → isWordChar c = false) (hnew : 1 ∉ labels) :
    ∃ u : Thread, u.offset = t.offset + Text.bytes (dottedRun t.rest) ∧
      Finds (Machine.roundsOf 1 true (Machine.group 1 dotWord).run found bound t) t.offset
        labels u := by
  induction bound generalizing t labels with
  | nil =>
      have hrest : t.rest = [] := List.eq_nil_of_length_eq_zero (Nat.le_zero.mp hbound)
      have hdot : ¬ StartsDotWord t.rest := fun ⟨d, ds, h, _⟩ => nomatch hrest.symm.trans h
      exact ⟨t, by rw [dottedRun_eq_nil hword hdot]; rfl,
        rounds_stop hnew (fun _ => dotWord_refuses hdot) (found_finds _ _ _)⟩
  | cons x fewer ih =>
      by_cases hdot : StartsDotWord t.rest
      · obtain ⟨d, ds, hrest, hd⟩ := hdot
        have hfewer : ((d :: ds).dropWhile isWordChar).length ≤ fewer.length := by
          have hle := (List.dropWhile_sublist isWordChar (l := d :: ds)).length_le
          rw [hrest, List.length_cons, List.length_cons] at hbound
          exact Nat.le_trans hle (Nat.le_of_succ_le_succ hbound)
        obtain ⟨u, hu, hfinds⟩ := ih
          (t := (t.past ('.' :: (d :: ds).takeWhile isWordChar)
            ((d :: ds).dropWhile isWordChar)).close 1 t.offset) hfewer
          (fun _ _ h => dropWhile_wordChar h) (show 1 ∉ [2] by decide)
        refine ⟨u, ?_, rounds_again hnew (dotWord_finds hrest hd hfinds)⟩
        rw [hu, hrest, dottedRun_dotWord hd, dottedRun_split (d :: ds), ← List.cons_append,
          Text.bytes_append, ← Nat.add_assoc]
        rfl
      · exact ⟨t, by rw [dottedRun_eq_nil hword hdot]; rfl,
          rounds_stop hnew (fun _ => dotWord_refuses hdot) (found_finds _ _ _)⟩

end

/-- A word with a dot and a word behind it is gone through to the end. -/
theorem name_finds {c : Char} {cs : List Char} (hc : isWordChar c = true)
    (hdot : StartsDotWord ((c :: cs).dropWhile isWordChar)) :
    ∃ u : Thread, u.offset = Text.bytes (dottedRun (c :: cs)) ∧
      Finds ((Machine.seq (.many 0 wordSet) dotWords).run found (.start (c :: cs))) 0 [] u := by
  obtain ⟨d, ds, hrest, hd⟩ := hdot
  let t₁ : Thread := (Thread.start (c :: cs)).past ((c :: cs).takeWhile isWordChar) ('.' :: d :: ds)
  let t₂ : Thread := (t₁.past ('.' :: (d :: ds).takeWhile isWordChar)
    ((d :: ds).dropWhile isWordChar)).close 1 t₁.offset
  obtain ⟨u, hu, hfinds⟩ := nameRounds_find (t := t₂) t₂.rest (Nat.le_refl _)
    (fun _ _ h => dropWhile_wordChar h) (show 1 ∉ [2] by decide)
  have hword : wordSet.has c = true := has_wordSet ▸ hc
  have hsecond : Finds (dotWords.run found t₁) t₁.offset [0] u :=
    dotWord_finds rfl hd hfinds
  refine ⟨u, ?_, many_finds (t := .start (c :: cs)) rfl hword ?_⟩
  · rw [hu, dottedRun_split (c :: cs), hrest, dottedRun_dotWord hd, dottedRun_split (d :: ds),
      ← List.cons_append, Text.bytes_append, Text.bytes_append, ← Nat.add_assoc]
    exact congrArg (· + _ + _) (Nat.zero_add _)
  · rw [has_wordSet, show (Thread.start (c :: cs)).rest = c :: cs from rfl, hrest]
    exact hsecond

/-- A word with no dot and word behind it has none however short it is cut. -/
theorem name_fails {c : Char} {cs : List Char} (hc : isWordChar c = true)
    (hdot : ¬ StartsDotWord ((c :: cs).dropWhile isWordChar)) :
    Fails ((Machine.seq (.many 0 wordSet) dotWords).run found (.start (c :: cs))) := by
  refine set_fails (s := wordSet) (t := .start (c :: cs))
    (k := (Machine.loop 0 true (.set wordSet)).run (dotWords.run found)) ?_
  intro d ds hds _
  refine loop_set_fails ?_
  intro text rest hsplit htext
  refine Refuses.fails (dotWord_refuses ?_)
  intro hstarts
  -- a dot follows only where the word ends, however short it is cut
  refine hdot ?_
  obtain rfl : cs = text ++ rest := (List.cons.inj hds).2.trans hsplit
  have hdrop : (text ++ rest).dropWhile isWordChar = rest := by
    obtain ⟨e, es, hrest, -⟩ := hstarts
    have hrest' : rest = '.' :: e :: es := hrest
    rw [List.dropWhile_append_of_pos fun d hd => has_wordSet ▸ htext d hd, hrest',
      List.dropWhile_cons_of_neg (by decide)]
  rw [List.dropWhile_cons_of_pos hc, hdrop]
  exact hstarts

theorem takes_name {pattern : String} (r : List Char) :
    Takes (initialRule pattern (.seq (.many 0 wordSet) dotWords) (.emit Kind.name)) r
      (scanName r) := by
  have hnot : (∀ c cs, r = c :: cs → isWordChar c = false) →
      Takes (initialRule pattern (.seq (.many 0 wordSet) dotWords) (.emit Kind.name)) r none := by
    intro h
    refine takes_of_fails (many_refuses (k := dotWords.run found) fun c cs hcs => ?_).fails
    rw [has_wordSet]
    exact h c cs hcs
  cases r with
  | nil => exact hnot fun _ _ h => nomatch h
  | cons c cs =>
      rw [scanName, List.head?_cons, Option.any_some]
      by_cases hc : isWordChar c = true
      · by_cases hdot : StartsDotWord ((c :: cs).dropWhile isWordChar)
        · rw [hc, contains_dot_iff.mpr hdot, Bool.and_self, if_pos rfl]
          obtain ⟨u, hu, hfinds⟩ := name_finds hc hdot
          refine takes_of_finds rfl hfinds hu ?_ ?_ nofun
          · rw [dottedRun_word hc]
            exact List.cons_ne_nil _ _
          · exact dottedRun_isPrefix _
        · rw [if_neg fun h => hdot (contains_dot_iff.mp (Bool.and_eq_true_iff.mp h).2)]
          exact takes_of_fails (name_fails hc hdot)
      · rw [Bool.eq_false_iff.mpr hc, Bool.false_and, if_neg Bool.false_ne_true]
        refine hnot ?_
        intro d ds hds
        obtain rfl : c = d := (List.cons.inj hds).1
        exact Bool.eq_false_iff.mpr hc

/-! ## Selecting -/

/-- The rules take what the functions beside them say. -/
theorem takes_rules (marker : String) (r : List Char) :
    List.Forall₂ (fun rule scan => Takes rule r (scan r)) (rules marker)
      (scans marker.toList) := by
  have hkeyword : keyword ≠ [] := List.cons_ne_nil _ _
  have hmarker : '\n' :: marker.toList ≠ [] := List.cons_ne_nil _ _
  exact .cons (takes_remark r) <| .cons (takes_literal hkeyword rfl r) <| .cons (takes_name r) <|
    .cons (takes_run has_wordSet rfl r) <| .cons (takes_literal hmarker rfl r) <|
    .cons (takes_opening r) <| .cons (takes_break r) <| .cons (takes_run has_blankSet rfl r) .nil

theorem rulesFor_initialMode (marker : String) :
    (lexiconFor marker).rulesFor initialMode = rules marker := by
  show (rules marker).filter (·.isActiveIn initialMode) = rules marker
  rw [List.filter_eq_self]
  intro rule hrule
  have hmodes : ∀ rule ∈ rules marker, rule.modes = [initialMode] := by
    simp [rules, initialRule]
  rw [Rule.isActiveIn, hmodes rule hrule]
  rfl

/-- The first rule that takes a text is the first function that gives one. -/
theorem findSome_takes {rules : List Rule} {scans : List (List Char → Option Lexeme)}
    {r : List Char} (h : List.Forall₂ (fun rule scan => Takes rule r (scan r)) rules scans) :
    match scans.findSome? fun scan => scan r with
    | none => (rules.findSome? fun rule =>
        (rule.match? r).map fun found => (⟨rule.action, found⟩ : Selection)) = none
    | some x => ∃ s, (rules.findSome? fun rule =>
        (rule.match? r).map fun found => (⟨rule.action, found⟩ : Selection)) = some s ∧
        s.action = x.action ∧ s.found.length = Text.bytes x.text ∧ x.text ≠ [] ∧ x.text <+: r ∧
        (x.action.measuresIndentation → s.found.width 1 = some x.width) := by
  induction h with
  | nil => rfl
  | @cons rule scan rules scans hfirst _ ih =>
      rw [List.findSome?_cons]
      -- a rule is passed over exactly if its function is
      cases hscan : scan r with
      | none =>
          rw [hscan] at hfirst
          simp only [List.findSome?_cons, show rule.match? r = none from hfirst, Option.map_none]
          exact ih
      | some x =>
          rw [hscan] at hfirst
          obtain ⟨found, hmatch, haction, hrest⟩ := hfirst
          exact ⟨⟨rule.action, found⟩,
            by simp only [List.findSome?_cons, hmatch, Option.map_some], haction, hrest⟩

/-- The rules select what the scanner does. -/
theorem select_eq_scanner (marker : String) (r : List Char) :
    match scanner marker.toList r with
    | none => (lexiconFor marker).select initialMode r = none
    | some x => ∃ s, (lexiconFor marker).select initialMode r = some s ∧
        s.action = x.action ∧ s.found.length = Text.bytes x.text ∧ x.text ≠ [] ∧ x.text <+: r ∧
        (x.action.measuresIndentation → s.found.width 1 = some x.width) := by
  have h := findSome_takes (takes_rules marker r)
  rw [← rulesFor_initialMode] at h
  exact h

end Language

end Offside

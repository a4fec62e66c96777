import Offside.Proofs.Language.Reading

/-! # Lines — a text read up to the end of a line

    No match but one crosses the end of a line, and that one is the colon
    that opens a block.  So what stands in front of the end of a line is read
    without regard to what comes behind it.

    * `plainScanner_newline` says that the scanner does not look across, but
      for the end marker;
    * `Foretells` is a scanner that says of a line alone what is selected
      there with more lines behind it;
    * `Reads.append` and `Reads.split` put the readings of a line and of what
      comes behind it together, and take them apart;
    * `reads_closed_iff` does so for a text with the end marker behind it. -/

namespace Offside

namespace Language

/-! ## The end of a line -/

section

variable {x r : List Char}

theorem prefix_newline {w : List Char} (hw : '\n' ∉ w) :
    w <+: x ++ '\n' :: r ↔ w <+: x := by
  constructor
  · intro h
    rcases List.prefix_or_prefix_of_prefix h (List.prefix_append x ('\n' :: r)) with hwx | hxw
    · exact hwx
    · obtain ⟨v, rfl⟩ := hxw
      cases v with
      | nil => rw [List.append_nil]
      | cons c v =>
          -- a longer text has the newline in it
          have hv := (List.prefix_append_right_inj x).mp h
          obtain ⟨rfl, -⟩ := List.cons_prefix_cons.mp hv
          exact absurd (List.mem_append_right x (List.mem_cons_self ..)) hw
  · intro h
    exact h.trans (List.prefix_append _ _)

theorem takeWhile_newline {p : Char → Bool} (hp : p '\n' = false) (x : List Char) :
    (x ++ '\n' :: r).takeWhile p = x.takeWhile p := by
  induction x with
  | nil => exact List.takeWhile_cons_of_neg (Bool.eq_false_iff.mp hp)
  | cons c x ih =>
      rw [List.cons_append, List.takeWhile_cons, List.takeWhile_cons, ih]

theorem dottedRun_stop {c : Char} (hc : isWordChar c = false) (hdot : c ≠ '.')
    (cs : List Char) : dottedRun (c :: cs) = [] := by
  refine dottedRun_eq_nil ?_ ?_
  · rintro _ _ ⟨⟩
    exact hc
  · rintro ⟨_, _, ⟨⟩, -⟩
    exact hdot rfl

theorem dottedRun_lastDot {d : Char} (hd : isWordChar d = false) (ds : List Char) :
    dottedRun ('.' :: d :: ds) = [] := by
  refine dottedRun_eq_nil ?_ ?_
  · rintro _ _ ⟨⟩
    decide
  · rintro ⟨_, _, ⟨⟩, hd'⟩
    exact Bool.eq_false_iff.mp hd hd'

theorem dottedRun_newline (x : List Char) : dottedRun (x ++ '\n' :: r) = dottedRun x := by
  induction x using dottedRun.induct with
  | case1 => exact dottedRun_stop (by decide) (by decide) r
  | case2 c cs hc ih => rw [List.cons_append, dottedRun_word hc, dottedRun_word hc, ih]
  | case3 => exact dottedRun_lastDot (by decide) r
  | case4 d ds hd _ ih =>
      rw [List.cons_append, List.cons_append, dottedRun_dotWord hd, dottedRun_dotWord hd,
        dottedRun_word hd, dottedRun_word hd, ih]
  | case5 d ds hd hdot =>
      have hnot : isWordChar d = false := Bool.eq_false_iff.mpr hd
      rw [List.cons_append, List.cons_append, dottedRun_lastDot hnot, dottedRun_lastDot hnot]
  | case6 c cs hc hdot =>
      have hnot : isWordChar c = false := Bool.eq_false_iff.mpr hc
      rw [List.cons_append, dottedRun_stop hnot hdot, dottedRun_stop hnot hdot]

theorem levels_newline (x : List Char) : levels (x ++ '\n' :: r) = levels x := by
  induction x using levels.induct with
  | case1 cs ih => exact congrArg (· + 1) ih
  | case2 x hx =>
      have hnot : ¬ fourSpaces <+: x := by
        rintro ⟨cs, rfl⟩
        exact hx cs rfl
      rw [levels_eq_zero hnot]
      exact levels_eq_zero fun h => hnot ((prefix_newline (by decide)).mp h)

theorem scanRun_newline {p : Char → Bool} (hp : p '\n' = false) (action : RuleAction Symbol)
    (hx : x ≠ []) : scanRun p action (x ++ '\n' :: r) = scanRun p action x := by
  obtain ⟨c, cs, rfl⟩ := List.exists_cons_of_ne_nil hx
  rw [scanRun, takeWhile_newline hp]
  rfl

/-- The text that is selected at the start of a text where no end marker is
    looked for. -/
def plainScanner (r : List Char) : Option Lexeme :=
  [scanRemark, scanKeyword, scanName, scanRun isWordChar (.emit Kind.word), scanOpening,
    scanBreak, scanRun isBlank .skip].findSome? fun scan => scan r

/-- Where the end marker does not stand, it does not matter. -/
theorem scanner_eq_plain {marker : List Char} (h : ¬ '\n' :: marker <+: r) :
    scanner marker r = plainScanner r := by
  have hmarker : scanMarker marker r = none := if_neg h
  simp only [scanner, scans, plainScanner, List.findSome?_cons, hmarker]

/-- What is selected where no end marker is looked for is some text from the
    front. -/
theorem text_of_plainScanner {x : Lexeme} (h : plainScanner r = some x) : x.text <+: r := by
  -- a text is too short to have itself in it behind a newline
  have hlong : ¬ '\n' :: (String.ofList r).toList <+: r := by
    intro hfront
    have hle := hfront.length_le
    rw [String.toList_ofList, List.length_cons] at hle
    omega
  rw [← scanner_eq_plain hlong] at h
  exact (text_of_scanner h).2

/-- The scanner does not look across the end of a line, unless a colon
    stands in front of it or the end marker behind it. -/
theorem plainScanner_newline (hx : x ≠ []) (hcolon : x ≠ [':']) :
    plainScanner (x ++ '\n' :: r) = plainScanner x := by
  obtain ⟨c, cs, rfl⟩ := List.exists_cons_of_ne_nil hx
  have hremark : scanRemark (c :: cs ++ '\n' :: r) = scanRemark (c :: cs) := by
    by_cases hc : c = ';'
    · subst hc
      rw [scanRemark, ← takeWhile_newline (r := r) (show isRemarkChar '\n' = false by decide)]
      rfl
    · simp [scanRemark, hc]
  have hkeyword : scanKeyword (c :: cs ++ '\n' :: r) = scanKeyword (c :: cs) := by
    simp only [scanKeyword, prefix_newline (show '\n' ∉ keyword by decide)]
  have hname : scanName (c :: cs ++ '\n' :: r) = scanName (c :: cs) := by
    simp only [scanName, dottedRun_newline]
    rfl
  have hopening : scanOpening (c :: cs ++ '\n' :: r) = scanOpening (c :: cs) := by
    cases cs with
    | nil =>
        have hc : c ≠ ':' := fun h => hcolon (h ▸ rfl)
        simp [scanOpening, hc]
    | cons d ds =>
        by_cases hc : c = ':'
        · subst hc
          by_cases hd : d = '\n'
          · subst hd
            rw [scanOpening, ← levels_newline (r := r) ds]
            rfl
          · simp [scanOpening, hd]
        · simp [scanOpening, hc]
  have hbreak : scanBreak (c :: cs ++ '\n' :: r) = scanBreak (c :: cs) := by
    by_cases hc : c = '\n'
    · subst hc
      rw [scanBreak, ← levels_newline (r := r) cs]
      rfl
    · simp [scanBreak, hc]
  simp only [plainScanner, List.findSome?_cons, List.findSome?_nil, hremark, hkeyword, hname,
    hopening, hbreak, scanRun_newline (show isWordChar '\n' = false by decide) _ hx,
    scanRun_newline (show isBlank '\n' = false by decide) _ hx]

/-- Neither does it for an end marker on one line. -/
theorem scanner_newline {marker : List Char} (hmarker : '\n' ∉ marker) (hx : x ≠ [])
    (hcolon : x ≠ [':']) : scanner marker (x ++ '\n' :: r) = scanner marker x := by
  by_cases hfront : '\n' :: marker <+: x
  · obtain ⟨more, rfl⟩ := hfront
    rw [List.append_assoc, scanner_marker, scanner_marker]
  · have hnot : ¬ '\n' :: marker <+: x ++ '\n' :: r := by
      obtain ⟨c, cs, rfl⟩ := List.exists_cons_of_ne_nil hx
      rw [List.cons_append, List.cons_prefix_cons, prefix_newline hmarker]
      exact fun h => hfront (List.cons_prefix_cons.mpr h)
    rw [scanner_eq_plain hnot, scanner_eq_plain hfront, plainScanner_newline hx hcolon]

theorem scanner_colon (marker : List Char) : scanner marker [':'] = none := by
  have hkeyword : scanKeyword [':'] = none := scanKeyword_eq_none (by decide)
  have hmarker : scanMarker marker [':'] = none := scanMarker_eq_none (by decide)
  simp only [scanner, scans, List.findSome?_cons, hkeyword, hmarker]
  rfl

end

/-! ## Readings of lines -/

/-- A scanner says of a line, wherever in it, what is selected there in a text
    that goes on behind the end of the line. -/
structure Foretells (marker : String) (r : List Char) (scan : List Char → Option Lexeme)
    (line : List Char) : Prop where
  front : ∀ {y : List Char} {x : Lexeme}, scan y = some x → x.text <+: y
  colon : scan [':'] = none
  agrees : ∀ {y : List Char}, y <:+ line → y ≠ [] → y ≠ [':'] →
    scanner marker.toList (y ++ '\n' :: r) = scan y

section

variable {marker : String} {r line rest : List Char} {scan : List Char → Option Lexeme}
  {i j k : Indentation} {words words' : List Token}

theorem Foretells.suffix (h : Foretells marker r scan (line ++ rest)) :
    Foretells marker r scan rest :=
  ⟨h.front, h.colon, fun hy => h.agrees (hy.trans (List.suffix_append line rest))⟩

/-- For an end marker on one line the scanner itself is one. -/
theorem foretells_scanner (hmarker : '\n' ∉ marker.toList) (r line : List Char) :
    Foretells marker r (scanner marker.toList) line :=
  ⟨fun h => (text_of_scanner h).2, scanner_colon _, fun _ => scanner_newline hmarker⟩

/-- What stands behind the end of a line reads as if the line were not there,
    but for the indentation that it leaves. -/
theorem Reads.append (hfore : Foretells marker r scan line) (h : Reads scan line i words j)
    (hr : Reads (scanner marker.toList) ('\n' :: r) j words' k) :
    Reads (scanner marker.toList) (line ++ '\n' :: r) i (words ++ words') k := by
  induction h with
  | done => exact hr
  | @step x rest i j k' words first hne hscan hcomes _ ih =>
      have hcolon : x.text ++ rest ≠ [':'] := by
        intro hcolon
        rw [hcolon, hfore.colon] at hscan
        cases hscan
      rw [← hfore.agrees (List.suffix_refl _) (List.append_ne_nil_of_left_ne_nil hne rest) hcolon,
        List.append_assoc] at hscan
      rw [List.append_assoc, List.append_assoc]
      exact .step hne hscan hcomes (ih hfore.suffix hr)

/-- A text with the end of a line in it reads as the line does and as what
    comes behind it, unless a colon is read across the end of the line. -/
theorem Reads.split (hfore : Foretells marker r scan line)
    (h : Reads (scanner marker.toList) (line ++ '\n' :: r) i words k) :
    (∃ first j later, Reads scan line i first j ∧
      Reads (scanner marker.toList) ('\n' :: r) j later k ∧ words = first ++ later) ∨
    ∃ first j later, Reads (scanner marker.toList) (':' :: '\n' :: r) j later k ∧
      words = first ++ later := by
  induction hlength : line.length using Nat.strongRecOn generalizing line i words with
  | ind n ih =>
      by_cases hline : line = []
      · subst hline
        exact .inl ⟨[], i, words, .done i, h, rfl⟩
      by_cases hcolon : line = [':']
      · subst hcolon
        exact .inr ⟨[], i, words, h, rfl⟩
      obtain ⟨x, _, -, hne, hscan⟩ :=
        h.exists_lexeme (List.append_ne_nil_of_left_ne_nil hline _)
      have hscan' := hscan
      rw [hfore.agrees (List.suffix_refl line) hline hcolon] at hscan'
      obtain ⟨rest, rfl⟩ := hfore.front hscan'
      rw [List.append_assoc] at h hscan
      obtain ⟨first, j, later, hcomes, hrest, rfl⟩ := h.uncons hscan hne
      have hshorter : rest.length < n := by
        have hpos := List.length_pos_iff.mpr hne
        rw [← hlength, List.length_append]
        omega
      rcases ih rest.length hshorter hfore.suffix hrest rfl with
        ⟨middle, j', later, hreads, hend, rfl⟩ | ⟨middle, j', later, hend, rfl⟩
      · exact .inl ⟨first ++ middle, j', later, .step hne hscan' hcomes hreads, hend,
          (List.append_assoc ..).symm⟩
      · exact .inr ⟨first ++ middle, j', later, hend, (List.append_assoc ..).symm⟩

/-! ## The end marker -/

/-- The end marker, without its place. -/
def markerWord (marker : String) : Token :=
  ⟨Kind.marker, String.ofList ('\n' :: marker.toList), nowhere⟩

/-- Block ends for so many levels, without their places. -/
def endWords (levels : Nat) : List Token :=
  Lexer.dedents ⟨Kind.indent, Kind.dedent, Kind.newline⟩ nowhere levels

/-- The end marker comes to an end for every block that is open, and the
    marker. -/
theorem comesTo_marker (marker : String) (i : Indentation) :
    ComesTo i ⟨.endOfInput Kind.marker, '\n' :: marker.toList, 0⟩
      (endWords i.depth ++ [markerWord marker]) ⟨0, i.unit⟩ := by
  have hperform : Lexer.perform (lexiconFor defaultMarker) i (.endOfInput Kind.marker)
      ('\n' :: marker.toList) nowhere 0 =
        .ok ⟨At.closing nowhere i.depth (markerWord marker), ⟨0, i.unit⟩⟩ := by
    simp only [Lexer.perform, Indentation.closeAll]
    cases i.depth <;> rfl
  have hcomes := comesTo_of_perform
    (x := ⟨.endOfInput Kind.marker, '\n' :: marker.toList, 0⟩) nowhere hperform
  rwa [unplaced_closing] at hcomes

/-- A newline and the end marker read to the end of every block and the
    marker. -/
theorem reads_marker_iff : Reads (scanner marker.toList) ('\n' :: marker.toList) i words k ↔
    words = endWords i.depth ++ [markerWord marker] ∧ k = ⟨0, i.unit⟩ := by
  let x : Lexeme := ⟨.endOfInput Kind.marker, '\n' :: marker.toList, 0⟩
  have hscan : scanner marker.toList (x.text ++ []) = some x := scanner_marker
  have hne : x.text ≠ [] := List.cons_ne_nil '\n' marker.toList
  have htext : '\n' :: marker.toList = x.text ++ [] := (List.append_nil _).symm
  rw [htext]
  constructor
  · intro h
    obtain ⟨first, j, later, hcomes, hrest, rfl⟩ := h.uncons hscan hne
    obtain ⟨rfl, rfl⟩ := hrest.of_nil
    obtain ⟨rfl, rfl⟩ := hcomes.unique (comesTo_marker marker i)
    exact ⟨List.append_nil _, rfl⟩
  · rintro ⟨rfl, rfl⟩
    rw [← List.append_nil (endWords _ ++ _)]
    exact .step hne hscan (comesTo_marker marker i) (.done _)

/-- No block opens in front of a line that is not indented. -/
theorem not_reads_opening (hr : ¬ fourSpaces <+: r) :
    ¬ Reads (scanner marker.toList) (':' :: '\n' :: r) i words k := by
  intro h
  let x : Lexeme := ⟨.blockOpen, [':', '\n'], 0⟩
  have hscan : scanner marker.toList (x.text ++ r) = some x := by
    have hopening : scanner marker.toList (':' :: '\n' :: r) = _ := scanner_atColon r
    rwa [levels_eq_zero hr] at hopening
  obtain ⟨first, j, -, hcomes, -, -⟩ := h.uncons hscan (List.cons_ne_nil ':' ['\n'])
  obtain ⟨tokens, htokens, -⟩ := hcomes nowhere
  simp only [x, Lexer.perform, lexiconFor, Indentation.openBlock, Nat.zero_le, if_true] at htokens
  cases htokens

/-- A text with an end marker behind it, on one line and not indented, is read
    exactly if the text is; then every block ends, and the marker comes
    last. -/
theorem reads_closed_iff (hnewline : '\n' ∉ marker.toList)
    (hspaces : ¬ fourSpaces <+: marker.toList) :
    Reads (scanner marker.toList) (line ++ '\n' :: marker.toList) i words k ↔
      ∃ first j, Reads (scanner marker.toList) line i first j ∧
        words = first ++ (endWords j.depth ++ [markerWord marker]) ∧ k = ⟨0, j.unit⟩ := by
  have hfore := foretells_scanner hnewline marker.toList line
  constructor
  · intro h
    rcases h.split hfore with ⟨first, j, later, hline, hend, rfl⟩ | ⟨first, j, later, hend, -⟩
    · obtain ⟨rfl, rfl⟩ := reads_marker_iff.mp hend
      exact ⟨first, j, hline, rfl, rfl⟩
    · exact absurd hend (not_reads_opening hspaces)
  · rintro ⟨first, j, hline, rfl, rfl⟩
    exact hline.append hfore (reads_marker_iff.mpr ⟨rfl, rfl⟩)

end

end Language

end Offside

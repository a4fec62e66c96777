import Offside.Proofs.Language.Concatenation
import Offside.Proofs.Preparation
import Offside.Settings.Basic

/-! # Blank lines — lines of spaces in a text that is prepared

    Lines of spaces behind the first line of a text are taken out, but for
    the last line.  That one is read as the end of all blocks, if it is
    shorter than an indentation, and changes nothing either.  A first line of
    spaces, however, is left in place, and no declaration is read behind it.

    * `Declares.separator_iff` passes over a line separator behind
      declarations, and `reads_blank_iff` reads one from a line of spaces;
    * `parse_ne_ok_of_spaces` says that nothing parses behind a first line of
      spaces;
    * `parse_padded` says that all others may be put in and taken out. -/

namespace Offside

open Automaton

namespace Language

/-! ## The ends of declarations -/

/-- Tokens end in one that is no line separator. -/
def EndsLine (tokens : List Token) : Prop :=
  ∃ front last, tokens = front ++ [last] ∧ last.kind ≠ Kind.newline

theorem EndsLine.behind {tokens : List Token} (h : EndsLine tokens) (front : List Token) :
    EndsLine (front ++ tokens) := by
  obtain ⟨others, last, rfl, hlast⟩ := h
  exact ⟨front ++ others, last, (List.append_assoc ..).symm, hlast⟩

theorem EndsLine.not_separator {tokens front : List Token} {t : Token} (h : EndsLine tokens)
    (ht : t.kind = Kind.newline) : tokens ≠ front ++ [t] := by
  obtain ⟨others, last, rfl, hlast⟩ := h
  intro hsame
  obtain ⟨-, rfl⟩ := List.append_singleton_inj.mp hsame
  exact hlast ht

theorem endsLine_block {T : ParseTree} (h : grammar.Derives (phrase Kind.block) T) :
    EndsLine T.yield := by
  -- a block ends in its end, whichever rule it comes from
  have hdedent : ∀ {D : ParseTree}, grammar.Derives (token Kind.dedent) D → EndsLine D.yield := by
    intro D hD
    obtain ⟨d, rfl, hd⟩ := hD.exists_leaf
    exact ⟨[], d, rfl, by rw [hd]; decide⟩
  obtain ⟨n, hn, Ts, rfl⟩ := exists_node h [8, 9, 10] (by decide)
  simp only [List.mem_cons, List.not_mem_nil, or_false] at hn
  rcases h with _ | @⟨_, _, _, _, hr, -, hTs⟩
  rw [ParseTree.yield]
  rcases hn with rfl | rfl | rfl
  · cases hr
    rcases hTs with _ | ⟨-, _ | ⟨-, _ | ⟨hD, _ | _⟩⟩⟩
    simp only [ParseTree.yields, List.append_nil]
    exact ((hdedent hD).behind _).behind _
  · cases hr
    rcases hTs with _ | ⟨-, _ | ⟨-, _ | ⟨-, _ | ⟨-, _ | ⟨hD, _ | _⟩⟩⟩⟩⟩
    simp only [ParseTree.yields, List.append_nil]
    exact ((((hdedent hD).behind _).behind _).behind _).behind _
  · cases hr
    rcases hTs with _ | ⟨-, _ | ⟨-, _ | ⟨hD, _ | _⟩⟩⟩
    simp only [ParseTree.yields, List.append_nil]
    exact ((hdedent hD).behind _).behind _

theorem endsLine_statement {T : ParseTree} (h : grammar.Derives (phrase Kind.statement) T) :
    EndsLine T.yield := by
  obtain ⟨k, name, B, rfl, -, hname, hB⟩ := exists_declaration h
  obtain ⟨n, hn, Ts, rfl⟩ := exists_node hB [6, 7] (by decide)
  simp only [List.mem_cons, List.not_mem_nil, or_false] at hn
  rcases hB with _ | @⟨_, _, _, _, hr, -, hTs⟩
  simp only [ParseTree.yield, ParseTree.yields, List.append_nil]
  rcases hn with rfl | rfl
  · cases hr
    rcases hTs with _ | ⟨hblock, _ | _⟩
    rw [ParseTree.yields_singleton]
    exact ((endsLine_block hblock).behind _).behind _
  · cases hr
    obtain ⟨⟩ := hTs
    have hend : EndsLine [name] := ⟨[], name, rfl, by rw [hname]; decide⟩
    exact hend.behind _

/-- A line separator behind declarations changes nothing. -/
theorem Declares.separator_iff {words : List Token} {ms : List Module} {t : Token}
    (ht : t.kind = Kind.newline) : Declares (words ++ [t]) ms ↔ Declares words ms := by
  constructor
  · rintro ⟨S, hS, hyield, rfl⟩
    rcases statements_cases hS with ⟨U, rfl, hU⟩ | ⟨S', u, U, rfl, -, -, hU⟩ |
      ⟨S', u, rfl, hS', -⟩
    · rw [ParseTree.yield, ParseTree.yields_singleton] at hyield
      exact absurd hyield ((endsLine_statement hU).not_separator ht)
    · simp only [ParseTree.yield, ParseTree.yields, List.append_nil] at hyield
      exact absurd hyield ((((endsLine_statement hU).behind _).behind _).not_separator ht)
    · simp only [ParseTree.yield, ParseTree.yields, List.append_nil] at hyield
      obtain ⟨rfl, -⟩ := List.append_singleton_inj.mp hyield
      exact ⟨S', hS', rfl, by simp only [readStatements]⟩
  · rintro ⟨S, hS, rfl, rfl⟩
    refine ⟨.node 4 [S, .leaf t], .node rfl rfl (.cons hS (.cons (derives_leaf ht) .nil)), ?_, ?_⟩
    · simp only [ParseTree.yield, ParseTree.yields, List.append_nil]
    · simp only [readStatements]

/-- Declarations start with the keyword. -/
theorem exists_keyword {S : ParseTree} (h : grammar.Derives (phrase Kind.statements) S) :
    ∃ k later, S.yield = k :: later ∧ k.kind = Kind.keyword := by
  rcases statements_cases h with ⟨U, rfl, hU⟩ | ⟨S', t, U, rfl, hS', -, -⟩ | ⟨S', t, rfl, hS', -⟩
  · obtain ⟨k, n, B, rfl, hk, -⟩ := exists_declaration hU
    exact ⟨k, _, rfl, hk⟩
  · obtain ⟨k, later, hyield, hk⟩ := exists_keyword hS'
    refine ⟨k, later ++ ParseTree.yields [.leaf t, U], ?_, hk⟩
    rw [ParseTree.yield, ParseTree.yields, hyield, List.cons_append]
  · obtain ⟨k, later, hyield, hk⟩ := exists_keyword hS'
    refine ⟨k, later ++ ParseTree.yields [.leaf t], ?_, hk⟩
    rw [ParseTree.yield, ParseTree.yields, hyield, List.cons_append]
termination_by S

/-! ## Lines of spaces -/

section

variable {marker : String} {blank text : List Char} {i k : Indentation} {words : List Token}

theorem scanner_spaces (hne : blank ≠ []) (h : Text.isSpaces blank = true) :
    scanner marker.toList blank = some ⟨.skip, blank, 0⟩ := by
  have hspaces := Text.eq_space_of_isSpaces h
  obtain ⟨c, cs, rfl⟩ := List.exists_cons_of_ne_nil hne
  obtain rfl : c = ' ' := hspaces c (List.mem_cons_self ..)
  have hkeyword : scanKeyword (' ' :: cs) = none := scanKeyword_eq_none (by decide)
  have hmarker : scanMarker marker.toList (' ' :: cs) = none := scanMarker_eq_none (by decide)
  have hall : (' ' :: cs).takeWhile isBlank = ' ' :: cs := by
    refine List.takeWhile_eq_self_iff.mpr fun c hc => ?_
    rw [hspaces c hc]
    decide
  have hblank : scanRun isBlank .skip (' ' :: cs) = some ⟨.skip, ' ' :: cs, 0⟩ := by
    rw [scanRun, hall]
    rfl
  simp only [scanner, scans, List.findSome?_cons, hkeyword, hmarker, hblank]
  rfl

theorem comesTo_skip (i : Indentation) (text : List Char) :
    ComesTo i ⟨.skip, text, 0⟩ [] i :=
  comesTo_of_perform (x := ⟨.skip, text, 0⟩) nowhere rfl

/-- Nothing comes of spaces. -/
theorem reads_spaces_iff (h : Text.isSpaces blank = true) :
    Reads (scanner marker.toList) blank i words k ↔ words = [] ∧ k = i := by
  constructor
  · intro hreads
    rcases eq_or_ne blank [] with rfl | hne
    · exact hreads.of_nil
    · let x : Lexeme := ⟨.skip, blank, 0⟩
      have hscan : scanner marker.toList (x.text ++ []) = some x := by
        rw [List.append_nil]
        exact scanner_spaces hne h
      rw [show blank = x.text ++ [] from (List.append_nil _).symm] at hreads
      obtain ⟨first, j, later, hcomes, hrest, rfl⟩ := hreads.uncons hscan hne
      obtain ⟨rfl, rfl⟩ := hcomes.unique (comesTo_skip i blank)
      exact hrest.of_nil
  · rintro ⟨rfl, rfl⟩
    rcases eq_or_ne blank [] with rfl | hne
    · exact .done _
    · let x : Lexeme := ⟨.skip, blank, 0⟩
      have hscan : scanner marker.toList (x.text ++ []) = some x := by
        rw [List.append_nil]
        exact scanner_spaces hne h
      have hreads := Reads.step hne hscan (comesTo_skip k blank) (.done k)
      rwa [List.append_nil] at hreads

/-- The last line of a text, of spaces and shorter than an indentation, reads to
    the end of all blocks and a line separator. -/
theorem reads_blank_iff (h : Text.isSpaces blank = true) (hshort : blank.length < 4) :
    Reads (scanner defaultMarker.toList) (text ++ '\n' :: blank) .start words k ↔
      ∃ first j, Reads (scanner defaultMarker.toList) text .start first j ∧
        words = first ++ (endWords j.depth ++ [separatorWord]) ∧ k = ⟨0, j.unit⟩ := by
  have hfore : Foretells defaultMarker blank _ text := foretells_scanner (by decide) blank text
  have hspaces : ¬ fourSpaces <+: blank := fun hfront => by
    have hle := hfront.length_le
    exact absurd (Nat.le_trans hle (Nat.le_of_lt_succ hshort)) (by decide)
  have hmarker : ¬ defaultMarker.toList <+: blank := fun hfront =>
    absurd (Text.eq_space_of_isSpaces h '@' (hfront.subset (by decide))) (by decide)
  let x : Lexeme := ⟨.lineBreak, ['\n'], 0⟩
  have hscan : scanner defaultMarker.toList (x.text ++ blank) = some x := by
    have hbreak := scanner_atNewline hmarker
    rwa [levels_eq_zero hspaces] at hbreak
  have hne : x.text ≠ [] := List.cons_ne_nil '\n' []
  constructor
  · intro hreads
    rcases hreads.split hfore with ⟨first, j, later, hline, hend, rfl⟩ | ⟨_, _, _, hend, -⟩
    · obtain ⟨front, j', others, hcomes, hrest, rfl⟩ := hend.uncons (x := x) hscan hne
      obtain ⟨rfl, rfl⟩ := hcomes.unique (comesTo_break (hline.standsFor ⟨_, .fresh⟩))
      obtain ⟨rfl, rfl⟩ := (reads_spaces_iff h).mp hrest
      exact ⟨first, j, hline, by rw [List.append_nil], rfl⟩
    · exact absurd hend (not_reads_opening hspaces)
  · rintro ⟨first, j, hline, rfl, rfl⟩
    have hend := Reads.step hne hscan (comesTo_break (hline.standsFor ⟨_, .fresh⟩))
      ((reads_spaces_iff h).mpr ⟨rfl, rfl⟩)
    rw [List.append_nil] at hend
    exact hline.append hfore hend

/-- Outside of all blocks a line that is not refused is separated. -/
theorem ComesTo.separator {width : Nat} {j : Indentation}
    (h : ComesTo .start ⟨.lineBreak, text, width⟩ words j) : words = [separatorWord] := by
  obtain ⟨tokens, htokens, rfl⟩ := h nowhere
  simp only [Lexer.perform, lexiconFor, Indentation.lineBreak, Indentation.start] at htokens
  by_cases hwidth : width = 0
  · simp only [hwidth, if_true] at htokens
    cases htokens
    rfl
  · simp only [hwidth, if_false, Nat.not_lt_zero, if_true] at htokens
    cases htokens

/-- The first token of a text that starts with a newline is a line separator or
    the end marker. -/
theorem Reads.first_of_newline
    (h : Reads (scanner marker.toList) ('\n' :: text) .start words k) :
    ∃ word later, words = word :: later ∧ word.kind ≠ Kind.keyword := by
  by_cases hmarker : marker.toList <+: text
  · obtain ⟨rest, rfl⟩ := hmarker
    obtain ⟨first, j, later, hcomes, -, rfl⟩ :=
      h.uncons (x := ⟨.endOfInput Kind.marker, '\n' :: marker.toList, 0⟩) scanner_marker
        (List.cons_ne_nil _ _)
    obtain ⟨rfl, -⟩ := hcomes.unique (comesTo_marker marker .start)
    exact ⟨markerWord marker, later, rfl, show Kind.marker ≠ Kind.keyword by decide⟩
  · obtain ⟨rest, hrest⟩ := indentation_levels_isPrefix text
    let x : Lexeme := ⟨.lineBreak, '\n' :: indentation (levels text), 4 * levels text⟩
    have htext : '\n' :: text = x.text ++ rest := by
      show _ = '\n' :: (indentation (levels text) ++ rest)
      rw [hrest]
    have hscan : scanner marker.toList (x.text ++ rest) = some x :=
      htext ▸ scanner_atNewline hmarker
    rw [htext] at h
    obtain ⟨first, j, later, hcomes, -, rfl⟩ := h.uncons hscan (List.cons_ne_nil _ _)
    rw [hcomes.separator]
    exact ⟨separatorWord, later, rfl, show Kind.newline ≠ Kind.keyword by decide⟩

/-- So it is behind a line of spaces. -/
theorem Reads.first_of_spaces (hmarker : '\n' ∉ marker.toList)
    (hspaces : Text.isSpaces blank = true)
    (h : Reads (scanner marker.toList) (blank ++ '\n' :: text) .start words k) :
    ∃ word later, words = word :: later ∧ word.kind ≠ Kind.keyword := by
  rcases eq_or_ne blank [] with rfl | hne
  · exact h.first_of_newline
  · have hcolon : blank ≠ [':'] := by
      rintro rfl
      cases hspaces
    have hscan : scanner marker.toList (blank ++ '\n' :: text) = some ⟨.skip, blank, 0⟩ := by
      rw [scanner_newline hmarker hne hcolon, scanner_spaces hne hspaces]
    obtain ⟨first, j, later, hcomes, hrest, rfl⟩ :=
      h.uncons (x := ⟨.skip, blank, 0⟩) hscan hne
    obtain ⟨rfl, rfl⟩ := hcomes.unique (comesTo_skip .start blank)
    exact hrest.first_of_newline

end

/-! ## Texts that are prepared -/

/-- Sources of a language that parse to the same tree, but for locations, or
    neither of which parses. -/
def ParseAlike (l : Language) (capture : Bool) (s s' : String) : Prop :=
  ((∃ p, l.parse s capture = .ok p) ↔ ∃ p', l.parse s' capture = .ok p') ∧
    ∀ p p', l.parse s capture = .ok p → l.parse s' capture = .ok p' →
      p.withoutLocations = p'.withoutLocations

/-- A source of a language parses to these declarations, but for locations. -/
def ParsesTo (l : Language) (capture : Bool) (s : String) (ms : List Module) : Prop :=
  ∃ p, l.parse s capture = .ok p ∧ Module.allWithoutLocations p.statements = ms

/-- The preparation that is set if nothing else is. -/
def usualPreparation : Preparation := ⟨defaultMarker, true, true⟩

theorem preparation_of_load (files : Files) {settings : Settings}
    (h : Settings.load files [] = .ok settings) : settings.preparation = usualPreparation := by
  cases h
  rfl

theorem apply_usualPreparation (text : String) :
    usualPreparation.apply text = closed (String.ofList (Preparation.prepared text.toList)) := by
  rw [← String.toList_inj, toList_closed, String.toList_ofList]
  exact String.toList_ofList

section

variable {capture : Bool} {s s' : String}

/-- The declarations that a text with the end marker behind it parses to. -/
theorem parsesTo_closed_iff {ms : List Module} : ParsesTo standard capture (closed s) ms ↔
      ∃ words j, Reads (scanner defaultMarker.toList) s.toList .start words j ∧
        Declares (words ++ endWords j.depth) ms := by
  constructor
  · rintro ⟨p, hp, rfl⟩
    obtain ⟨words, j, hreads, hdeclares, -⟩ := exists_declares hp
    exact ⟨words, j, hreads, hdeclares⟩
  · rintro ⟨words, j, hreads, hdeclares⟩
    exact exists_parse hreads hdeclares capture

theorem parseAlike_of_iff {l : Language}
    (h : ∀ ms, ParsesTo l capture s ms ↔ ParsesTo l capture s' ms) :
    ParseAlike l capture s s' := by
  refine ⟨⟨?_, ?_⟩, ?_⟩
  · rintro ⟨p, hp⟩
    obtain ⟨p', hp', -⟩ := (h _).mp ⟨p, hp, rfl⟩
    exact ⟨p', hp'⟩
  · rintro ⟨p', hp'⟩
    obtain ⟨p, hp, -⟩ := (h _).mpr ⟨p', hp', rfl⟩
    exact ⟨p, hp⟩
  · intro p p' hp hp'
    obtain ⟨q, hq, hsame⟩ := (h _).mp ⟨p, hp, rfl⟩
    obtain rfl := Except.ok.inj (hq.symm.trans hp')
    rw [Program.withoutLocations, Program.withoutLocations, hsame]

/-- A short line of spaces at the end changes nothing. -/
theorem parsesTo_blank_iff {text blank : List Char} {ms : List Module}
    (h : Text.isSpaces blank = true) (hshort : blank.length < 4) :
    ParsesTo standard capture (closed (String.ofList (text ++ '\n' :: blank))) ms ↔
      ParsesTo standard capture (closed (String.ofList text)) ms := by
  rw [parsesTo_closed_iff, parsesTo_closed_iff, String.toList_ofList, String.toList_ofList]
  have hnone : ∀ unit, endWords (⟨0, unit⟩ : Indentation).depth = [] := by
    intro unit
    rw [show (⟨0, unit⟩ : Indentation).depth = 0 from Indentation.depth_closeAll ⟨0, unit⟩]
    rfl
  constructor
  · rintro ⟨words, k, hreads, hdeclares⟩
    obtain ⟨first, j, hline, rfl, rfl⟩ := (reads_blank_iff h hshort).mp hreads
    rw [hnone, List.append_nil, ← List.append_assoc, Declares.separator_iff rfl] at hdeclares
    exact ⟨first, j, hline, hdeclares⟩
  · rintro ⟨first, j, hline, hdeclares⟩
    refine ⟨_, _, (reads_blank_iff h hshort).mpr ⟨first, j, hline, rfl, rfl⟩, ?_⟩
    rwa [hnone, List.append_nil, ← List.append_assoc, Declares.separator_iff rfl]

/-- Nothing parses behind a first line of spaces. -/
theorem parse_ne_ok_of_spaces (capture : Bool) {text : String} {first : List Char}
    {rest : List (List Char)} (hlines : Text.lines text.toList = first :: rest)
    (hspaces : Text.isSpaces first = true) (p : Program) :
    standard.parse (usualPreparation.apply text) capture ≠ .ok p := by
  intro hp
  obtain ⟨words, word, -, l, hreads, hword, ⟨S, hS, rfl, -⟩, -, -⟩ := reads_of_parse hp
  have hstart : ∃ later, (usualPreparation.apply text).toList = first ++ '\n' :: later := by
    rw [apply_usualPreparation, toList_closed, String.toList_ofList]
    rcases Preparation.prepared_of_isSpaces hlines hspaces with hsame | ⟨later, hlater⟩
    · exact ⟨_, by rw [hsame]⟩
    · exact ⟨_, by rw [hlater, List.append_assoc, List.cons_append]⟩
  obtain ⟨later, hlater⟩ := hstart
  rw [hlater] at hreads
  obtain ⟨word', others, hcons, hkeyword⟩ := hreads.first_of_spaces (by decide) hspaces
  obtain ⟨k, back, hyield, hk⟩ := exists_keyword hS
  rw [hyield] at hcons
  exact hkeyword ((List.cons.inj hcons).1 ▸ hk)

/-- A text that does not end in such a line parses as its lines do that hold
    more than spaces. -/
theorem parsesTo_settled_iff {text : String} {first : List Char} {rest : List (List Char)}
    {ms : List Module} (hlines : Text.lines text.toList = first :: rest)
    (hend : Text.EndsSettled (first :: rest)) :
    ParsesTo standard capture (usualPreparation.apply text) ms ↔
      ParsesTo standard capture (closed (String.ofList
        (Text.unlines (Preparation.dropReturn first :: Preparation.solid rest)))) ms := by
  rw [apply_usualPreparation]
  rcases Preparation.prepared_of_settled hlines hend with hsame | ⟨blank, hspaces, hshort, hblank⟩
  · rw [hsame]
  · rw [hblank]
    exact parsesTo_blank_iff hspaces hshort

/-! ## The law -/

/-- **Lines of spaces in a text.**  The usual preparation is that of settings
    with nothing set.  If lines of spaces are put behind the first line of a
    text, and the last line stays, or neither text ends in a carriage return or
    in a line of four or more spaces, then with the usual preparation both
    parse to the same tree, but for locations, or neither does. -/
theorem parse_padded (capture : Bool) :
    (∀ (files : Files) (settings : Settings), Settings.load files [] = .ok settings →
      settings.preparation = usualPreparation) ∧
    ∃ l, withMarker defaultMarker = .ok l ∧ ∀ (t t' : String),
      Text.Padded (Text.lines t.toList) (Text.lines t'.toList) →
      (Text.lines t.toList).head? = (Text.lines t'.toList).head? →
      ((Text.lines t.toList).getLast? = (Text.lines t'.toList).getLast? ∨
        Text.EndsSettled (Text.lines t.toList) ∧ Text.EndsSettled (Text.lines t'.toList)) →
      ParseAlike l capture (usualPreparation.apply t) (usualPreparation.apply t') := by
  refine ⟨fun files _ => preparation_of_load files, standard, withMarker_defaultMarker, ?_⟩
  intro t t' hpadded hfirst hlast
  obtain ⟨first, rest, hlines⟩ := List.exists_cons_of_ne_nil (Text.lines_ne_nil t.toList)
  obtain ⟨first', rest', hlines'⟩ := List.exists_cons_of_ne_nil (Text.lines_ne_nil t'.toList)
  rw [hlines, hlines'] at hpadded hfirst hlast
  obtain rfl : first = first' := Option.some.inj hfirst
  cases hspaces : Text.isSpaces first with
  | true =>
      have hnone := parse_ne_ok_of_spaces capture hlines hspaces
      have hnone' := parse_ne_ok_of_spaces capture hlines' hspaces
      exact ⟨⟨fun ⟨p, hp⟩ => absurd hp (hnone p), fun ⟨p, hp⟩ => absurd hp (hnone' p)⟩,
        fun p _ hp => absurd hp (hnone p)⟩
  | false =>
      have hrest : Text.Padded rest rest' := by
        cases hpadded with
        | same hrest => exact hrest
        | spaces hfirst =>
            rw [hspaces] at hfirst
            cases hfirst
      refine parseAlike_of_iff fun ms => ?_
      rcases hlast with hlast | ⟨hend, hend'⟩
      · rw [apply_usualPreparation, apply_usualPreparation,
          Preparation.prepared_of_lasts hlines hlines' hrest hspaces hlast]
      · rw [parsesTo_settled_iff hlines hend, parsesTo_settled_iff hlines' hend',
          Preparation.solid_of_padded hrest]

/-- A declaration with another one in its block. -/
def tightText : String := "module a.b:\n    module c.d"

/-- The same with lines of spaces behind each of its lines. -/
def looseText : String := "module a.b:\n\n     \n    module c.d\n  \n"

/-- The tree of both. -/
def tightTree : Program where
  statements := [.mk "a.b" (some (.mk none [.mk "c.d" none none] none)) none]
  location := none

theorem parse_tightText :
    standard.parse (usualPreparation.apply tightText) false = .ok tightTree := by
  decide +kernel

theorem parse_padded_looseText :
    Text.Padded (Text.lines tightText.toList) (Text.lines looseText.toList) ∧
      Text.EndsSettled (Text.lines tightText.toList) ∧
      Text.EndsSettled (Text.lines looseText.toList) ∧
      ∃ p, standard.parse (usualPreparation.apply looseText) false = .ok p ∧
        p.withoutLocations = tightTree := by
  have hpadded : Text.Padded (Text.lines tightText.toList) (Text.lines looseText.toList) :=
    .same (.spaces rfl (.spaces rfl (.same (.spaces rfl (.spaces rfl .nil)))))
  have hend : Text.EndsSettled (Text.lines tightText.toList) := ⟨_, rfl, by decide, by decide⟩
  have hend' : Text.EndsSettled (Text.lines looseText.toList) := ⟨_, rfl, by decide, by decide⟩
  have hfirst : (Text.lines tightText.toList).head? = (Text.lines looseText.toList).head? := by
    decide
  obtain ⟨-, l, hl, hlaw⟩ := parse_padded false
  obtain rfl := Except.ok.inj (hl.symm.trans withMarker_defaultMarker)
  obtain ⟨halike, hsame⟩ := hlaw _ _ hpadded hfirst (.inr ⟨hend, hend'⟩)
  obtain ⟨p, hp⟩ := halike.mp ⟨_, parse_tightText⟩
  exact ⟨hpadded, hend, hend', p, hp, (hsame _ _ parse_tightText hp).symm⟩

/-- A text that parses does not any more with a line of spaces in front of its
    first line, or with one of four spaces behind its last line. -/
theorem not_parseAlike_edges :
    Text.Padded (Text.lines "module a.b".toList) (Text.lines "\nmodule a.b".toList) ∧
      Text.Padded (Text.lines "module a.b".toList) (Text.lines "module a.b\n    ".toList) ∧
      ¬ ParseAlike standard false (usualPreparation.apply "module a.b")
        (usualPreparation.apply "\nmodule a.b") ∧
      ¬ ParseAlike standard false (usualPreparation.apply "module a.b")
        (usualPreparation.apply "module a.b\n    ") := by
  have hplain : standard.parse (usualPreparation.apply "module a.b") false =
      .ok ⟨[.mk "a.b" none none], none⟩ := by
    decide +kernel
  have hbehind : standard.parse (usualPreparation.apply "module a.b\n    ") false =
      .error (.indentation (.missingBlockOpener 4 0 2)) := by
    decide +kernel
  refine ⟨.spaces rfl (.same .nil), .same (.spaces rfl .nil), ?_, ?_⟩
  · rintro ⟨halike, -⟩
    obtain ⟨p, hp⟩ := halike.mp ⟨_, hplain⟩
    have hlines : Text.lines "\nmodule a.b".toList = [[], "module a.b".toList] := rfl
    exact parse_ne_ok_of_spaces false hlines rfl p hp
  · rintro ⟨halike, -⟩
    obtain ⟨p, hp⟩ := halike.mp ⟨_, hplain⟩
    cases hbehind.symm.trans hp

end

end Language

end Offside

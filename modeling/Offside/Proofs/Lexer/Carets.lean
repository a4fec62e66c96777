import Offside.Proofs.Automaton.Faults
import Offside.Proofs.Language.Derivation
import Offside.Proofs.Language.Parsing
import Offside.Proofs.Lexer.Answers
import Offside.Proofs.Lexer.Recovery

/-! # Carets — what an excerpt points at

    A column counts bytes, and the caret of an excerpt stands behind as many
    spaces.  So the caret is below the character that it means as long as
    every character in front of that takes one byte.  White space may take
    more, and a rule that passes white space over lets it stand in front of a
    character that no rule matches.

    * `Excerpt.indent` is where the caret stands in the text of an excerpt;
    * `Shows` says that an excerpt shows a character of a source, and `Raises`
      which faults come out of a source;
    * `caret_counts_bytes` says how far the caret is indented, and
      `not_caretUnder_hardSpace` that it need not be below the character. -/

namespace Offside

/-! ## The text of an excerpt -/

namespace Text

/-- The first line ends at the first newline. -/
theorem lines_append {line : List Char} (h : '\n' ∉ line) (rest : List Char) :
    lines (line ++ '\n' :: rest) = line :: lines rest := by
  induction line with
  | nil => rfl
  | cons c cs ih =>
      obtain ⟨hc, hcs⟩ := List.ne_and_not_mem_of_not_mem_cons h
      rw [List.cons_append, lines, if_neg hc.symm, ih hcs]

/-- A text has as many bytes as characters if each of them takes one. -/
theorem bytes_eq_length_iff {cs : List Char} :
    bytes cs = cs.length ↔ ∀ c ∈ cs, c.utf8Size = 1 := by
  induction cs with
  | nil => simp
  | cons c cs ih =>
      have hpos := c.utf8Size_pos
      have hle := length_le_bytes cs
      rw [bytes_cons, List.length_cons, List.forall_mem_cons, ← ih]
      omega

end Text

namespace Excerpt

/-- The characters in front of the caret, on the line below the source line. -/
def indent (e : Excerpt) : Nat :=
  (((Text.lines e.display.toList)[3]?.getD []).takeWhile (· ≠ '^')).length

/-- The text of an excerpt has an empty line, the source line, and the line of
    the caret. -/
theorem lines_display {e : Excerpt} (h : '\n' ∉ e.sourceLine.toList) :
    Text.lines e.display.toList =
      [[], [], e.sourceLine.toList, List.replicate e.column ' ' ++ ['^'], []] := by
  have hcaret : '\n' ∉ List.replicate e.column ' ' ++ ['^'] := by
    simp
  have htext : e.display.toList = '\n' :: '\n' :: (e.sourceLine.toList ++
      '\n' :: ((List.replicate e.column ' ' ++ ['^']) ++ '\n' :: [])) := by
    simp [display]
  rw [htext]
  show [] :: [] :: Text.lines _ = _
  rw [Text.lines_append h, Text.lines_append hcaret]
  rfl

/-- The caret is indented by the column. -/
theorem indent_eq {e : Excerpt} (h : '\n' ∉ e.sourceLine.toList) : e.indent = e.column := by
  have hspaces : ∀ c ∈ List.replicate e.column ' ', decide (c ≠ '^') = true := by
    intro c hc
    rw [(List.mem_replicate.mp hc).2]
    decide
  rw [indent, lines_display h]
  show ((List.replicate e.column ' ' ++ ['^']).takeWhile (· ≠ '^')).length = e.column
  rw [List.takeWhile_append_of_pos hspaces]
  simp

end Excerpt

/-! ## Faults that show a character -/

/-- What a text has behind its last newline. -/
def Text.lastLine (text : List Char) : List Char := text.rtakeWhile (· ≠ '\n')

/-- An excerpt shows a character of a source behind a text: the character is on
    that line and in that column, and the excerpt has the whole line. -/
structure Shows (source front : List Char) (c : Char) (line column : Nat) (e : Excerpt) :
    Prop where
  text : ∃ back, source = front ++ c :: back ∧
    e.sourceLine.toList = Text.lastLine front ++ (c :: back).takeWhile (· ≠ '\n')
  position : Text.IsPosition source (Text.bytes front) line column

namespace Fault

/-- The caret is indented by the characters that are on the line in front of
    the one that no rule matches. -/
def CaretUnder (source : List Char) (fault : Fault) : Prop :=
  ∀ c line column e, fault = .unexpectedCharacter c line column (some e) →
    ∃ front, Shows source front c line column e ∧ e.indent = (Text.lastLine front).length

/-- The caret is indented by the bytes of the characters that are on the line
    in front of the one that no rule matches; these are as many as the
    characters exactly if each of them takes one byte. -/
def CaretCounts (source : List Char) (fault : Fault) : Prop :=
  ∀ c line column e, fault = .unexpectedCharacter c line column (some e) →
    ∃ front, Shows source front c line column e ∧
      e.indent = Text.bytes (Text.lastLine front) ∧
      (e.indent = (Text.lastLine front).length ↔ ∀ d ∈ Text.lastLine front, d.utf8Size = 1)

end Fault

namespace Lexer

open Automaton (Feeds)

variable {source : List Char} {l l' : Lexer} {fault : Fault}

/-- A lexer in its source fails with a caret that counts bytes. -/
theorem Sited.caretCounts (h : Sited source l) (hfault : l.next.1 = .error fault) :
    fault.CaretCounts source := by
  rintro c line column e rfl
  obtain ⟨⟨front, back, hsource, hposition⟩, shown, hshown, hexcerpt⟩ :=
    h.pointsInto.fault c line column (some e) hfault
  have hline : (Text.lines source)[front.count '\n']? =
      some (Text.lastLine front ++ (c :: back).takeWhile (· ≠ '\n')) := by
    rw [hsource]
    exact Text.getElem?_lines_count front (c :: back)
  -- the line and the column are those of the text in front
  obtain ⟨hlineNumber, hcolumn⟩ :=
    hposition.unique ⟨front, ⟨c :: back, hsource.symm⟩, rfl, rfl, rfl⟩
  rw [hlineNumber, Nat.add_sub_cancel_left, hline] at hshown
  obtain rfl := Option.some.inj hshown
  split at hexcerpt
  next => cases hexcerpt
  next =>
    obtain rfl := Option.some.inj hexcerpt
    have htext : (Excerpt.mk (String.ofList (Text.lastLine front ++
        (c :: back).takeWhile (· ≠ '\n'))) column).sourceLine.toList =
        Text.lastLine front ++ (c :: back).takeWhile (· ≠ '\n') := String.toList_ofList ..
    have hfree := Text.newline_notMem_lines source _ (List.mem_of_getElem? hline)
    rw [← htext] at hfree
    have hindent := (Excerpt.indent_eq hfree).trans hcolumn
    refine ⟨front, ⟨⟨back, hsource, htext⟩, hposition⟩, hindent, ?_⟩
    rw [hindent]
    exact Text.bytes_eq_length_iff

/-- So does a lexer that has handed out tokens from its start. -/
theorem caretCounts_of_feeds {lexicon : Lexicon} {tokens : List Token}
    (hfeeds : Feeds (start lexicon source) tokens l) (hfault : l.next.1 = .error fault) :
    fault.CaretCounts source := by
  have hstart := sited_start lexicon source
  obtain ⟨⟨hsource, hplace⟩, hqueue, -⟩ :=
    keeps_source.feeds ⟨hstart.source, hstart.place⟩ hstart.queue hfeeds
  exact Sited.caretCounts ⟨hsource, hplace, hqueue⟩ hfault

/-- What cannot be collected is a fault behind tokens. -/
theorem exists_feeds_of_collect {n : Nat} (h : (l.collect n).2.1 = .error fault) :
    ∃ tokens l', Feeds l tokens l' ∧ l'.next.1 = .error fault := by
  induction n generalizing l with
  | zero => cases h
  | succ n ih =>
      rw [collect] at h
      split at h
      next hnext =>
        cases h
        exact ⟨[], l, .nil l, by rw [hnext]⟩
      next => cases h
      next token l₁ hnext =>
        obtain ⟨tokens, l', hfeeds, hfault⟩ := ih h
        exact ⟨token :: tokens, l', .cons hnext hfeeds, hfault⟩

end Lexer

namespace Language

open Lexer Automaton

/-- A fault that comes out of a source: in answer to a call for a token, or when
    all tokens are asked for, or the program. -/
inductive Raises (l : Language) (source : String) (fault : Fault) : Prop
  | call (calls : List Call) :
      .error fault ∈ (start l.lexicon source.toList).answers calls → Raises l source fault
  | tokenize : l.tokenize source = .error fault → Raises l source fault
  | parse (capture : Bool) : l.parse source capture = .error fault → Raises l source fault

/-- **A caret counts bytes.**  Whatever the rules and the source are: where a
    character that no rule matches is shown, the caret is indented by as many
    spaces as there are bytes on the line in front of the character.  So it is
    below the character exactly if each character in front takes one byte.  (A
    match that ends inside a character passes all of it; a lexicon that is tied
    has none.) -/
theorem caret_counts_bytes {l : Language} {source : String} {fault : Fault}
    (h : Raises l source fault) : fault.CaretCounts source.toList := by
  cases h with
  | call calls hmem =>
      exact forall_answers (P := Sited source.toList)
        (Q := fun answer => ∀ fault, answer = .error fault → fault.CaretCounts source.toList)
        (fun _ c h => h.call c) (fun _ h _ hfault => h.caretCounts hfault)
        (sited_start l.lexicon source.toList) calls _ hmem fault rfl
  | tokenize htokenize =>
      obtain ⟨tokens, l', hfeeds, hfault⟩ :=
        exists_feeds_of_collect (Lexicon.tokenize_eq_error_iff.mp htokenize)
      exact caretCounts_of_feeds hfeeds hfault
  | parse capture hparse =>
      have hfailure :=
        failure_of_returns sound (builder_model capture) (parse_eq_error_iff.mp hparse)
      cases hfailure with
      | unexpectedEnd | unexpectedToken => exact nofun
      | source hfeeds hnext => exact caretCounts_of_feeds hfeeds (congrArg Prod.fst hnext)

/-- White space of two bytes, and a character that no rule matches. -/
def hardSpaceSource : String := "\u00a0?"

/-- The fault of that character. -/
def hardSpaceFault : Fault := .unexpectedCharacter '?' 1 2 (some ⟨hardSpaceSource, 2⟩)

theorem parse_hardSpaceSource : standard.parse hardSpaceSource true = .error hardSpaceFault := by
  decide +kernel

theorem caret_counts_bytes_hardSpace :
    Raises standard hardSpaceSource hardSpaceFault ∧
      hardSpaceFault.CaretCounts hardSpaceSource.toList ∧
      (Excerpt.mk hardSpaceSource 2).indent = 2 := by
  have hraises : Raises standard hardSpaceSource hardSpaceFault := .parse true parse_hardSpaceSource
  exact ⟨hraises, caret_counts_bytes hraises, by decide⟩

/-- White space that takes two bytes moves the caret away from the character
    behind it, although all rules match where the lexer stands. -/
theorem not_caretUnder_hardSpace :
    (draft defaultMarker).compile table = .ok standard.lexicon ∧ standard.lexicon.Tied ∧
      Raises standard hardSpaceSource hardSpaceFault ∧
      hardSpaceFault.message = "\n\n\u00a0?\n  ^\nUnexpected token: \"?\" at 1:2." ∧
      ¬ hardSpaceFault.CaretUnder hardSpaceSource.toList := by
  refine ⟨compile_draft defaultMarker, tied_lexiconFor, .parse true parse_hardSpaceSource, ?_, ?_⟩
  · decide +kernel
  · intro h
    obtain ⟨front, hshows, hindent⟩ := h '?' 1 2 _ rfl
    obtain ⟨back, hsource, -⟩ := hshows.text
    have hfront : front = ['\u00a0'] := by
      match front with
      | [] => cases hsource
      | [c] =>
          cases hsource
          rfl
      | c :: d :: cs =>
          have hlength := congrArg List.length hsource
          simp [hardSpaceSource] at hlength
    subst hfront
    revert hindent
    decide

end Language

end Offside

import Offside.Proofs.Language.Lexicon
import Offside.Proofs.Regex.Literal

/-! # End markers — every text can be one

    The lexicon for an end marker differs from others in one rule, whose
    pattern is a newline and the escaped marker.  That pattern reads as the
    literal text, so every marker has its language, and its lexicon is the
    one written out.

    * `machine_markerPattern` is the machine of that rule;
    * `withMarker_eq` says that the language is there. -/

namespace Offside

open Regex

namespace Regex.Machine

theorem build_seq (p q : Pattern) (label : Nat) : build (.seq p q) label =
    (.seq (build p label).1 (build q (build p label).2).1, (build q (build p label).2).2) := rfl

/-- Literal characters need no labels. -/
theorem build_chars (text : List Char) (label : Nat) :
    build (.seqs (text.map fun c => .set (.single c))) label = (literal text, label) := by
  match text with
  | [] => rfl
  | [c] => rfl
  | c :: d :: cs =>
      have ih := build_chars (d :: cs) label
      rw [List.map_cons] at ih
      rw [List.map_cons, List.map_cons, Pattern.seqs, build_seq, build, ih, literal]

end Regex.Machine

namespace Language

/-- The rule for an end marker takes a newline and the marker. -/
theorem machine_markerPattern (marker : String) :
    LexiconDraft.machine (markerPattern marker) =
      .ok (Machine.literal ('\n' :: marker.toList)).tied := by
  rw [LexiconDraft.machine, LexiconDraft.anchoredText, markerPattern, String.toList_ofList,
    read_tied]
  show Except.ok (Machine.build (.seq (.look .textStart) _) 0).1 = _
  rw [Machine.build_seq, Machine.build_chars]
  rfl

/-- The rules before that for the end marker and those behind it do not
    depend on the marker. -/
theorem compile_others :
    ((draft "").rules.take 4).mapM (LexiconDraft.rule table) = .ok ((rules "").take 4) ∧
      ((draft "").rules.drop 5).mapM (LexiconDraft.rule table) = .ok ((rules "").drop 5) := by
  decide +kernel

/-- Every text is an end marker of a language, and that has the lexicon of
    the marker. -/
theorem withMarker_eq (marker : String) :
    withMarker marker = .ok ⟨lexiconFor marker, marker⟩ := by
  have hdraft : (draft marker).rules = (draft "").rules.take 4 ++
      .initial (markerPattern marker) (.endOfInput "EOF_MARKER") :: (draft "").rules.drop 5 := rfl
  have hmarker : LexiconDraft.rule table
      (.initial (markerPattern marker) (.endOfInput "EOF_MARKER")) =
        .ok (initialRule (markerPattern marker) (.literal ('\n' :: marker.toList))
          (.endOfInput Kind.marker)) := by
    rw [LexiconDraft.rule, RuleDraft.initial, machine_markerPattern]
    rfl
  have hrules : (draft marker).rules.mapM (LexiconDraft.rule table) = .ok (rules marker) := by
    rw [hdraft, List.mapM_append, List.mapM_cons, compile_others.1, compile_others.2, hmarker]
    rfl
  rw [withMarker, LexiconDraft.compile, hrules]
  rfl

end Language

end Offside

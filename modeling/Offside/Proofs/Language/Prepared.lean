import Offside.Preparation
import Offside.Proofs.Language.Lines
import Offside.Proofs.Language.Moves

/-! # Prepared texts — the end marker is always reached

    A prepared text ends with a newline and the end marker.  If the marker is
    on one line and is not indented, then nothing in the text keeps the lexer
    from it, not even the marker itself: the last tokens are the marker and
    the end symbol, and every block that was open has ended.

    * `tokenize_prepared` is the law. -/

namespace Offside

/-- A prepared text ends with the end marker on a line of its own. -/
theorem Preparation.exists_toList_apply (p : Preparation) (text : String) :
    ∃ line, (p.apply text).toList = line ++ '\n' :: p.marker.toList :=
  ⟨_, String.toList_ofList⟩

namespace Language

/-- A token without its place is one that it was made of. -/
theorem eq_of_unplaced {t : Token} {kind : Symbol} {text : String}
    (h : t.unplaced = ⟨kind, text, nowhere⟩) : t = ⟨kind, text, t.span⟩ := by
  cases h
  rfl

/-- **Prepared texts end their blocks.**  However a text is prepared, with an end
    marker on one line that does not start with four spaces: if it can be made
    into tokens, then the last two of them are the end marker, with the
    newline in front of it, and the end symbol, and as many blocks start as
    end. -/
theorem tokenize_prepared {marker : String} (hnewline : '\n' ∉ marker.toList)
    (hspaces : ¬ fourSpaces <+: marker.toList) :
    ∃ l, withMarker marker = .ok l ∧ ∀ text stripBlankLines normalizeLineEndings tokens,
      l.tokenize ((Preparation.mk marker stripBlankLines normalizeLineEndings).apply text) =
        .ok tokens →
      (∃ front span span', tokens = front ++
        [⟨Kind.marker, "\n" ++ marker, span⟩, ⟨Kind.stop, "", span'⟩]) ∧
      Kind.indent.countIn tokens = Kind.dedent.countIn tokens := by
  refine ⟨_, withMarker_eq marker, ?_⟩
  intro text stripBlankLines normalizeLineEndings tokens htokens
  obtain ⟨words, l, hreads, -, hwords⟩ := reads_of_supplies (supplies_of_tokenize htokens)
  obtain ⟨line, hline⟩ := Preparation.exists_toList_apply
    (Preparation.mk marker stripBlankLines normalizeLineEndings) text
  rw [hline] at hreads
  obtain ⟨first, j, -, rfl, hl⟩ := (reads_closed_iff hnewline hspaces).mp hreads
  constructor
  · rw [← List.append_assoc, List.append_assoc] at hwords
    obtain ⟨front, last, rfl, -, hlast⟩ := List.map_eq_append_iff.mp hwords
    obtain ⟨t, others, rfl, ht, hothers⟩ := List.map_eq_cons_iff.mp hlast
    obtain ⟨t', others', rfl, ht', hothers'⟩ := List.map_eq_cons_iff.mp hothers
    obtain rfl := List.map_eq_nil_iff.mp hothers'
    have hmarker : t = ⟨Kind.marker, "\n" ++ marker, t.span⟩ := by
      have htext : String.ofList ('\n' :: marker.toList) = "\n" ++ marker := by
        rw [← String.toList_inj, String.toList_ofList, String.toList_append]
        rfl
      rw [← htext]
      exact eq_of_unplaced ht
    exact ⟨front, t.span, t'.span, by rw [← hmarker, ← eq_of_unplaced ht']⟩
  · have hclosed : (⟨0, j.unit⟩ : Indentation).depth = 0 := j.depth_closeAll
    have hcounts := hreads.counts
    rw [hl, hclosed] at hcounts
    -- the end symbol counts for neither
    have hcount : ∀ kind, Kind.stop ≠ kind → kind.countIn tokens =
        kind.countIn (first ++ (endWords j.depth ++ [markerWord marker])) := by
      intro kind hkind
      rw [← countIn_unplaced, hwords, Symbol.countIn_append, Symbol.countIn_other hkind]
      rfl
    rw [hcount Kind.indent (by decide), hcount Kind.dedent (by decide)]
    exact hcounts

/-- A text with an end marker on a line of its own in its middle, with carriage
    returns, and with a block that is open at its end. -/
def markerText : String := "module a.b:\r\n    c.d\r\nEND\r\nx.y:\r\n    z\r\n    \r\n"

/-- The tokens of that text, one by one. -/
theorem kinds_markerText :
    ((⟨lexiconFor "END", "END"⟩ : Language).tokenize
      ((Preparation.mk "END" true true).apply markerText)).map (·.map Token.kind) =
    .ok [Kind.keyword, Kind.name, Kind.indent, Kind.name, Kind.dedent, Kind.marker, Kind.newline,
      Kind.name, Kind.indent, Kind.word, Kind.dedent, Kind.newline, Kind.marker, Kind.stop] := by
  decide +kernel

theorem tokenize_prepared_markerText :
    '\n' ∉ "END".toList ∧ ¬ fourSpaces <+: "END".toList ∧ ∃ l tokens, withMarker "END" = .ok l ∧
      l.tokenize ((Preparation.mk "END" true true).apply markerText) = .ok tokens ∧
      (∃ front span span', tokens = front ++
        [⟨Kind.marker, "\n" ++ "END", span⟩, ⟨Kind.stop, "", span'⟩]) ∧
      Kind.indent.countIn tokens = Kind.dedent.countIn tokens := by
  have hnewline : '\n' ∉ "END".toList := by decide
  have hspaces : ¬ fourSpaces <+: "END".toList := by decide
  obtain ⟨l, hl, hlaw⟩ := tokenize_prepared hnewline hspaces
  obtain rfl := Except.ok.inj (hl.symm.trans (withMarker_eq _))
  have hkinds := kinds_markerText
  cases htokens : (⟨lexiconFor "END", "END"⟩ : Language).tokenize
      ((Preparation.mk "END" true true).apply markerText) with
  | error fault =>
      rw [htokens] at hkinds
      cases hkinds
  | ok tokens => exact ⟨hnewline, hspaces, _, tokens, hl, htokens, hlaw _ _ _ tokens htokens⟩

end Language

end Offside

import Offside.Proofs.Language.Lines
import Offside.Proofs.Language.Sources

/-! # Marker choice — it does not matter which end marker a text is closed with

    An end marker may be any text, even one that looks like a pattern or like
    an indentation.  As long as it stands nowhere else, it is taken for the
    end of the text where it stands and never before, and then every other
    such marker does just as well.

    * `foretells_plain` says that in front of such a marker the scanner is
      the one that looks for no marker;
    * `parse_of_onlyAtEnd` takes a parse from one marker to another;
    * `parse_marker_irrelevant` says so of both directions. -/

namespace Offside

open Automaton

namespace Language

/-! ## Markers that stand at the end only -/

/-- A newline and the end marker stand in a text that is closed with them
    nowhere but behind the text. -/
def OnlyAtEnd (marker text : String) : Prop :=
  ∀ n, '\n' :: marker.toList <+: (text.toList ++ '\n' :: marker.toList).drop n →
    n = text.toList.length

/-- It is enough to look at the places in the text. -/
theorem onlyAtEnd_iff {marker text : String} : OnlyAtEnd marker text ↔
    ∀ n < text.toList.length,
      ¬ '\n' :: marker.toList <+: (text.toList ++ '\n' :: marker.toList).drop n := by
  constructor
  · intro h n hn hfront
    exact Nat.ne_of_lt hn (h n hfront)
  · intro h n hfront
    rcases Nat.lt_trichotomy n text.toList.length with hlt | heq | hgt
    · exact absurd hfront (h n hlt)
    · exact heq
    · -- what is left there is too short
      have hle := hfront.length_le
      simp only [List.length_drop, List.length_append, List.length_cons] at hle
      omega

instance (marker text : String) : Decidable (OnlyAtEnd marker text) :=
  decidable_of_iff' _ onlyAtEnd_iff

section

variable {marker : String} {t : String} {text : List Char} {x : Lexeme} {i j k : Indentation}
  {words : List Token}

/-- In front of such a marker no marker is found. -/
theorem foretells_plain (h : OnlyAtEnd marker t) :
    Foretells marker marker.toList plainScanner t.toList := by
  refine ⟨text_of_plainScanner, rfl, ?_⟩
  rintro y ⟨front, hfront⟩ hy hcolon
  have hnot : ¬ '\n' :: marker.toList <+: y ++ '\n' :: marker.toList := by
    have hdrop : (t.toList ++ '\n' :: marker.toList).drop front.length =
        y ++ '\n' :: marker.toList := by
      rw [← hfront, List.append_assoc, List.drop_left]
    have hlength : front.length < t.toList.length := by
      have hpos := List.length_pos_iff.mpr hy
      rw [← hfront, List.length_append]
      omega
    rw [← hdrop]
    exact onlyAtEnd_iff.mp h _ hlength
  rw [scanner_eq_plain hnot, plainScanner_newline hy hcolon]

/-! ## Markers that are not found -/

/-- Without a look for end markers none is taken. -/
theorem kind_of_plainScanner (h : plainScanner text = some x) :
    x.action.kind? ≠ some Kind.marker := by
  obtain ⟨scan, hscan, hx⟩ := List.exists_of_findSome?_eq_some h
  simp only [List.mem_cons, List.not_mem_nil, or_false] at hscan
  -- every other function has its own kind of token, or none
  rcases hscan with rfl | rfl | rfl | rfl | rfl | rfl | rfl
  all_goals
    simp only [scanRemark.eq_def, scanKeyword, scanName, scanRun, scanOpening.eq_def,
      scanBreak.eq_def] at hx
    split at hx <;> cases hx
    rintro ⟨⟩

theorem ComesTo.kind_ne_marker (h : ComesTo i x words j)
    (hx : x.action.kind? ≠ some Kind.marker) : ∀ word ∈ words, word.kind ≠ Kind.marker := by
  obtain ⟨tokens, htokens, rfl⟩ := h nowhere
  intro word hword hkind
  obtain ⟨token, htoken, rfl⟩ := List.mem_map.mp hword
  have htokenKind : token.kind = Kind.marker := hkind
  refine hx ?_
  rw [← htokenKind]
  exact kind_of_perform htokens htoken (by rw [htokenKind]; decide)

/-- A text that is no longer than the end marker comes to no marker. -/
theorem Reads.kind_ne_marker (h : Reads (scanner marker.toList) text i words k)
    (hshort : text.length ≤ marker.toList.length) : ∀ word ∈ words, word.kind ≠ Kind.marker := by
  induction h with
  | done => exact List.forall_mem_nil _
  | @step x rest i j k words words' hne hscan hcomes _ ih =>
      rw [List.length_append] at hshort
      have hnot : ¬ '\n' :: marker.toList <+: x.text ++ rest := by
        intro hfront
        have hle := hfront.length_le
        rw [List.length_cons, List.length_append] at hle
        omega
      rw [scanner_eq_plain hnot] at hscan
      exact List.forall_mem_append.mpr
        ⟨hcomes.kind_ne_marker (kind_of_plainScanner hscan), ih (by omega)⟩

/-- A block that opens comes to a token. -/
theorem ComesTo.ne_nil_of_opening (h : ComesTo i x words j) (hx : x.action = .blockOpen) :
    words ≠ [] := by
  obtain ⟨tokens, htokens, rfl⟩ := h nowhere
  rw [hx] at htokens
  have houtcome := Lexer.perform_outcome htokens
  generalize hscanned : Lexer.Scanned.mk tokens j = scanned at houtcome
  cases houtcome with
  | single _ hkind => cases hkind
  | opening =>
      cases hscanned
      exact List.cons_ne_nil _ _

/-- A block that would open in front of the marker takes from it, and then the
    marker does not come last. -/
theorem Reads.last_ne_marker {first front : List Token} {word : Token}
    (h : Reads (scanner marker.toList) (':' :: '\n' :: marker.toList) i words k)
    (hlast : front ++ [word] = first ++ words) : word.kind ≠ Kind.marker := by
  obtain ⟨rest, hrest⟩ := indentation_levels_isPrefix marker.toList
  let x : Lexeme := ⟨.blockOpen, ':' :: '\n' :: indentation (levels marker.toList),
    4 * levels marker.toList⟩
  have htext : ':' :: '\n' :: marker.toList = x.text ++ rest := by
    show _ = ':' :: '\n' :: (indentation (levels marker.toList) ++ rest)
    rw [hrest]
  have hscan : scanner marker.toList (x.text ++ rest) = some x := htext ▸ scanner_atColon _
  rw [htext] at h
  obtain ⟨opening, j, later, hcomes, hlater, rfl⟩ := h.uncons hscan (List.cons_ne_nil ':' _)
  have hshort : rest.length ≤ marker.toList.length := by
    rw [← hrest, List.length_append]
    exact Nat.le_add_left ..
  have hnone : ∀ word ∈ opening ++ later, word.kind ≠ Kind.marker :=
    List.forall_mem_append.mpr ⟨hcomes.kind_ne_marker (by rintro ⟨⟩), hlater.kind_ne_marker hshort⟩
  obtain ⟨others, last, hothers⟩ : ∃ others last, opening ++ later = others ++ [last] :=
    (List.eq_nil_or_concat' _).resolve_left
      (List.append_ne_nil_of_left_ne_nil (hcomes.ne_nil_of_opening rfl) later)
  rw [hothers, ← List.append_assoc] at hlast
  obtain ⟨-, rfl⟩ := List.append_singleton_inj.mp hlast
  exact hnone word (hothers ▸ List.mem_append_right others (List.mem_singleton_self word))

end

/-! ## The choice of the marker -/

/-- A text that parses with one such marker behind it parses with the other. -/
theorem parse_of_onlyAtEnd {m₁ m₂ t : String} {capture : Bool} {p : Program}
    (h₁ : OnlyAtEnd m₁ t) (h₂ : OnlyAtEnd m₂ t)
    (hp : (⟨lexiconFor m₁, m₁⟩ : Language).parse (t ++ "\n" ++ m₁) capture = .ok p) :
    ∃ q, (⟨lexiconFor m₂, m₂⟩ : Language).parse (t ++ "\n" ++ m₂) capture = .ok q ∧
      q.withoutLocations = p.withoutLocations := by
  obtain ⟨words, word, _, l, hreads, hword, hdeclares, -, -⟩ := reads_of_parse hp
  rw [toList_between] at hreads
  rcases hreads.split (foretells_plain h₁) with
    ⟨first, j, later, hline, hend, hwords⟩ | ⟨first, j, later, hend, hwords⟩
  · obtain ⟨rfl, -⟩ := reads_marker_iff.mp hend
    rw [← List.append_assoc] at hwords
    obtain ⟨rfl, -⟩ := List.append_singleton_inj.mp hwords
    have hother := hline.append (foretells_plain h₂) (reads_marker_iff.mpr ⟨rfl, rfl⟩)
    rw [← List.append_assoc, ← toList_between] at hother
    obtain ⟨q, hq, hstatements⟩ := parse_of_reads hother rfl hdeclares capture
    exact ⟨q, hq, by rw [Program.withoutLocations, Program.withoutLocations, hstatements]⟩
  · exact absurd hword (hend.last_ne_marker hwords)

/-- **The choice of the end marker.**  Every text is an end marker of a
    language.  If two of them stand, behind a newline, at the end only of the
    text that is closed with them, then it parses with the one exactly if it
    does with the other, and to the same tree but for locations. -/
theorem parse_marker_irrelevant (capture : Bool) (m₁ m₂ : String) :
    ∃ l₁ l₂, withMarker m₁ = .ok l₁ ∧ withMarker m₂ = .ok l₂ ∧
      ∀ t, OnlyAtEnd m₁ t → OnlyAtEnd m₂ t →
        ((∃ p₁, l₁.parse (t ++ "\n" ++ m₁) capture = .ok p₁) ↔
          ∃ p₂, l₂.parse (t ++ "\n" ++ m₂) capture = .ok p₂) ∧
        ∀ p₁ p₂, l₁.parse (t ++ "\n" ++ m₁) capture = .ok p₁ →
          l₂.parse (t ++ "\n" ++ m₂) capture = .ok p₂ →
          p₁.withoutLocations = p₂.withoutLocations := by
  refine ⟨_, _, withMarker_eq m₁, withMarker_eq m₂, ?_⟩
  intro t h₁ h₂
  refine ⟨⟨?_, ?_⟩, ?_⟩
  · rintro ⟨p₁, hp₁⟩
    obtain ⟨p₂, hp₂, -⟩ := parse_of_onlyAtEnd h₁ h₂ hp₁
    exact ⟨p₂, hp₂⟩
  · rintro ⟨p₂, hp₂⟩
    obtain ⟨p₁, hp₁, -⟩ := parse_of_onlyAtEnd h₂ h₁ hp₂
    exact ⟨p₁, hp₁⟩
  · intro p₁ p₂ hp₁ hp₂
    obtain ⟨q, hq, hsame⟩ := parse_of_onlyAtEnd h₁ h₂ hp₁
    obtain rfl := Except.ok.inj (hq.symm.trans hp₂)
    exact hsame.symm

/-- A declaration with a block, and a part of a marker behind the block. -/
def markedSource : String := "module a.b:\n    module c.d\n    "

theorem parse_markedSource :
    (⟨lexiconFor ".*", ".*"⟩ : Language).parse (markedSource ++ "\n" ++ ".*") false =
      .ok ⟨[.mk "a.b" (some (.mk none [.mk "c.d" none none] none)) none], none⟩ := by
  decide +kernel

theorem parse_marker_irrelevant_markedSource :
    OnlyAtEnd ".*" markedSource ∧ OnlyAtEnd "    (é" markedSource ∧
      ∃ l p, withMarker "    (é" = .ok l ∧
        l.parse (markedSource ++ "\n" ++ "    (é") false = .ok p ∧
        p.withoutLocations =
          ⟨[.mk "a.b" (some (.mk none [.mk "c.d" none none] none)) none], none⟩ := by
  have h₁ : OnlyAtEnd ".*" markedSource := by decide
  have h₂ : OnlyAtEnd "    (é" markedSource := by decide
  obtain ⟨l₁, l₂, hl₁, hl₂, hlaw⟩ := parse_marker_irrelevant false ".*" "    (é"
  obtain rfl := Except.ok.inj (hl₁.symm.trans (withMarker_eq _))
  obtain ⟨p, hp⟩ := (hlaw _ h₁ h₂).1.mp ⟨_, parse_markedSource⟩
  exact ⟨h₁, h₂, l₂, p, hl₂, hp, ((hlaw _ h₁ h₂).2 _ _ parse_markedSource hp).symm⟩

-- a marker that stands in the text as well is taken for the end there
example : ¬ OnlyAtEnd "    module c.d" markedSource := by decide

end Language

end Offside

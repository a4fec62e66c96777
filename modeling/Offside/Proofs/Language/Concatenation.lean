import Offside.Proofs.Language.Seam
import Offside.Proofs.Language.Sources

/-! # Concatenation — nothing but the unit passes from one source to the next

    If two sources parse and the second one starts with a declaration, then
    they parse in a row, and the declarations of both stand in a row.  Only
    the unit of the indentation is remembered across the end of a line, so it
    must not differ.

    * `Declares.join` puts the declarations of two lists of tokens in a row;
    * `exists_declares` and `exists_parse` tie sources with the end marker to
      what stands in front of it;
    * `parse_concatenation` is the law. -/

namespace Offside

open Automaton

namespace Language

/-! ## Statements in a row -/

/-- Behind statements and a line separator more statements go on the list.  The
    recursion is on the later statements, whose rules are taken up on top of
    the earlier ones. -/
theorem exists_join {S T : ParseTree} {t : Token} (ht : t.kind = Kind.newline)
    (hS : grammar.Derives (phrase Kind.statements) S)
    (hT : grammar.Derives (phrase Kind.statements) T) :
    ∃ U, grammar.Derives (phrase Kind.statements) U ∧ U.yield = S.yield ++ t :: T.yield ∧
      readStatements false U = readStatements false S ++ readStatements false T := by
  rcases statements_cases hT with ⟨V, rfl, hV⟩ | ⟨front, u, V, rfl, hfront, hu, hV⟩ |
    ⟨front, u, rfl, hfront, hu⟩
  · -- the first of the later statements goes behind the separator
    refine ⟨.node 3 [S, .leaf t, V],
      .node rfl rfl (.cons hS (.cons (derives_leaf ht) (.cons hV .nil))), ?_, ?_⟩
    · simp only [ParseTree.yield, ParseTree.yields, List.append_nil, List.singleton_append]
    · simp only [readStatements]
  · obtain ⟨U, hU, hyield, hread⟩ := exists_join ht hS hfront
    refine ⟨.node 3 [U, .leaf u, V],
      .node rfl rfl (.cons hU (.cons (derives_leaf hu) (.cons hV .nil))), ?_, ?_⟩
    · simp only [ParseTree.yield, ParseTree.yields, hyield, List.append_assoc, List.cons_append]
    · simp only [readStatements, hread, List.append_assoc]
  · obtain ⟨U, hU, hyield, hread⟩ := exists_join ht hS hfront
    refine ⟨.node 4 [U, .leaf u], .node rfl rfl (.cons hU (.cons (derives_leaf hu) .nil)), ?_, ?_⟩
    · simp only [ParseTree.yield, ParseTree.yields, hyield, List.append_assoc, List.cons_append]
    · simp only [readStatements, hread]
termination_by T

theorem Declares.join {words words' : List Token} {ms ms' : List Module} {t : Token}
    (h : Declares words ms) (ht : t.kind = Kind.newline) (h' : Declares words' ms') :
    Declares (words ++ t :: words') (ms ++ ms') := by
  obtain ⟨S, hS, rfl, rfl⟩ := h
  obtain ⟨T, hT, rfl, rfl⟩ := h'
  obtain ⟨U, hU, hyield, hread⟩ := exists_join ht hS hT
  exact ⟨U, hU, hyield, hread⟩

/-! ## Sources with the end marker -/

/-- A source with the end marker on a line of its own behind it. -/
def closed (s : String) : String := s ++ "\n" ++ defaultMarker

theorem toList_closed (s : String) :
    (closed s).toList = s.toList ++ '\n' :: defaultMarker.toList :=
  toList_between s defaultMarker

/-- Such a source is read exactly if it is without the end marker. -/
theorem reads_closed {s : String} {words : List Token} {k : Indentation} :
    Reads (scanner defaultMarker.toList) (closed s).toList .start words k ↔
      ∃ first j, Reads (scanner defaultMarker.toList) s.toList .start first j ∧
        words = first ++ (endWords j.depth ++ [markerWord defaultMarker]) ∧ k = ⟨0, j.unit⟩ := by
  rw [toList_closed]
  exact reads_closed_iff (by decide) (by decide)

/-- No block opens in a source. -/
def OpensNoBlock (l : Language) (s : String) : Prop :=
  ∀ t ∈ (Lexer.start l.lexicon s.toList).rest.1, t.kind ≠ Kind.indent

/-- A source that parses reads, and its tokens declare what it does. -/
theorem exists_declares {s : String} {capture : Bool} {p : Program}
    (h : standard.parse (closed s) capture = .ok p) : ∃ words j,
      Reads (scanner defaultMarker.toList) s.toList .start words j ∧
      Declares (words ++ endWords j.depth) (Module.allWithoutLocations p.statements) ∧
      j.unit = learnedUnit standard (closed s) ∧
      (OpensNoBlock standard (closed s) → ∀ word ∈ words, word.kind ≠ Kind.indent) := by
  obtain ⟨spelled, word, tokens, l, hreads, -, hdeclares, hrest, htokens⟩ := reads_of_parse h
  obtain ⟨words, j, hline, hwords, hl⟩ := reads_closed.mp hreads
  rw [← List.append_assoc] at hwords
  obtain ⟨rfl, -⟩ := List.append_singleton_inj.mp hwords
  refine ⟨words, j, hline, hdeclares, ?_, ?_⟩
  · show j.unit =
      (Lexer.start (lexiconFor defaultMarker) (closed s).toList).rest.2.2.indentation.unit
    rw [hrest, hl]
  · intro hnone word hword
    rw [OpensNoBlock, standard, hrest] at hnone
    have hmem : word ∈ tokens.map Token.unplaced := by
      rw [htokens]
      simp only [List.append_assoc, List.mem_append]
      exact .inl hword
    obtain ⟨t, ht, rfl⟩ := List.mem_map.mp hmem
    exact hnone t ht

/-- A source that reads, with tokens that declare something, parses to it. -/
theorem exists_parse {s : String} {words : List Token} {j : Indentation} {ms : List Module}
    (hreads : Reads (scanner defaultMarker.toList) s.toList .start words j)
    (hdeclares : Declares (words ++ endWords j.depth) ms) (capture : Bool) :
    ∃ p, standard.parse (closed s) capture = .ok p ∧
      Module.allWithoutLocations p.statements = ms := by
  have hclosed := reads_closed.mpr ⟨words, j, hreads, rfl, rfl⟩
  rw [← List.append_assoc] at hclosed
  exact parse_of_reads hclosed rfl hdeclares capture

/-! ## The law -/

/-- **Sources put behind one another.**  If two sources parse, each with the end
    marker behind it, the second one starts with the keyword, and they learn
    the same unit of indentation or one of them opens no block, then they
    parse in a row, and without locations the declarations of the one stand
    in front of those of the other. -/
theorem parse_concatenation (capture : Bool) :
    ∃ l, withMarker defaultMarker = .ok l ∧ ∀ (a b : String) (A B : Program),
      l.parse (closed a) capture = .ok A → l.parse (closed b) capture = .ok B →
      keyword <+: b.toList →
      (learnedUnit l (closed a) = learnedUnit l (closed b) ∨
        OpensNoBlock l (closed a) ∨ OpensNoBlock l (closed b)) →
      ∃ C, l.parse (closed (a ++ "\n" ++ b)) capture = .ok C ∧
        Module.allWithoutLocations C.statements =
          Module.allWithoutLocations A.statements ++ Module.allWithoutLocations B.statements := by
  refine ⟨standard, withMarker_defaultMarker, ?_⟩
  intro a b A B hA hB hkeyword hunits
  obtain ⟨words, j, hreads, hdeclares, hunit, hnone⟩ := exists_declares hA
  obtain ⟨words', k, hreads', hdeclares', hunit', hnone'⟩ := exists_declares hB
  have hknown : j.unit = none ∨ k.unit = none ∨ k.unit = j.unit := by
    rw [← hunit, ← hunit'] at hunits
    rcases hunits with hsame | hfirst | hsecond
    · exact .inr (.inr hsame.symm)
    · exact .inl (hreads.unit_of_noBlocks (hnone hfirst))
    · exact .inr (.inl (hreads'.unit_of_noBlocks (hnone' hsecond)))
  obtain ⟨k', hbehind, hdepth⟩ := hreads'.behind hknown
  have hseam := hreads.seam ⟨_, .fresh⟩ hbehind hkeyword
  have hjoin := hdeclares.join (t := separatorWord) rfl hdeclares'
  rw [← hdepth, List.append_assoc, ← List.singleton_append] at hjoin
  have htext : (a ++ "\n" ++ b).toList = a.toList ++ '\n' :: b.toList := by
    simp
  rw [← htext] at hseam
  refine exists_parse hseam ?_ capture
  simpa only [List.append_assoc] using hjoin

/-- A declaration with another one in its block. -/
def outerSource : String := "module a.b:\n    module c.d"

/-- A declaration with a comment in its block. -/
def commentedSource : String := "module e.f:\n    ;x"

theorem parse_outerSource : standard.parse (closed outerSource) false =
    .ok ⟨[.mk "a.b" (some (.mk none [.mk "c.d" none none] none)) none], none⟩ := by
  decide +kernel

theorem parse_commentedSource : standard.parse (closed commentedSource) false =
    .ok ⟨[.mk "e.f" (some (.mk (some "x") [] none)) none], none⟩ := by
  decide +kernel

theorem parse_concatenation_outerSource :
    keyword <+: commentedSource.toList ∧
      learnedUnit standard (closed outerSource) = learnedUnit standard (closed commentedSource) ∧
      ∃ C, standard.parse (closed (outerSource ++ "\n" ++ commentedSource)) false = .ok C ∧
        Module.allWithoutLocations C.statements =
          [.mk "a.b" (some (.mk none [.mk "c.d" none none] none)) none,
            .mk "e.f" (some (.mk (some "x") [] none)) none] := by
  have hkeyword : keyword <+: commentedSource.toList := by decide
  have hunit : learnedUnit standard (closed outerSource) =
      learnedUnit standard (closed commentedSource) := by
    decide +kernel
  obtain ⟨l, hl, hlaw⟩ := parse_concatenation false
  obtain rfl := Except.ok.inj (hl.symm.trans withMarker_defaultMarker)
  exact ⟨hkeyword, hunit, hlaw _ _ _ _ parse_outerSource parse_commentedSource hkeyword
    (.inl hunit)⟩

-- the unit is remembered: behind the first source a block of another width is refused
example : (standard.parse (closed "module e.f:\n        ;x") false).isOk = true ∧
    standard.parse (closed (outerSource ++ "\n" ++ "module e.f:\n        ;x")) false =
      .error (.indentation (.skippedLevel 8 4 4)) := by
  decide +kernel

end Language

end Offside

import Offside.Proofs.Automaton.Verdict
import Offside.Proofs.Language.Derivation

/-! # Recognition — the automaton of the module language on lists of tokens

    The kinds of the tokens are arbitrary here; most lists come from no
    source at all.  The automaton accepts the sentences of the grammar, with
    what is read off their derivation, and it stops any other list exactly
    where no sentence goes on.

    * `returns_of_parses` and `parses_of_returns` are both directions for
      one derivation, over any source of tokens;
    * `Hopeless` is the token with which a list stops being the beginning of
      a sentence; a list has one at most;
    * `returns_program_iff` and `returns_error` are the results for lists. -/

namespace Offside

namespace Language

open Automaton

variable {ι : Type} [TokenSource ι]

/-- A source of tokens that have a derivation gives its program. -/
theorem returns_of_parses {T : ParseTree} {tokens : List Token}
    (hparses : grammar.Parses table.endSymbol T tokens) {source : ι}
    (hsupplies : Supplies source tokens) (capture : Bool) :
    Returns table capture Builder.semantics source ()
      (.ok (.program (readProgram capture T))) := by
  obtain ⟨f, rfl, hreturns⟩ :=
    Automaton.returns_of_parses sound complete (builder_model capture) hparses hsupplies ()
  rw [frameOf, readValue_program hparses.derives] at hreturns
  exact hreturns

/-- What a run returns is the program of a derivation. -/
theorem parses_of_returns {source : ι} {capture : Bool} {v : Value}
    (h : Returns table capture Builder.semantics source () (.ok v)) :
    ∃ T tokens, grammar.Parses table.endSymbol T tokens ∧ Supplies source tokens ∧
      v = .program (readProgram capture T) := by
  obtain ⟨T, f, tokens, hparses, rfl, rfl, hsupplies⟩ :=
    Automaton.parses_of_returns sound (builder_model capture).toModel h
  exact ⟨T, tokens, hparses, hsupplies, readValue_program hparses.derives⟩

/-- A list that a run accepts has the derivation itself, to its last token. -/
theorem exists_parses_of_returns {tokens : List Token} {capture : Bool} {v : Value}
    (h : Returns table capture Builder.semantics (TokenList.mk tokens) () (.ok v)) :
    ∃ T, grammar.Parses table.endSymbol T tokens ∧ v = .program (readProgram capture T) := by
  obtain ⟨T, tokens', hparses, hsupplies, hv⟩ := parses_of_returns h
  obtain rfl := supplies_tokenList_iff.mp hsupplies
  exact ⟨T, hparses, hv⟩

theorem sentence_of_returns {tokens : List Token} {capture : Bool} {v : Value}
    (h : Returns table capture Builder.semantics (TokenList.mk tokens) () (.ok v)) :
    grammar.Sentence table.endSymbol (tokens.map Token.kind) := by
  obtain ⟨T, hparses, -⟩ := exists_parses_of_returns h
  exact (Grammar.sentence_iff _ _).mpr ⟨T, hparses⟩

/-- A list of tokens is accepted exactly if its kinds make a sentence, and
    its program is what is read off the one derivation that the tokens
    have. -/
theorem returns_program_iff (capture : Bool) (tokens : List Token) :
    ((∃ p, Returns table capture Builder.semantics (TokenList.mk tokens) ()
        (.ok (.program p))) ↔
      grammar.Sentence table.endSymbol (tokens.map Token.kind)) ∧
    ∀ p, Returns table capture Builder.semantics (TokenList.mk tokens) () (.ok (.program p)) ↔
      ∃ T, grammar.Parses table.endSymbol T tokens ∧
        (∀ T', grammar.Parses table.endSymbol T' tokens → T' = T) ∧
        p = readProgram capture T := by
  have hread : ∀ p, Returns table capture Builder.semantics (TokenList.mk tokens) ()
      (.ok (.program p)) ↔
      ∃ T, grammar.Parses table.endSymbol T tokens ∧
        (∀ T', grammar.Parses table.endSymbol T' tokens → T' = T) ∧
        p = readProgram capture T := by
    intro p
    constructor
    · intro h
      obtain ⟨T, hparses, hp⟩ := exists_parses_of_returns h
      exact ⟨T, hparses, fun T' hT' => complete.unambiguous sound hT' hparses,
        Value.program.inj hp⟩
    · rintro ⟨T, hparses, -, rfl⟩
      exact returns_of_parses hparses (supplies_tokenList_iff.mpr rfl) capture
  refine ⟨⟨?_, ?_⟩, hread⟩
  · rintro ⟨p, h⟩
    exact sentence_of_returns h
  · intro h
    obtain ⟨T, hparses⟩ := (Grammar.sentence_iff _ _).mp h
    exact ⟨_, returns_of_parses hparses (supplies_tokenList_iff.mpr rfl) capture⟩

/-- Tokens that some sentence starts with, and one more with which no
    sentence starts. -/
structure Hopeless (front : List Token) (token : Token) : Prop where
  viable : grammar.Viable table.endSymbol (front.map Token.kind)
  not_viable : ¬ grammar.Viable table.endSymbol ((front ++ [token]).map Token.kind)

section Hopeless

variable {front front' rest rest' : List Token} {token token' : Token}

/-- Nothing behind a hopeless token helps. -/
theorem Hopeless.not_viable_append (h : Hopeless front token) (rest : List Token) :
    ¬ grammar.Viable table.endSymbol ((front ++ token :: rest).map Token.kind) := by
  intro hviable
  rw [List.append_cons, List.map_append] at hviable
  exact h.not_viable hviable.of_append

theorem Hopeless.not_sentence (h : Hopeless front token) (rest : List Token) :
    ¬ grammar.Sentence table.endSymbol ((front ++ token :: rest).map Token.kind) :=
  fun hsentence => h.not_viable_append rest hsentence.viable

/-- The tokens before a hopeless one have no hopeless one among them. -/
theorem Hopeless.length_le (h : Hopeless front token) (h' : Hopeless front' token')
    (heq : front ++ token :: rest = front' ++ token' :: rest') :
    front'.length ≤ front.length := by
  rcases List.append_eq_append_iff.mp heq with ⟨more, hfront', hmore⟩ | ⟨more, hfront, -⟩
  · cases more with
    | nil => rw [hfront', List.append_nil]
    | cons head more =>
        -- the longer front would have the hopeless token of the shorter one
        obtain ⟨rfl, -⟩ := List.cons.inj hmore
        exact absurd (hfront' ▸ h'.viable) (h.not_viable_append more)
  · rw [hfront, List.length_append]
    exact Nat.le_add_right ..

/-- A list has one hopeless token at most. -/
theorem Hopeless.unique (h : Hopeless front token) (h' : Hopeless front' token')
    (heq : front ++ token :: rest = front' ++ token' :: rest') :
    front = front' ∧ token = token' := by
  have hlength := le_antisymm (h'.length_le h heq.symm) (h.length_le h' heq)
  obtain ⟨hfront, htail⟩ := List.append_inj heq hlength
  exact ⟨hfront, (List.cons.inj htail).1⟩

/-- A token is hopeless if runs refuse every list that goes on from it. -/
theorem Hopeless.of_refused
    (hviable : grammar.Viable table.endSymbol (front.map Token.kind))
    (h : ∀ z, ∃ e, Returns table false Builder.semantics
      (TokenList.mk (front ++ token :: z)) () (.error e)) : Hopeless front token :=
  ⟨hviable, not_viable_of_refused sound complete (builder_model false) h⟩

end Hopeless

/-- A list of tokens that is no sentence fails where it stops being the
    beginning of one: at its end if it still is there, and otherwise at the
    first token with which it is not. -/
theorem returns_error (capture : Bool) (tokens : List Token)
    (h : ¬ grammar.Sentence table.endSymbol (tokens.map Token.kind)) :
    (grammar.Viable table.endSymbol (tokens.map Token.kind) →
      Returns table capture Builder.semantics (TokenList.mk tokens) ()
        (.error .unexpectedEnd)) ∧
    (¬ grammar.Viable table.endSymbol (tokens.map Token.kind) →
      ∃ front token rest, tokens = front ++ token :: rest ∧
        grammar.Viable table.endSymbol (front.map Token.kind) ∧
        ¬ grammar.Viable table.endSymbol ((front ++ [token]).map Token.kind) ∧
        ∃ expected, Returns table capture Builder.semantics (TokenList.mk tokens) ()
          (.error (if token.kind = table.endSymbol then .unexpectedEnd
            else .unexpectedToken token.text token.span.startLine token.span.startColumn
              expected none))) := by
  rcases verdict sound complete extendable bounded (builder_model capture) tokens () with
    ⟨T, f, hparses, -, -⟩ | ⟨hviable, hreturns⟩ |
      ⟨front, token, rest, source, state, rfl, hfront, htoken, hreturns⟩
  · exact absurd ((Grammar.sentence_iff _ _).mpr ⟨T, hparses⟩) h
  · exact ⟨fun _ => hreturns, fun hnot => absurd hviable hnot⟩
  · constructor
    · intro hviable
      exact absurd hviable ((Hopeless.mk hfront htoken).not_viable_append rest)
    · intro _
      exact ⟨front, token, rest, rfl, hfront, htoken, table.expected state, hreturns⟩

/-- The keyword of a declaration, at a column of the first line. -/
def keywordAt (column : Nat) : Token :=
  ⟨Kind.keyword, "module", ⟨column, column + 6, 1, 1, column, column + 6⟩⟩

/-- The tokens of one declaration without a block, with the end symbol behind
    its marker. -/
def declaration : List Token :=
  [keywordAt 0, ⟨Kind.name, "a.b", ⟨7, 10, 1, 1, 7, 10⟩⟩,
    ⟨Kind.marker, "\n@@EOF@@", ⟨10, 18, 1, 2, 10, 7⟩⟩, ⟨Kind.stop, "", ⟨18, 18, 2, 2, 7, 7⟩⟩]

/-- A word behind the declaration and its end symbol. -/
def wordBehind : Token := ⟨Kind.word, "x", ⟨18, 19, 2, 2, 7, 8⟩⟩

/-- The end symbol behind the first keyword. -/
def stopEarly : Token := ⟨Kind.stop, "", ⟨6, 6, 1, 1, 6, 6⟩⟩

/-- A keyword alone may go on.  A second keyword behind it is refused with
    its text and place, an end symbol there as an end, and a word behind an
    accepted end symbol with the text and place of the word. -/
theorem returns_error_lists :
    (¬ grammar.Sentence table.endSymbol ([keywordAt 0].map Token.kind) ∧
      grammar.Viable table.endSymbol ([keywordAt 0].map Token.kind) ∧
      Returns table false Builder.semantics (TokenList.mk [keywordAt 0]) ()
        (.error .unexpectedEnd)) ∧
    (Hopeless [keywordAt 0] (keywordAt 7) ∧
      ∃ expected, Returns table false Builder.semantics
        (TokenList.mk ([keywordAt 0] ++ keywordAt 7 :: declaration)) ()
        (.error (.unexpectedToken "module" 1 7 expected none))) ∧
    (Hopeless [keywordAt 0] stopEarly ∧
      Returns table false Builder.semantics
        (TokenList.mk ([keywordAt 0] ++ stopEarly :: declaration)) ()
        (.error .unexpectedEnd)) ∧
    (grammar.Sentence table.endSymbol (declaration.map Token.kind) ∧
      Hopeless declaration wordBehind ∧
      ∃ expected, Returns table false Builder.semantics
        (TokenList.mk (declaration ++ wordBehind :: [])) ()
        (.error (.unexpectedToken "x" 2 7 expected none))) := by
  have haccepted : ∃ v, Returns table false Builder.semantics (TokenList.mk declaration) ()
      (.ok v) := ⟨_, 12, _, _, rfl⟩
  have hdeclaration : grammar.Sentence table.endSymbol (declaration.map Token.kind) := by
    obtain ⟨v, hreturns⟩ := haccepted
    exact sentence_of_returns hreturns
  have hkeyword : grammar.Viable table.endSymbol ([keywordAt 0].map Token.kind) := by
    have hviable : grammar.Viable table.endSymbol
        ([Kind.keyword] ++ [Kind.name, Kind.marker, Kind.stop]) := hdeclaration.viable
    exact hviable.of_append
  have halone : ¬ grammar.Sentence table.endSymbol ([keywordAt 0].map Token.kind) := by
    rintro ⟨word, -, hword⟩
    have hlast := congrArg List.getLast? hword
    rw [List.getLast?_concat] at hlast
    exact absurd hlast (by decide)
  have hsecond : Hopeless [keywordAt 0] (keywordAt 7) :=
    .of_refused hkeyword fun z => ⟨_, 5, _, _, rfl⟩
  have hstop : Hopeless [keywordAt 0] stopEarly :=
    .of_refused hkeyword fun z => ⟨_, 5, _, _, rfl⟩
  have hword : Hopeless declaration wordBehind :=
    .of_refused hdeclaration.viable fun z => ⟨_, 12, _, _, rfl⟩
  -- a list has one hopeless token only, so the fault is about that one
  have hfault : ∀ front token rest, Hopeless front token →
      ∃ expected, Returns table false Builder.semantics
        (TokenList.mk (front ++ token :: rest)) ()
        (.error (if token.kind = table.endSymbol then .unexpectedEnd
          else .unexpectedToken token.text token.span.startLine token.span.startColumn
            expected none)) := by
    intro front token rest h
    obtain ⟨front', token', rest', heq, hfront, htoken, hreturns⟩ :=
      (returns_error false _ (h.not_sentence rest)).2 (h.not_viable_append rest)
    obtain ⟨rfl, rfl⟩ := h.unique ⟨hfront, htoken⟩ heq
    exact hreturns
  obtain ⟨expected, hend⟩ := hfault _ _ declaration hstop
  exact ⟨⟨halone, hkeyword, (returns_error false _ halone).1 hkeyword⟩,
    ⟨hsecond, hfault _ _ _ hsecond⟩, ⟨hstop, hend⟩, hdeclaration, hword, hfault _ _ _ hword⟩

end Language

end Offside

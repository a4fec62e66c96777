import Offside.Proofs.Language.Scanner
import Offside.Proofs.Lexer.Rounds

/-! # Steps of the lexer of the module language

    In the initial mode the lexer does with a text what the scanner says.

    * `take_of_scanner` is one match;
    * `Before` is a lexer with nothing waiting before a text, and
      `Before.emit` and `Before.skip` are its steps. -/

namespace Offside

namespace Language

open Automaton

/-! ## Matches -/

/-- The width of an indentation matters to nothing that does not measure it. -/
theorem perform_width {lexicon : Lexicon} {i : Indentation} {action : RuleAction Symbol}
    (h : action.measuresIndentation = false) (text : List Char) (span : Span)
    (width width' : Nat) : Lexer.perform lexicon i action text span width =
      Lexer.perform lexicon i action text span width' := by
  cases action with
  | blockOpen | lineBreak => exact nomatch h
  | _ => rfl

/-- Tokens have the kind that the action asks for, or they stand for blocks and
    lines. -/
theorem kind_of_perform {marker : String} {i j : Indentation} {action : RuleAction Symbol}
    {text : List Char} {span : Span} {width : Nat} {tokens : List Token}
    (h : Lexer.perform (lexiconFor marker) i action text span width = .ok ⟨tokens, j⟩)
    {t : Token} (ht : t ∈ tokens)
    (hkind : t.kind ≠ Kind.indent ∧ t.kind ≠ Kind.dedent ∧ t.kind ≠ Kind.newline) :
    action.kind? = some t.kind := by
  rcases (Lexer.perform_outcome h).kinds t ht with haction | ⟨structural, hs, hother⟩
  · exact haction
  · obtain rfl := Option.some.inj hs
    exact absurd hother (by simpa using hkind)

/-- The lexer past a text that the scanner selects, with the tokens of it. -/
def taken (marker : String) (l : Lexer) (x : Lexeme) (rest : List Char) :
    Except Fault (List Token) × Lexer :=
  let passed := { l with place := l.place.after x.text, ahead := rest }
  match Lexer.perform (lexiconFor marker) l.indentation x.action x.text
      (l.place.spanTo passed.place) x.width with
  | .error failed =>
      (.error failed.fault, { passed with indentation := failed.indentation })
  | .ok scanned => (.ok scanned.tokens, { passed with indentation := scanned.indentation })

/-- A match of the lexer is what the scanner selects. -/
theorem take_of_scanner {marker : String} {l : Lexer} (hlexicon : l.lexicon = lexiconFor marker)
    (hmode : l.mode = initialMode) {x : Lexeme} {rest : List Char}
    (hahead : l.ahead = x.text ++ rest) (hscan : scanner marker.toList l.ahead = some x) :
    ∃ s, l.ahead ≠ [] ∧ l.lexicon.select l.mode l.ahead = some s ∧
      l.take s = taken marker l x rest := by
  have hselect := select_eq_scanner marker l.ahead
  rw [hscan] at hselect
  obtain ⟨s, hs, haction, hlength, hne, -, hwidth⟩ := hselect
  have hsome : l.ahead ≠ [] := hahead ▸ List.append_ne_nil_of_left_ne_nil hne rest
  refine ⟨s, hsome, by rw [hlexicon, hmode]; exact hs, ?_⟩
  have hpass : l.pass s.found.length =
      (x.text, { l with place := l.place.after x.text, ahead := rest }) := by
    rw [Lexer.pass, hlength, hahead, Text.cut_bytes_append]
  have hperform : ∀ span, Lexer.perform l.lexicon l.indentation s.action x.text span
      ((s.found.width 1).getD 0) =
      Lexer.perform (lexiconFor marker) l.indentation x.action x.text span x.width := by
    intro span
    rw [hlexicon, haction]
    cases hmeasures : x.action.measuresIndentation with
    | false => exact perform_width hmeasures ..
    | true =>
        rw [hwidth hmeasures]
        rfl
  rw [Lexer.take, hpass]
  simp only [hperform]
  rfl

/-- Where the scanner selects nothing, neither does the lexer. -/
theorem select_eq_none {marker : String} {l : Lexer} (hlexicon : l.lexicon = lexiconFor marker)
    (hmode : l.mode = initialMode) (hscan : scanner marker.toList l.ahead = none) :
    l.lexicon.select l.mode l.ahead = none := by
  have hselect := select_eq_scanner marker l.ahead
  rw [hscan] at hselect
  rw [hlexicon, hmode]
  exact hselect

/-! ## Steps -/

/-- A lexer of the language before a text, with nothing waiting. -/
structure Before (marker : String) (l : Lexer) (ahead : List Char) (i : Indentation) :
    Prop where
  lexicon : l.lexicon = lexiconFor marker
  mode : l.mode = initialMode
  pending : l.pending = []
  running : l.finished = false
  ahead : l.ahead = ahead
  indentation : l.indentation = i

theorem before_start (marker : String) (text : List Char) :
    Before marker (Lexer.start (lexiconFor marker) text) text .start :=
  ⟨rfl, rfl, rfl, rfl, rfl, rfl⟩

theorem feeds_pending (l : Lexer) (tokens : List Token) :
    Feeds { l with pending := tokens } tokens { l with pending := [] } := by
  induction tokens with
  | nil => exact .nil _
  | cons t ts ih => exact .cons rfl ih

namespace Before

variable {marker : String} {l : Lexer} {i : Indentation} {action : RuleAction Symbol}
  {text rest : List Char} {width : Nat}

/-- A text that comes to tokens: they are handed out, and the lexer is behind
    the text. -/
theorem emit (h : Before marker l (text ++ rest) i)
    (hscan : scanner marker.toList (text ++ rest) = some ⟨action, text, width⟩)
    {P : List Token → Indentation → Prop}
    (hperform : ∀ span, ∃ tokens j, Lexer.perform (lexiconFor marker) i action text span width =
      .ok ⟨tokens, j⟩ ∧ tokens ≠ [] ∧ P tokens j) :
    ∃ tokens j l', Feeds l tokens l' ∧ P tokens j ∧ Before marker l' rest j := by
  obtain ⟨s, hsome, hs, htake⟩ := take_of_scanner h.lexicon h.mode h.ahead (h.ahead ▸ hscan)
  obtain ⟨tokens, j, htokens, hne, hP⟩ := hperform (l.place.spanTo (l.place.after text))
  obtain ⟨token, tokens, rfl⟩ := List.exists_cons_of_ne_nil hne
  rw [taken, h.indentation, htokens] at htake
  have hbehind : Before marker (l.take s).2 rest j := by
    rw [htake]
    exact ⟨h.lexicon, h.mode, h.pending, h.running, rfl, rfl⟩
  have hpassed : l.take s = (.ok (token :: tokens), (l.take s).2) := by
    rw [htake]
  have hfirst : l.next = (.ok (some token), { (l.take s).2 with pending := tokens }) :=
    (Lexer.next_eq_iff h.pending).mpr (.emit hsome hs hpassed)
  -- the queue is empty again once the other tokens are handed out
  have hothers : Feeds { (l.take s).2 with pending := tokens } tokens (l.take s).2 := by
    have hqueue := feeds_pending (l.take s).2 tokens
    have hsame : { (l.take s).2 with pending := [] } = (l.take s).2 := by
      rw [← hbehind.pending]
    rwa [hsame] at hqueue
  exact ⟨token :: tokens, j, (l.take s).2, .cons hfirst hothers, hP, hbehind⟩

/-- A text that comes to no tokens: the token behind it comes next. -/
theorem pass (h : Before marker l (text ++ rest) i)
    (hscan : scanner marker.toList (text ++ rest) = some ⟨action, text, width⟩)
    {j : Indentation} (hperform : ∀ span,
      Lexer.perform (lexiconFor marker) i action text span width = .ok ⟨[], j⟩) :
    ∃ l', Before marker l' rest j ∧ l.next = l'.next := by
  obtain ⟨s, hsome, hs, htake⟩ := take_of_scanner h.lexicon h.mode h.ahead (h.ahead ▸ hscan)
  rw [taken, h.indentation, hperform] at htake
  have hbehind : Before marker (l.take s).2 rest j := by
    rw [htake]
    exact ⟨h.lexicon, h.mode, h.pending, h.running, rfl, rfl⟩
  have hpassed : l.take s = (.ok [], (l.take s).2) := by
    rw [htake]
  refine ⟨(l.take s).2, hbehind, (Lexer.next_eq_iff h.pending).mpr ?_⟩
  exact .pass hsome hs hpassed ((Lexer.next_eq_iff hbehind.pending).mp rfl)

/-- A text that is passed over. -/
theorem skip (h : Before marker l (text ++ rest) i)
    (hscan : scanner marker.toList (text ++ rest) = some ⟨.skip, text, width⟩) :
    ∃ l', Before marker l' rest i ∧ l.next = l'.next :=
  h.pass hscan fun _ => rfl

end Before

end Language

end Offside

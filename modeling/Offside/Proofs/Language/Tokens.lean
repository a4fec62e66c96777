import Offside.Proofs.Language.Lexemes
import Offside.Proofs.Language.Steps
import Offside.Proofs.Lexer.Rounds

/-! # Tokens of a source — names and comments have their form

    Whatever the text is, a token of the kind of names has the form of a name
    and a token of the kind of comments that of a comment.

    * `Lexeme.Formed.perform` says so of one match;
    * `Serving` is a lexer of the language at work: its matches are those of
      lexemes;
    * `formed_of_feeds` says so of all tokens. -/

namespace Offside

open Offside.Language

/-- A token whose text has the form of its kind. -/
structure Token.Formed (t : Token) : Prop where
  name : t.kind = Kind.name → IsName t.text.toList
  comment : t.kind = Kind.comment → IsRemark t.text.toList

namespace Language

open Automaton

/-! ## One match -/

theorem formed_name {text : List Char} (h : IsName text) (span : Span) :
    Token.Formed ⟨Kind.name, String.ofList text, span⟩ := by
  constructor
  · intro _
    show IsName (String.ofList text).toList
    rw [String.toList_ofList]
    exact h
  · intro hkind
    exact absurd (show Kind.name = Kind.comment from hkind) (by decide)

theorem formed_comment {text : List Char} (h : IsRemark text) (span : Span) :
    Token.Formed ⟨Kind.comment, String.ofList text, span⟩ := by
  constructor
  · intro hkind
    exact absurd (show Kind.comment = Kind.name from hkind) (by decide)
  · intro _
    show IsRemark (String.ofList text).toList
    rw [String.toList_ofList]
    exact h

theorem formed_other {kind : Symbol} (hkind : kind ≠ Kind.name ∧ kind ≠ Kind.comment)
    (text : String) (span : Span) : Token.Formed ⟨kind, text, span⟩ :=
  ⟨fun h => absurd h hkind.1, fun h => absurd h hkind.2⟩

/-- The tokens of a lexeme have their form. -/
theorem Lexeme.Formed.perform {x : Lexeme} (hx : x.Formed) {marker : String} {i : Indentation}
    {span : Span} {scanned : Lexer.Scanned}
    (h : Lexer.perform (lexiconFor marker) i x.action x.text span x.width = .ok scanned) :
    ∀ t ∈ scanned.tokens, t.Formed := by
  -- tokens that stand for structure are neither names nor comments
  have hother : (x.action.kind?.all fun k => k ≠ Kind.name ∧ k ≠ Kind.comment) = true →
      ∀ t ∈ scanned.tokens, t.Formed := by
    intro haction t ht
    refine formed_other ?_ t.text t.span
    rcases (Lexer.perform_outcome h).kinds t ht with hkind | ⟨structural, hs, hkind⟩
    · rw [hkind] at haction
      exact of_decide_eq_true haction
    · obtain rfl := Option.some.inj hs
      rcases hkind with hkind | hkind | hkind <;> rw [hkind] <;> decide
  cases hx with
  | remark htext =>
      rw [Lexer.perform, stripped_remark] at h
      cases h
      exact List.forall_mem_singleton.mpr (formed_comment htext span)
  | name htext =>
      cases h
      exact List.forall_mem_singleton.mpr (formed_name htext span)
  | keyword | word | marker | opening | lineBreak | skip => exact hother rfl

/-! ## All tokens -/

/-- A lexer of the language in the mode that it starts in. -/
structure Serving (marker : String) (l : Lexer) : Prop where
  lexicon : l.lexicon = lexiconFor marker
  mode : l.mode = initialMode

namespace Serving

variable {marker : String} {l l' : Lexer} {s : Selection}

theorem start (marker : String) (text : List Char) :
    Serving marker (Lexer.start (lexiconFor marker) text) := ⟨rfl, rfl⟩

theorem take (h : Serving marker l) {r : Except Fault (List Token)}
    (htake : l.take s = (r, l')) : Serving marker l' :=
  ⟨(Lexer.take_lexicon htake).trans h.lexicon, (Lexer.take_mode htake).trans h.mode⟩

/-- A match that the lexer selects is what the scanner selects. -/
theorem exists_scanned (h : Serving marker l)
    (hselect : l.lexicon.select l.mode l.ahead = some s) :
    ∃ x rest, scanner marker.toList l.ahead = some x ∧ l.ahead = x.text ++ rest ∧
      l.take s = taken marker l x rest := by
  have hscanner := select_eq_scanner marker l.ahead
  cases hscan : scanner marker.toList l.ahead with
  | none =>
      rw [select_eq_none h.lexicon h.mode hscan] at hselect
      exact nomatch hselect
  | some x =>
      rw [hscan] at hscanner
      obtain ⟨-, -, -, -, -, ⟨rest, hrest⟩, -⟩ := hscanner
      obtain ⟨s', -, hs', htake⟩ := take_of_scanner h.lexicon h.mode hrest.symm hscan
      obtain rfl := Option.some.inj (hselect.symm.trans hs')
      exact ⟨x, rest, rfl, hrest.symm, htake⟩

theorem exists_taken (h : Serving marker l)
    (hselect : l.lexicon.select l.mode l.ahead = some s) :
    ∃ x rest, x.Formed ∧ l.ahead = x.text ++ rest ∧ l.take s = taken marker l x rest := by
  obtain ⟨x, rest, hscan, htaken⟩ := h.exists_scanned hselect
  exact ⟨x, rest, scanner_formed hscan, htaken⟩

/-- A match that is not at fault comes to what its lexeme does. -/
theorem exists_performed (h : Serving marker l)
    (hselect : l.lexicon.select l.mode l.ahead = some s) {tokens : List Token}
    (htake : l.take s = (.ok tokens, l')) :
    ∃ x : Lexeme, x.Formed ∧ l.ahead = x.text ++ l'.ahead ∧
      Lexer.perform (lexiconFor marker) l.indentation x.action x.text (l.place.spanTo l'.place)
        x.width = .ok ⟨tokens, l'.indentation⟩ := by
  obtain ⟨x, rest, hx, hahead, htaken⟩ := h.exists_taken hselect
  rw [htaken, taken] at htake
  split at htake
  next => cases htake
  next hperform =>
    cases htake
    exact ⟨x, hx, hahead, hperform⟩

/-- A match that is not at fault cuts a text off the source that the scanner
    selects there. -/
theorem exists_cut (h : Serving marker l) (hselect : l.lexicon.select l.mode l.ahead = some s)
    {tokens : List Token} (htake : l.take s = (.ok tokens, l')) {source front : List Char}
    (hsource : source = front ++ l.ahead) (hplace : l.place = Place.start.after front) :
    ∃ x : Lexeme, scanner marker.toList (x.text ++ l'.ahead) = some x ∧
      source = front ++ x.text ++ l'.ahead ∧ l'.place = Place.start.after (front ++ x.text) ∧
      Lexer.perform (lexiconFor marker) l.indentation x.action x.text (l.place.spanTo l'.place)
        x.width = .ok ⟨tokens, l'.indentation⟩ := by
  obtain ⟨x, rest, hscan, hahead, htaken⟩ := h.exists_scanned hselect
  rw [htaken, taken] at htake
  split at htake
  next => cases htake
  next hperform =>
    cases htake
    refine ⟨x, hahead ▸ hscan, ?_, ?_, hperform⟩
    · rw [hsource, hahead, List.append_assoc]
    · rw [Place.after_append, ← hplace]

/-- A match that is at fault is so for its lexeme, and it leaves the blocks. -/
theorem exists_failed (h : Serving marker l)
    (hselect : l.lexicon.select l.mode l.ahead = some s) {fault : Fault}
    (htake : l.take s = (.error fault, l')) :
    ∃ x : Lexeme, x.Formed ∧ l.ahead = x.text ++ l'.ahead ∧ l'.indentation = l.indentation ∧
      Lexer.Mishap (lexiconFor marker) l.indentation (l.place.spanTo l'.place) x.width x.action
        ⟨fault, l.indentation⟩ := by
  obtain ⟨x, rest, hx, hahead, htaken⟩ := h.exists_taken hselect
  rw [htaken, taken] at htake
  split at htake
  next failed hperform =>
    cases htake
    have hmishap := Lexer.perform_mishap hperform
    have hstructural : (lexiconFor marker).structural ≠ none := Option.some_ne_none _
    have hsame : failed.indentation = l.indentation :=
      hmishap.indentation_eq fun hnone => absurd hnone hstructural
    exact ⟨x, hx, hahead, hsame, hsame ▸ hmishap⟩
  next => cases htake

end Serving

/-- All tokens have their form. -/
theorem keeps_formed {marker : String} :
    Lexer.Keeps (Serving marker) Token.Formed fun _ => True where
  queue _ _ h := ⟨h.lexicon, h.mode⟩
  take h hselect htake := by
    obtain ⟨x, hx, -, hperform⟩ := h.exists_performed hselect htake
    exact ⟨h.take htake, hx.perform hperform⟩
  fault h _ htake := ⟨h.take htake, trivial⟩
  stop h := by
    have hstop : Kind.stop ≠ Kind.name ∧ Kind.stop ≠ Kind.comment := by decide
    rw [h.lexicon]
    exact formed_other hstop _ _
  stuck _ _ := trivial

theorem formed_of_feeds {marker : String} {source : List Char} {tokens : List Token} {l : Lexer}
    (h : Feeds (Lexer.start (lexiconFor marker) source) tokens l) : ∀ t ∈ tokens, t.Formed :=
  (keeps_formed.feeds (Serving.start marker source) nofun h).2.2

end Language

end Offside

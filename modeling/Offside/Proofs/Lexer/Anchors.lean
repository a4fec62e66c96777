import Offside.Proofs.Language.Marker
import Offside.Proofs.Lexer.Batches
import Offside.Proofs.Lexicon
import Offside.Proofs.Regex.Splice

/-! # Anchors — rules match where the lexer stands

    A pattern is tied to the place of the search by the text that is put
    around it.  That ties all of it only if the text is a pattern by itself:
    `a)|(b` is none, but with the group around it there is one, and its second
    half is found further on.  The lexer does not look where a match starts,
    so it takes as many bytes from the place where it stands.

    * `machine_of_pattern` says what becomes of a text that is a pattern;
    * `Selects` is said of the rule of a draft that a lexicon selects, and
      `select_anchored` is about one whose text is a pattern;
    * `tied_of_patterns` says that a lexicon of such texts is tied;
    * `select_unanchored` is a lexicon of another kind. -/

namespace Offside

open Regex

namespace LexiconDraft

variable {t : Automaton.Table} {d : LexiconDraft} {lexicon : Lexicon}

/-- A text that is a pattern by itself has the machine of that pattern, tied to
    the start of the text. -/
theorem machine_of_pattern {pattern : String} {own tied : Pattern}
    (hown : Pattern.read? pattern.toList = some own)
    (htied : Pattern.read? (anchoredText pattern) = some tied) :
    Machine.ofPattern tied = (Machine.ofPattern own).tied := by
  obtain rfl := read_splice hown htied
  show (Machine.build (.seq (.look .textStart) own) 0).1 = _
  rw [Machine.build_seq]
  rfl

/-- The rule of drafts that a match is selected for: the first one for the mode
    that has a match. -/
structure Selects (t : Automaton.Table) (rules : List RuleDraft) (mode : String)
    (ahead : List Char) (s : Selection) (r : RuleDraft) : Prop where
  modes : r.modes.contains mode = true
  found : ∃ compiled, rule t r = .ok compiled ∧ compiled.action = s.action ∧
    compiled.match? ahead = some s.found
  first : ∃ before after, rules = before ++ r :: after ∧
    ∀ other ∈ before, other.modes.contains mode = true →
      ∀ compiled, rule t other = .ok compiled → compiled.match? ahead = none

/-- A rule in front that has no match, or that is for other modes, is passed. -/
theorem Selects.cons {rules : List RuleDraft} {mode : String} {ahead : List Char}
    {s : Selection} {r other : RuleDraft} (h : Selects t rules mode ahead s r)
    (hother : other.modes.contains mode = true →
      ∀ compiled, rule t other = .ok compiled → compiled.match? ahead = none) :
    Selects t (other :: rules) mode ahead s r where
  modes := h.modes
  found := h.found
  first := by
    obtain ⟨before, after, rfl, hbefore⟩ := h.first
    exact ⟨other :: before, after, rfl, List.forall_mem_cons.mpr ⟨hother, hbefore⟩⟩

/-- What is selected among compiled rules is selected for a rule of the draft. -/
theorem exists_selects {rules : List RuleDraft} {compiled : List Rule} {mode : String}
    {ahead : List Char} {s : Selection}
    (h : List.Forall₂ (fun r compiled => rule t r = .ok compiled) rules compiled)
    (hselect : ((compiled.filter (·.isActiveIn mode)).findSome? fun r =>
      (r.match? ahead).map fun found => (⟨r.action, found⟩ : Selection)) = some s) :
    ∃ r, Selects t rules mode ahead s r := by
  induction h with
  | nil => cases hselect
  | @cons r head rules compiled hrule _ ih =>
      have hmodes : head.modes = r.modes := (compiles_of_rule hrule).modes
      by_cases hactive : head.isActiveIn mode = true
      · rw [List.filter_cons, if_pos hactive, List.findSome?_cons] at hselect
        cases hmatch : head.match? ahead with
        | some found =>
            rw [hmatch] at hselect
            obtain rfl := Option.some.inj hselect
            exact ⟨r, hmodes ▸ hactive, ⟨head, hrule, rfl, hmatch⟩, [], rules, rfl, nofun⟩
        | none =>
            rw [hmatch] at hselect
            obtain ⟨selected, hselected⟩ := ih hselect
            refine ⟨selected, hselected.cons fun _ other hother => ?_⟩
            rw [hrule] at hother
            cases hother
            exact hmatch
      · rw [List.filter_cons, if_neg hactive] at hselect
        obtain ⟨selected, hselected⟩ := ih hselect
        refine ⟨selected, hselected.cons fun hmode => absurd ?_ hactive⟩
        rw [Rule.isActiveIn, hmodes]
        exact hmode

/-- A match of a compiled rule takes a text that the own pattern of the rule
    accepts, from where the search starts. -/
theorem Compiles.accepts {r : RuleDraft} {rule : Rule} (h : Compiles t r rule) {own : Pattern}
    (hown : Pattern.read? r.pattern.toList = some own) {ahead : List Char} {found : Match}
    (hmatch : rule.match? ahead = some found) :
    found.start = 0 ∧ ∃ text back, ahead = text ++ back ∧ found.length = Text.bytes text ∧
      own.Accepts none text back := by
  obtain ⟨tied, htied, hmachine⟩ := h.pattern
  have hsearch := (Option.filter_eq_some_iff.mp hmatch).1
  rw [hmachine, machine_of_pattern hown htied, search_tied] at hsearch
  exact Machine.matchStart_accepts hsearch

/-- Where all texts are patterns by themselves, all rules are tied. -/
theorem tied_of_patterns (hcompile : d.compile t = .ok lexicon)
    (hpatterns : ∀ r ∈ d.rules, ∃ own, Pattern.read? r.pattern.toList = some own) :
    lexicon.Tied := by
  intro rule hrule ahead found hmatch
  obtain ⟨r, hr, hcompiles⟩ := exists_draft hcompile rule hrule
  obtain ⟨own, hown⟩ := hpatterns r hr
  exact (hcompiles.accepts hown hmatch).1

/-- The same, where the texts can be looked through. -/
theorem tied_of_all (hcompile : d.compile t = .ok lexicon)
    (hall : d.rules.all (fun r => (Pattern.read? r.pattern.toList).isSome) = true) :
    lexicon.Tied :=
  tied_of_patterns hcompile fun r hr =>
    Option.isSome_iff_exists.mp (List.all_eq_true.mp hall r hr)

end LexiconDraft

namespace Lexer

open LexiconDraft

variable {t : Automaton.Table} {d : LexiconDraft} {l : Lexer} {s : Selection}

/-- A match that takes a text leaves what stands behind it. -/
theorem pass_of_append {text back : List Char} (hahead : l.ahead = text ++ back)
    (hlength : s.found.length = Text.bytes text) :
    l.taken s = text ∧ l.past s = { l with place := l.place.after text, ahead := back } := by
  rw [taken, past, pass, hlength, hahead, Text.cut_bytes_append]
  exact ⟨rfl, rfl⟩

/-- **Rules match where the lexer stands.**  Whatever a lexer of a compiled
    draft selects, it selects for the first rule of the draft for its mode that
    has a match.  Let the text of that rule be a pattern by itself, whatever
    the others are.  Then the match starts where the lexer stands, and the text
    that it takes is one that the pattern accepts.  A token that is emitted has
    that text. -/
theorem select_anchored {lexicon : Lexicon} (hcompile : d.compile t = .ok lexicon)
    (hlexicon : l.lexicon = lexicon) (h : l.lexicon.select l.mode l.ahead = some s) :
    ∃ r, Selects t d.rules l.mode l.ahead s r ∧
      r.action.resolve (resolve t) = .ok s.action ∧
      ∀ own, Pattern.read? r.pattern.toList = some own → s.found.start = 0 ∧ ∃ back,
        l.ahead = l.taken s ++ back ∧ s.found.length = Text.bytes (l.taken s) ∧
        own.Accepts none (l.taken s) back ∧
        ∀ kind, s.action = .emit kind →
          l.take s = (.ok [⟨kind, String.ofList (l.taken s), l.spanOf s⟩], l.past s) := by
  rw [hlexicon] at h
  obtain ⟨r, hselects⟩ := exists_selects (rules_of_compile hcompile) h
  obtain ⟨rule, hrule, haction, hmatch⟩ := hselects.found
  have hcompiles := compiles_of_rule hrule
  refine ⟨r, hselects, haction ▸ hcompiles.action, fun own hown => ?_⟩
  obtain ⟨hstart, text, back, hahead, hlength, haccepts⟩ := hcompiles.accepts hown hmatch
  obtain ⟨htaken, -⟩ := pass_of_append hahead hlength
  rw [htaken]
  refine ⟨hstart, back, hahead, hlength, haccepts, fun kind hkind => ?_⟩
  have hperform : perform l.lexicon l.indentation s.action (l.taken s) (l.spanOf s) s.width =
      .ok ⟨[⟨kind, String.ofList (l.taken s), l.spanOf s⟩], l.indentation⟩ := by
    rw [hkind]
    rfl
  rw [take_of_perform hperform, htaken]
  rfl

end Lexer

namespace Language

open Lexer

/-- A rule whose text is a pattern by itself, in front of one whose text is
    none. -/
def tiedDraft : LexiconDraft :=
  ⟨[.initial "a|(b)" (.emit "IDENTIFIER"), .initial "a)|(b" .skip], .standard⟩

/-- A rule whose text closes the group around it and opens another one. -/
def untiedDraft : LexiconDraft := ⟨[.initial "a)|(b" (.emit "IDENTIFIER")], .standard⟩

theorem select_anchored_tiedDraft :
    ∃ lexicon own, tiedDraft.compile table = .ok lexicon ∧
      Pattern.read? ['a', '|', '(', 'b', ')'] = some own ∧
      lexicon.select initialMode ['b', 'x'] = some ⟨.emit Kind.word, 0, 1, [(1, 1)]⟩ ∧
      own.Accepts none ['b'] ['x'] := by
  obtain ⟨lexicon, hcompile, hselect⟩ : ∃ lexicon, tiedDraft.compile table = .ok lexicon ∧
      lexicon.select initialMode ['b', 'x'] = some ⟨.emit Kind.word, 0, 1, [(1, 1)]⟩ := by
    refine ⟨_, rfl, ?_⟩
    decide +kernel
  obtain ⟨own, hown⟩ : ∃ own, Pattern.read? ['a', '|', '(', 'b', ')'] = some own :=
    Option.isSome_iff_exists.mp (by decide +kernel)
  obtain ⟨r, hselects, haction, hanchored⟩ :=
    select_anchored (l := start lexicon ['b', 'x']) hcompile rfl hselect
  -- the other rule comes to no token
  obtain rfl : .initial "a|(b)" (.emit "IDENTIFIER") = r := by
    obtain ⟨before, after, hrules, -⟩ := hselects.first
    have hmem : r ∈ tiedDraft.rules := hrules ▸ List.mem_append_right _ (List.mem_cons_self ..)
    rcases List.mem_cons.mp hmem with rfl | hmem
    · rfl
    · obtain rfl := List.mem_singleton.mp hmem
      cases haction
  obtain ⟨-, back, hahead, -, haccepts, -⟩ := hanchored own hown
  obtain rfl : ['x'] = back := (List.cons.inj hahead).2
  exact ⟨lexicon, own, hcompile, hown, hselect, haccepts⟩

/-- A text that is no pattern by itself is found behind the place where the
    lexer stands, and the lexer takes another text instead. -/
theorem select_unanchored :
    Pattern.read? ['a', ')', '|', '(', 'b'] = none ∧
      ∃ lexicon, untiedDraft.compile table = .ok lexicon ∧
        lexicon.select initialMode ['x', 'b'] = some ⟨.emit Kind.word, 1, 1, [(1, 1)]⟩ ∧
        (start lexicon ['x', 'b']).next.1 =
          .ok (some ⟨Kind.word, "x", ⟨0, 1, 1, 1, 0, 1⟩⟩) := by
  refine ⟨by decide +kernel, _, rfl, ?_⟩
  decide +kernel

end Language

end Offside

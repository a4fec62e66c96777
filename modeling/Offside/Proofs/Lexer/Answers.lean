import Offside.Proofs.Lexer.Balance
import Offside.Proofs.Lexer.Eager
import Offside.Proofs.Lexer.Places

/-! # Answers — where tokens and faults point

    A lexer keeps count of lines while it passes matches, whatever it is asked
    for and whatever has failed before.  So the lines and columns of its
    tokens are those of their offsets, and a character that no rule matches
    is shown where it stands.

    * `answers` are what a caller is told by calls of any kind, and
      `forall_answers` is the way to say something of all of them;
    * `PointsInto` is said of one answer and the source alone, and
      `answers_pointInto` says so of all. -/

namespace Offside

/-- The line that a place is on, by the text before the place and behind it. -/
theorem Text.getElem?_lines_count (front rest : List Char) :
    (lines (front ++ rest))[front.count '\n']? =
      some (front.rtakeWhile (· ≠ '\n') ++ rest.takeWhile (· ≠ '\n')) := by
  induction front using List.reverseRecOn generalizing rest with
  | nil => exact getElem?_lines_zero rest
  | append_singleton front c ih =>
      rw [List.append_assoc, List.singleton_append, List.count_append]
      by_cases hc : c = '\n'
      · subst hc
        rw [List.rtakeWhile_concat_neg (· ≠ '\n') front '\n' (by decide)]
        exact getElem?_lines front rest
      · have hc' : decide (c ≠ '\n') = true := decide_eq_true hc
        have hline := ih (c :: rest)
        rw [List.takeWhile_cons_of_pos (p := (· ≠ '\n')) hc'] at hline
        have hcount : [c].count '\n' = 0 := List.count_eq_zero.mpr fun hmem =>
          hc (List.mem_singleton.mp hmem).symm
        rw [List.rtakeWhile_concat_pos (· ≠ '\n') front c hc', List.append_assoc, hcount]
        exact hline

/-- An excerpt is a line of the source, and there is none of an empty line. -/
theorem Excerpt.ofSource_succ {source shown : List Char} {index : Nat}
    (h : (Text.lines source)[index]? = some shown) (column : Nat) :
    ofSource source (index + 1) column =
      if shown = [] then none else some ⟨String.ofList shown, column⟩ := by
  simp only [ofSource, h]
  cases shown <;> rfl

/-- A line that stands where it must not has no block above it, or it breaks a
    rule of bookkeeping. -/
theorem Indentation.fault_of_lineBreak {i : Indentation} {width line : Nat} {fault : Fault}
    (h : i.lineBreak width line = .error fault) :
    (∃ cause, fault = .indentation cause) ∨ ∃ breach, fault = .breach breach := by
  simp only [lineBreak] at h
  split at h
  next => cases h
  next =>
    split at h
    next =>
      split at h
      next => cases h; exact .inr ⟨_, rfl⟩
      next =>
        split at h
        next => cases h
        next => cases h; exact .inr ⟨_, rfl⟩
    next =>
      split at h
      next => cases h; exact .inl ⟨_, rfl⟩
      next => cases h

namespace Lexer

/-! ## Calls -/

/-- The lexer after a call. -/
def call (l : Lexer) : Call → Lexer
  | .next => l.next.2
  | .pushMode mode => l.pushMode mode
  | .popMode => l.popMode.2

/-- The lexer after calls, one after the other. -/
def afterCalls (l : Lexer) (calls : List Call) : Lexer := calls.foldl call l

/-- What the calls for a token return, one after the other. -/
def answers (l : Lexer) : List Call → List (Except Fault (Option Token))
  | [] => []
  | .next :: calls => l.next.1 :: (l.call .next).answers calls
  | .pushMode mode :: calls => (l.call (.pushMode mode)).answers calls
  | .popMode :: calls => (l.call .popMode).answers calls

/-- What every call keeps, and makes of every answer, holds of all answers. -/
theorem forall_answers {P : Lexer → Prop} {Q : Except Fault (Option Token) → Prop}
    (hcall : ∀ l c, P l → P (l.call c)) (hnext : ∀ l, P l → Q l.next.1) {l : Lexer} (hl : P l)
    (calls : List Call) : ∀ answer ∈ l.answers calls, Q answer := by
  induction calls generalizing l with
  | nil => exact nofun
  | cons c calls ih =>
      have hlater := ih (hcall l c hl)
      cases c with
      | next => exact List.forall_mem_cons.mpr ⟨hnext l hl, hlater⟩
      | pushMode | popMode => exact hlater

/-! ## Lines and columns -/

/-- An answer that points into a source.  A token has the lines and columns of
    its offsets.  A character that no rule matches stands at its line and
    column, and that line is shown unless it is empty. -/
structure PointsInto (source : List Char) (answer : Except Fault (Option Token)) : Prop where
  token : ∀ t, answer = .ok (some t) → t.span.Fits source
  fault : ∀ c line column excerpt, answer = .error (.unexpectedCharacter c line column excerpt) →
    (∃ front back, source = front ++ c :: back ∧
      Text.IsPosition source (Text.bytes front) line column) ∧
    ∃ shown, (Text.lines source)[line - 1]? = some shown ∧
      excerpt = if shown = [] then none else some ⟨String.ofList shown, column⟩

/-- A match that is at fault is so by its indentation, or it breaks a rule of
    bookkeeping. -/
theorem Mishap.fault_eq {lexicon : Lexicon} {i : Indentation} {span : Span} {width : Nat}
    {action : RuleAction Symbol} {failed : Failed}
    (h : Mishap lexicon i span width action failed) :
    (∃ cause, failed.fault = .indentation cause) ∨ ∃ breach, failed.fault = .breach breach := by
  cases h with
  | unclosed | unnamed => exact .inr ⟨_, rfl⟩
  | block => exact .inl ⟨_, rfl⟩
  | line hbreak => exact Indentation.fault_of_lineBreak hbreak

section

variable {text : List Char} {l l' : Lexer}

/-- A lexer that stands in its source, and so do the tokens in its queue. -/
structure Sited (text : List Char) (l : Lexer) : Prop where
  source : l.source = text
  place : l.StandsIn text
  queue : ∀ t ∈ l.pending, t.span.Fits text

theorem sited_start (lexicon : Lexicon) (text : List Char) : Sited text (start lexicon text) :=
  ⟨rfl, standsIn_start lexicon text, nofun⟩

/-- Matches keep a lexer in its source. -/
theorem keeps_source : Keeps (fun l => l.source = text ∧ l.StandsIn text)
    (fun token => token.span.Fits text) fun _ => True where
  queue _ _ h := h
  take h hselect htake :=
    have hfits := keeps_fits.take h.2 hselect htake
    ⟨⟨(take_source htake).trans h.1, hfits.1⟩, hfits.2⟩
  fault h _ htake := ⟨⟨(take_source htake).trans h.1, h.2.take htake⟩, trivial⟩
  stop h := keeps_fits.stop h.2
  stuck _ _ := trivial

theorem Sited.call (h : Sited text l) (c : Call) : Sited text (l.call c) := by
  cases c with
  | next =>
      obtain ⟨⟨hsource, hplace⟩, hqueue, -⟩ :=
        keeps_source.next ⟨h.source, h.place⟩ h.queue (rfl : l.next = _)
      exact ⟨hsource, hplace, hqueue⟩
  | pushMode mode => exact ⟨h.source, h.place, h.queue⟩
  | popMode =>
      rw [Lexer.call, popMode]
      split
      next => exact h
      next => exact ⟨h.source, h.place, h.queue⟩

/-- A lexer that finds no rule for a character stands in front of it. -/
theorem exists_stuck {c : Char} {line column : Nat} {excerpt : Option Excerpt}
    (h : l.next.1 = .error (.unexpectedCharacter c line column excerpt)) :
    ∃ l' cs, Passes l l' ∧ l'.ahead = c :: cs ∧ line = l'.place.line ∧
      column = l'.place.column ∧ excerpt = l'.excerpt line column := by
  cases hpending : l.pending with
  | cons first later =>
      rw [next_of_pending hpending] at h
      cases h
  | nil =>
      obtain ⟨l', action, hpasses, hstops⟩ := exists_stops_of_next hpending rfl
      generalize l.next = r at h hstops
      cases hstops with
      | ended | stop | emit => cases h
      | stuck hahead =>
          cases h
          exact ⟨l', _, hpasses, hahead, rfl, rfl, rfl⟩
      | fault _ _ htake =>
          cases h
          rcases (take_error htake).fault_eq with ⟨_, hfault⟩ | ⟨_, hfault⟩ <;> cases hfault

theorem Sited.pointsInto (h : Sited text l) : PointsInto text l.next.1 where
  token t ht :=
    (keeps_source.next ⟨h.source, h.place⟩ h.queue (rfl : l.next = _)).2.2.1 t ht
  fault := by
    intro c line column excerpt hfault
    obtain ⟨l', cs, hpasses, hahead, rfl, rfl, rfl⟩ := exists_stuck hfault
    obtain ⟨hsource, front, htext, hplace⟩ :=
      hpasses.keeps (fun _ hselect htake hl => (keeps_source.take hl hselect htake).1)
        ⟨h.source, h.place⟩
    rw [hahead] at htext
    obtain ⟨hline, -⟩ := Place.after_start front
    have hfront : front <+: text := ⟨c :: cs, htext.symm⟩
    have hposition := Place.isPosition_after hfront
    have hshown := Text.getElem?_lines_count front (c :: cs)
    rw [← htext] at hshown
    rw [Place.offset_start_after] at hposition
    rw [Lexer.excerpt, hsource, hplace, hline, Nat.add_comm 1, Excerpt.ofSource_succ hshown]
    rw [hline, Nat.add_comm 1] at hposition
    exact ⟨⟨front, cs, htext, hposition⟩, _, hshown, rfl⟩

/-- **Answers point into the source.**  Whatever the rules are, and whatever a
    caller asks of a lexer, also after a fault: all tokens have the lines and
    columns of their offsets, and a character that no rule matches is shown
    on its line.  (A match that ends inside a character passes all of it; a
    lexicon that is tied has none.) -/
theorem answers_pointInto (lexicon : Lexicon) (source : List Char) (calls : List Call) :
    ∀ answer ∈ (start lexicon source).answers calls, PointsInto source answer :=
  forall_answers (P := Sited source) (fun _ c h => h.call c) (fun _ h => h.pointsInto)
    (sited_start lexicon source) calls

end

end Lexer

namespace Language

open Lexer

/-- A block that is not indented, one that is, and an empty line. -/
def faultyText : List Char := ":\n:\n    a\n\n".toList

/-- Calls for tokens, some of them in a mode that has no rules. -/
def faultyCalls : List Call := [.next, .next, .next, .pushMode "OTHER", .next, .popMode, .next,
  .next, .pushMode "OTHER", .next, .popMode, .next]

/-- What these calls return. -/
def faultyAnswers : List (Except Fault (Option Token)) := [
  .error (.indentation (.notDeeper 0 0 2)),
  .ok (some ⟨Kind.indent, ":\n    ", ⟨2, 8, 2, 3, 0, 4⟩⟩),
  .ok (some ⟨Kind.word, "a", ⟨8, 9, 3, 3, 4, 5⟩⟩),
  .error (.unexpectedCharacter '\n' 3 5 (some ⟨"    a", 5⟩)),
  .ok (some ⟨Kind.dedent, "", ⟨9, 10, 3, 4, 5, 0⟩⟩),
  .ok (some ⟨Kind.newline, "", ⟨9, 10, 3, 4, 5, 0⟩⟩),
  .error (.unexpectedCharacter '\n' 4 0 none),
  .ok (some ⟨Kind.newline, "", ⟨10, 11, 4, 5, 0, 0⟩⟩)]

theorem answers_pointInto_faultyText :
    (start (lexiconFor defaultMarker) faultyText).answers faultyCalls = faultyAnswers ∧
      PointsInto faultyText (.ok (some ⟨Kind.dedent, "", ⟨9, 10, 3, 4, 5, 0⟩⟩)) ∧
      PointsInto faultyText (.error (.unexpectedCharacter '\n' 3 5 (some ⟨"    a", 5⟩))) ∧
      PointsInto faultyText (.error (.unexpectedCharacter '\n' 4 0 none)) := by
  have hanswers : (start (lexiconFor defaultMarker) faultyText).answers faultyCalls =
      faultyAnswers := by
    decide +kernel
  have hpoints := answers_pointInto (lexiconFor defaultMarker) faultyText faultyCalls
  rw [hanswers] at hpoints
  exact ⟨hanswers, hpoints _ (by simp [faultyAnswers]), hpoints _ (by simp [faultyAnswers]),
    hpoints _ (by simp [faultyAnswers])⟩

end Language

end Offside

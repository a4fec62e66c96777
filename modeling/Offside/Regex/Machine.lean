import Offside.Regex.Pattern
import Offside.Text.Bytes
import Std.Data.TreeMap.Lemmas

/-! # Matching — the first match in order of preference

    A pattern is turned into a machine whose points of choice carry labels.
    The machine runs by backtracking, and a search keeps a trail of the
    points of choice it has passed, each with the place of the text.  A
    thread that comes to such a point at such a place again is given up:
    what lies ahead has failed before, or it is being tried and the thread
    has gone round in a circle.  This ends every loop, it fixes which empty
    rounds of a loop count, and it bounds the work by the number of places
    times the number of points of choice. -/

namespace Offside.Regex

/-- A pattern whose points of choice carry labels. -/
inductive Machine where
  | empty
  | set (chars : Charset)
  | look (condition : Look)
  | group (index : Nat) (body : Machine)
  | seq (first second : Machine)
  | alt (label : Nat) (first second : Machine)
  /-- Any number of rounds. -/
  | loop (label : Nat) (greedy : Bool) (body : Machine)
deriving DecidableEq, Repr, Inhabited

namespace Machine

/-- Two machines one after the other, where an empty one is left out. -/
def andThen : Machine → Machine → Machine
  | empty, n => n
  | m, empty => m
  | m, n => seq m n

/-- The choice between going through a body and passing it by. -/
def option (label : Nat) (greedy : Bool) (body : Machine) : Machine :=
  if greedy then alt label body empty else alt label empty body

/-- One round, and then any number of further ones. -/
def loop1 (label : Nat) (greedy : Bool) (body : Machine) : Machine :=
  seq body (loop label greedy body)

/-- Copies of a body one after the other, each with labels of its own;
    the second component is the next free label. -/
def copies (build : Nat → Machine × Nat) : Nat → Nat → Machine × Nat
  | 0, label => (empty, label)
  | n + 1, label =>
      let (first, label) := build label
      let (others, label) := copies build n label
      (andThen first others, label)

/-- Up to so many copies of a body, each inside the choice before it. -/
def optionals (build : Nat → Machine × Nat) (greedy : Bool) : Nat → Nat → Machine × Nat
  | 0, label => (empty, label)
  | n + 1, label =>
      let (first, next) := build (label + 1)
      let (others, next) := optionals build greedy n next
      (option label greedy (andThen first others), next)

/-- The machine of a pattern; labels are taken from the given one on, and
    the second component is the next free label. -/
def build : Pattern → Nat → Machine × Nat
  | .empty, label => (empty, label)
  | .set s, label => (set s, label)
  | .look l, label => (look l, label)
  | .group i p, label =>
      let (body, label) := build p label
      (group i body, label)
  | .seq p q, label =>
      let (first, label) := build p label
      let (second, label) := build q label
      (seq first second, label)
  | .alt p q, label =>
      let (first, next) := build p (label + 1)
      let (second, next) := build q next
      (alt label first second, next)
  | .rounds p 0 none greedy, label =>
      if p.nullable then
        let (body, next) := build p (label + 2)
        (option label greedy (loop1 (label + 1) greedy body), next)
      else
        let (body, next) := build p (label + 1)
        (loop label greedy body, next)
  | .rounds p (n + 1) none greedy, label =>
      let (front, label) := copies (build p) n label
      let (body, next) := build p (label + 1)
      (andThen front (loop1 label greedy body), next)
  | .rounds p least (some most) greedy, label =>
      let (front, label) := copies (build p) least label
      let (back, label) := optionals (build p) greedy (most - least) label
      (andThen front back, label)

/-- The machine of a pattern. -/
def ofPattern (p : Pattern) : Machine := (build p 0).1

/-- The greatest index of a group, zero if there is none. -/
def groupCount : Machine → Nat
  | empty | set _ | look _ => 0
  | group i m => max i m.groupCount
  | seq m n => max m.groupCount n.groupCount
  | alt _ m n => max m.groupCount n.groupCount
  | loop _ _ m => m.groupCount

/-- Whether a machine can only start at the start of the text. -/
def anchored : Machine → Bool
  | look l => l == .textStart
  | group _ m => m.anchored
  | seq m _ => m.anchored
  | alt _ m n => m.anchored && n.anchored
  | empty | set _ | loop .. => false

end Machine

/-- One way through a text: what lies around the place it has reached, and
    how wide each group was when it was last closed. -/
structure Thread where
  before : Option Char
  rest : List Char
  offset : Nat
  widths : List (Nat × Nat)
deriving DecidableEq, Repr

namespace Thread

/-- The thread at the start of a text. -/
def start (text : List Char) : Thread := ⟨none, text, 0, []⟩

/-- Read the next character. -/
def advance (t : Thread) (c : Char) (cs : List Char) : Thread :=
  { t with before := some c, rest := cs, offset := t.offset + c.utf8Size }

/-- Close a group that was opened at an offset. -/
def close (t : Thread) (index opened : Nat) : Thread :=
  { t with widths := (index, t.offset - opened) :: t.widths }

end Thread

/-- For each offset of the text, the points of choice that a search has
    passed there. -/
abbrev Trail := Std.TreeMap Nat (List Nat)

namespace Trail

/-- Whether a point of choice was passed at an offset. -/
def has (trail : Trail) (offset label : Nat) : Bool := (trail.getD offset []).contains label

/-- Add that a point of choice is passed at an offset. -/
def add (trail : Trail) (offset label : Nat) : Trail :=
  trail.insert offset (label :: trail.getD offset [])

theorem has_empty (offset label : Nat) : has ∅ offset label = false := by
  rw [has, Std.TreeMap.getD_emptyc]
  rfl

theorem has_add (trail : Trail) (offset label i l : Nat) :
    (trail.add offset label).has i l = (i == offset && l == label || trail.has i l) := by
  rw [has, add, Std.TreeMap.getD_insert]
  by_cases h : i = offset
  · subst h
    rw [if_pos (Std.compare_eq_iff_eq.mpr rfl), List.contains_cons, beq_self_eq_true,
      Bool.true_and]
    rfl
  · rw [if_neg fun e => h (Std.compare_eq_iff_eq.mp e).symm, beq_false_of_ne h, Bool.false_and,
      Bool.false_or]
    rfl

end Trail

/-- The search for a way to the end: the thread that gets there, or else the
    trail with all that was passed in vain. -/
abbrev Search := Trail → Except Trail Thread

namespace Search

/-- Try a first way, and a second one if that fails. -/
def orElse (f g : Search) : Search := fun trail =>
  match f trail with
  | .ok t => .ok t
  | .error trail => g trail

/-- Try the preferred of two ways first. -/
def prefer (first : Bool) (f g : Search) : Search :=
  if first then f.orElse g else g.orElse f

/-- Pass a point of choice, unless it was passed at this offset before. -/
def visit (offset label : Nat) (go : Search) : Search := fun trail =>
  if trail.has offset label then .error trail else go (trail.add offset label)

end Search

/-- What a thread does next. -/
abbrev Continuation := Thread → Search

/-- The rounds of a loop.  Every further round has read a character of the
    text that was left on entry, so that text bounds the rounds. -/
def Machine.roundsOf (label : Nat) (greedy : Bool) (body : Continuation → Continuation)
    (k : Continuation) : List Char → Continuation
  | [], t => .visit t.offset label (.prefer greedy (body (fun _ => .error) t) (k t))
  | _ :: fewer, t =>
      .visit t.offset label (.prefer greedy (body (roundsOf label greedy body k fewer) t) (k t))

/-- Run a machine on a thread and go on with the continuation. -/
def Machine.run : Machine → Continuation → Continuation
  | .empty, k, t => k t
  | .set s, k, t => fun trail =>
      match t.rest with
      | [] => .error trail
      | c :: cs => if s.has c then k (t.advance c cs) trail else .error trail
  | .look l, k, t => fun trail =>
      if l.holds t.before t.rest.head? then k t trail else .error trail
  | .group i m, k, t => m.run (fun u => k (u.close i t.offset)) t
  | .seq m n, k, t => m.run (n.run k) t
  | .alt label m n, k, t => .visit t.offset label ((m.run k t).orElse (n.run k t))
  | .loop label greedy m, k, t => roundsOf label greedy m.run k t.rest t

/-- A stretch of text that a pattern accepts, by byte offsets, with the
    widths of the groups inside. -/
structure Match where
  start : Nat
  length : Nat
  widths : List (Nat × Nat)
deriving DecidableEq, Repr

/-- The width of a group in a match; a group that took no part has none. -/
def Match.width (m : Match) (index : Nat) : Option Nat :=
  (m.widths.find? (·.1 == index)).map Prod.snd

/-- The match between the places of two threads. -/
def Match.between (t u : Thread) : Match := ⟨t.offset, u.offset - t.offset, u.widths⟩

/-- The first match at a place of the text or after it.  What failed from an
    earlier place fails from a later one as well, so the trail is kept from
    place to place. -/
def Machine.searchFrom (m : Machine) : List Char → Option Char → Nat → Trail → Option Match
  | [], before, offset, trail =>
      let t : Thread := ⟨before, [], offset, []⟩
      (m.run (fun u _ => .ok u) t trail).toOption.map (.between t)
  | c :: cs, before, offset, trail =>
      let t : Thread := ⟨before, c :: cs, offset, []⟩
      match m.run (fun u _ => .ok u) t trail with
      | .ok u => some (.between t u)
      | .error trail => m.searchFrom cs (some c) (offset + c.utf8Size) trail

/-- The first match that starts at the start of a text. -/
def Machine.matchStart (m : Machine) (text : List Char) : Option Match :=
  (m.run (fun u _ => .ok u) (.start text) ∅).toOption.map (.between (.start text))

/-- The leftmost match in a text; a machine that can only start at the start
    of the text is tried nowhere else. -/
def Machine.search (m : Machine) (text : List Char) : Option Match :=
  if m.anchored then m.matchStart text else m.searchFrom text none 0 ∅

end Offside.Regex

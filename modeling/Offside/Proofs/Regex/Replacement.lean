import Offside.Proofs.Regex.Search

/-! # Replacement — every match of a machine replaced

    In a text every match of a machine is replaced by a new text: the leftmost
    match first, then the leftmost one behind it, and so on.  No match is
    looked for in what has been put in.

    * `Machine.Replaces` is the relation between the text and what it becomes;
    * `Machine.Rewrites` is said of functions that go along with the places of
      a search, and `Rewrites.replaces` that they replace all matches. -/

namespace Offside.Regex

/-- A text, which stands behind a character or at the start, with every match of
    a machine replaced. -/
inductive Machine.Replaces (m : Machine) (new : List Char) :
    Option Char → List Char → List Char → Prop
  | none {before : Option Char} {text : List Char} : m.searchFrom text before 0 ∅ = none →
      Replaces m new before text text
  | found {before : Option Char} {text front taken back out : List Char} {x : Match} :
      text = front ++ (taken ++ back) → m.searchFrom text before 0 ∅ = some x →
      x.start = Text.bytes front → x.length = Text.bytes taken → taken ≠ [] →
      Replaces m new taken.getLast? back out →
      Replaces m new before text (front ++ new ++ out)

/-- What becomes of a search at one place, and of a function there: the search
    goes on behind the next character, which the function keeps, or it finds
    a match, for which the function puts a new text. -/
inductive Machine.Place (m : Machine) (new : List Char) (f : List Char → List Char)
    (inv : List Char → Nat → Trail → Prop) (before : Option Char) (c : Char) (cs : List Char)
    (offset : Nat) (trail : Trail) : Prop
  | pass {trail' : Trail} :
      m.run (fun u _ => .ok u) ⟨before, c :: cs, offset, []⟩ trail = .error trail' →
      inv cs (offset + c.utf8Size) trail' → f (c :: cs) = c :: f cs →
      Place m new f inv before c cs offset trail
  | take {taken back : List Char} {u : Thread} : c :: cs = taken ++ back → taken ≠ [] →
      m.run (fun u _ => .ok u) ⟨before, c :: cs, offset, []⟩ trail = .ok u →
      u.offset = offset + Text.bytes taken → f (c :: cs) = new ++ f back →
      Place m new f inv before c cs offset trail

/-- A function goes along with the search of a machine, as long as the trail is
    as it should be for the text that is left. -/
structure Machine.Rewrites (m : Machine) (new : List Char) (f : List Char → List Char)
    (inv : List Char → Nat → Trail → Prop) : Prop where
  start : ∀ text, inv text 0 ∅
  nil : f [] = []
  stop : ∀ before offset, Fails (m.run (fun u _ => .ok u) ⟨before, [], offset, []⟩)
  place : ∀ before c cs offset trail, inv (c :: cs) offset trail →
    m.Place new f inv before c cs offset trail

/-- What a text becomes is determined by its matches. -/
theorem Machine.Replaces.unique {m : Machine} {new text out out' : List Char}
    {before : Option Char} (h : m.Replaces new before text out)
    (h' : m.Replaces new before text out') : out = out' := by
  induction h generalizing out' with
  | none hnone =>
      cases h' with
      | none => rfl
      | found _ hsome => cases hnone.symm.trans hsome
  | @found before text front taken back out x htext hsome hstart hlength hne _ ih =>
      cases h' with
      | none hnone => cases hnone.symm.trans hsome
      | @found _ _ front' taken' back' out' _ htext' hsome' hstart' hlength' _ hlater =>
          obtain rfl := Option.some.inj (hsome.symm.trans hsome')
          -- the texts in front have as many bytes, and so have the matches
          have hcut := Text.cut_bytes_append front (taken ++ back)
          rw [← htext, ← hstart, hstart', htext', Text.cut_bytes_append] at hcut
          obtain ⟨rfl, hrest⟩ := Prod.mk.inj hcut
          have hcut' := Text.cut_bytes_append taken back
          rw [← hrest, ← hlength, hlength', Text.cut_bytes_append] at hcut'
          obtain ⟨rfl, rfl⟩ := Prod.mk.inj hcut'
          rw [ih hlater]

namespace Machine.Rewrites

variable {m : Machine} {new : List Char} {f : List Char → List Char}
  {inv : List Char → Nat → Trail → Prop}

/-- A search finds nothing and the function changes nothing, or it finds the
    first text for which the function puts the new one. -/
theorem search (h : m.Rewrites new f inv) {text : List Char} (before : Option Char)
    {offset : Nat} {trail : Trail} (hinv : inv text offset trail) :
    (m.searchFrom text before offset trail = none ∧ f text = text) ∨
      ∃ front taken back x, text = front ++ (taken ++ back) ∧ taken ≠ [] ∧
        m.searchFrom text before offset trail = some x ∧
        x.start = offset + Text.bytes front ∧ x.length = Text.bytes taken ∧
        f text = front ++ new ++ f back := by
  induction text generalizing before offset trail with
  | nil =>
      obtain ⟨trail', hrun⟩ := h.stop before offset trail
      refine .inl ⟨?_, h.nil⟩
      rw [searchFrom, hrun]
      rfl
  | cons c cs ih =>
      cases h.place before c cs offset trail hinv with
      | @pass trail' hrun hinv' hkeep =>
          have hsearch : m.searchFrom (c :: cs) before offset trail =
              m.searchFrom cs (some c) (offset + c.utf8Size) trail' := by
            rw [searchFrom, hrun]
          rw [hsearch, hkeep]
          rcases ih (some c) hinv' with ⟨hnone, hsame⟩ |
            ⟨front, taken, back, x, htext, hne, hsome, hstart, hlength, hf⟩
          · exact .inl ⟨hnone, congrArg (c :: ·) hsame⟩
          · refine .inr ⟨c :: front, taken, back, x, ?_, hne, hsome, ?_, hlength, ?_⟩
            · rw [htext]
              rfl
            · rw [hstart, Text.bytes_cons, Nat.add_assoc]
            · rw [hf]
              rfl
      | @take taken back u htext hne hrun hoffset hput =>
          refine .inr ⟨[], taken, back, .between ⟨before, c :: cs, offset, []⟩ u, htext, hne, ?_,
            rfl, ?_, hput⟩
          · rw [searchFrom, hrun]
          · show u.offset - offset = _
            rw [hoffset, Nat.add_sub_cancel_left]

/-- Such a function replaces all matches. -/
theorem replaces (h : m.Rewrites new f inv) (before : Option Char) (text : List Char) :
    m.Replaces new before text (f text) := by
  rcases h.search before (h.start text) with ⟨hnone, hsame⟩ |
    ⟨front, taken, back, x, rfl, hne, hsome, hstart, hlength, hf⟩
  · rw [hsame]
    exact .none hnone
  · rw [hf]
    rw [Nat.zero_add] at hstart
    have hshorter : back.length < (front ++ (taken ++ back)).length := by
      have hpos := List.length_pos_iff.mpr hne
      simp only [List.length_append]
      omega
    exact .found rfl hsome hstart hlength hne (replaces h taken.getLast? back)
termination_by text.length

end Machine.Rewrites

/-! ## Literal texts -/

/-- A function that goes along with a literal text replaces it wherever it
    stands. -/
theorem literal_replaces {old new : List Char} {f : List Char → List Char} (hold : old ≠ [])
    (hnil : f [] = []) (hput : ∀ back, f (old ++ back) = new ++ f back)
    (hkeep : ∀ c cs, ¬ old <+: c :: cs → f (c :: cs) = c :: f cs) (before : Option Char)
    (text : List Char) : (Machine.literal old).Replaces new before text (f text) := by
  have hrewrites : (Machine.literal old).Rewrites new f
      fun _ offset trail => trail.Below offset [] := by
    refine ⟨fun _ => Trail.below_empty 0 [], hnil, fun before offset => ?_, ?_⟩
    · refine (literal_refuses hold ?_).fails
      intro hprefix
      exact hold (List.prefix_nil.mp hprefix)
    · intro before c cs offset trail hbelow
      by_cases hfront : old <+: c :: cs
      · obtain ⟨back, hback⟩ := hfront
        have hfinds : Finds ((Machine.literal old).run (fun u _ => .ok u)
            ⟨before, c :: cs, offset, []⟩) offset [] _ :=
          literal_finds hold hback.symm fun _ _ => rfl
        refine .take hback.symm hold (hfinds trail hbelow) rfl ?_
        rw [← hback]
        exact hput back
      · refine .pass (literal_refuses hold hfront trail) ?_ (hkeep c cs hfront)
        exact hbelow.later (Nat.lt_add_of_pos_right c.utf8Size_pos) []
  exact hrewrites.replaces before text

end Offside.Regex

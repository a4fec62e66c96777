import Mathlib
import Offside.Regex.Machine

/-! # Searches — what a machine finds from where

    What a search finds depends on the points of choice that were passed
    before.  As long as a search goes forward only, those that it comes to
    are new, and the trail can be described by the offset alone.

    * `Trail.Below` bounds a trail by an offset;
    * `Finds`, `Refuses` and `Fails` are the outcomes of a search from such
      a trail or from any, and `FailsWithin` also tells what becomes of it;
    * `loop_set_finds` is the longest run of a set, and `search_of_finds`
      leads back to the match of a machine. -/

namespace Offside.Regex

/-- What a trail has passed lies before an offset, or at it and is one of
    these points of choice. -/
def Trail.Below (trail : Trail) (offset : Nat) (labels : List Nat) : Prop :=
  ∀ i l, trail.has i l = true → i < offset ∨ (i = offset ∧ l ∈ labels)

/-- A search finds a thread from every trail below an offset. -/
def Finds (f : Search) (offset : Nat) (labels : List Nat) (u : Thread) : Prop :=
  ∀ trail : Trail, trail.Below offset labels → f trail = .ok u

/-- A search gives up at once. -/
def Refuses (f : Search) : Prop := ∀ trail : Trail, f trail = .error trail

/-- A search finds nothing. -/
def Fails (f : Search) : Prop := ∀ trail : Trail, ∃ trail', f trail = .error trail'

/-- A search finds nothing, and what it adds to the trail lies at these offsets. -/
def FailsWithin (f : Search) (places : Nat → Prop) : Prop :=
  ∀ trail : Trail, ∃ trail', f trail = .error trail' ∧
    ∀ i l, trail'.has i l = true → trail.has i l = true ∨ places i

/-- The thread past a text, with what is left behind it. -/
def Thread.past (t : Thread) (text rest : List Char) : Thread :=
  { t with before := text.getLast?.or t.before, rest := rest, offset := t.offset + Text.bytes text }

/-- Literal characters one after the other. -/
def Machine.literal : List Char → Machine
  | [] => .empty
  | [c] => .set (.single c)
  | c :: d :: cs => .seq (.set (.single c)) (literal (d :: cs))

/-- A character of a set, and then as many more as there are. -/
def Machine.many (label : Nat) (s : Charset) : Machine := .seq (.set s) (.loop label true (.set s))

/-- A machine tied to the start of the text. -/
def Machine.tied (m : Machine) : Machine := .seq (.look .textStart) m

/-! ## Trails and threads -/

namespace Trail

theorem below_empty (offset : Nat) (labels : List Nat) : Below ∅ offset labels := by
  intro i l h
  rw [has_empty] at h
  exact nomatch h

theorem Below.later {trail : Trail} {offset offset' : Nat} {labels : List Nat}
    (h : trail.Below offset labels) (hlt : offset < offset') (labels' : List Nat) :
    trail.Below offset' labels' := by
  intro i l hil
  rcases h i l hil with hi | ⟨rfl, -⟩
  · exact .inl (Nat.lt_trans hi hlt)
  · exact .inl hlt

/-- A point of choice that is passed at the offset is one more of its labels. -/
theorem Below.add {trail : Trail} {offset : Nat} {labels : List Nat}
    (h : trail.Below offset labels) (label : Nat) :
    (trail.add offset label).Below offset (label :: labels) := by
  intro i l hil
  rw [has_add, Bool.or_eq_true, Bool.and_eq_true, beq_iff_eq, beq_iff_eq] at hil
  rcases hil with ⟨rfl, rfl⟩ | hil
  · exact .inr ⟨rfl, List.mem_cons_self ..⟩
  · exact (h i l hil).imp_right fun ⟨hi, hl⟩ => ⟨hi, List.mem_cons_of_mem _ hl⟩

end Trail

namespace Thread

theorem past_nil {t : Thread} {rest : List Char} (h : t.rest = rest) : t.past [] rest = t := by
  subst h
  rfl

@[simp] theorem past_past (t : Thread) (text text' rest rest' : List Char) :
    (t.past text rest).past text' rest' = t.past (text ++ text') rest' := by
  simp only [past, Text.bytes_append, Nat.add_assoc, List.getLast?_append, Option.or_assoc]

end Thread

/-! ## Outcomes -/

section Outcomes

variable {f g : Search} {offset label : Nat} {labels : List Nat} {u : Thread}
  {places : Nat → Prop}

theorem Refuses.fails (h : Refuses f) : Fails f := fun trail => ⟨trail, h trail⟩

theorem Refuses.failsWithin (h : Refuses f) (places : Nat → Prop) : FailsWithin f places := by
  intro trail
  exact ⟨trail, h trail, fun _ _ => .inl⟩

theorem FailsWithin.fails (h : FailsWithin f places) : Fails f := by
  intro trail
  obtain ⟨trail', hf, -⟩ := h trail
  exact ⟨trail', hf⟩

theorem Fails.failsWithin (h : Fails f) : FailsWithin f fun _ => True := by
  intro trail
  obtain ⟨trail', hf⟩ := h trail
  exact ⟨trail', hf, fun _ _ _ => .inr trivial⟩

theorem Finds.weaken {labels' : List Nat} (h : Finds f offset labels u)
    (hsub : ∀ l ∈ labels', l ∈ labels) : Finds f offset labels' u := fun trail hbelow =>
  h trail fun i l hil => (hbelow i l hil).imp_right fun ⟨hi, hl⟩ => ⟨hi, hsub l hl⟩

theorem Finds.orElse_left (h : Finds f offset labels u) : Finds (f.orElse g) offset labels u := by
  intro trail hbelow
  rw [Search.orElse, h trail hbelow]

theorem Finds.orElse_right (hf : Refuses f) (h : Finds g offset labels u) :
    Finds (f.orElse g) offset labels u := by
  intro trail hbelow
  rw [Search.orElse, hf trail]
  exact h trail hbelow

/-- What finds something from every trail does so behind what fails. -/
theorem Finds.orElse_of_fails (hf : Fails f) (hg : ∀ trail : Trail, g trail = .ok u) :
    Finds (f.orElse g) offset labels u := by
  intro trail _
  obtain ⟨trail', h⟩ := hf trail
  rw [Search.orElse, h]
  exact hg trail'

theorem FailsWithin.orElse (hf : FailsWithin f places) (hg : FailsWithin g places) :
    FailsWithin (f.orElse g) places := by
  intro trail
  obtain ⟨trail', h, hplaces⟩ := hf trail
  obtain ⟨trail'', h', hplaces'⟩ := hg trail'
  refine ⟨trail'', by rw [Search.orElse, h]; exact h', fun i l hil => ?_⟩
  rcases hplaces' i l hil with hil | hi
  · exact hplaces i l hil
  · exact .inr hi

/-- A point of choice that is not among the labels is passed. -/
theorem Finds.visit (hnew : label ∉ labels) (h : Finds f offset (label :: labels) u) :
    Finds (.visit offset label f) offset labels u := by
  intro trail hbelow
  -- nothing in the trail is at this offset with this label
  have hhas : trail.has offset label = false := by
    rw [Bool.eq_false_iff]
    intro hhas
    rcases hbelow offset label hhas with hlt | ⟨-, hmem⟩
    · exact Nat.lt_irrefl offset hlt
    · exact hnew hmem
  rw [Search.visit, hhas, if_neg Bool.false_ne_true]
  exact h _ (hbelow.add label)

theorem FailsWithin.visit (h : FailsWithin f places) (hplace : places offset) :
    FailsWithin (.visit offset label f) places := by
  intro trail
  rw [Search.visit]
  split
  · exact ⟨trail, rfl, fun _ _ => .inl⟩
  · obtain ⟨trail', hf, hplaces⟩ := h (trail.add offset label)
    refine ⟨trail', hf, fun i l hil => ?_⟩
    rcases hplaces i l hil with hil | hi
    · rw [Trail.has_add, Bool.or_eq_true, Bool.and_eq_true, beq_iff_eq] at hil
      rcases hil with ⟨rfl, -⟩ | hil
      · exact .inr hplace
      · exact .inl hil
    · exact .inr hi

end Outcomes

/-! ## Single characters -/

variable {k : Continuation} {t u : Thread} {s : Charset} {label : Nat} {labels : List Nat}

theorem run_set (s : Charset) (k : Continuation) (t : Thread) (trail : Trail) :
    (Machine.set s).run k t trail =
      match t.rest with
      | [] => .error trail
      | c :: cs => if s.has c then k (t.past [c] cs) trail else .error trail := rfl

theorem has_single_self (c : Char) : (Charset.single c).has c = true := by
  rw [Charset.has_single, beq_self_eq_true]

theorem set_finds {c : Char} {cs : List Char} (ht : t.rest = c :: cs) (hc : s.has c = true)
    (h : Finds (k (t.past [c] cs)) (t.offset + c.utf8Size) [] u) :
    Finds ((Machine.set s).run k t) t.offset labels u := by
  intro trail hbelow
  simp only [run_set, ht, hc, if_true]
  exact h trail (hbelow.later (Nat.lt_add_of_pos_right c.utf8Size_pos) [])

/-- A set takes no other character, and what it takes is given back. -/
theorem set_refuses
    (h : ∀ c cs, t.rest = c :: cs → s.has c = true → Refuses (k (t.past [c] cs))) :
    Refuses ((Machine.set s).run k t) := by
  intro trail
  rw [run_set]
  split
  · rfl
  next c cs hcs =>
    split
    next hc => exact h c cs hcs hc trail
    next => rfl

theorem set_failsWithin {places : Nat → Prop}
    (h : ∀ c cs, t.rest = c :: cs → s.has c = true → FailsWithin (k (t.past [c] cs)) places) :
    FailsWithin ((Machine.set s).run k t) places := by
  intro trail
  rw [run_set]
  split
  · exact ⟨trail, rfl, fun _ _ => .inl⟩
  next c cs hcs =>
    split
    next hc => exact h c cs hcs hc trail
    next => exact ⟨trail, rfl, fun _ _ => .inl⟩

theorem set_fails (h : ∀ c cs, t.rest = c :: cs → s.has c = true → Fails (k (t.past [c] cs))) :
    Fails ((Machine.set s).run k t) :=
  (set_failsWithin fun c cs hcs hc => (h c cs hcs hc).failsWithin).fails

theorem literal_finds {text rest : List Char} (hne : text ≠ []) (ht : t.rest = text ++ rest)
    (h : Finds (k (t.past text rest)) (t.offset + Text.bytes text) [] u) :
    Finds ((Machine.literal text).run k t) t.offset labels u := by
  induction text generalizing t labels with
  | nil => exact absurd rfl hne
  | cons c cs ih =>
      have hc := has_single_self c
      cases cs with
      | nil => exact set_finds ht hc h
      | cons d ds =>
          refine set_finds (k := (Machine.literal (d :: ds)).run k) ht hc ?_
          refine ih (t := t.past [c] (d :: ds ++ rest)) (List.cons_ne_nil d ds) rfl ?_
          rw [Thread.past_past]
          rw [Text.bytes_cons, ← Nat.add_assoc] at h
          exact h

/-- Literal characters are refused where others stand. -/
theorem literal_refuses {text : List Char} (hne : text ≠ []) (h : ¬ text <+: t.rest) :
    Refuses ((Machine.literal text).run k t) := by
  induction text generalizing t with
  | nil => exact absurd rfl hne
  | cons c cs ih =>
      have hhead : ∀ d ds, t.rest = d :: ds → (Charset.single c).has d = true →
          t.rest = c :: ds := by
        intro d ds hrest hd
        rw [Charset.has_single, beq_iff_eq] at hd
        rw [hrest, hd]
      cases cs with
      | nil =>
          apply set_refuses
          intro d ds hrest hd
          exact absurd ⟨ds, (hhead d ds hrest hd).symm⟩ h
      | cons c' cs' =>
          refine set_refuses (k := (Machine.literal (c' :: cs')).run k) ?_
          intro d ds hrest hd
          refine ih (t := t.past [d] ds) (List.cons_ne_nil c' cs') ?_
          intro hfront
          rw [hhead d ds hrest hd] at h
          exact h (List.cons_prefix_cons.mpr ⟨rfl, hfront⟩)

/-! ## Loops -/

/-- A loop makes one more round if the rest of the search finds something
    from there. -/
theorem rounds_again {body : Continuation → Continuation} {x : Char} {fewer : List Char}
    (hnew : label ∉ labels)
    (h : Finds (body (Machine.roundsOf label true body k fewer) t) t.offset (label :: labels) u) :
    Finds (Machine.roundsOf label true body k (x :: fewer) t) t.offset labels u :=
  .visit hnew h.orElse_left

/-- A loop stops where its body takes nothing. -/
theorem rounds_stop {body : Continuation → Continuation} {bound : List Char}
    (hnew : label ∉ labels) (hbody : ∀ k, Refuses (body k t))
    (h : Finds (k t) t.offset (label :: labels) u) :
    Finds (Machine.roundsOf label true body k bound t) t.offset labels u := by
  cases bound with
  | nil => exact .visit hnew (.orElse_right (hbody _) h)
  | cons x fewer => exact .visit hnew (.orElse_right (hbody _) h)

/-- A loop over a set takes the longest run of its characters if the rest of
    the search finds something from there. -/
theorem loop_set_finds (hnew : label ∉ labels)
    (h : Finds (k (t.past (t.rest.takeWhile s.has) (t.rest.dropWhile s.has)))
      (t.offset + Text.bytes (t.rest.takeWhile s.has)) (label :: labels) u) :
    Finds ((Machine.loop label true (.set s)).run k t) t.offset labels u := by
  suffices hrounds : ∀ bound, t.rest.length ≤ bound.length →
      Finds (Machine.roundsOf label true (Machine.set s).run k bound t) t.offset labels u from
    hrounds t.rest (Nat.le_refl _)
  intro bound
  induction bound generalizing t labels with
  | nil =>
      intro hbound
      have hrest : t.rest = [] := List.eq_nil_of_length_eq_zero (Nat.le_zero.mp hbound)
      rw [hrest, List.takeWhile_nil, List.dropWhile_nil, Thread.past_nil hrest] at h
      exact rounds_stop hnew (fun k => set_refuses fun c cs hcs => nomatch hrest.symm.trans hcs) h
  | cons x fewer ih =>
      intro hbound
      by_cases hrun : ∃ c cs, t.rest = c :: cs ∧ s.has c = true
      · obtain ⟨c, cs, hcs, hc⟩ := hrun
        rw [hcs, List.takeWhile_cons_of_pos hc, List.dropWhile_cons_of_pos hc] at h
        -- the character moves the offset, so the label is free again
        refine rounds_again hnew (set_finds hcs hc (ih List.not_mem_nil ?_ ?_))
        · rw [Thread.past_past]
          rw [Text.bytes_cons, ← Nat.add_assoc] at h
          exact h.weaken fun l hl => List.mem_singleton.mp hl ▸ List.mem_cons_self ..
        · rw [hcs] at hbound
          exact Nat.le_of_succ_le_succ hbound
      · have hnone : ∀ c cs, t.rest = c :: cs → s.has c = true → False :=
          fun c cs hcs hc => hrun ⟨c, cs, hcs, hc⟩
        have htake : t.rest.takeWhile s.has = [] := by
          cases hrest : t.rest with
          | nil => rfl
          | cons c cs => exact List.takeWhile_cons_of_neg fun hc => hnone c cs hrest hc
        have hdrop : t.rest.dropWhile s.has = t.rest := by
          have happend := List.takeWhile_append_dropWhile (p := s.has) (l := t.rest)
          rw [htake] at happend
          exact happend
        rw [htake, hdrop, Thread.past_nil rfl] at h
        exact rounds_stop hnew
          (fun k => set_refuses fun c cs hcs hc => absurd hc (hnone c cs hcs)) h

theorem many_finds {c : Char} {cs : List Char} (ht : t.rest = c :: cs) (hc : s.has c = true)
    (h : Finds (k (t.past (t.rest.takeWhile s.has) (t.rest.dropWhile s.has)))
      (t.offset + Text.bytes (t.rest.takeWhile s.has)) [label] u) :
    Finds ((Machine.many label s).run k t) t.offset labels u := by
  rw [ht, List.takeWhile_cons_of_pos hc, List.dropWhile_cons_of_pos hc, Text.bytes_cons,
    ← Nat.add_assoc] at h
  refine set_finds (k := (Machine.loop label true (.set s)).run k) ht hc ?_
  refine loop_set_finds (t := t.past [c] cs) List.not_mem_nil ?_
  rw [Thread.past_past]
  exact h

theorem many_refuses (h : ∀ c cs, t.rest = c :: cs → s.has c = false) :
    Refuses ((Machine.many label s).run k t) :=
  set_refuses (k := (Machine.loop label true (.set s)).run k) fun c cs hcs hc =>
    absurd hc (by rw [h c cs hcs]; exact Bool.false_ne_true)

/-- A loop over a set fails if nothing is found from any place that it can
    come to, and it leaves its trail at these places. -/
theorem loop_set_failsWithin {places : Nat → Prop}
    (h : ∀ text rest, t.rest = text ++ rest → (∀ c ∈ text, s.has c = true) →
      FailsWithin (k (t.past text rest)) places ∧ places (t.offset + Text.bytes text)) :
    FailsWithin ((Machine.loop label true (.set s)).run k t) places := by
  suffices hrounds : ∀ bound,
      FailsWithin (Machine.roundsOf label true (Machine.set s).run k bound t) places from
    hrounds t.rest
  intro bound
  obtain ⟨hstop, hplace⟩ := h [] t.rest rfl (fun _ hc => nomatch hc)
  induction bound generalizing t with
  | nil =>
      refine .visit (.orElse ?_ hstop) hplace
      exact set_failsWithin fun c cs _ _ => Refuses.failsWithin (fun _ => rfl) places
  | cons x fewer ih =>
      refine .visit (.orElse (set_failsWithin ?_) hstop) hplace
      intro c cs hcs hc
      have hmore : ∀ text rest, cs = text ++ rest → (∀ d ∈ text, s.has d = true) →
          FailsWithin (k ((t.past [c] cs).past text rest)) places ∧
            places ((t.past [c] cs).offset + Text.bytes text) := by
        intro text rest hsplit htext
        have hfront := h ([c] ++ text) rest (by rw [hcs, hsplit]; rfl) (by
          intro d hd
          rcases List.mem_cons.mp hd with rfl | hd
          · exact hc
          · exact htext d hd)
        rw [Text.bytes_append, ← Nat.add_assoc] at hfront
        rw [Thread.past_past]
        exact hfront
      obtain ⟨hstop', hplace'⟩ := hmore [] cs rfl fun _ hd => nomatch hd
      exact ih hmore hstop' hplace'

theorem loop_set_fails
    (h : ∀ text rest, t.rest = text ++ rest → (∀ c ∈ text, s.has c = true) →
      Fails (k (t.past text rest))) :
    Fails ((Machine.loop label true (.set s)).run k t) := by
  have hwithin : FailsWithin ((Machine.loop label true (.set s)).run k t) fun _ => True :=
    loop_set_failsWithin fun text rest hsplit htext =>
      ⟨(h text rest hsplit htext).failsWithin, trivial⟩
  exact hwithin.fails

/-! ## Matches -/

theorem search_tied (m : Machine) (text : List Char) :
    m.tied.search text =
      (m.run (fun u _ => .ok u) (.start text) ∅).toOption.map (.between (.start text)) := rfl

/-- What is found from the start of a text is the match of a machine that is
    tied to it. -/
theorem search_of_finds {m : Machine} {text : List Char}
    (h : Finds (m.run (fun u _ => .ok u) (.start text)) 0 [] u) :
    m.tied.search text = some (.between (.start text) u) := by
  rw [search_tied, h ∅ (Trail.below_empty 0 [])]
  rfl

theorem search_of_fails {m : Machine} {text : List Char}
    (h : Fails (m.run (fun u _ => .ok u) (.start text))) : m.tied.search text = none := by
  obtain ⟨trail, hfail⟩ := h ∅
  rw [search_tied, hfail]
  rfl

end Offside.Regex

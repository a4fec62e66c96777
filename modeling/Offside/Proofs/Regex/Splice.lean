import Mathlib
import Offside.Regex.Reader

/-! # Splices — a pattern inside the group that ties it

    Patterns are tied to the place of a search by text: a caret and an open
    group are put in front of them, and a closing parenthesis behind.  Where
    the text in between is a pattern of its own, the parenthesis closes the
    group that was opened for it, since nothing inside is left for it to
    close.  So the pattern is read as if it stood alone.

    * `Unmoved` is said of a reader that does not see the parenthesis;
    * `Reading.within` is a reading inside the group, and `run_within` says
      that it goes on as it would outside;
    * `read_splice` is what comes of a whole pattern. -/

namespace Offside.Regex

/-- A reader that takes the same from a text when a closing parenthesis stands
    behind it. -/
def Unmoved {α : Type} (read : List Char → Option (α × List Char)) : Prop :=
  ∀ {cs : List Char} {a : α} {rest : List Char},
    read cs = some (a, rest) → read (cs ++ [')']) = some (a, rest ++ [')'])

/-- Read the name of a class and what ends it. -/
def readClassName (fold : Charset → Charset) (negated : Bool) (cs : List Char) :
    Option (Charset × List Char) :=
  match cs.span (· != ':') with
  | (name, ':' :: ']' :: rest) =>
      (asciiClass? name).map fun s => (if negated then .compl (fold s) else fold s, rest)
  | _ => none

/-- Read a named class where one follows an opening bracket. -/
def readNamed (fold : Charset → Charset) : List Char → Option (Charset × List Char)
  | ':' :: rest => readNamedClass fold rest
  | _ => none

/-- Read the start of a class behind its negation. -/
def openMembers (negated : Bool) (cs : List Char) : OpenClass × List Char :=
  let (hyphens, cs) := cs.span (· == '-')
  match hyphens.map fun c => (⟨Charset.single c, 0⟩ : Nested Charset), cs with
  | [], ']' :: cs => (⟨negated, none, [⟨.single ']', 0⟩]⟩, cs)
  | members, cs => (⟨negated, none, members⟩, cs)

/-- The group that ties a pattern to the start of the text. -/
def OpenGroup.tie : OpenGroup := ⟨none, Level.push (.empty .initial) ⟨.look .textStart, 0⟩⟩

/-- A reading inside one more group. -/
def Reading.within (r : Reading) (g : OpenGroup) : Reading := { r with opened := r.opened ++ [g] }

/-! ## A parenthesis behind a text -/

variable {cs front back : List Char} {p : Char → Bool}

/-- Where a stretch ends inside a text, it ends there in a longer one. -/
theorem span_append (h : cs.span p = (front, back)) (hback : back ≠ []) (more : List Char) :
    (cs ++ more).span p = (front, back ++ more) := by
  rw [List.span_eq_takeWhile_dropWhile] at h ⊢
  induction cs generalizing front with
  | nil =>
      cases h
      exact absurd rfl hback
  | cons c cs ih =>
      cases hc : p c with
      | true =>
          rw [List.takeWhile_cons_of_pos hc, List.dropWhile_cons_of_pos hc] at h
          obtain ⟨rfl, hdrop⟩ := Prod.mk.inj h
          have hmore := ih (Prod.ext rfl hdrop)
          rw [List.cons_append, List.takeWhile_cons_of_pos hc, List.dropWhile_cons_of_pos hc]
          obtain ⟨htake, hdrop'⟩ := Prod.mk.inj hmore
          rw [htake, hdrop']
      | false =>
          have hstop : ¬ p c = true := Bool.eq_false_iff.mp hc
          rw [List.takeWhile_cons_of_neg hstop, List.dropWhile_cons_of_neg hstop] at h
          cases h
          rw [List.cons_append, List.takeWhile_cons_of_neg hstop, List.dropWhile_cons_of_neg hstop]

/-- A stretch that the parenthesis is not part of ends before it. -/
theorem span_closed (h : cs.span p = (front, back)) (hp : p ')' = false) :
    (cs ++ [')']).span p = (front, back ++ [')']) := by
  by_cases hback : back = []
  · subst hback
    rw [List.span_eq_takeWhile_dropWhile] at h ⊢
    obtain ⟨rfl, hdrop⟩ := Prod.mk.inj h
    have hall := List.dropWhile_eq_nil_iff.mp hdrop
    rw [List.takeWhile_append_of_pos hall, List.dropWhile_append_of_pos hall,
      List.takeWhile_eq_self_iff.mpr hall]
    simp [hp]
  · exact span_append h hback _

/-- A stretch that the parenthesis is part of takes it too. -/
theorem span_all (h : cs.span p = (front, [])) (hp : p ')' = true) :
    (cs ++ [')']).span p = (cs ++ [')'], []) := by
  rw [List.span_eq_takeWhile_dropWhile] at h ⊢
  have hall := List.dropWhile_eq_nil_iff.mp (Prod.mk.inj h).2
  have hall' : ∀ x ∈ cs ++ [')'], p x = true :=
    List.forall_mem_append.mpr ⟨hall, List.forall_mem_singleton.mpr hp⟩
  rw [List.takeWhile_eq_self_iff.mpr hall', List.dropWhile_eq_nil_iff.mpr hall']

theorem cons_ne_closed {c : Char} (hc : c ≠ ')') (h : ∀ more, cs ≠ c :: more) :
    ∀ more, cs ++ [')'] ≠ c :: more := by
  intro more heq
  cases cs with
  | nil => exact hc (List.cons.inj heq).1.symm
  | cons d ds => exact h ds (congrArg (· :: ds) (List.cons.inj heq).1)

theorem cons_cons_ne_closed {c d : Char} (hc : c ≠ ')') (hd : d ≠ ')')
    (h : ∀ more, cs ≠ c :: d :: more) : ∀ more, cs ++ [')'] ≠ c :: d :: more := by
  intro more heq
  cases cs with
  | nil => exact hc (List.cons.inj heq).1.symm
  | cons x xs =>
      obtain ⟨rfl, hxs⟩ := List.cons.inj heq
      exact cons_ne_closed hd (fun more' heq' => h more' (congrArg (x :: ·) heq')) more hxs

/-! ## Escapes -/

theorem unmoved_readHex (digits : Nat) : Unmoved (readHex digits) := by
  intro cs a rest h
  unfold readHex at h
  split at h
  next cs =>
    split at h
    next ds x rest' hspan =>
      unfold readHex
      simp only [List.cons_append]
      rw [span_append hspan (List.cons_ne_nil _ _)]
      simp only [List.cons_append]
      split at h
      · cases h
      · next hlen =>
        rw [if_neg hlen]
        obtain ⟨c, hc, hrest⟩ := Option.map_eq_some_iff.mp h
        cases hrest
        rw [hc]
        rfl
    next => cases h
  next hother =>
    split at h
    next => cases h
    next hlen =>
      have hle : digits ≤ cs.length := Nat.not_lt.mp hlen
      have hlen' : ¬ (cs ++ [')']).length < digits := by
        rw [List.length_append]
        omega
      unfold readHex
      split
      next cs' heq => exact absurd heq (cons_ne_closed (by decide) hother _)
      next =>
        rw [if_neg hlen', List.take_append_of_le_length hle, List.drop_append_of_le_length hle]
        obtain ⟨c, hc, hrest⟩ := Option.map_eq_some_iff.mp h
        cases hrest
        rw [hc]
        rfl

theorem unmoved_readEdge : Unmoved readEdge := by
  intro cs a rest h
  unfold readEdge at h ⊢
  split at h
  next => cases h
  next rest' hne hspan =>
    cases h
    rw [span_closed hspan (by decide)]
    obtain ⟨x, xs, rfl⟩ := List.exists_cons_of_ne_nil hne
    rfl
  next name rest' hne hspan =>
    rw [span_append hspan (List.cons_ne_nil _ _)]
    obtain ⟨c, cs', rfl⟩ := List.exists_cons_of_ne_nil hne
    obtain ⟨look, hlook, hrest⟩ := Option.map_eq_some_iff.mp h
    cases hrest
    show Option.map _ (edge? (c :: cs')) = _
    rw [hlook]
    rfl
  next => cases h

/-- A reader whose result is put into another form. -/
theorem Unmoved.map {α β : Type} {read : List Char → Option (α × List Char)} (h : Unmoved read)
    {f : α → β} {cs rest : List Char} {b : β}
    (hread : (read cs).map (fun x => (f x.1, x.2)) = some (b, rest)) :
    (read (cs ++ [')'])).map (fun x => (f x.1, x.2)) = some (b, rest ++ [')']) := by
  obtain ⟨⟨a, rest'⟩, ha, heq⟩ := Option.map_eq_some_iff.mp hread
  cases heq
  rw [h ha]
  rfl

theorem unmoved_readEscape : Unmoved readEscape := by
  intro cs a rest h
  -- an edge, a code point and a character that stands for itself are read on for; every other
  -- escape is a character alone
  unfold readEscape at h
  split at h
  case h_1 => cases h
  case h_16 => exact unmoved_readEdge.map h
  case h_17 hbrace =>
    cases h
    cases rest with
    | nil => rfl
    | cons d ds =>
        rw [List.cons_append, readEscape]
        rintro cs' hcons
        exact hbrace ds (congrArg (· :: ds) (List.cons.inj hcons).1)
  case h_21 => exact Unmoved.map (unmoved_readHex _) h
  case h_22 => exact Unmoved.map (unmoved_readHex _) h
  case h_23 => exact Unmoved.map (unmoved_readHex _) h
  case h_24 hb _ _ _ _ _ _ =>
    split at h
    next hescapable =>
      cases h
      rw [List.cons_append, readEscape, if_pos hescapable]
      all_goals first
        | assumption
        | exact fun _ hc _ => hb hc
    next => cases h
  all_goals
    cases h
    rfl

/-! ## Classes -/

theorem unmoved_readClassItem : Unmoved readClassItem := by
  intro cs a rest h
  unfold readClassItem at h
  split at h
  next => cases h
  next => exact unmoved_readEscape h
  next c cs hc =>
    cases h
    rw [List.cons_append, readClassItem]
    exact hc

theorem unmoved_readMember : Unmoved readMember := by
  intro cs a rest h
  unfold readMember at h
  split at h
  next => cases h
  next first rest' hitem =>
    unfold readMember
    rw [unmoved_readClassItem hitem]
    dsimp only at h ⊢
    split at h
    next =>
      dsimp only [List.cons_append]
      cases first <;> cases h <;> rfl
    next =>
      dsimp only [List.cons_append]
      cases first <;> cases h <;> rfl
    next more hbracket hhyphen =>
      split at h
      next lo hi rest'' hmore =>
        split at h
        next hle =>
          cases h
          cases more with
          | nil => cases hmore
          | cons e es =>
              dsimp only [List.cons_append]
              split
              next heq =>
                have he : e = ']' := (List.cons.inj (List.cons.inj heq).2).1
                exact absurd rfl (he ▸ hbracket es)
              next heq =>
                have he : e = '-' := (List.cons.inj (List.cons.inj heq).2).1
                exact absurd rfl (he ▸ hhyphen es)
              next more' heq =>
                obtain rfl := (List.cons.inj heq).2
                have hitem' := unmoved_readClassItem hmore
                rw [List.cons_append] at hitem'
                rw [hitem']
                exact if_pos hle
              next hno => exact absurd rfl (hno _)
        next => cases h
      next => cases h
    next _ _ hother =>
      split
      next heq => exact absurd heq (cons_ne_closed (by decide) hother _)
      next heq => exact absurd heq (cons_ne_closed (by decide) hother _)
      next heq => exact absurd heq (cons_ne_closed (by decide) hother _)
      next => cases first <;> cases h <;> rfl

theorem caret_cases (cs : List Char) : (∃ more, cs = '^' :: more) ∨ ∀ more, cs ≠ '^' :: more := by
  cases cs with
  | nil => exact .inr nofun
  | cons c cs =>
      by_cases hc : c = '^'
      · exact .inl ⟨cs, congrArg (· :: cs) hc⟩
      · exact .inr fun more heq => hc (List.cons.inj heq).1

theorem readNamedClass_plain {fold : Charset → Charset} {cs : List Char}
    (h : ∀ more, cs ≠ '^' :: more) : readNamedClass fold cs = readClassName fold false cs := by
  unfold readNamedClass
  split
  next heq =>
    split at heq
    next => exact absurd rfl (h _)
    next => cases heq; rfl

theorem openClass_plain {cs : List Char} (h : ∀ more, cs ≠ '^' :: more) :
    openClass cs = openMembers false cs := by
  unfold openClass
  split
  next heq =>
    split at heq
    next => exact absurd rfl (h _)
    next => cases heq; rfl

theorem readClassName_closed (fold : Charset → Charset) (negated : Bool) (cs : List Char) :
    readClassName fold negated (cs ++ [')']) =
      (readClassName fold negated cs).map fun (s, rest) => (s, rest ++ [')']) := by
  unfold readClassName
  cases hspan : cs.span (· != ':') with
  | mk name back =>
      by_cases hback : back = []
      · subst hback
        rw [span_all hspan (by decide)]
        rfl
      · rw [span_append hspan hback]
        match back with
        | [c] => by_cases hc : c = ':' <;> simp [hc]
        | c :: d :: ds =>
            by_cases hc : c = ':' <;> by_cases hd : d = ']' <;> simp [hc, hd, Function.comp_def]

theorem openMembers_closed (negated : Bool) (cs : List Char) :
    openMembers negated (cs ++ [')']) =
      ((openMembers negated cs).1, (openMembers negated cs).2 ++ [')']) := by
  unfold openMembers
  cases hspan : cs.span (· == '-') with
  | mk hyphens back =>
      rw [span_closed hspan (by decide)]
      dsimp only
      cases hyphens with
      | nil =>
          cases back with
          | nil => rfl
          | cons c back =>
              by_cases hc : c = ']'
              · subst hc
                rfl
              · simp [hc]
      | cons x xs => rfl

/-- What stands behind the name of a class ends it or does not, with a closing
    parenthesis behind it as well. -/
theorem readNamedClass_closed (fold : Charset → Charset) (cs : List Char) :
    readNamedClass fold (cs ++ [')']) =
      (readNamedClass fold cs).map fun (s, rest) => (s, rest ++ [')']) := by
  rcases caret_cases cs with ⟨more, rfl⟩ | hplain
  · exact readClassName_closed fold true more
  · rw [readNamedClass_plain hplain, readNamedClass_plain (cons_ne_closed (by decide) hplain)]
    exact readClassName_closed fold false cs

theorem openClass_closed (cs : List Char) :
    openClass (cs ++ [')']) = ((openClass cs).1, (openClass cs).2 ++ [')']) := by
  rcases caret_cases cs with ⟨more, rfl⟩ | hplain
  · exact openMembers_closed true more
  · rw [openClass_plain hplain, openClass_plain (cons_ne_closed (by decide) hplain)]
    exact openMembers_closed false cs

theorem readNamed_closed (fold : Charset → Charset) (cs : List Char) :
    readNamed fold (cs ++ [')']) = (readNamed fold cs).map fun (s, rest) => (s, rest ++ [')']) := by
  cases cs with
  | nil => rfl
  | cons c cs =>
      by_cases hc : c = ':'
      · subst hc
        exact readNamedClass_closed fold cs
      · simp [readNamed, hc]

theorem readClass_bracket (fold : Charset → Charset) (fuel : Nat) (inner : OpenClass)
    (outer : List OpenClass) (cs : List Char) :
    readClass fold (fuel + 1) inner outer ('[' :: cs) =
      match readNamed fold cs with
      | some (s, rest) => readClass fold fuel (inner.add ⟨s, 0⟩) outer rest
      | none => readClass fold fuel (openClass cs).1 (inner :: outer) (openClass cs).2 := rfl

theorem readClass_closed (fold : Charset → Charset) {fuel fuel' : Nat} (hfuel : fuel ≤ fuel')
    {inner : OpenClass} {outer : List OpenClass} {cs rest : List Char} {a : Nested Charset}
    (h : readClass fold fuel inner outer cs = some (a, rest)) :
    readClass fold fuel' inner outer (cs ++ [')']) = some (a, rest ++ [')']) := by
  induction fuel generalizing fuel' inner outer cs with
  | zero => cases h
  | succ fuel ih =>
      obtain ⟨fuel', rfl⟩ := Nat.exists_eq_add_of_le' (Nat.le_of_add_left_le hfuel)
      have hle : fuel ≤ fuel' := Nat.le_of_succ_le_succ hfuel
      unfold readClass at h
      dsimp only at h
      split at h
      next => cases h
      next rest' =>
        rw [List.cons_append, readClass_bracket, readNamed_closed]
        change (match readNamed fold rest' with
          | some (s, rest) => readClass fold fuel (inner.add ⟨s, 0⟩) outer rest
          | none => readClass fold fuel (openClass rest').1 (inner :: outer) (openClass rest').2) =
            some (a, rest) at h
        split at h
        next s rest'' heq =>
          rw [heq]
          exact ih hle h
        next heq =>
          rw [heq]
          dsimp only [Option.map_none]
          rw [openClass_closed]
          exact ih hle h
      next rest' =>
        split at h
        next =>
          cases h
          rfl
        next => exact ih hle h
      next => exact ih hle h
      next => exact ih hle h
      next => exact ih hle h
      next hnil hopen hclose hand hminus htilde =>
        split at h
        next => cases h
        next s rest' hmember =>
          rw [readClass]
          · rw [unmoved_readMember hmember]
            exact ih hle h
          · exact List.append_ne_nil_of_right_ne_nil cs (List.cons_ne_nil _ _)
          · exact cons_ne_closed (by decide) hopen
          · exact cons_ne_closed (by decide) hclose
          · exact cons_cons_ne_closed (by decide) (by decide) hand
          · exact cons_cons_ne_closed (by decide) (by decide) hminus
          · exact cons_cons_ne_closed (by decide) (by decide) htilde

/-! ## Flags and repetitions -/

theorem readFlags_closed (flags : Flags) {cs rest : List Char} {f : Flags} {any : Bool}
    (h : readFlags flags cs = some (f, any, rest)) :
    readFlags flags (cs ++ [')']) = some (f, any, rest ++ [')']) := by
  unfold readFlags at h ⊢
  cases hspan : cs.span (fun c => c != ':' && c != ')') with
  | mk letters back =>
      rw [hspan] at h
      dsimp only at h
      split at h
      next => cases h
      next f' hletters =>
        split at h
        next => cases h
        next hsome =>
          have hback : back ≠ [] := by
            rintro rfl
            exact hsome rfl
          rw [span_append hspan hback]
          dsimp only
          rw [hletters]
          dsimp only
          rw [Bool.or_eq_true, not_or, Bool.not_eq_true, Bool.not_eq_true] at hsome
          cases h
          rw [hsome.2, Bool.or_false, if_neg]
          exact fun hempty => List.append_ne_nil_of_right_ne_nil _ (List.cons_ne_nil _ _)
            (List.isEmpty_iff.mp hempty)

theorem readCount_closed (cs : List Char) :
    readCount (cs ++ [')']) = (readCount cs).map fun (n, rest) => (n, rest ++ [')']) := by
  have hdrop : ∀ cs : List Char, (cs ++ [')']).dropWhile Unicode.isSpace =
      cs.dropWhile Unicode.isSpace ++ [')'] := by
    intro cs
    have hspan : cs.span Unicode.isSpace =
        (cs.takeWhile Unicode.isSpace, cs.dropWhile Unicode.isSpace) :=
      List.span_eq_takeWhile_dropWhile ..
    have hclosed := span_closed hspan (by decide)
    rw [List.span_eq_takeWhile_dropWhile] at hclosed
    exact (Prod.mk.inj hclosed).2
  unfold readCount
  rw [hdrop]
  cases hspan : (cs.dropWhile Unicode.isSpace).span Text.isDecimal with
  | mk ds back =>
      rw [span_closed hspan (by decide)]
      dsimp only
      rw [hdrop]
      split
      · rfl
      · rfl

theorem unmoved_readBounds : Unmoved readBounds := by
  intro cs a rest h
  unfold readBounds at h ⊢
  rw [readCount_closed]
  split at h
  next => cases h
  next least rest' hcount =>
    cases h
    rw [hcount]
    rfl
  next least rest' hcount =>
    cases h
    rw [hcount]
    rfl
  next least rest' hother hcount =>
    rw [hcount]
    dsimp only [Option.map_some]
    split at h
    next most rest'' hcount' =>
      split at h
      next hle =>
        cases h
        cases rest' with
        | nil => cases hcount'
        | cons d ds =>
            have hd : d ≠ '\x7d' := by
              rintro rfl
              exact hother ds rfl
            have hcount'' := readCount_closed (d :: ds)
            rw [hcount', List.cons_append] at hcount''
            simp [hd, hcount'', hle]
      next => cases h
    next => cases h
  next => cases h

/-! ## The reader -/

namespace Reading

variable {r r' : Reading} {g : OpenGroup} {rest : List Char}

theorem openNamed_within (h : r.openNamed cs = some (r', rest)) :
    (r.within g).openNamed (cs ++ [')']) = some (r'.within g, rest ++ [')']) := by
  unfold openNamed at h ⊢
  split at h
  next name x rest' hspan =>
    rw [span_append hspan (List.cons_ne_nil _ _)]
    dsimp only [List.cons_append]
    split at h
    next hname =>
      cases h
      exact if_pos hname
    next => cases h
  next => cases h

theorem readGroup_within (h : r.readGroup cs = some (r', rest)) :
    (r.within g).readGroup (cs ++ [')']) = some (r'.within g, rest ++ [')']) := by
  unfold readGroup at h
  split at h
  next => cases h
  next => cases h
  next => cases h
  next => cases h
  next => exact openNamed_within h
  next hbehind hbehind' =>
    rw [List.cons_append, List.cons_append, readGroup]
    · exact openNamed_within h
    · exact cons_ne_closed (by decide) hbehind
    · exact cons_ne_closed (by decide) hbehind'
  next cs hequal hbang hbehind hbehind' hnamed hangle =>
    rw [List.cons_append, readGroup]
    · split at h
      next f any rest' hflags =>
        have hflags' : readFlags (r.within g).level.flags (cs ++ [')']) = _ :=
          readFlags_closed r.level.flags hflags
        cases h
        rw [hflags']
        rfl
      next f rest' hflags =>
        have hflags' : readFlags (r.within g).level.flags (cs ++ [')']) = _ :=
          readFlags_closed r.level.flags hflags
        cases h
        rw [hflags']
        rfl
      next => cases h
    · exact cons_ne_closed (by decide) hequal
    · exact cons_ne_closed (by decide) hbang
    · exact cons_cons_ne_closed (by decide) (by decide) hbehind
    · exact cons_cons_ne_closed (by decide) (by decide) hbehind'
    · exact cons_cons_ne_closed (by decide) (by decide) hnamed
    · exact cons_ne_closed (by decide) hangle
  next hplain =>
    cases h
    have hplain' := cons_ne_closed (by decide) hplain
    rw [readGroup]
    · rfl
    all_goals exact fun _ => hplain' _

theorem repeatLast_within {least : Nat} {most : Option Nat}
    (h : r.repeatLast least most cs = some (r', rest)) :
    (r.within g).repeatLast least most (cs ++ [')']) = some (r'.within g, rest ++ [')']) := by
  have hgreed : readGreed (cs ++ [')']) = ((readGreed cs).1, (readGreed cs).2 ++ [')']) := by
    cases cs with
    | nil => rfl
    | cons c cs =>
        by_cases hc : c = '?'
        · subst hc
          rfl
        · simp [readGreed, hc]
  unfold repeatLast at h ⊢
  rw [hgreed]
  obtain ⟨level, hlevel, heq⟩ := Option.map_eq_some_iff.mp h
  cases heq
  exact Option.map_eq_some_iff.mpr ⟨level, hlevel, rfl⟩

theorem closeGroup_within (h : r.closeGroup = some r') :
    (r.within g).closeGroup = some (r'.within g) := by
  unfold closeGroup at h
  split at h
  next => cases h
  next g' opened hopened =>
    cases h
    unfold closeGroup within
    rw [hopened]
    rfl

/-- A piece of a pattern is read inside the group as it is outside. -/
theorem step_within {c : Char} (h : r.step c cs = some (r', rest)) :
    (r.within g).step c (cs ++ [')']) = some (r'.within g, rest ++ [')']) := by
  unfold step at h ⊢
  dsimp only at h ⊢
  split at h
  next => exact readGroup_within h
  next =>
    obtain ⟨r₁, hclose, heq⟩ := Option.map_eq_some_iff.mp h
    cases heq
    rw [closeGroup_within hclose]
    rfl
  next => cases h; rfl
  next =>
    rw [openClass_closed]
    obtain ⟨⟨s, rest₁⟩, hclass, heq⟩ := Option.map_eq_some_iff.mp h
    cases heq
    have hfuel : cs.length + 1 ≤ (cs ++ [')']).length + 1 := by
      rw [List.length_append]
      omega
    have hclass' := readClass_closed _ hfuel hclass
    dsimp only
    exact Option.map_eq_some_iff.mpr ⟨_, hclass', rfl⟩
  next => exact repeatLast_within h
  next => exact repeatLast_within h
  next => exact repeatLast_within h
  next =>
    split at h
    next => cases h
    next least most rest' hbounds =>
      rw [unmoved_readBounds hbounds]
      exact repeatLast_within h
  next => cases h; rfl
  next => cases h; rfl
  next => cases h; rfl
  next =>
    split at h
    next => cases h
    next c rest' hescape => rw [unmoved_readEscape hescape]; cases h; rfl
    next s rest' hescape => rw [unmoved_readEscape hescape]; cases h; rfl
    next l rest' hescape => rw [unmoved_readEscape hescape]; cases h; rfl
  next => cases h; rfl

/-- All of a pattern is read inside the group, and the parenthesis is left. -/
theorem run_within {fuel fuel' : Nat} (hfuel : fuel < fuel')
    (h : run fuel r cs = some r') :
    ∃ n, run fuel' (r.within g) (cs ++ [')']) = run (n + 1) (r'.within g) [')'] := by
  induction fuel generalizing fuel' r cs with
  | zero =>
      obtain ⟨n, rfl⟩ := Nat.exists_eq_add_of_lt hfuel
      cases cs with
      | nil =>
          cases h
          exact ⟨_, rfl⟩
      | cons => cases h
  | succ fuel ih =>
      cases cs with
      | nil =>
          cases h
          obtain ⟨n, rfl⟩ := Nat.exists_eq_add_of_lt hfuel
          exact ⟨_, rfl⟩
      | cons c cs =>
          obtain ⟨n, rfl⟩ := Nat.exists_eq_add_of_le' (Nat.zero_lt_of_lt hfuel)
          rw [run] at h
          split at h
          next => cases h
          next r₁ rest₁ hstep =>
            obtain ⟨n', hn'⟩ := ih (Nat.lt_of_succ_lt_succ hfuel) h
            refine ⟨n', ?_⟩
            rw [List.cons_append, run, step_within hstep]
            exact hn'

end Reading

/-- Closing the group leaves a pattern that is tied to the start. -/
theorem finish_within {r : Reading} {p : Nested Pattern} (h : r.finish = some p) (fuel : Nat) :
    ∃ depth, (Reading.run (fuel + 1) (r.within .tie) [')']).bind Reading.finish =
      some ⟨.seq (.look .textStart) p.value, depth⟩ := by
  obtain ⟨level, opened, groups, names⟩ := r
  unfold Reading.finish at h
  split at h
  next hopened =>
    obtain rfl := List.isEmpty_iff.mp hopened
    cases h
    cases fuel <;> exact ⟨_, rfl⟩
  next => cases h

/-- A text that is a pattern is the same pattern in the group that ties it. -/
theorem read_splice {p q : Pattern} (hp : Pattern.read? cs = some p)
    (hq : Pattern.read? ('^' :: '(' :: '?' :: ':' :: (cs ++ [')'])) = some q) :
    q = .seq (.look .textStart) p := by
  have hstart : Reading.run ('^' :: '(' :: '?' :: ':' :: (cs ++ [')'])).length .start
      ('^' :: '(' :: '?' :: ':' :: (cs ++ [')'])) =
        Reading.run ((cs ++ [')']).length + 2) (Reading.start.within .tie) (cs ++ [')']) := rfl
  rw [Pattern.read?] at hp hq
  split at hp
  next own hown =>
    obtain ⟨r, hrun, hfinish⟩ := Option.bind_eq_some_iff.mp hown
    have hfuel : cs.length < (cs ++ [')']).length + 2 := by
      rw [List.length_append]
      omega
    obtain ⟨n, hwithin⟩ := Reading.run_within (g := .tie) hfuel hrun
    obtain ⟨depth, htied⟩ := finish_within hfinish n
    rw [hstart, hwithin, htied] at hq
    dsimp only at hq
    split at hp
    next =>
      cases hp
      split at hq
      next => cases hq; rfl
      next => cases hq
    next => cases hp
  next => cases hp

end Offside.Regex

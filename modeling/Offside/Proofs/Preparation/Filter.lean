import Offside.Proofs.Preparation
import Offside.Proofs.Regex.Replacement
import Offside.Regex.Reader

/-! # Filter — preparing a text as a filter of its lines

    Preparing replaces texts: a carriage return and a newline by a newline, and
    a newline with all lines of spaces behind it by the newline alone.  For
    the lines of a text this comes to a filter, which keeps the first and the
    last line whatever they hold.

    * `withoutReturns` and `keptLines` are the filters;
    * `Blanks` are the lines of spaces in front of a text, as many as there are,
      and `blankLines` is the machine that looks for them;
    * `replaces_stripBlank` says that its matches are what is taken out. -/

namespace Offside

namespace Preparation

open Text Regex

/-! ## Filters -/

/-- A text without the carriage returns that stand directly in front of a
    newline. -/
def withoutReturns (text : List Char) : List Char :=
  (text.zipIdx.filter fun (c, i) => !(c == '\r' && text[i + 1]? == some '\n')).map Prod.fst

/-- Whether a line stays at its place among so many lines: it is the first, or
    the last, or it holds more than spaces. -/
def stays (count : Nat) : List Char × Nat → Bool
  | (line, i) => i == 0 || i + 1 == count || !isSpaces line

/-- The lines that stay. -/
def keptLines (ls : List (List Char)) : List (List Char) :=
  (ls.zipIdx.filter (stays ls.length)).map Prod.fst

variable {line first last text : List Char} {mid ls : List (List Char)}

/-- A carriage return goes if a newline is next. -/
theorem withoutReturns_cons (c : Char) (cs : List Char) : withoutReturns (c :: cs) =
    if c = '\r' ∧ cs.head? = some '\n' then withoutReturns cs else c :: withoutReturns cs := by
  have hlater : ((cs.zipIdx 1).filter fun (d, i) =>
      !(d == '\r' && (c :: cs)[i + 1]? == some '\n')).map Prod.fst = withoutReturns cs := by
    rw [withoutReturns, List.zipIdx_succ, List.filter_map, List.map_map]
    rfl
  rw [← hlater, withoutReturns, List.zipIdx_cons, List.filter_cons, List.head?_eq_getElem?]
  by_cases hreturn : c = '\r' ∧ cs[0]? = some '\n'
  · rw [if_pos hreturn, if_neg (by simp [hreturn])]
  · rw [if_neg hreturn, if_pos (by simpa using not_and_or.mp hreturn), List.map_cons]

theorem normalizeEndings_eq_withoutReturns (text : List Char) :
    normalizeEndings text = withoutReturns text := by
  induction text using normalizeEndings.induct with
  | case1 => rfl
  | case2 cs ih =>
      rw [normalizeEndings, withoutReturns_cons, if_pos ⟨rfl, rfl⟩, withoutReturns_cons,
        if_neg fun h => absurd h.1 (by decide), ih]
  | case3 c cs hc ih =>
      rw [normalizeEndings.eq_3 _ _ hc, withoutReturns_cons, ih, if_neg]
      rintro ⟨hreturn, hnewline⟩
      obtain ⟨later, rfl⟩ := List.head?_eq_some_iff.mp hnewline
      exact hc later hreturn rfl

theorem keptLines_single (line : List Char) : keptLines [line] = [line] := rfl

theorem keptLines_ends (first last : List Char) (mid : List (List Char)) :
    keptLines (first :: (mid ++ [last])) =
      first :: (mid.filter (fun line => !isSpaces line) ++ [last]) := by
  have hlength : (first :: (mid ++ [last])).length = mid.length + 2 := by simp
  -- the places of the lines between are neither the first nor the last
  have hmid : ∀ x ∈ mid.zipIdx 1, stays (mid.length + 2) x = !isSpaces x.1 := by
    rintro ⟨line, i⟩ hx
    obtain ⟨hge, hlt, -⟩ := List.mem_zipIdx hx
    have hfirst : (i == 0) = false := beq_false_of_ne (by omega)
    have hlast : (i + 1 == mid.length + 2) = false := beq_false_of_ne (by omega)
    rw [stays, hfirst, hlast, Bool.false_or, Bool.false_or]
  have hlast : stays (mid.length + 2) (last, 0 + 1 + mid.length) = true := by
    rw [stays, show 0 + 1 + mid.length + 1 = mid.length + 2 by omega, beq_self_eq_true,
      Bool.or_true, Bool.true_or]
  have hkept := List.filter_map (f := Prod.fst) (p := fun line => !isSpaces line)
    (l := mid.zipIdx 1)
  rw [List.zipIdx_map_fst] at hkept
  rw [keptLines, hlength, List.zipIdx_cons, List.zipIdx_append, List.filter_cons_of_pos rfl,
    List.filter_append, List.filter_congr hmid, List.zipIdx_singleton,
    List.filter_cons_of_pos hlast, List.filter_nil, List.map_cons, List.map_append, hkept]
  rfl

/-- A text has one line, or it has a first and a last line. -/
theorem lines_cases (text : List Char) : (∃ line, '\n' ∉ line ∧ lines text = [line]) ∨
    ∃ first mid last, '\n' ∉ first ∧ (∀ line ∈ mid, '\n' ∉ line) ∧ '\n' ∉ last ∧
      lines text = first :: (mid ++ [last]) := by
  obtain ⟨first, rest, hlines⟩ := List.exists_cons_of_ne_nil (lines_ne_nil text)
  obtain ⟨-, hfree⟩ := of_lines hlines
  obtain ⟨hfirst, hrest⟩ := List.forall_mem_cons.mp hfree
  rcases List.eq_nil_or_concat' rest with rfl | ⟨mid, last, rfl⟩
  · exact .inl ⟨first, hfirst, hlines⟩
  · obtain ⟨hmid, hlast⟩ := List.forall_mem_append.mp hrest
    exact .inr ⟨first, mid, last, hfirst, hmid, hlast last (List.mem_singleton_self last), hlines⟩

theorem stripBlank_eq_unlines (text : List Char) :
    stripBlank text = unlines (keptLines (lines text)) := by
  have htext := unlines_lines text
  rcases lines_cases text with ⟨line, hline, hlines⟩ |
    ⟨first, mid, last, hfirst, hmid, hlast, hlines⟩
  · rw [hlines] at htext ⊢
    rw [keptLines_single, htext, ← htext]
    exact collapseBlank_last hline
  · rw [hlines] at htext ⊢
    rw [keptLines_ends, ← htext, stripBlank_unlines hfirst hmid hlast]

/-- A text whose blank lines have been taken out has none. -/
theorem stripBlank_stripBlank (text : List Char) :
    stripBlank (stripBlank text) = stripBlank text := by
  rw [stripBlank_eq_unlines text]
  rcases lines_cases text with ⟨line, hline, hlines⟩ |
    ⟨first, mid, last, hfirst, hmid, hlast, hlines⟩
  · rw [hlines, keptLines_single]
    exact collapseBlank_last hline
  · have hkept : ∀ line ∈ mid.filter (fun line => !isSpaces line), '\n' ∉ line := by
      intro line hline
      exact hmid line (List.mem_of_mem_filter hline)
    rw [hlines, keptLines_ends, stripBlank_unlines hfirst hkept hlast, List.filter_filter]
    simp only [Bool.and_self]

/-! ## Lines of spaces in front of a text -/

/-- A line of spaces stands in front, with its newline. -/
def StartsBlank (text : List Char) : Prop :=
  ∃ spaces back, text = spaces ++ '\n' :: back ∧ isSpaces spaces = true

/-- Lines of spaces with their newlines, and a text behind them in front of which
    there is no other. -/
inductive Blanks : List Char → List Char → Prop
  | nil {rest : List Char} : ¬ StartsBlank rest → Blanks [] rest
  | line {spaces run rest : List Char} : isSpaces spaces = true → Blanks run rest →
      Blanks (spaces ++ '\n' :: run) rest

/-- The lines of spaces in front of a text come off it. -/
theorem exists_blanks (text : List Char) : ∃ run rest, text = run ++ rest ∧ Blanks run rest ∧
    (run = [] → ¬ StartsBlank text) := by
  by_cases h : StartsBlank text
  · obtain ⟨spaces, back, rfl, hspaces⟩ := h
    have hshorter : back.length < (spaces ++ '\n' :: back).length := by
      rw [List.length_append, List.length_cons]
      omega
    obtain ⟨run, rest, rfl, hblanks, -⟩ := exists_blanks back
    refine ⟨spaces ++ '\n' :: run, rest, ?_, .line hspaces hblanks, fun hnil => ?_⟩
    · rw [List.append_assoc, List.cons_append]
    · exact absurd hnil (List.append_ne_nil_of_right_ne_nil spaces (List.cons_ne_nil '\n' run))
  · exact ⟨[], text, rfl, .nil h, fun _ => h⟩
termination_by text.length

theorem newline_notMem_of_isSpaces (h : isSpaces line = true) : '\n' ∉ line := by
  intro hmem
  exact absurd (eq_space_of_isSpaces h _ hmem) (by decide)

/-- Where no line of spaces stands in front, the spaces that have been read come
    back. -/
theorem collapseBlank_of_not_startsBlank (spaces : Nat) (h : ¬ StartsBlank text) :
    collapseBlank (some spaces) text = List.replicate spaces ' ' ++ stripBlank text := by
  induction text generalizing spaces with
  | nil => exact (List.append_nil _).symm
  | cons c cs ih =>
      have hnewline : c ≠ '\n' := by
        rintro rfl
        exact h ⟨[], cs, rfl, rfl⟩
      rw [collapseBlank, if_neg hnewline, stripBlank, collapseBlank, if_neg hnewline]
      by_cases hspace : c = ' '
      · subst hspace
        have hlater : ¬ StartsBlank cs := by
          rintro ⟨front, back, rfl, hfront⟩
          exact h ⟨' ' :: front, back, rfl, hfront⟩
        rw [if_pos rfl, ih (spaces + 1) hlater, List.replicate_succ', List.append_assoc]
        rfl
      · rw [if_neg hspace]

/-- Lines of spaces behind a newline are taken out. -/
theorem Blanks.collapseBlank_append {run rest : List Char} (h : Blanks run rest) :
    collapseBlank (some 0) (run ++ rest) = stripBlank rest := by
  induction h with
  | nil hnot => exact collapseBlank_of_not_startsBlank 0 hnot
  | line hspaces _ ih =>
      rw [List.append_assoc, List.cons_append,
        collapseBlank_spaces 0 (newline_notMem_of_isSpaces hspaces), if_pos hspaces, ih]

/-! ## The machine for blank lines -/

/-- The machine for a line of spaces. -/
def blankLine : Machine :=
  .group 1 (.seq (.loop 1 true (.set (.single ' '))) (.set (.single '\n')))

/-- The machine for a newline and the lines of spaces behind it. -/
def blankLines : Machine :=
  .seq (.set (.single '\n')) (.seq blankLine (.loop 0 true blankLine))

/-- The thread past a line of spaces, which a group has measured. -/
def pastBlank (t : Thread) (spaces back : List Char) : Thread :=
  (t.past (spaces ++ ['\n']) back).close 1 t.offset

variable {K : Continuation} {t u : Thread} {labels : List Nat} {spaces back run rest : List Char}

theorem has_space_of_isSpaces (h : isSpaces spaces = true) :
    ∀ c ∈ spaces, (Charset.single ' ').has c = true := by
  intro c hc
  rw [eq_space_of_isSpaces h c hc]
  exact has_single_self ' '

theorem isSpaces_of_has_space (h : ∀ c ∈ spaces, (Charset.single ' ').has c = true) :
    isSpaces spaces = true := by
  refine List.all_eq_true.mpr fun c hc => decide_eq_true ?_
  have hspace := h c hc
  rwa [Charset.has_single, beq_iff_eq] at hspace

/-- A line of spaces is gone through to the newline. -/
theorem blankLine_finds (hrest : t.rest = spaces ++ '\n' :: back) (hspaces : isSpaces spaces = true)
    (hnew : 1 ∉ labels)
    (h : Finds (K (pastBlank t spaces back)) (pastBlank t spaces back).offset [] u) :
    Finds (blankLine.run K t) t.offset labels u := by
  have hspace := has_space_of_isSpaces hspaces
  have hnot : ¬ (Charset.single ' ').has '\n' = true := by
    rw [Charset.has_single]
    decide
  refine loop_set_finds (s := .single ' ')
    (k := (Machine.set (.single '\n')).run fun u => K (u.close 1 t.offset)) hnew ?_
  rw [hrest, List.takeWhile_append_of_pos hspace, List.dropWhile_append_of_pos hspace,
    List.takeWhile_cons_of_neg hnot, List.dropWhile_cons_of_neg hnot, List.append_nil]
  refine set_finds (t := t.past spaces ('\n' :: back)) (c := '\n') rfl (has_single_self _) ?_
  have hoffset : (pastBlank t spaces back).offset =
      (t.past spaces ('\n' :: back)).offset + '\n'.utf8Size := by
    show t.offset + Text.bytes (spaces ++ ['\n']) = t.offset + Text.bytes spaces + _
    rw [Text.bytes_append, ← Nat.add_assoc]
    rfl
  rw [Thread.past_past, ← hoffset]
  exact h

/-- Where no line of spaces stands, at most its spaces are passed. -/
theorem blankLine_fails (h : ¬ StartsBlank t.rest) : FailsWithin (blankLine.run K t)
    fun i => i ≤ t.offset + Text.bytes (t.rest.takeWhile (Charset.single ' ').has) := by
  refine loop_set_failsWithin (s := .single ' ')
    (k := (Machine.set (.single '\n')).run fun u => K (u.close 1 t.offset)) ?_
  intro text rest hsplit htext
  constructor
  · refine Refuses.failsWithin (set_refuses ?_) _
    intro c cs hcs hc
    rw [Charset.has_single, beq_iff_eq] at hc
    subst hc
    have hrest : rest = '\n' :: cs := hcs
    exact absurd ⟨text, cs, hrest ▸ hsplit, isSpaces_of_has_space htext⟩ h
  · rw [hsplit, List.takeWhile_append_of_pos htext, Text.bytes_append]
    omega

/-- Rounds go through all lines of spaces. -/
theorem blankRounds_find (h : Blanks run rest) (bound : List Char) (hrest : t.rest = run ++ rest)
    (hbound : t.rest.length ≤ bound.length) : ∃ u : Thread, u.offset = t.offset + Text.bytes run ∧
      Finds (Machine.roundsOf 0 true blankLine.run (fun u _ => .ok u) bound t) t.offset [] u := by
  induction h generalizing t bound with
  | @nil rest hnot =>
      rw [← show t.rest = rest from hrest] at hnot
      have hstop {k : Continuation} : Finds (.orElse (blankLine.run k t) fun _ => .ok t)
          t.offset [0] t :=
        .orElse_of_fails (blankLine_fails hnot).fails fun _ => rfl
      refine ⟨t, rfl, ?_⟩
      cases bound with
      | nil => exact .visit List.not_mem_nil hstop
      | cons x fewer => exact .visit List.not_mem_nil hstop
  | @line spaces run rest hspaces _ ih =>
      rw [List.append_assoc, List.cons_append] at hrest
      rw [hrest, List.length_append, List.length_cons] at hbound
      cases bound with
      | nil => exact absurd hbound (by simp)
      | cons x fewer =>
          have hfewer : (run ++ rest).length ≤ fewer.length := by
            rw [List.length_cons] at hbound
            omega
          obtain ⟨u, hu, hfinds⟩ := ih (t := pastBlank t spaces (run ++ rest)) fewer rfl hfewer
          refine ⟨u, ?_, rounds_again List.not_mem_nil
            (blankLine_finds hrest hspaces (show 1 ∉ [0] by decide) hfinds)⟩
          rw [hu, List.append_cons spaces '\n' run, Text.bytes_append (spaces ++ ['\n']),
            ← Nat.add_assoc]
          rfl

/-- The machine finds a newline with all lines of spaces behind it. -/
theorem blankLines_finds (h : Blanks run rest) (hne : run ≠ [])
    (hrest : t.rest = '\n' :: (run ++ rest)) :
    ∃ u : Thread, u.offset = t.offset + Text.bytes ('\n' :: run) ∧
      Finds (blankLines.run (fun u _ => .ok u) t) t.offset [] u := by
  cases h with
  | nil => exact absurd rfl hne
  | @line spaces run rest hspaces hblanks =>
      rw [List.append_assoc, List.cons_append] at hrest
      obtain ⟨t₁, ht₁⟩ : ∃ t₁, t₁ = t.past ['\n'] (spaces ++ '\n' :: (run ++ rest)) := ⟨_, rfl⟩
      obtain ⟨u, hu, hfinds⟩ := blankRounds_find hblanks (t := pastBlank t₁ spaces (run ++ rest))
        (run ++ rest) rfl (Nat.le_refl _)
      have hbehind : Finds ((Machine.seq blankLine (.loop 0 true blankLine)).run
          (fun u _ => .ok u) t₁) t₁.offset [] u :=
        blankLine_finds (K := (Machine.loop 0 true blankLine).run fun u _ => .ok u)
          (by rw [ht₁]; rfl) hspaces List.not_mem_nil hfinds
      rw [ht₁] at hbehind hu
      refine ⟨u, ?_, set_finds
        (k := (Machine.seq blankLine (.loop 0 true blankLine)).run fun u _ => .ok u) hrest
        (has_single_self '\n') hbehind⟩
      have hoffset : u.offset = t.offset + Text.bytes ['\n'] + Text.bytes (spaces ++ ['\n']) +
          Text.bytes run := hu
      simp only [Text.bytes_append, Text.bytes_cons, Text.bytes_nil] at hoffset ⊢
      omega

/-- Without a line of spaces behind a newline, it passes the spaces there. -/
theorem blankLines_fails {cs : List Char} (hrest : t.rest = '\n' :: cs) (h : ¬ StartsBlank cs) :
    FailsWithin (blankLines.run (fun u _ => .ok u) t) fun i =>
      i ≤ t.offset + 1 + Text.bytes (cs.takeWhile (Charset.single ' ').has) := by
  refine set_failsWithin
    (k := (Machine.seq blankLine (.loop 0 true blankLine)).run fun u _ => .ok u) ?_
  intro c later hlater _
  obtain ⟨rfl, rfl⟩ := List.cons.inj (hrest.symm.trans hlater)
  exact blankLine_fails (K := (Machine.loop 0 true blankLine).run fun u _ => .ok u)
    (t := t.past ['\n'] cs) h

/-- It is refused where no newline stands. -/
theorem blankLines_refuses (h : t.rest.head? ≠ some '\n') :
    Refuses (blankLines.run (fun u _ => .ok u) t) := by
  refine set_refuses
    (k := (Machine.seq blankLine (.loop 0 true blankLine)).run fun u _ => .ok u) ?_
  intro c cs hcs hc
  rw [Charset.has_single, beq_iff_eq] at hc
  rw [hcs, hc] at h
  exact absurd rfl h

/-- What a search has passed lies in front of the next newline. -/
def BelowNewline (text : List Char) (offset : Nat) (trail : Trail) : Prop :=
  ∀ front back, text = front ++ '\n' :: back → '\n' ∉ front →
    trail.Below (offset + Text.bytes front) []

theorem BelowNewline.later {c : Char} {cs : List Char} {offset : Nat} {trail : Trail}
    (h : BelowNewline (c :: cs) offset trail) (hc : c ≠ '\n') :
    BelowNewline cs (offset + c.utf8Size) trail := by
  rintro front back rfl hfree
  have hbelow := h (c :: front) back rfl (by
    rw [List.mem_cons, not_or]
    exact ⟨Ne.symm hc, hfree⟩)
  rwa [Text.bytes_cons, ← Nat.add_assoc] at hbelow

/-- The spaces behind a newline take fewer bytes than what stands in front of the
    next one, if they are not all that stands there. -/
theorem bytes_takeWhile_lt {front : List Char} (h : ¬ StartsBlank (front ++ '\n' :: back)) :
    Text.bytes ((front ++ '\n' :: back).takeWhile (Charset.single ' ').has) <
      Text.bytes front := by
  have hsplit := List.takeWhile_append_dropWhile (p := (Charset.single ' ').has) (l := front)
  have hne : front.dropWhile (Charset.single ' ').has ≠ [] := by
    intro hnil
    exact h ⟨front, back, rfl, isSpaces_of_has_space (List.dropWhile_eq_nil_iff.mp hnil)⟩
  have hlonger := Text.bytes_pos hne
  have hlength := congrArg List.length hsplit
  have hpos := List.length_pos_iff.mpr hne
  rw [List.length_append] at hlength
  rw [List.takeWhile_append, if_neg (by omega)]
  conv_rhs => rw [← hsplit, Text.bytes_append]
  omega

/-- A search that has failed at a newline has not passed the next one. -/
theorem BelowNewline.failed {cs : List Char} {offset : Nat} {trail trail' : Trail}
    (h : BelowNewline ('\n' :: cs) offset trail) (hnot : ¬ StartsBlank cs)
    (hplaces : ∀ i l, trail'.has i l = true → trail.has i l = true ∨
      i ≤ offset + 1 + Text.bytes (cs.takeWhile (Charset.single ' ').has)) :
    BelowNewline cs (offset + 1) trail' := by
  rintro front back rfl hfree i l hil
  have hlt := bytes_takeWhile_lt hnot
  rcases hplaces i l hil with hil | hle
  · rcases h [] _ rfl List.not_mem_nil i l hil with hi | ⟨-, hl⟩
    · rw [Text.bytes_nil] at hi
      exact .inl (by omega)
    · cases hl
  · exact .inl (by omega)

/-- Taking blank lines out goes along with the search for them. -/
theorem rewrites_stripBlank : blankLines.Rewrites ['\n'] stripBlank BelowNewline where
  start text front back _ _ := Trail.below_empty _ []
  nil := rfl
  stop before offset := (blankLines_refuses (t := ⟨before, [], offset, []⟩) nofun).fails
  place before c cs offset trail hbelow := by
    by_cases hc : c = '\n'
    · subst hc
      obtain ⟨run, rest, rfl, hblanks, hnil⟩ := exists_blanks cs
      by_cases hrun : run = []
      · have hnot := hnil hrun
        obtain ⟨trail', hfail, hplaces⟩ :=
          blankLines_fails (t := ⟨before, '\n' :: (run ++ rest), offset, []⟩) rfl hnot trail
        refine .pass hfail (hbelow.failed hnot hplaces) ?_
        exact congrArg ('\n' :: ·) (collapseBlank_of_not_startsBlank 0 hnot)
      · obtain ⟨u, hu, hfinds⟩ := blankLines_finds
          (t := ⟨before, '\n' :: (run ++ rest), offset, []⟩) hblanks hrun rfl
        have hfound := hfinds trail (hbelow [] (run ++ rest) rfl List.not_mem_nil)
        refine .take (List.cons_append ..).symm (List.cons_ne_nil _ _) hfound hu ?_
        exact congrArg ('\n' :: ·) hblanks.collapseBlank_append
    · have hrefuses : Refuses (blankLines.run (fun u _ => .ok u) ⟨before, c :: cs, offset, []⟩) :=
        blankLines_refuses fun h => hc (Option.some.inj h)
      refine .pass (hrefuses trail) (hbelow.later hc) ?_
      rw [stripBlank, collapseBlank, if_neg hc]
      rfl

/-! ## Preparing -/

/-- The pattern of blank lines. -/
def blankPattern : String := "\\n( *\\n)+"

theorem exists_blankPattern :
    ∃ pattern, Pattern.read? blankPattern.toList = some pattern ∧
      Machine.ofPattern pattern = blankLines :=
  ⟨_, rfl, rfl⟩

/-- Carriage returns go where a newline is next. -/
theorem replaces_withoutReturns (text : List Char) :
    (Machine.literal ['\r', '\n']).Replaces ['\n'] none text (withoutReturns text) := by
  refine literal_replaces (List.cons_ne_nil _ _) rfl ?_ ?_ none text
  · intro back
    rw [List.cons_append, withoutReturns_cons, if_pos ⟨rfl, rfl⟩, List.singleton_append,
      withoutReturns_cons, if_neg fun h => absurd h.1 (by decide)]
    rfl
  · intro c cs hnot
    rw [withoutReturns_cons, if_neg]
    rintro ⟨rfl, hnewline⟩
    obtain ⟨later, rfl⟩ := List.head?_eq_some_iff.mp hnewline
    exact hnot ⟨later, rfl⟩

/-- **Preparing is a filter of lines.**  Carriage returns in front of newlines go
    if endings are to be normalized, and of the lines of the rest those of
    spaces go if blank lines are to be taken out, except for the first and
    the last one.  Both filters do what replacing does: a carriage return and
    a newline become a newline wherever they stand, and so does every match of
    the pattern of blank lines.  What is left has no blank lines to take out. -/
theorem apply_filters (p : Preparation) (text : String) :
    let x := if p.normalizeLineEndings then withoutReturns text.toList else text.toList
    let y := unlines (if p.stripBlankLines then keptLines (lines x) else lines x)
    p.apply text = String.ofList (y ++ '\n' :: p.marker.toList) ∧
    (∀ out, (Machine.literal ['\r', '\n']).Replaces ['\n'] none text.toList out ↔
      out = withoutReturns text.toList) ∧
    (∃ pattern, Pattern.read? blankPattern.toList = some pattern ∧
      ∀ out, (Machine.ofPattern pattern).Replaces ['\n'] none x out ↔
        out = unlines (keptLines (lines x))) ∧
    stripBlank x = unlines (keptLines (lines x)) ∧ stripBlank (stripBlank x) = stripBlank x := by
  intro x y
  have hstrip := stripBlank_eq_unlines x
  refine ⟨?_, fun out => ⟨?_, ?_⟩, ?_, hstrip, stripBlank_stripBlank x⟩
  · have hx :
        (if p.normalizeLineEndings then normalizeEndings text.toList else text.toList) = x := by
      rw [normalizeEndings_eq_withoutReturns]
    have hy : (if p.stripBlankLines then stripBlank x else x) = y := by
      show _ = unlines _
      split
      · exact hstrip
      · exact (unlines_lines x).symm
    rw [apply, hx, hy]
  · intro hout
    exact hout.unique (replaces_withoutReturns text.toList)
  · rintro rfl
    exact replaces_withoutReturns text.toList
  · obtain ⟨pattern, hread, hmachine⟩ := exists_blankPattern
    refine ⟨pattern, hread, fun out => ?_⟩
    have hreplaces := rewrites_stripBlank.replaces none x
    rw [hmachine, ← hstrip]
    constructor
    · intro hout
      exact hout.unique hreplaces
    · rintro rfl
      exact hreplaces

end Preparation

end Offside

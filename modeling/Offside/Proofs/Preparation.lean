import Mathlib.Data.List.Basic
import Offside.Preparation
import Offside.Text.Bytes

/-! # Preparation — what is left of the lines of a text

    A text that is prepared with its line endings normalized and its blank
    lines taken out keeps its first and its last line; of the lines between
    them it keeps those that hold more than spaces.

    * `Padded` is said of lines among which lines of spaces have been put;
    * `solid` is what is left of lines in the middle of a text, and
      `prepared_lines` says what a whole text becomes;
    * `prepared_of_lasts` and `prepared_of_settled` compare texts whose lines
      have been padded. -/

namespace Offside

namespace Text

/-! ## Lines of spaces -/

/-- A line of spaces only. -/
def isSpaces (line : List Char) : Bool := line.all (· = ' ')

theorem eq_space_of_isSpaces {line : List Char} (h : isSpaces line = true) :
    ∀ c ∈ line, c = ' ' := fun c hc =>
  of_decide_eq_true (List.all_eq_true.mp h c hc)

/-- Lines among which lines of spaces have been put. -/
inductive Padded : List (List Char) → List (List Char) → Prop
  | nil : Padded [] []
  | same {line : List Char} {ls ls' : List (List Char)} : Padded ls ls' →
      Padded (line :: ls) (line :: ls')
  | spaces {line : List Char} {ls ls' : List (List Char)} : isSpaces line = true →
      Padded ls ls' → Padded ls (line :: ls')

/-- Only spaces come of no lines. -/
theorem Padded.of_nil {ls : List (List Char)} (h : Padded [] ls) :
    ∀ line ∈ ls, isSpaces line = true := by
  generalize hnil : ([] : List (List Char)) = front at h
  induction h with
  | nil => exact List.forall_mem_nil _
  | same => cases hnil
  | spaces hspaces _ ih => exact List.forall_mem_cons.mpr ⟨hspaces, ih hnil⟩

/-- Lines end neither in a carriage return nor in four or more spaces that have
    a line of their own. -/
def EndsSettled (ls : List (List Char)) : Prop :=
  ∃ last, ls.getLast? = some last ∧ last.getLast? ≠ some '\r' ∧
    (isSpaces last = true → last.length < 4)

end Text

namespace Preparation

open Text

variable {line first last text text' : List Char} {mid rest rest' : List (List Char)}

/-! ## Line endings -/

/-- A line without the carriage return at its end. -/
def dropReturn : List Char → List Char
  | [] => []
  | ['\r'] => []
  | c :: cs => c :: dropReturn cs

theorem normalizeEndings_line (h : '\n' ∉ line) (cs : List Char) :
    normalizeEndings (line ++ '\n' :: cs) = dropReturn line ++ '\n' :: normalizeEndings cs := by
  induction line using dropReturn.induct with
  | case1 => rfl
  | case2 => rfl
  | case3 c line hc ih =>
      obtain ⟨-, hline⟩ := not_or.mp (mt List.mem_cons.mpr h)
      -- a carriage return in front of the newline would be all of the line
      have hplain : ∀ ds, c = '\r' → line ++ '\n' :: cs = '\n' :: ds → False := by
        intro ds hreturn hfront
        cases line with
        | nil => exact hc hreturn rfl
        | cons d ds =>
            obtain ⟨rfl, -⟩ := List.cons.inj hfront
            exact hline (List.mem_cons_self ..)
      rw [List.cons_append, normalizeEndings.eq_3 _ _ hplain, dropReturn.eq_3 _ _ hc, ih hline]
      rfl

theorem normalizeEndings_last (h : '\n' ∉ line) : normalizeEndings line = line := by
  induction line with
  | nil => rfl
  | cons c line ih =>
      obtain ⟨-, hline⟩ := not_or.mp (mt List.mem_cons.mpr h)
      have hplain : ∀ ds, c = '\r' → line = '\n' :: ds → False := by
        rintro ds - rfl
        exact hline (List.mem_cons_self ..)
      rw [normalizeEndings.eq_3 _ _ hplain, ih hline]

theorem normalizeEndings_unlines (hmid : ∀ line ∈ mid, '\n' ∉ line) (hlast : '\n' ∉ last) :
    normalizeEndings (unlines (mid ++ [last])) = unlines (mid.map dropReturn ++ [last]) := by
  induction mid with
  | nil => exact normalizeEndings_last hlast
  | cons line mid ih =>
      obtain ⟨hline, hothers⟩ := List.forall_mem_cons.mp hmid
      rw [List.cons_append, unlines_cons_concat, normalizeEndings_line hline, ih hothers,
        List.map_cons, List.cons_append, unlines_cons_concat]

/-! ## Blank lines -/

theorem collapseBlank_line (h : '\n' ∉ line) (cs : List Char) :
    collapseBlank none (line ++ '\n' :: cs) = line ++ '\n' :: collapseBlank (some 0) cs := by
  induction line with
  | nil => rfl
  | cons c line ih =>
      obtain ⟨hc, hline⟩ := not_or.mp (mt List.mem_cons.mpr h)
      rw [List.cons_append, collapseBlank, if_neg (Ne.symm hc), ih hline]
      rfl

theorem collapseBlank_last (h : '\n' ∉ line) : collapseBlank none line = line := by
  induction line with
  | nil => rfl
  | cons c line ih =>
      obtain ⟨hc, hline⟩ := not_or.mp (mt List.mem_cons.mpr h)
      rw [collapseBlank, if_neg (Ne.symm hc), ih hline]

/-- Spaces that have been read come back in front of the rest of their line,
    unless there is no more than spaces to it. -/
theorem collapseBlank_spaces (spaces : Nat) (h : '\n' ∉ line) (cs : List Char) :
    collapseBlank (some spaces) (line ++ '\n' :: cs) =
      if isSpaces line then collapseBlank (some 0) cs
      else List.replicate spaces ' ' ++ line ++ '\n' :: collapseBlank (some 0) cs := by
  induction line generalizing spaces with
  | nil => rfl
  | cons c line ih =>
      obtain ⟨hc, hline⟩ := not_or.mp (mt List.mem_cons.mpr h)
      rw [List.cons_append, collapseBlank, if_neg (Ne.symm hc)]
      by_cases hspace : c = ' '
      · subst hspace
        have hsame : isSpaces (' ' :: line) = isSpaces line := rfl
        rw [if_pos rfl, ih _ hline, hsame, List.replicate_succ', List.append_assoc _ [' '] line]
        rfl
      · have hnot : isSpaces (c :: line) = false := by
          rw [isSpaces, List.all_cons, decide_eq_false hspace, Bool.false_and]
        rw [if_neg hspace, hnot, if_neg Bool.false_ne_true, collapseBlank_line hline,
          List.append_assoc, List.cons_append]

theorem collapseBlank_spaces_last (spaces : Nat) (h : '\n' ∉ line) :
    collapseBlank (some spaces) line = List.replicate spaces ' ' ++ line := by
  induction line generalizing spaces with
  | nil => exact (List.append_nil _).symm
  | cons c line ih =>
      obtain ⟨hc, hline⟩ := not_or.mp (mt List.mem_cons.mpr h)
      rw [collapseBlank, if_neg (Ne.symm hc)]
      by_cases hspace : c = ' '
      · subst hspace
        rw [if_pos rfl, ih _ hline, List.replicate_succ', List.append_assoc]
        rfl
      · rw [if_neg hspace, collapseBlank_last hline]

/-- The lines in the middle that hold more than spaces stay. -/
theorem collapseBlank_unlines (hmid : ∀ line ∈ mid, '\n' ∉ line) (hlast : '\n' ∉ last) :
    collapseBlank (some 0) (unlines (mid ++ [last])) =
      unlines (mid.filter (fun line => !isSpaces line) ++ [last]) := by
  induction mid with
  | nil => exact collapseBlank_spaces_last 0 hlast
  | cons line mid ih =>
      obtain ⟨hline, hothers⟩ := List.forall_mem_cons.mp hmid
      rw [List.cons_append, unlines_cons_concat, collapseBlank_spaces 0 hline, ih hothers]
      cases hspaces : isSpaces line with
      | true => rw [if_pos rfl, List.filter_cons_of_neg (by rw [hspaces]; decide)]
      | false =>
          rw [if_neg Bool.false_ne_true, List.filter_cons_of_pos (by rw [hspaces]; decide),
            List.cons_append, unlines_cons_concat]
          rfl

/-- Taking blank lines out is a filter of the lines between the first and the
    last. -/
theorem stripBlank_unlines (hfirst : '\n' ∉ first) (hmid : ∀ line ∈ mid, '\n' ∉ line)
    (hlast : '\n' ∉ last) : stripBlank (unlines (first :: (mid ++ [last]))) =
      unlines (first :: (mid.filter (fun line => !isSpaces line) ++ [last])) := by
  rw [unlines_cons_concat, stripBlank, collapseBlank_line hfirst,
    collapseBlank_unlines hmid hlast, unlines_cons_concat]

/-! ## Whole texts -/

/-- A text with its line endings normalized and its blank lines taken out. -/
def prepared (text : List Char) : List Char := stripBlank (normalizeEndings text)

/-- What is left of lines in the middle of a text. -/
def solid (ls : List (List Char)) : List (List Char) :=
  (ls.map dropReturn).filter fun line => !isSpaces line

theorem mem_of_mem_dropReturn {c : Char} (h : c ∈ dropReturn line) : c ∈ line := by
  induction line using dropReturn.induct with
  | case1 | case2 => exact absurd h List.not_mem_nil
  | case3 d line hd ih =>
      rw [dropReturn.eq_3 _ _ hd] at h
      exact List.mem_cons.mpr ((List.mem_cons.mp h).imp_right ih)

theorem dropReturn_eq_self (h : line.getLast? ≠ some '\r') : dropReturn line = line := by
  induction line using dropReturn.induct with
  | case1 => rfl
  | case2 => exact absurd rfl h
  | case3 c line hc ih =>
      rw [dropReturn.eq_3 _ _ hc]
      cases line with
      | nil => rfl
      | cons d ds => exact congrArg (c :: ·) (ih h)

theorem dropReturn_of_isSpaces (h : isSpaces line = true) : dropReturn line = line := by
  refine dropReturn_eq_self fun hlast => ?_
  have hspace := eq_space_of_isSpaces h _ (List.mem_of_getLast? hlast)
  exact absurd hspace (by decide)

theorem solid_nil : solid [] = [] := rfl

theorem solid_append (ls ms : List (List Char)) : solid (ls ++ ms) = solid ls ++ solid ms := by
  rw [solid, List.map_append, List.filter_append]
  rfl

theorem solid_spaces (h : isSpaces line = true) (ls : List (List Char)) :
    solid (line :: ls) = solid ls := by
  rw [solid, List.map_cons, dropReturn_of_isSpaces h, List.filter_cons_of_neg (by rw [h]; decide)]
  rfl

theorem solid_single (h : isSpaces line = false) (hreturn : line.getLast? ≠ some '\r') :
    solid [line] = [line] := by
  rw [solid, List.map_singleton, dropReturn_eq_self hreturn,
    List.filter_cons_of_pos (by rw [h]; decide), List.filter_nil]

/-- Of lines of spaces nothing is left, wherever they stand. -/
theorem solid_of_padded (h : Padded rest rest') : solid rest = solid rest' := by
  induction h with
  | nil => rfl
  | @same line ls ls' _ ih =>
      rw [← List.singleton_append, solid_append, ih, ← solid_append, List.singleton_append]
  | spaces hspaces _ ih => rw [ih, solid_spaces hspaces]

theorem prepared_line (h : lines text = [line]) : prepared text = line := by
  obtain ⟨htext, hfree⟩ := of_lines h
  have hline : '\n' ∉ line := hfree line (List.mem_cons_self ..)
  rw [show text = line from htext, prepared, normalizeEndings_last hline, stripBlank,
    collapseBlank_last hline]

theorem prepared_lines (h : lines text = first :: (mid ++ [last])) :
    prepared text = unlines (dropReturn first :: (solid mid ++ [last])) := by
  obtain ⟨rfl, hfree⟩ := of_lines h
  rw [← List.cons_append] at hfree ⊢
  obtain ⟨hfront, hlast⟩ := List.forall_mem_append.mp hfree
  have hlast : '\n' ∉ last := hlast last (List.mem_cons_self ..)
  have hdropped : ∀ line ∈ (first :: mid).map dropReturn, '\n' ∉ line := by
    intro line hline
    obtain ⟨line, hmem, rfl⟩ := List.mem_map.mp hline
    exact fun hnewline => hfront line hmem (mem_of_mem_dropReturn hnewline)
  obtain ⟨hfirst, hmid⟩ := List.forall_mem_cons.mp hdropped
  rw [prepared, normalizeEndings_unlines hfront hlast, List.map_cons, List.cons_append,
    stripBlank_unlines hfirst hmid hlast]
  rfl

/-- A text whose first line is of spaces still starts with it. -/
theorem prepared_of_isSpaces (h : lines text = first :: rest) (hspaces : isSpaces first = true) :
    prepared text = first ∨ ∃ later, prepared text = first ++ '\n' :: later := by
  rcases List.eq_nil_or_concat' rest with rfl | ⟨mid, last, rfl⟩
  · exact .inl (prepared_line h)
  · rw [prepared_lines h, dropReturn_of_isSpaces hspaces, unlines_cons_concat]
    exact .inr ⟨_, rfl⟩

/-- Lines of spaces behind the first line change nothing, if the last line
    stays. -/
theorem prepared_of_lasts (h : lines text = first :: rest) (h' : lines text' = first :: rest')
    (hpadded : Padded rest rest') (hfirst : isSpaces first = false)
    (hlast : (first :: rest).getLast? = (first :: rest').getLast?) :
    prepared text = prepared text' := by
  rcases List.eq_nil_or_concat' rest with rfl | ⟨mid, last, rfl⟩
  · rcases List.eq_nil_or_concat' rest' with rfl | ⟨mid', last', rfl⟩
    · rw [prepared_line h, prepared_line h']
    · -- the last line would be of spaces, but it is the first one
      rw [← List.cons_append, List.getLast?_concat] at hlast
      obtain rfl := Option.some.inj hlast
      have hspaces := hpadded.of_nil first (List.mem_append_right mid' (List.mem_cons_self ..))
      rw [hfirst] at hspaces
      cases hspaces
  · rcases List.eq_nil_or_concat' rest' with rfl | ⟨mid', last', rfl⟩
    · generalize hfront : mid ++ [last] = ls at hpadded
      cases hpadded
      exact absurd hfront (List.append_ne_nil_of_right_ne_nil mid (List.cons_ne_nil last []))
    · rw [← List.cons_append, ← List.cons_append, List.getLast?_concat,
        List.getLast?_concat] at hlast
      obtain rfl := Option.some.inj hlast
      have hsolid := solid_of_padded hpadded
      rw [solid_append, solid_append] at hsolid
      rw [prepared_lines h, prepared_lines h', List.append_cancel_right hsolid]

/-- The last line stays too, even if it is of spaces. -/
theorem prepared_of_settled (h : lines text = first :: rest) (hend : EndsSettled (first :: rest)) :
    prepared text = unlines (dropReturn first :: solid rest) ∨
      ∃ blank, isSpaces blank = true ∧ blank.length < 4 ∧
        prepared text = unlines (dropReturn first :: solid rest) ++ '\n' :: blank := by
  obtain ⟨last, hlast, hreturn, hshort⟩ := hend
  rcases List.eq_nil_or_concat' rest with rfl | ⟨mid, last, rfl⟩
  · obtain rfl : first = last := Option.some.inj hlast
    refine .inl ((prepared_line h).trans ?_)
    rw [dropReturn_eq_self hreturn]
    rfl
  · rw [← List.cons_append, List.getLast?_concat] at hlast
    obtain rfl := Option.some.inj hlast
    rw [prepared_lines h, solid_append]
    cases hspaces : isSpaces last with
    | true =>
        rw [solid_spaces hspaces, solid_nil, List.append_nil, unlines_concat]
        exact .inr ⟨last, hspaces, hshort hspaces, rfl⟩
    | false =>
        rw [solid_single hspaces hreturn]
        exact .inl rfl

end Preparation

end Offside

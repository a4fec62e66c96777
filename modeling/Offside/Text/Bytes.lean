/-! # Bytes of a text — sizes, cuts and lines

    A text is a list of characters.  Offsets, columns and widths count the
    bytes of its UTF-8 form, so every measure here is a sum of character
    sizes.  A text is cut between characters only. -/

namespace Offside.Text

/-- The number of bytes of a text in UTF-8. -/
def bytes : List Char → Nat
  | [] => 0
  | c :: cs => c.utf8Size + bytes cs

@[simp] theorem bytes_nil : bytes [] = 0 := rfl

@[simp] theorem bytes_cons (c : Char) (cs : List Char) :
    bytes (c :: cs) = c.utf8Size + bytes cs := rfl

@[simp] theorem bytes_append (cs ds : List Char) : bytes (cs ++ ds) = bytes cs + bytes ds := by
  induction cs with
  | nil => simp
  | cons c cs ih => simp [ih, Nat.add_assoc]

theorem bytes_pos {cs : List Char} (h : cs ≠ []) : 0 < bytes cs := by
  cases cs with
  | nil => exact absurd rfl h
  | cons c cs => exact Nat.lt_of_lt_of_le c.utf8Size_pos (Nat.le_add_right ..)

theorem length_le_bytes (cs : List Char) : cs.length ≤ bytes cs := by
  induction cs with
  | nil => exact Nat.le_refl _
  | cons c cs ih =>
      have := c.utf8Size_pos
      simp only [List.length_cons, bytes_cons]
      omega

/-- Cut a text after its first `n` bytes.  A character that the cut would
    split stays in front; in bytes there is no such cut, so only one that falls
    between characters tells what bytes do. -/
def cut : Nat → List Char → List Char × List Char
  | 0, cs => ([], cs)
  | _ + 1, [] => ([], [])
  | n + 1, c :: cs =>
      let (front, back) := cut (n + 1 - c.utf8Size) cs
      (c :: front, back)

@[simp] theorem cut_zero (cs : List Char) : cut 0 cs = ([], cs) := by
  cases cs <;> rfl

/-- Nothing is lost in a cut. -/
theorem cut_append (n : Nat) (cs : List Char) : (cut n cs).1 ++ (cut n cs).2 = cs := by
  induction cs generalizing n with
  | nil => cases n <;> rfl
  | cons c cs ih =>
      cases n with
      | zero => rfl
      | succ n => simp [cut, ih]

/-- A cut at the size of a leading part returns that part. -/
theorem cut_bytes_append (cs ds : List Char) : cut (bytes cs) (cs ++ ds) = (cs, ds) := by
  induction cs with
  | nil => simp
  | cons c cs ih =>
      obtain ⟨n, hn⟩ : ∃ n, bytes (c :: cs) = n + 1 :=
        ⟨bytes (c :: cs) - 1, by have := bytes_pos (List.cons_ne_nil c cs); omega⟩
      have hsub : n + 1 - c.utf8Size = bytes cs := by
        rw [← hn, bytes_cons]; omega
      rw [hn, List.cons_append, cut, hsub, ih]

/-- A cut at a positive size leaves less than the whole. -/
theorem length_cut_lt {n : Nat} {cs : List Char} (hn : 0 < n) (hcs : cs ≠ []) :
    (cut n cs).2.length < cs.length := by
  cases n with
  | zero => exact absurd hn (Nat.lt_irrefl 0)
  | succ n =>
      cases cs with
      | nil => exact absurd rfl hcs
      | cons c cs =>
          have h := congrArg List.length (cut_append (n + 1 - c.utf8Size) cs)
          simp only [List.length_append] at h
          simp only [cut, List.length_cons]
          omega

/-- The text after its first `n` bytes, if a character ends there. -/
def dropBytes? : Nat → List Char → Option (List Char)
  | 0, cs => some cs
  | _ + 1, [] => none
  | n + 1, c :: cs => if c.utf8Size ≤ n + 1 then dropBytes? (n + 1 - c.utf8Size) cs else none

/-- The lines of a text: what stands before, between and after its newlines. -/
def lines : List Char → List (List Char)
  | [] => [[]]
  | c :: cs =>
      if c = '\n' then
        [] :: lines cs
      else
        match lines cs with
        | [] => [[c]]
        | l :: ls => (c :: l) :: ls

theorem lines_ne_nil (cs : List Char) : lines cs ≠ [] := by
  cases cs with
  | nil => exact List.cons_ne_nil _ _
  | cons c cs =>
      rw [lines]
      split
      · exact List.cons_ne_nil _ _
      · split <;> exact List.cons_ne_nil _ _

/-- Lines joined by newlines. -/
def unlines : List (List Char) → List Char
  | [] => []
  | [l] => l
  | l :: m :: ls => l ++ '\n' :: unlines (m :: ls)

/-- Splitting into lines and joining them again changes nothing. -/
theorem unlines_lines (cs : List Char) : unlines (lines cs) = cs := by
  induction cs with
  | nil => rfl
  | cons c cs ih =>
      rw [lines]
      split
      next h =>
        obtain ⟨l, ls, hl⟩ := List.exists_cons_of_ne_nil (lines_ne_nil cs)
        rw [hl] at ih ⊢
        rw [unlines, ih, h, List.nil_append]
      next h =>
        split
        next hl => exact absurd hl (lines_ne_nil cs)
        next l ls hl =>
          rw [hl] at ih
          cases ls with
          | nil => rw [unlines] at ih ⊢; rw [ih]
          | cons m ms => rw [unlines] at ih ⊢; rw [List.cons_append, ih]

theorem newline_notMem_lines (cs : List Char) : ∀ line ∈ lines cs, '\n' ∉ line := by
  induction cs with
  | nil => exact List.forall_mem_singleton.mpr List.not_mem_nil
  | cons c cs ih =>
      rw [lines]
      by_cases hc : c = '\n'
      · rw [if_pos hc]
        exact List.forall_mem_cons.mpr ⟨List.not_mem_nil, ih⟩
      · rw [if_neg hc]
        obtain ⟨l, ls, hl⟩ := List.exists_cons_of_ne_nil (lines_ne_nil cs)
        rw [hl] at ih ⊢
        obtain ⟨hfirst, hothers⟩ := List.forall_mem_cons.mp ih
        refine List.forall_mem_cons.mpr ⟨?_, hothers⟩
        exact List.not_mem_cons_of_ne_of_not_mem (Ne.symm hc) hfirst

/-- A text is its lines, and no newline is in them. -/
theorem of_lines {cs : List Char} {ls : List (List Char)} (h : lines cs = ls) :
    cs = unlines ls ∧ ∀ line ∈ ls, '\n' ∉ line := by
  subst h
  exact ⟨(unlines_lines cs).symm, newline_notMem_lines cs⟩

theorem unlines_cons (line : List Char) {ls : List (List Char)} (h : ls ≠ []) :
    unlines (line :: ls) = line ++ '\n' :: unlines ls := by
  obtain ⟨m, ms, rfl⟩ := List.exists_cons_of_ne_nil h
  rfl

theorem unlines_cons_concat (line last : List Char) (ls : List (List Char)) :
    unlines (line :: (ls ++ [last])) = line ++ '\n' :: unlines (ls ++ [last]) :=
  unlines_cons line (List.append_ne_nil_of_right_ne_nil ls (List.cons_ne_nil last []))

theorem unlines_concat (line last : List Char) (ls : List (List Char)) :
    unlines (line :: (ls ++ [last])) = unlines (line :: ls) ++ '\n' :: last := by
  induction ls generalizing line with
  | nil => rfl
  | cons m ms ih =>
      rw [List.cons_append, unlines_cons line (List.cons_ne_nil _ _),
        unlines_cons line (List.cons_ne_nil m ms), ih, List.append_assoc, List.cons_append]

theorem getElem?_lines_zero (cs : List Char) :
    (lines cs)[0]? = some (cs.takeWhile (· ≠ '\n')) := by
  induction cs with
  | nil => rfl
  | cons c cs ih =>
      rw [lines]
      by_cases hc : c = '\n'
      · subst hc
        rfl
      · rw [if_neg hc, List.takeWhile_cons_of_pos (p := (· ≠ '\n')) (decide_eq_true hc)]
        obtain ⟨l, ls, hl⟩ := List.exists_cons_of_ne_nil (lines_ne_nil cs)
        rw [hl] at ih ⊢
        exact congrArg (Option.map (c :: ·)) ih

/-- The line behind a newline comes after as many lines as there are newlines
    up to it. -/
theorem getElem?_lines (base cs : List Char) :
    (lines (base ++ '\n' :: cs))[base.count '\n' + 1]? = some (cs.takeWhile (· ≠ '\n')) := by
  induction base with
  | nil => exact getElem?_lines_zero cs
  | cons c base ih =>
      rw [List.cons_append, lines]
      by_cases hc : c = '\n'
      · subst hc
        rw [if_pos rfl, List.count_cons_self, List.getElem?_cons_succ]
        exact ih
      · rw [if_neg hc, List.count_cons_of_ne hc]
        obtain ⟨l, ls, hl⟩ := List.exists_cons_of_ne_nil (lines_ne_nil (base ++ '\n' :: cs))
        rw [hl] at ih ⊢
        exact ih

end Offside.Text

import Offside.Proofs.Regex.Search
import Offside.Regex.Reader

/-! # Literals — a text with its metacharacters escaped reads as itself

    A character that means something in patterns stands for itself behind a
    backslash, and any other does so alone.  So a text of any length is put
    into a pattern by escaping it.

    * `step_meta` and `step_plain` are the two steps of the reader;
    * `run_escapeLiteral` goes through an escaped text;
    * `read_tied` reads it between the start of the text and the end. -/

namespace Offside.Regex

/-! ## Steps -/

/-- A metacharacter behind a backslash stands for itself. -/
theorem readEscape_meta {c : Char} (h : c ∈ metaChars) (cs : List Char) :
    readEscape (c :: cs) = some (.literal c, cs) := by
  simp only [metaChars, List.mem_cons, List.not_mem_nil, or_false] at h
  rcases h with rfl | rfl | rfl | rfl | rfl | rfl | rfl | rfl | rfl | rfl | rfl | rfl | rfl |
    rfl | rfl | rfl | rfl | rfl <;> rfl

namespace Reading

variable {r : Reading}

/-- Add literal characters to the current level, one item each. -/
def pushChars (r : Reading) (text : List Char) : Reading :=
  text.foldl (fun r c => r.pushSimple (.set (.single c))) r

theorem pushChars_append (r : Reading) (text text' : List Char) :
    r.pushChars (text ++ text') = (r.pushChars text).pushChars text' := List.foldl_append ..

theorem literal_initial (h : r.level.flags = .initial) (c : Char) :
    r.level.flags.literal c = .single c := by
  rw [h]
  rfl

theorem step_meta (hflags : r.level.flags = .initial) {c : Char} (h : c ∈ metaChars)
    (cs : List Char) :
    r.step '\\' (c :: cs) = some (r.pushSimple (.set (.single c)), cs) := by
  rw [← literal_initial hflags c]
  simp only [step, readEscape_meta h]

theorem step_plain (hflags : r.level.flags = .initial) {c : Char} (h : c ∉ metaChars)
    (cs : List Char) : r.step c cs = some (r.pushSimple (.set (.single c)), cs) := by
  rw [← literal_initial hflags c]
  unfold step
  -- every other case of the reader belongs to a metacharacter
  split
  all_goals first
    | rfl
    | exact absurd (by decide) h

/-! ## Runs -/

theorem run_cons {c : Char} {cs rest : List Char} {r' : Reading} {fuel : Nat}
    (h : r.step c cs = some (r', rest)) : run (fuel + 1) r (c :: cs) = run fuel r' rest := by
  rw [run, h]

/-- An escaped text is gone through, and its characters have become items. -/
theorem run_escapeLiteral (text rest : List Char) (hflags : r.level.flags = .initial)
    {fuel : Nat} (hfuel : (escapeLiteral text ++ rest).length ≤ fuel) :
    ∃ fuel', rest.length ≤ fuel' ∧
      run fuel r (escapeLiteral text ++ rest) = run fuel' (r.pushChars text) rest := by
  induction text generalizing r fuel with
  | nil => exact ⟨fuel, hfuel, rfl⟩
  | cons c cs ih =>
      rw [escapeLiteral, List.flatMap_cons, ← escapeLiteral, List.append_assoc] at hfuel ⊢
      by_cases hc : c ∈ metaChars
      · rw [if_pos (List.contains_iff_mem.mpr hc)] at hfuel ⊢
        simp only [List.cons_append, List.nil_append, List.length_cons] at hfuel ⊢
        obtain ⟨n, rfl⟩ := Nat.exists_eq_add_of_le' (Nat.le_of_add_left_le hfuel)
        have hrest : (escapeLiteral cs ++ rest).length ≤ n := by omega
        rw [run_cons (step_meta hflags hc _)]
        exact ih (r := r.pushSimple (.set (.single c))) hflags hrest
      · rw [if_neg (by rwa [List.contains_iff_mem])] at hfuel ⊢
        simp only [List.cons_append, List.nil_append, List.length_cons] at hfuel ⊢
        obtain ⟨n, rfl⟩ := Nat.exists_eq_add_of_le' (Nat.le_of_add_left_le hfuel)
        have hrest : (escapeLiteral cs ++ rest).length ≤ n := by omega
        rw [run_cons (step_plain hflags hc _)]
        exact ih (r := r.pushSimple (.set (.single c))) hflags hrest

/-! ## Levels -/

theorem pushChars_eq (r : Reading) (text : List Char) : r.pushChars text =
    { r with level.items :=
        (text.map fun c => .pattern ⟨.set (.single c), 0⟩).reverse ++ r.level.items } := by
  induction text generalizing r with
  | nil => rfl
  | cons c cs ih =>
      rw [pushChars, List.foldl_cons, ← pushChars, ih]
      simp [pushSimple, push, Level.push]

end Reading

/-- Parts that have no parts of their own are nested once at most. -/
theorem jointDepth_le_one {depths : List Nat} (h : ∀ d ∈ depths, d = 0) :
    jointDepth depths ≤ 1 := by
  have hfold : depths.foldl max 0 = 0 := by
    rw [List.eq_replicate_of_mem h]
    induction depths.length with
    | zero => rfl
    | succ n ih => exact ih
  unfold jointDepth
  split
  next => exact Nat.zero_le 1
  next d => exact (h d (List.mem_singleton_self d)).symm ▸ Nat.zero_le 1
  next => exact Nat.le_of_eq (congrArg (· + 1) hfold)

/-- A level on which literal characters have been read. -/
def Level.ofChars (text : List Char) : Level :=
  ⟨.initial, [], (text.map fun c => .pattern ⟨.set (.single c), 0⟩).reverse⟩

theorem pattern_ofChars (text : List Char) :
    (Level.ofChars text).pattern.value = .seqs (text.map fun c => .set (.single c)) ∧
      (Level.ofChars text).pattern.depth ≤ 1 := by
  constructor
  · show Pattern.seqs (List.filterMap _ (List.reverse (List.reverse _))) = _
    rw [List.reverse_reverse, List.filterMap_map]
    exact congrArg Pattern.seqs (congrFun List.filterMap_eq_map text)
  · show jointDepth (List.map Item.depth (List.reverse _)) ≤ 1
    refine jointDepth_le_one fun d hd => ?_
    obtain ⟨item, hitem, rfl⟩ := List.mem_map.mp hd
    obtain ⟨c, -, rfl⟩ := List.mem_map.mp (List.mem_reverse.mp hitem)
    rfl

/-- The reader inside the group that ties a pattern to the start. -/
def Reading.tied : Reading :=
  { Reading.start with
    opened := [⟨none, Level.push (.empty .initial) ⟨.look .textStart, 0⟩⟩] }

/-- Closing the group leaves a pattern that is tied to the start. -/
theorem finish_tied (level : Level) (fuel : Nat) :
    (Reading.run (fuel + 1) { Reading.tied with level := level } [')']).bind Reading.finish =
      some ⟨.seq (.look .textStart) level.pattern.value,
        max (max 0 (level.pattern.depth + 1)) 0 + 1⟩ := by
  cases fuel <;> rfl

/-- A newline and an escaped text, tied to the start. -/
theorem read_tied (text : List Char) :
    Pattern.read? ('^' :: '(' :: '?' :: ':' :: ('\\' :: 'n' :: escapeLiteral text ++ [')'])) =
      some (.seq (.look .textStart) (.seqs (('\n' :: text).map fun c => .set (.single c)))) := by
  have hstart : ∀ fuel rest, Reading.run (fuel + 3) .start
      ('^' :: '(' :: '?' :: ':' :: '\\' :: 'n' :: rest) =
        Reading.run fuel (Reading.tied.pushChars ['\n']) rest := fun _ _ => rfl
  obtain ⟨fuel, hfuel, hrun⟩ := Reading.run_escapeLiteral (r := Reading.tied.pushChars ['\n'])
    text [')'] rfl (Nat.le_add_right _ 3)
  obtain ⟨n, rfl⟩ := Nat.exists_eq_add_of_le' hfuel
  have hchars : (Reading.tied.pushChars ['\n']).pushChars text =
      { Reading.tied with level := Level.ofChars ('\n' :: text) } := by
    rw [← Reading.pushChars_append, Reading.pushChars_eq]
    simp [Reading.tied, Reading.start, Level.empty, Level.ofChars]
  obtain ⟨hvalue, hdepth⟩ := pattern_ofChars ('\n' :: text)
  have hdone := finish_tied (.ofChars ('\n' :: text)) n
  rw [hvalue] at hdone
  have hshallow :
      max (max 0 ((Level.ofChars ('\n' :: text)).pattern.depth + 1)) 0 + 1 ≤ maxDepth := by
    rw [maxDepth]
    omega
  rw [Pattern.read?]
  simp only [List.cons_append, List.length_cons, hstart, hrun, hchars, List.length_nil,
    Nat.zero_add, hdone, hshallow, if_true]

end Offside.Regex

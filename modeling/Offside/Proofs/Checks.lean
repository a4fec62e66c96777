import Mathlib

/-! # Checks in order — which fault is reported

    Written data is checked piece by piece, and the first piece that is not
    as it must be decides the fault.  What is demanded can be listed in the
    order of the checks; then a check is known by its list, and checks one
    after the other by one list after the other.

    * `FirstFault` is the fault of the first demand that is not met;
    * `Checks` says that a computation fails with it, and only with it;
    * `Checks.bind` and `Checks.mapM` put checks together. -/

namespace Offside

variable {α β γ ε : Type}

/-- The fault of the first demand that is broken. -/
def FirstFault (breaks : α → ε → Prop) (demands : List α) (fault : ε) : Prop :=
  ∃ front a back, demands = front ++ a :: back ∧ breaks a fault ∧ ∀ b ∈ front, ∀ e, ¬ breaks b e

/-- A computation that checks demands one after the other: it fails with the
    fault of the first that is broken, and otherwise it does not fail. -/
def Checks (breaks : α → ε → Prop) (demands : List α) (result : Except ε β) : Prop :=
  ∀ fault, result = .error fault ↔ FirstFault breaks demands fault

/-! ## Computations that can fail -/

theorem exists_of_bind {x : Except ε β} {f : β → Except ε γ} {c : γ} (h : x >>= f = .ok c) :
    ∃ b, x = .ok b ∧ f b = .ok c := by
  cases x with
  | error e => cases h
  | ok b => exact ⟨b, rfl, h⟩

theorem bind_eq_error_iff {x : Except ε β} {f : β → Except ε γ} {e : ε} :
    x >>= f = .error e ↔ x = .error e ∨ ∃ b, x = .ok b ∧ f b = .error e := by
  cases x with
  | error e' =>
      constructor
      · rintro ⟨⟩
        exact .inl rfl
      · rintro (⟨⟨⟩⟩ | ⟨b, hb, -⟩)
        · rfl
        · cases hb
  | ok b =>
      constructor
      · intro h
        exact .inr ⟨b, rfl, h⟩
      · rintro (h | ⟨b', hb, h⟩)
        · cases h
        · cases hb
          exact h

/-- Items that are computed one by one come to their results in order. -/
theorem mapM_eq_ok_iff {f : β → Except ε γ} {xs : List β} {ys : List γ} :
    xs.mapM f = .ok ys ↔ List.Forall₂ (fun x y => f x = .ok y) xs ys := by
  induction xs generalizing ys with
  | nil =>
      rw [List.mapM_nil, List.forall₂_nil_left_iff]
      constructor
      · rintro ⟨⟩
        rfl
      · rintro rfl
        rfl
  | cons x xs ih =>
      rw [List.mapM_cons]
      constructor
      · intro h
        obtain ⟨y, hy, h⟩ := exists_of_bind h
        obtain ⟨ys', hys, h⟩ := exists_of_bind h
        cases h
        exact .cons hy (ih.mp hys)
      · rintro (_ | ⟨hy, hys⟩)
        rw [hy, ih.mpr hys]
        rfl

/-- Every result is that of an item. -/
theorem exists_of_forall₂ {R : α → β → Prop} {xs : List α} {ys : List β}
    (h : List.Forall₂ R xs ys) : ∀ y ∈ ys, ∃ x ∈ xs, R x y := by
  induction h with
  | nil => exact nofun
  | @cons x y xs ys hxy _ ih =>
      refine List.forall_mem_cons.mpr ⟨⟨x, List.mem_cons_self .., hxy⟩, fun y hy => ?_⟩
      obtain ⟨x', hx', hxy'⟩ := ih y hy
      exact ⟨x', List.mem_cons_of_mem _ hx', hxy'⟩

/-! ## Demands -/

variable {breaks : α → ε → Prop} {demands demands' : List α} {fault : ε}

theorem not_firstFault_nil : ¬ FirstFault breaks [] fault := by
  rintro ⟨front, a, back, h, -⟩
  exact List.append_ne_nil_of_right_ne_nil front (List.cons_ne_nil a back) h.symm

theorem firstFault_cons {a : α} : FirstFault breaks (a :: demands) fault ↔
    breaks a fault ∨ ((∀ e, ¬ breaks a e) ∧ FirstFault breaks demands fault) := by
  constructor
  · rintro ⟨front, b, back, h, hb, hfront⟩
    cases front with
    | nil =>
        obtain ⟨rfl, -⟩ := List.cons.inj h
        exact .inl hb
    | cons c front =>
        obtain ⟨rfl, hrest⟩ := List.cons.inj h
        obtain ⟨hfirst, hfront⟩ := List.forall_mem_cons.mp hfront
        exact .inr ⟨hfirst, front, b, back, hrest, hb, hfront⟩
  · rintro (ha | ⟨ha, front, b, back, rfl, hb, hfront⟩)
    · exact ⟨[], a, demands, rfl, ha, List.forall_mem_nil _⟩
    · exact ⟨a :: front, b, back, rfl, hb, List.forall_mem_cons.mpr ⟨ha, hfront⟩⟩

/-- The first fault of two lists is that of the second one only if nothing in
    the first is broken. -/
theorem firstFault_append : FirstFault breaks (demands ++ demands') fault ↔
    FirstFault breaks demands fault ∨
      ((∀ a ∈ demands, ∀ e, ¬ breaks a e) ∧ FirstFault breaks demands' fault) := by
  induction demands with
  | nil =>
      constructor
      · intro h
        exact .inr ⟨List.forall_mem_nil _, h⟩
      · rintro (h | ⟨-, h⟩)
        · exact absurd h not_firstFault_nil
        · exact h
  | cons a demands ih =>
      rw [List.cons_append, firstFault_cons, firstFault_cons, ih, List.forall_mem_cons, and_or_left,
        ← or_assoc, and_assoc]

/-- If something is broken, then something is the first to be so. -/
theorem exists_firstFault (h : ∃ a ∈ demands, ∃ e, breaks a e) :
    ∃ e, FirstFault breaks demands e := by
  induction demands with
  | nil =>
      obtain ⟨a, ha, -⟩ := h
      cases ha
  | cons a demands ih =>
      by_cases hfirst : ∃ e, breaks a e
      · obtain ⟨e, he⟩ := hfirst
        exact ⟨e, firstFault_cons.mpr (.inl he)⟩
      · have hrest : ∃ b ∈ demands, ∃ e, breaks b e := by
          obtain ⟨b, hb, hbreaks⟩ := h
          rcases List.mem_cons.mp hb with rfl | hb
          · exact absurd hbreaks hfirst
          · exact ⟨b, hb, hbreaks⟩
        obtain ⟨e, he⟩ := ih hrest
        exact ⟨e, firstFault_cons.mpr (.inr ⟨not_exists.mp hfirst, he⟩)⟩

/-! ## Checks -/

namespace Checks

variable {r : Except ε β}

/-- A computation that does not fail demands nothing. -/
theorem done (b : β) : Checks breaks [] (pure b : Except ε β) := by
  intro fault
  constructor
  · rintro ⟨⟩
  · intro h
    exact absurd h not_firstFault_nil

theorem one {a : α} (h : ∀ fault, r = .error fault ↔ breaks a fault) : Checks breaks [a] r := by
  intro fault
  rw [h, firstFault_cons]
  constructor
  · intro ha
    exact .inl ha
  · rintro (ha | ⟨-, hnil⟩)
    · exact ha
    · exact absurd hnil not_firstFault_nil

/-- A check that comes to a result has found nothing broken. -/
theorem met (h : Checks breaks demands r) {b : β} (hr : r = .ok b) :
    ∀ a ∈ demands, ∀ e, ¬ breaks a e := by
  intro a ha e hbreaks
  obtain ⟨e', he'⟩ := exists_firstFault ⟨a, ha, e, hbreaks⟩
  cases hr.symm.trans ((h e').mpr he')

/-- A check comes to a result exactly if nothing is broken. -/
theorem ok_iff (h : Checks breaks demands r) :
    (∃ b, r = .ok b) ↔ ∀ a ∈ demands, ∀ e, ¬ breaks a e := by
  constructor
  · rintro ⟨b, hr⟩
    exact h.met hr
  · intro hmet
    cases r with
    | ok b => exact ⟨b, rfl⟩
    | error e =>
        obtain ⟨front, a, back, rfl, hbreaks, -⟩ := (h e).mp rfl
        exact absurd hbreaks (hmet a (by simp) e)

/-- A single demand is met if what checks it comes to a result. -/
theorem met_iff {a : α} (h : ∀ fault, r = .error fault ↔ breaks a fault) :
    (∀ fault, ¬ breaks a fault) ↔ ∃ b, r = .ok b := by
  rw [(one h).ok_iff, List.forall_mem_singleton]

/-- One check after another. -/
theorem bind (h : Checks breaks demands r) {f : β → Except ε γ}
    (hf : ∀ b, r = .ok b → Checks breaks demands' (f b)) :
    Checks breaks (demands ++ demands') (r >>= f) := by
  intro fault
  rw [bind_eq_error_iff, firstFault_append, h fault]
  constructor
  · rintro (hfirst | ⟨b, hb, hfault⟩)
    · exact .inl hfirst
    · exact .inr ⟨h.met hb, (hf b hb fault).mp hfault⟩
  · rintro (hfirst | ⟨hmet, hfault⟩)
    · exact .inl hfirst
    · obtain ⟨b, hb⟩ := h.ok_iff.mpr hmet
      exact .inr ⟨b, hb, (hf b hb fault).mpr hfault⟩

/-- What is made of the result demands nothing more. -/
theorem map (h : Checks breaks demands r) (f : β → γ) :
    Checks breaks demands (r >>= fun b => pure (f b)) := by
  have hbind := h.bind fun b _ => done (f b)
  rwa [List.append_nil] at hbind

/-- Items that are checked one by one. -/
theorem mapM {f : β → Except ε γ} {xs : List β} {lists : List (List α)}
    (h : List.Forall₂ (fun x ds => Checks breaks ds (f x)) xs lists) :
    Checks breaks lists.flatten (xs.mapM f) := by
  induction h with
  | nil => exact done []
  | cons hx _ ih =>
      rw [List.mapM_cons, List.flatten_cons]
      refine hx.bind fun y _ => ?_
      exact ih.map (y :: ·)

/-- Items that are checked one by one, each with the demands that it makes. -/
theorem mapM_flatMap {f : β → Except ε γ} {xs : List β} {demandsOf : β → List α}
    (h : ∀ x ∈ xs, Checks breaks (demandsOf x) (f x)) :
    Checks breaks (xs.flatMap demandsOf) (xs.mapM f) := by
  rw [List.flatMap_def]
  refine Checks.mapM ?_
  rw [List.forall₂_map_right_iff]
  exact List.forall₂_same.mpr h

/-- Items of which each makes one demand. -/
theorem mapM_map {f : β → Except ε γ} {xs : List β} {demandOf : β → α}
    (h : ∀ x ∈ xs, ∀ fault, f x = .error fault ↔ breaks (demandOf x) fault) :
    Checks breaks (xs.map demandOf) (xs.mapM f) := by
  rw [List.map_eq_flatMap]
  exact mapM_flatMap fun x hx => .one (h x hx)

end Checks

end Offside

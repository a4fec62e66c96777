/-! # Ranges of code points — sets given as sorted intervals

    A property of characters is a sorted list of disjoint intervals of code
    points.  Membership walks the list and stops at the first interval that
    lies beyond the code point. -/

namespace Offside.Unicode

/-- Sorted, disjoint intervals of code points, both ends included. -/
abbrev Ranges := List (Nat × Nat)

/-- Whether a code point lies in one of the intervals. -/
def Ranges.has : Ranges → Nat → Bool
  | [], _ => false
  | (lo, hi) :: later, n =>
      if n < lo then false else if n ≤ hi then true else has later n

theorem Ranges.has_of_lt {lo hi n : Nat} {later : Ranges} (h : n < lo) :
    Ranges.has ((lo, hi) :: later) n = false := by
  rw [Ranges.has, if_pos h]

theorem Ranges.has_of_mem {lo hi n : Nat} {later : Ranges} (hlo : lo ≤ n) (hhi : n ≤ hi) :
    Ranges.has ((lo, hi) :: later) n = true := by
  rw [Ranges.has, if_neg (Nat.not_lt.mpr hlo), if_pos hhi]

end Offside.Unicode

/-! # Case maps — as runs of code points

    A case map is a list of runs.  A run takes every code point from `first`
    to `last` in steps of `step` and shifts it by the same amount, `first`
    going to `image`. -/

namespace Offside.Unicode

/-- Code points in arithmetic progression that a case map shifts together. -/
structure CaseRun where
  first : Nat
  last : Nat
  step : Nat
  image : Nat

/-- Where a run sends a code point, if the point belongs to it. -/
def CaseRun.imageOf? (r : CaseRun) (n : Nat) : Option Nat :=
  if r.first ≤ n ∧ n ≤ r.last ∧ (n - r.first) % r.step = 0 then
    some (r.image + (n - r.first))
  else
    none

/-- Where a run takes a code point from, if the point is an image of it. -/
def CaseRun.sourceOf? (r : CaseRun) (n : Nat) : Option Nat :=
  if r.image ≤ n ∧ n - r.image ≤ r.last - r.first ∧ (n - r.image) % r.step = 0 then
    some (r.first + (n - r.image))
  else
    none

/-- The image of a code point under a case map; points in no run stay. -/
def caseImage (runs : List CaseRun) (n : Nat) : Nat :=
  (runs.findSome? (CaseRun.imageOf? · n)).getD n

end Offside.Unicode

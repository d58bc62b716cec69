import Mathlib.Tactic

/-!
# A bisection with a first guess

A search for a threshold between two bounds. The first guess is free, each later one is in the middle. A guess that
holds becomes the lower bound, another one the upper bound.
-/

namespace Bisection

/-- The bounds and the next guess. -/
structure Interval where
  lo : Nat
  hi : Nat
  guess : Nat

/-- The guess in the middle. -/
def halve (lo hi : Nat) : Interval := ⟨lo, hi, lo + (hi - lo) / 2⟩

def Interval.next (i : Interval) (holds : Bool) : Interval :=
  if holds then halve i.guess i.hi else halve i.lo i.guess

/-- The interval at the end of a search for `threshold`. -/
def run (threshold : Nat) : (fuel : Nat) → Interval → Interval
  | 0, i => i
  | fuel + 1, i => if 1 < i.hi - i.lo then run threshold fuel (i.next (decide (i.guess ≤ threshold))) else i

/-- A guess between the bounds. -/
structure Interval.Within (i : Interval) : Prop where
  lo : i.lo ≤ i.guess
  hi : i.guess ≤ i.hi

theorem halve_within {lo hi : Nat} (le : lo ≤ hi) : (halve lo hi).Within := by
  constructor
  · exact Nat.le_add_right lo _
  · simp only [halve]
    omega

theorem Interval.Within.next {i : Interval} (within : i.Within) (holds : Bool) : (i.next holds).Within := by
  cases holds with
  | false => exact halve_within within.lo
  | true => exact halve_within within.hi

variable {threshold fuel : Nat}

end Bisection

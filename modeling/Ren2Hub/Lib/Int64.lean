import Mathlib.Algebra.Group.Int.Defs

namespace Ren2Hub.Lib

variable {x : Int}

/-- What an `int64` holds of a number. -/
def int64 (x : Int) : Int := (x + 2 ^ 63) % 2 ^ 64 - 2 ^ 63

theorem int64_eq (h : -2 ^ 63 ≤ x ∧ x < 2 ^ 63) : int64 x = x := by
  unfold int64
  omega

theorem int64_succ (h0 : 0 ≤ x) (h1 : x < 2 ^ 63) (hpos : 0 < int64 (x + 1)) :
    int64 (x + 1) = x + 1 ∧ x + 1 < 2 ^ 63 := by
  unfold int64 at hpos ⊢
  omega

end Ren2Hub.Lib

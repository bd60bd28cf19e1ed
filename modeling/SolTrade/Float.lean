import Mathlib.Data.Int.Log
import Mathlib.Data.Rat.Floor

/-!
Floats, as the numbers that they stand for.
-/

namespace SolTrade

/-- The integer nearest to a number, the even one of two. -/
def nearestEven (x : ℚ) : ℤ :=
  let low := ⌊x⌋
  if 1 < 2 * (x - low) ∨ (2 * (x - low) = 1 ∧ low % 2 = 1) then low + 1 else low

/-- The float nearest to a number whose size is neither too large nor too small for 53 bits. -/
def toFloat (x : ℚ) : ℚ :=
  if x = 0 then 0
  else
    let unit : ℚ := 2 ^ (Int.log 2 |x| - 52)
    nearestEven (x / unit) * unit

/-- `int(x)`. -/
def truncate (x : ℚ) : ℤ := if 0 ≤ x then ⌊x⌋ else ⌈x⌉

end SolTrade

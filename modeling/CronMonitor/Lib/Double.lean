import Mathlib.Data.Rat.Floor

/-!
# Double precision

The doubles are taken as the rationals that they are: an operation of the code is the exact one with its result passed
through `round`, to the nearest with 53 bits and ties to even. `shortest` is the decimal that a double is printed as.
Infinities, `NaN` and the sign of zero are left out.
-/

namespace Double

/-- `n / d` to the nearest integer, ties to even. -/
def divEven (n d : ℕ) : ℕ :=
  let q := n / d
  if 2 * (n % d) < d ∨ 2 * (n % d) = d ∧ q % 2 = 0 then q else q + 1

/-- The exponent of the last of the 53 bits of `n / d`; that of a subnormal is `-1074`. -/
def exponent (n d : ℕ) : ℤ :=
  let k : ℤ := n.log2 - d.log2
  let k := if d * 2 ^ k.toNat ≤ n * 2 ^ (-k).toNat then k else k - 1
  max (k - 52) (-1074)

def roundQuotient (n d : ℕ) : ℚ :=
  let e := exponent n d
  divEven (n * 2 ^ (-e).toNat) (d * 2 ^ e.toNat) * 2 ^ e.toNat / 2 ^ (-e).toNat

/-- The double nearest to a rational. -/
def round (x : ℚ) : ℚ := if x < 0 then -roundQuotient x.num.natAbs x.den else roundQuotient x.num.natAbs x.den

-- `0.1 + 0.2`
example : round (round (1 / 10) + round (2 / 10)) = round (30000000000000004 / 10 ^ 17) := by decide +kernel

/-! ### Decimals -/

/-- The two decimals of `k` places around a nonnegative rational, the nearer one first. -/
def decimals (k : ℕ) (x : ℚ) : List ℚ :=
  let lo := ⌊x * 10 ^ k⌋
  if x * 10 ^ k - lo ≤ 1 / 2 then [lo / 10 ^ k, (lo + 1) / 10 ^ k] else [(lo + 1) / 10 ^ k, lo / 10 ^ k]

/-- The first decimal of `k` places or more that stands for `x`. -/
def shortestFrom (x : ℚ) : ℕ → ℕ → ℚ
  | 0, _ => x
  | fuel + 1, k => ((decimals k x).find? fun y => round y = x).getD (shortestFrom x fuel (k + 1))

/-- The decimal of fewest places that stands for a nonnegative double below `2 ^ 53`. -/
def shortest (x : ℚ) : ℚ := shortestFrom x 1075 0

example : shortest (round (1 / 3)) = 3333333333333333 / 10 ^ 16 := by decide +kernel

end Double

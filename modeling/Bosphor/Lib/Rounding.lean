import Mathlib.Algebra.Order.Field.Rat
import Mathlib.Algebra.Order.Floor.Defs
import Mathlib.Data.Rat.Floor

/-!
# Rounded arithmetic

Numbers whose operations are exact up to a final rounding, as the double
precision numbers of a language are while they stay finite. All that is asked
of the rounding is that it is monotone; with the identity the arithmetic is
exact (`Rounding.exact`).
-/

/-- A monotone rounding. -/
structure Rounding where
  round : ℚ → ℚ
  mono : Monotone round

namespace Rounding

/-- No rounding at all. -/
def exact : Rounding := ⟨id, monotone_id⟩

variable (fl : Rounding)

def ofNat (n : Nat) : ℚ := fl.round n

def add (x y : ℚ) : ℚ := fl.round (x + y)

def sub (x y : ℚ) : ℚ := fl.round (x - y)

def mul (x y : ℚ) : ℚ := fl.round (x * y)

def div (x y : ℚ) : ℚ := fl.round (x / y)

theorem ofNat_le {m n : Nat} (h : m ≤ n) : fl.ofNat m ≤ fl.ofNat n := fl.mono (Nat.cast_le.mpr h)

theorem div_le {x y c : ℚ} (hc : 0 < c) (h : x ≤ y) : fl.div x c ≤ fl.div y c :=
  fl.mono (div_le_div_of_nonneg_right h hc.le)

theorem mul_le {x y c : ℚ} (hc : 0 ≤ c) (h : x ≤ y) : fl.mul x c ≤ fl.mul y c :=
  fl.mono (mul_le_mul_of_nonneg_right h hc)

end Rounding

import Bosphor.Lib.Rounding
import Mathlib.Algebra.Order.Field.Basic
import Mathlib.Tactic.GCongr
import Mathlib.Tactic.Linarith
import Mathlib.Tactic.Positivity
import Mathlib.Tactic.Ring

/-!
# Relative error

Arithmetic whose every rounding is off by a fraction `u` of the number at most,
as that of the doubles is away from underflow and overflow. `Near u k x y`: `y`
is the number `x` after `k` such roundings, so that a formula and its rounded
value are compared by counting (`Near.mul`, `Near.add`, `Near.round`).
-/

/-- Every rounding is off by a fraction `u` at most. -/
structure Rounding.Within (fl : Rounding) (u : ℚ) : Prop where
  nonneg : 0 ≤ u
  lt_one : u < 1
  error : ∀ x, |fl.round x - x| ≤ u * |x|

theorem Rounding.exact_within : Rounding.exact.Within 0 where
  nonneg := le_rfl
  lt_one := zero_lt_one
  error x := by
    show |x - x| ≤ 0 * |x|
    rw [sub_self, abs_zero, zero_mul]

/-- The number `x` after `k` roundings. -/
structure Near (u : ℚ) (k : Nat) (x y : ℚ) : Prop where
  nonneg : 0 ≤ x
  low : (1 - u) ^ k * x ≤ y
  high : y ≤ (1 + u) ^ k * x

variable {fl : Rounding} {u x y z w : ℚ} {k l : Nat}

namespace Rounding.Within

theorem round_bounds (h : fl.Within u) (hx : 0 ≤ x) :
    (1 - u) * x ≤ fl.round x ∧ fl.round x ≤ (1 + u) * x := by
  have herror := abs_le.mp (h.error x)
  rw [abs_of_nonneg hx] at herror
  constructor <;> linarith [herror.1, herror.2]

/-- A difference loses a fraction at most. -/
theorem abs_sub_le (h : fl.Within u) (a b : ℚ) : (1 - u) * |a - b| ≤ |fl.sub a b| := by
  have herror := h.error (a - b)
  have htri : |a - b| ≤ |fl.sub a b| + |fl.sub a b - (a - b)| := by
    have hsum := abs_sub (fl.sub a b) (fl.sub a b - (a - b))
    rwa [sub_sub_cancel] at hsum
  have hlost : |fl.sub a b - (a - b)| ≤ u * |a - b| := herror
  linarith

/-- What a rounded quotient bounds. -/
theorem le_of_div (h : fl.Within u) {d : ℚ} (hx : 0 ≤ x) (hy : 0 < y) (hdiv : fl.div x y ≤ d) :
    (1 - u) * x ≤ d * y := by
  have hround := (h.round_bounds (div_nonneg hx hy.le)).1.trans hdiv
  rw [← mul_div_assoc, div_le_iff₀ hy] at hround
  exact hround

end Rounding.Within

namespace Near

theorem start (hx : 0 ≤ x) : Near u 0 x x where
  nonneg := hx
  low := by rw [pow_zero, one_mul]
  high := by rw [pow_zero, one_mul]

theorem nonneg_right (h : Near u k x y) (hu : u < 1) : 0 ≤ y :=
  (mul_nonneg (pow_nonneg (sub_nonneg.mpr hu.le) k) h.nonneg).trans h.low

theorem round (hfl : fl.Within u) (h : Near u k x y) : Near u (k + 1) x (fl.round y) := by
  obtain ⟨hlow, hhigh⟩ := hfl.round_bounds (h.nonneg_right hfl.lt_one)
  have hu : 0 ≤ 1 - u := sub_nonneg.mpr hfl.lt_one.le
  have hu' : 0 ≤ 1 + u := add_nonneg zero_le_one hfl.nonneg
  refine ⟨h.nonneg, ?_, ?_⟩
  · calc (1 - u) ^ (k + 1) * x = (1 - u) * ((1 - u) ^ k * x) := by ring
      _ ≤ (1 - u) * y := mul_le_mul_of_nonneg_left h.low hu
      _ ≤ fl.round y := hlow
  · calc fl.round y ≤ (1 + u) * y := hhigh
      _ ≤ (1 + u) * ((1 + u) ^ k * x) := mul_le_mul_of_nonneg_left h.high hu'
      _ = (1 + u) ^ (k + 1) * x := by ring

/-- More roundings allow for more. -/
theorem mono (hfl : fl.Within u) (h : Near u k x y) (hkl : k ≤ l) : Near u l x y where
  nonneg := h.nonneg
  low := (mul_le_mul_of_nonneg_right (pow_le_pow_of_le_one (sub_nonneg.mpr hfl.lt_one.le)
    (sub_le_self 1 hfl.nonneg) hkl) h.nonneg).trans h.low
  high := h.high.trans (mul_le_mul_of_nonneg_right (pow_le_pow_right₀ (le_add_of_nonneg_right hfl.nonneg) hkl) h.nonneg)

theorem mul_exact (hfl : fl.Within u) (h : Near u k x y) (h' : Near u l z w) : Near u (k + l) (x * z) (y * w) := by
  have hu : 0 ≤ 1 - u := sub_nonneg.mpr hfl.lt_one.le
  have hu' : 0 ≤ 1 + u := add_nonneg zero_le_one hfl.nonneg
  have hy := h.nonneg_right hfl.lt_one
  have hw := h'.nonneg_right hfl.lt_one
  refine ⟨mul_nonneg h.nonneg h'.nonneg, ?_, ?_⟩
  · calc (1 - u) ^ (k + l) * (x * z) = (1 - u) ^ k * x * ((1 - u) ^ l * z) := by ring
      _ ≤ y * w := mul_le_mul h.low h'.low (mul_nonneg (pow_nonneg hu l) h'.nonneg) hy
  · calc y * w ≤ (1 + u) ^ k * x * ((1 + u) ^ l * z) :=
          mul_le_mul h.high h'.high hw (mul_nonneg (pow_nonneg hu' k) h.nonneg)
      _ = (1 + u) ^ (k + l) * (x * z) := by ring

theorem mul (hfl : fl.Within u) (h : Near u k x y) (h' : Near u l z w) :
    Near u (k + l + 1) (x * z) (fl.mul y w) := (h.mul_exact hfl h').round hfl

theorem add (hfl : fl.Within u) (h : Near u k x y) (h' : Near u k z w) : Near u (k + 1) (x + z) (fl.add y w) := by
  refine round hfl ⟨add_nonneg h.nonneg h'.nonneg, ?_, ?_⟩
  · rw [mul_add]
    exact add_le_add h.low h'.low
  · rw [mul_add]
    exact add_le_add h.high h'.high

/-- By a number that is not rounded. -/
theorem div (hfl : fl.Within u) (h : Near u k x y) {c : ℚ} (hc : 0 < c) : Near u (k + 1) (x / c) (fl.div y c) := by
  have hexact : Near u k (x / c) (y / c) := by
    have hinv := h.mul_exact hfl (.start (inv_nonneg.mpr hc.le))
    rwa [Nat.add_zero, ← div_eq_mul_inv, ← div_eq_mul_inv] at hinv
  exact hexact.round hfl

theorem ofNat (hfl : fl.Within u) (n : Nat) : Near u 1 (n : ℚ) (fl.ofNat n) :=
  (Near.start (Nat.cast_nonneg n)).round hfl

end Near

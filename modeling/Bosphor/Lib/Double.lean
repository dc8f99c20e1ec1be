import Bosphor.Lib.Decimal
import Mathlib.Data.Nat.Dist
import Mathlib.Tactic.Ring

/-!
# Whole numbers in double precision

A whole number is rounded to the nearest double (`round`): to itself below
`2 ^ 53` (`round_of_lt`), and to a multiple of the distance that the doubles
have where it is (`unit_eq`). A double is written with the fewest decimal digits
that read as it (`shortest`), that is as a multiple of the highest power of ten
of which a multiple reads as it, the nearest of these (`Written`,
`shortest_written`).
-/

namespace Double

/-- The nearest multiple of `u`, and of two the even one. -/
def nearest (u n : Nat) : Nat :=
  if 2 * (n % u) < u ∨ (2 * (n % u) = u ∧ n / u % 2 = 0) then n / u * u else (n / u + 1) * u

/-- The distance of the doubles at `n`. -/
def unit (n : Nat) : Nat := 2 ^ (n.log2 + 1 - 53)

/-- The nearest double. -/
def round (n : Nat) : Nat := nearest (unit n) n

/-! ## Rounding -/

theorem dvd_nearest (u n : Nat) : u ∣ nearest u n := by
  unfold nearest
  split
  · exact Nat.dvd_mul_left u _
  · exact Nat.dvd_mul_left u _

theorem nearest_of_dvd {u n : Nat} (h : u ∣ n) : nearest u n = n := by
  unfold nearest
  rw [Nat.mod_eq_zero_of_dvd h, Nat.mul_zero]
  split
  · exact Nat.div_mul_cancel h
  · rename_i hu
    have hzero : u = 0 := by omega
    rw [hzero, Nat.mul_zero]
    exact (Nat.eq_zero_of_zero_dvd (hzero ▸ h)).symm

theorem nearest_bounds (u n : Nat) : n / u * u ≤ nearest u n ∧ nearest u n ≤ (n / u + 1) * u := by
  have hstep : n / u * u ≤ (n / u + 1) * u := Nat.mul_le_mul_right u (Nat.le_succ _)
  unfold nearest
  split
  · exact ⟨le_rfl, hstep⟩
  · exact ⟨hstep, le_rfl⟩

theorem nearest_mono (u : Nat) {m n : Nat} (h : m ≤ n) : nearest u m ≤ nearest u n := by
  obtain hlt | heq := Nat.lt_or_eq_of_le (Nat.div_le_div_right (c := u) h)
  · calc nearest u m ≤ (m / u + 1) * u := (nearest_bounds u m).2
      _ ≤ n / u * u := Nat.mul_le_mul_right u hlt
      _ ≤ nearest u n := (nearest_bounds u n).1
  · -- in the same interval the remainders decide
    have hm := Nat.div_add_mod m u
    have hn := Nat.div_add_mod n u
    rw [heq] at hm
    have hr : m % u ≤ n % u := by omega
    have hstep : n / u * u ≤ (n / u + 1) * u := Nat.mul_le_mul_right u (Nat.le_succ _)
    unfold nearest
    rw [heq]
    split <;> split <;> first | exact le_rfl | exact hstep | omega

/-- It is off by half of `u` at most. -/
theorem nearest_near {u : Nat} (hu : 0 < u) (n : Nat) : 2 * n ≤ 2 * nearest u n + u ∧ 2 * nearest u n ≤ 2 * n + u := by
  have hn := Nat.div_add_mod n u
  have hr := Nat.mod_lt n hu
  rw [Nat.mul_comm] at hn
  have hsucc : (n / u + 1) * u = n / u * u + u := Nat.succ_mul _ _
  unfold nearest
  split
  · omega
  · omega

theorem nearest_add {u : Nat} (hu : 0 < u) (k n : Nat) : nearest u (2 * k * u + n) = 2 * k * u + nearest u n := by
  have hdiv : (2 * k * u + n) / u = 2 * k + n / u := by
    rw [Nat.add_comm, Nat.add_mul_div_right _ _ hu, Nat.add_comm]
  have hmod : (2 * k * u + n) % u = n % u := by rw [Nat.add_comm, Nat.add_mul_mod_self_right]
  have heven : (2 * k + n / u) % 2 = n / u % 2 := by omega
  unfold nearest
  rw [hdiv, hmod, heven, Nat.add_assoc (2 * k), Nat.add_mul, Nat.add_mul (2 * k)]
  split
  · rfl
  · rfl

theorem unit_eq {n k : Nat} (hlow : 2 ^ k ≤ n) (hhigh : n < 2 ^ (k + 1)) : unit n = 2 ^ (k + 1 - 53) := by
  have hne : n ≠ 0 := by
    have := Nat.two_pow_pos k
    omega
  rw [unit, (Nat.log2_eq_iff hne).mpr ⟨hlow, hhigh⟩]

theorem unit_le {n k : Nat} (h : n < 2 ^ k) : unit n ≤ 2 ^ (k - 53) := by
  by_cases hn : n = 0
  · subst hn
    exact Nat.one_le_two_pow
  · have := (Nat.log2_lt hn).mpr h
    exact Nat.pow_le_pow_right (by decide) (by omega)

theorem unit_pos (n : Nat) : 0 < unit n := Nat.two_pow_pos _

theorem unit_of_lt {n : Nat} (h : n < 2 ^ 53) : unit n = 1 := le_antisymm (unit_le h) (unit_pos n)

theorem round_of_lt {n : Nat} (h : n < 2 ^ 53) : round n = n := by
  rw [round, unit_of_lt h]
  exact nearest_of_dvd (Nat.one_dvd n)

theorem round_two_pow (k : Nat) : round (2 ^ k) = 2 ^ k := by
  rw [round, unit_eq le_rfl (Nat.pow_lt_pow_right (by decide) (Nat.lt_succ_self k))]
  exact nearest_of_dvd (Nat.pow_dvd_pow 2 (by omega))

/-- A number stays between the powers of two that it is between. -/
theorem round_between {n k : Nat} (hlow : 2 ^ k ≤ n) (hhigh : n < 2 ^ (k + 1)) :
    2 ^ k ≤ round n ∧ round n ≤ 2 ^ (k + 1) := by
  rw [round, unit_eq hlow hhigh]
  have hdvd (j : Nat) (hj : k ≤ j) : nearest (2 ^ (k + 1 - 53)) (2 ^ j) = 2 ^ j :=
    nearest_of_dvd (Nat.pow_dvd_pow 2 (by omega))
  constructor
  · rw [← hdvd k le_rfl]
    exact nearest_mono _ (hdvd k le_rfl ▸ hlow)
  · rw [← hdvd (k + 1) (by omega)]
    exact nearest_mono _ (hdvd (k + 1) (by omega) ▸ hhigh.le)

theorem round_mono {m n : Nat} (h : m ≤ n) : round m ≤ round n := by
  by_cases hm : m = 0
  · subst hm
    exact Nat.zero_le _
  · have hn : n ≠ 0 := by omega
    have hml := (Nat.log2_eq_iff hm).mp rfl
    have hnl := (Nat.log2_eq_iff hn).mp rfl
    obtain hlt | heq := Nat.lt_or_ge m.log2 n.log2
    · calc round m ≤ 2 ^ (m.log2 + 1) := (round_between hml.1 hml.2).2
        _ ≤ 2 ^ n.log2 := Nat.pow_le_pow_right (by decide) hlt
        _ ≤ round n := (round_between hnl.1 hnl.2).1
    · have hle : m.log2 ≤ n.log2 := by
        by_contra hgt
        have := Nat.pow_le_pow_right (show 0 < 2 by decide) (show n.log2 + 1 ≤ m.log2 by omega)
        omega
      rw [round, round, unit, unit, show m.log2 = n.log2 by omega]
      exact nearest_mono _ h

/-- It is off by half of the distance of the doubles at most. -/
theorem round_near (n : Nat) : 2 * n ≤ 2 * round n + unit n ∧ 2 * round n ≤ 2 * n + unit n :=
  nearest_near (unit_pos n) n

/-- What is rounded is a double. -/
theorem round_round (n : Nat) : round (round n) = round n := by
  by_cases hn : n = 0
  · subst hn
    rfl
  · have hl := (Nat.log2_eq_iff hn).mp rfl
    obtain ⟨hlow, hhigh⟩ := round_between hl.1 hl.2
    obtain hlt | heq := Nat.lt_or_eq_of_le hhigh
    · have hunit : unit (round n) = unit n := by rw [unit_eq hlow hlt, unit]
      conv_lhs => rw [round, hunit]
      exact nearest_of_dvd (dvd_nearest _ _)
    · rw [heq, round_two_pow]

/-! ## The decimal digits of a double -/

/-- The nearest multiple of `10 ^ j` that reads as the double `x`. -/
def decimalAt (x j : Nat) : Option Nat :=
  let low := x / 10 ^ j * 10 ^ j
  let high := (x / 10 ^ j + 1) * 10 ^ j
  if round low = x ∧ round high = x then some (nearest (10 ^ j) x)
  else if round low = x then some low
  else if round high = x then some high
  else none

def shortestFrom (x : Nat) : Nat → Nat
  | 0 => x
  | j + 1 => (decimalAt x (j + 1)).getD (shortestFrom x j)

/-- The number with the fewest decimal digits that reads as the double `x`. -/
def shortest (x : Nat) : Nat := shortestFrom x (x.log2 + 1)

/-- The digits of `v` are those of the double `x`: no multiple of a higher power of ten reads as it, and none of this
power that does is nearer. -/
structure Written (x v i : Nat) : Prop where
  dvd : 10 ^ i ∣ v
  reads : round v = x
  near : ∀ w, 10 ^ i ∣ w → round w = x → Nat.dist v x ≤ Nat.dist w x
  fewest : ∀ j w, i < j → 10 ^ j ∣ w → round w ≠ x

variable {x v w j : Nat}

/-- Of the multiples that read as a double, the nearest are on both sides of it. -/
theorem reads_side (hx : round x = x) (hdvd : 10 ^ j ∣ w) (hw : round w = x) :
    (w ≤ x / 10 ^ j * 10 ^ j ∧ round (x / 10 ^ j * 10 ^ j) = x) ∨
      ((x / 10 ^ j + 1) * 10 ^ j ≤ w ∧ round ((x / 10 ^ j + 1) * 10 ^ j) = x) := by
  have hpos : 0 < 10 ^ j := Nat.pow_pos (by decide)
  obtain ⟨q, rfl⟩ := hdvd
  rw [Nat.mul_comm] at hw ⊢
  have hlow : x / 10 ^ j * 10 ^ j ≤ x := Nat.div_mul_le_self x _
  have hhigh : x < (x / 10 ^ j + 1) * 10 ^ j := by
    rw [Nat.mul_comm]
    exact Nat.lt_mul_div_succ x hpos
  obtain hq | hq := Nat.lt_or_ge (x / 10 ^ j) q
  · have hle : (x / 10 ^ j + 1) * 10 ^ j ≤ q * 10 ^ j := Nat.mul_le_mul_right _ hq
    exact Or.inr ⟨hle, le_antisymm ((round_mono hle).trans hw.le) (hx.ge.trans (round_mono hhigh.le))⟩
  · have hle : q * 10 ^ j ≤ x / 10 ^ j * 10 ^ j := Nat.mul_le_mul_right _ hq
    exact Or.inl ⟨hle, le_antisymm ((round_mono hlow).trans hx.le) (hw.ge.trans (round_mono hle))⟩

theorem decimalAt_none (hx : round x = x) (h : decimalAt x j = none) (hdvd : 10 ^ j ∣ w) : round w ≠ x := by
  intro hw
  unfold decimalAt at h
  obtain ⟨-, hlow⟩ | ⟨-, hhigh⟩ := reads_side hx hdvd hw
  · simp only [hlow, true_and, if_true] at h
    split at h <;> cases h
  · simp only [hhigh, and_true, if_true] at h
    split at h <;> cases h

theorem decimalAt_some (hx : round x = x) (h : decimalAt x j = some v) :
    10 ^ j ∣ v ∧ round v = x ∧ ∀ w, 10 ^ j ∣ w → round w = x → Nat.dist v x ≤ Nat.dist w x := by
  have hpos : 0 < 10 ^ j := Nat.pow_pos (by decide)
  have hlow : x / 10 ^ j * 10 ^ j ≤ x := Nat.div_mul_le_self x _
  have hhigh : x < (x / 10 ^ j + 1) * 10 ^ j := by
    rw [Nat.mul_comm]
    exact Nat.lt_mul_div_succ x hpos
  unfold decimalAt at h
  dsimp only at h
  split at h
  · rename_i hboth
    cases h
    refine ⟨dvd_nearest _ _, ?_, fun w hdvd hw => ?_⟩
    · unfold nearest
      split
      · exact hboth.1
      · exact hboth.2
    · have hsum : (x / 10 ^ j + 1) * 10 ^ j = x / 10 ^ j * 10 ^ j + 10 ^ j := Nat.succ_mul _ _
      have hx' : x / 10 ^ j * 10 ^ j + x % 10 ^ j = x := by
        rw [Nat.mul_comm]
        exact Nat.div_add_mod x _
      have hside := reads_side hx hdvd hw
      unfold nearest
      simp only [Nat.dist]
      split
      · omega
      · omega
  · rename_i hnot
    split at h
    · rename_i hl
      cases h
      refine ⟨Nat.dvd_mul_left _ _, hl, fun w hdvd hw => ?_⟩
      obtain ⟨hle, -⟩ | ⟨-, hh⟩ := reads_side hx hdvd hw
      · simp only [Nat.dist]
        omega
      · exact absurd ⟨hl, hh⟩ hnot
    · rename_i hl
      split at h
      · rename_i hh
        cases h
        refine ⟨Nat.dvd_mul_left _ _, hh, fun w hdvd hw => ?_⟩
        obtain ⟨-, hl'⟩ | ⟨hle, -⟩ := reads_side hx hdvd hw
        · exact absurd hl' hl
        · simp only [Nat.dist]
          omega
      · cases h

theorem shortestFrom_written (hx : round x = x) : ∀ k, ∃ i, i ≤ k ∧ 10 ^ i ∣ shortestFrom x k ∧
    round (shortestFrom x k) = x ∧
    (∀ w, 10 ^ i ∣ w → round w = x → Nat.dist (shortestFrom x k) x ≤ Nat.dist w x) ∧
    ∀ j w, i < j → j ≤ k → 10 ^ j ∣ w → round w ≠ x
  | 0 => by
    refine ⟨0, le_rfl, Nat.one_dvd _, hx, fun w _ _ => ?_, fun j w hlt hle => absurd hlt (by omega)⟩
    rw [shortestFrom, Nat.dist_self]
    exact Nat.zero_le _
  | k + 1 => by
    rw [shortestFrom]
    cases h : decimalAt x (k + 1) with
    | some v =>
      obtain ⟨hdvd, hreads, hnear⟩ := decimalAt_some hx h
      exact ⟨k + 1, le_rfl, hdvd, hreads, hnear, fun j w hlt hle => absurd hlt (by omega)⟩
    | none =>
      obtain ⟨i, hi, hdvd, hreads, hnear, hfewest⟩ := shortestFrom_written hx k
      refine ⟨i, by omega, hdvd, hreads, hnear, fun j w hlt hle hw => ?_⟩
      obtain hlt' | rfl := Nat.lt_or_eq_of_le hle
      · exact hfewest j w hlt (by omega) hw
      · exact decimalAt_none hx h hw

/-- What the digits of a double are. -/
theorem shortest_written (hpos : 0 < x) (hx : round x = x) : ∃ i, Written x (shortest x) i := by
  obtain ⟨i, -, hdvd, hreads, hnear, hfewest⟩ := shortestFrom_written hx (x.log2 + 1)
  refine ⟨i, hdvd, hreads, hnear, fun j w hlt hw => ?_⟩
  obtain hgt | hle := Nat.lt_or_ge (x.log2 + 1) j
  · -- such a multiple is nothing, or too much
    intro hread
    have hne : w ≠ 0 := by
      rintro rfl
      rw [round_of_lt (by decide)] at hread
      omega
    have hlog := ((Nat.log2_eq_iff (by omega : x ≠ 0)).mp rfl).2
    have hbig : 2 ^ (x.log2 + 1) ≤ w := by
      calc 2 ^ (x.log2 + 1) ≤ 2 ^ j := Nat.pow_le_pow_right (by decide) (by omega)
        _ ≤ 10 ^ j := Nat.pow_le_pow_left (by decide) j
        _ ≤ w := Nat.le_of_dvd (by omega) hw
    have := round_mono hbig
    rw [round_two_pow, hread] at this
    omega
  · exact hfewest j w hlt hle hw

/-- Where a multiple of `10 ^ j` reads as a double, it is written as one. -/
theorem dvd_shortest (hpos : 0 < x) (hx : round x = x) (hdvd : 10 ^ j ∣ w) (hw : round w = x) :
    10 ^ j ∣ shortest x := by
  obtain ⟨i, h⟩ := shortest_written hpos hx
  have hle : j ≤ i := by
    by_contra hlt
    exact h.fewest j w (by omega) hdvd hw
  exact (Nat.pow_dvd_pow 10 hle).trans h.dvd

/-- Below `2 ^ 53` a number is written as it is. -/
theorem shortest_of_lt {n : Nat} (h : n < 2 ^ 53) : shortest n = n := by
  by_cases hzero : n = 0
  · subst hzero
    rfl
  · obtain ⟨i, hw⟩ := shortest_written (by omega) (round_of_lt h)
    have hlt : shortest n < 2 ^ 53 := by
      by_contra hge
      have := round_mono (show 2 ^ 53 ≤ shortest n by omega)
      rw [round_two_pow, hw.reads] at this
      omega
    rw [← round_of_lt hlt, hw.reads]

/-! ## As text -/

/-- With an exponent: the first digit, the others up to the last that is not `0`, and the power of ten. -/
def exponential (n : Nat) : String :=
  let digits := Nat.toDigits 10 n
  let fraction := (digits.tail.reverse.dropWhile (· == '0')).reverse
  String.ofList (digits.take 1 ++ (if fraction = [] then [] else '.' :: fraction) ++ ['e', '+'] ++
    Nat.toDigits 10 (digits.length - 1))

/-- `Number.prototype.toString`, of a whole number. -/
def toText (x : Nat) : String :=
  if shortest x < 10 ^ 21 then toString (shortest x) else exponential (shortest x)

/-- With an exponent, a number is not read as digits. -/
theorem readInt_exponential (n : Nat) : Decimal.readInt (exponential n) = none := by
  have hmem : 'e' ∈ (exponential n).toList := by
    simp [exponential]
  have hnone (l : List Char) (h : 'e' ∈ l) : Decimal.readDigits l = none := by
    refine if_neg fun hall => ?_
    have := List.all_eq_true.mp hall.2 'e' h
    exact absurd this (by decide)
  unfold Decimal.readInt
  split
  · rename_i digits heq
    rw [heq] at hmem
    rw [hnone digits (by simpa using hmem)]
    rfl
  · rw [hnone _ hmem]
    rfl

/-- What a number's text is read as. -/
theorem readInt_toText (x : Nat) :
    Decimal.readInt (toText x) = if shortest x < 10 ^ 21 then some (shortest x : Int) else none := by
  unfold toText
  split
  · exact Decimal.readInt_toString (shortest x)
  · exact readInt_exponential _

end Double

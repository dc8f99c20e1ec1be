import Mathlib.Algebra.BigOperators.Finprod
import Mathlib.Algebra.Order.BigOperators.Group.Finset

/-!
# Covered obligations

A holder owes `f i` to each of arbitrarily many creditors `i`, sets `reserve`
aside, and has `balance`. `Covers balance reserve f` says that the balance
covers the reserve and all debts together. What a holder does with its books is
made of four moves, each of which keeps it:

* `Covers.receive`: money comes in, set aside;
* `Covers.owe`: money set aside becomes owed;
* `Covers.settle`: a debt is struck, its amount set aside;
* `Covers.pay`: money set aside goes out.

`Covers.finite` and `Covers.finsum_elim_le` read the invariant as sums.
-/

/-- The balance covers the reserve and the debts to any finitely many creditors. -/
def Covers {ι : Type*} (balance reserve : ℕ) (f : ι → ℕ) : Prop :=
  ∀ S : Finset ι, reserve + ∑ i ∈ S, f i ≤ balance

namespace Covers

variable {ι : Type*} {balance reserve : ℕ} {f : ι → ℕ}

theorem mono {balance' : ℕ} (h : Covers balance reserve f) (hb : balance ≤ balance') :
    Covers balance' reserve f :=
  fun S => (h S).trans hb

theorem zero : Covers 0 0 (fun _ : ι => 0) := fun _ =>
  Nat.le_of_eq ((Nat.zero_add _).trans Finset.sum_const_zero)

/-- Each debt is covered on its own. -/
theorem le (h : Covers balance reserve f) (i : ι) : reserve + f i ≤ balance := by
  have := h {i}
  rwa [Finset.sum_singleton] at this

/-- Money comes in, set aside. -/
theorem receive (a : ℕ) (h : Covers balance reserve f) : Covers (balance + a) (reserve + a) f := fun S => by
  have hS := h S
  omega

/-- Money set aside goes out. -/
theorem pay {a : ℕ} (h : Covers balance (reserve + a) f) : Covers (balance - a) reserve f := fun S => by
  have hS := h S
  omega

/-- Money set aside becomes owed. -/
theorem owe [DecidableEq ι] {a : ℕ} (i : ι) (h : Covers balance (reserve + a) f) :
    Covers balance reserve (Function.update f i (f i + a)) := fun S => by
  have hS := h S
  by_cases hi : i ∈ S
  · rw [← Finset.sum_erase_add S _ hi, Finset.erase_eq] at hS
    rw [Finset.sum_update_of_mem hi]
    omega
  · rw [Finset.sum_update_of_notMem hi]
    omega

/-- A debt is struck to `c`, the rest of it set aside. -/
theorem settle [DecidableEq ι] {a c : ℕ} (i : ι) (h : Covers balance reserve f) (hf : f i = c + a) :
    Covers balance (reserve + a) (Function.update f i c) := fun S => by
  by_cases hi : i ∈ S
  · have hS := h S
    rw [← Finset.sum_erase_add S _ hi, Finset.erase_eq] at hS
    rw [Finset.sum_update_of_mem hi]
    omega
  · have hS := h (insert i S)
    rw [Finset.sum_insert hi] at hS
    rw [Finset.sum_update_of_notMem hi]
    omega

/-- Only finitely many debts are not zero. -/
theorem finite (h : Covers balance reserve f) : (Function.support f).Finite := by
  by_contra hinf
  obtain ⟨S, hsub, hcard⟩ := Set.Infinite.exists_subset_card_eq hinf (balance + 1)
  have hle : S.card ≤ ∑ i ∈ S, f i := by
    rw [Finset.card_eq_sum_ones]
    exact Finset.sum_le_sum fun i hi => Nat.one_le_iff_ne_zero.mpr (hsub hi)
  have hS := h S
  omega

/-- Debts to creditors of two kinds, read as two sums. -/
theorem finsum_elim_le {κ : Type*} {g : κ → ℕ} (h : Covers balance reserve (Sum.elim f g)) :
    (Function.support f).Finite ∧ (Function.support g).Finite ∧
      reserve + (∑ᶠ i, f i + ∑ᶠ k, g k) ≤ balance := by
  have hf : (Function.support f).Finite := h.finite.preimage Sum.inl_injective.injOn
  have hg : (Function.support g).Finite := h.finite.preimage Sum.inr_injective.injOn
  refine ⟨hf, hg, ?_⟩
  have hS := h (hf.toFinset.disjSum hg.toFinset)
  rw [Finset.sum_disjSum] at hS
  rw [finsum_eq_sum f hf, finsum_eq_sum g hg]
  exact hS

end Covers

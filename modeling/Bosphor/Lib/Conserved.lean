import Mathlib.Algebra.BigOperators.Group.Finset.Basic

/-!
# Balances that move

Balances under keys, of which there may be infinitely many: between two
tables of them nothing is made or lost when they differ at finitely many keys
and have the same total there (`Conserved`). A move from one key to another
conserves the balances (`Conserved.move`), also when the two keys are one.
-/

variable {κ : Type}

/-- The balances only moved. -/
def Conserved (l l' : κ → Nat) : Prop :=
  ∃ keys : Finset κ, (∀ k, k ∉ keys → l' k = l k) ∧ ∑ k ∈ keys, l' k = ∑ k ∈ keys, l k

namespace Conserved

variable {l l' l'' : κ → Nat}

theorem refl (l : κ → Nat) : Conserved l l := ⟨∅, fun _ _ => rfl, rfl⟩

variable [DecidableEq κ]

/-- More keys do not change what is conserved. -/
theorem sum_union {keys : Finset κ} (more : Finset κ) (hout : ∀ k, k ∉ keys → l' k = l k)
    (hsum : ∑ k ∈ keys, l' k = ∑ k ∈ keys, l k) : ∑ k ∈ keys ∪ more, l' k = ∑ k ∈ keys ∪ more, l k := by
  rw [← Finset.union_sdiff_self_eq_union, Finset.sum_union Finset.disjoint_sdiff,
    Finset.sum_union Finset.disjoint_sdiff, hsum]
  refine congrArg _ (Finset.sum_congr rfl fun k hk => hout k ?_)
  exact (Finset.mem_sdiff.mp hk).2

theorem trans (h : Conserved l l') (h' : Conserved l' l'') : Conserved l l'' := by
  obtain ⟨keys, hout, hsum⟩ := h
  obtain ⟨keys', hout', hsum'⟩ := h'
  refine ⟨keys ∪ keys', fun k hk => ?_, ?_⟩
  · have hk' := not_or.mp (Finset.mem_union.not.mp hk)
    rw [hout' k hk'.2, hout k hk'.1]
  · have hfirst := sum_union keys' hout hsum
    have hsecond := sum_union keys hout' hsum'
    rw [Finset.union_comm keys' keys] at hsecond
    exact hsecond.trans hfirst

/-- A move of what is there. -/
theorem move {source dest : κ} {amount : Nat} (h : amount ≤ l source) :
    Conserved l (Function.update (Function.update l source (l source - amount)) dest
      (Function.update l source (l source - amount) dest + amount)) := by
  refine ⟨{source, dest}, fun k hk => ?_, ?_⟩
  · rw [Finset.mem_insert, Finset.mem_singleton, not_or] at hk
    rw [Function.update_of_ne hk.2, Function.update_of_ne hk.1]
  · by_cases hsame : source = dest
    · subst hsame
      simp only [Finset.pair_eq_singleton, Finset.sum_singleton, Function.update_self]
      exact Nat.sub_add_cancel h
    · rw [Finset.sum_pair hsame, Finset.sum_pair hsame, Function.update_self, Function.update_of_ne hsame,
        Function.update_self, Function.update_of_ne (Ne.symm hsame)]
      omega

end Conserved

import Mathlib.Data.List.Nodup
import Mathlib.Data.List.Perm.Subperm
import Mathlib.Order.WellFounded
import Mathlib.Data.Set.Basic

/-!
# Batches of the oldest

A batch takes up to `n` elements of a set, the least by a key first; elements
of one key come in any order (`Batch`). There always is one (`exists_batch`).
If only some of the set can be used, every batch holds one that can exactly
when fewer than `n` that cannot stand at or before one that can
(`meets_iff`): a limit that is applied before such a condition starves.
-/

variable {α : Type}

/-- The first `n` elements of `S` by `key`, in one of the orders that the key allows. -/
structure Batch (key : α → Nat) (S : Set α) (n : Nat) (l : List α) : Prop where
  nodup : l.Nodup
  length_le : l.length ≤ n
  mem : ∀ x ∈ l, x ∈ S
  ordered : l.Pairwise fun x y => key x ≤ key y
  /-- What is left out comes after a full batch. -/
  full : ∀ y ∈ S, y ∉ l → l.length = n ∧ ∀ x ∈ l, key x ≤ key y

namespace Batch

variable {key : α → Nat} {S R : Set α} {n : Nat} {l : List α}

/-- A batch with the least of the rest behind it. -/
theorem append (h : Batch key S n l) {x : α} (hx : x ∈ S) (hfresh : x ∉ l)
    (hleast : ∀ y ∈ S, y ∉ l → key x ≤ key y) : Batch key S (n + 1) (l ++ [x]) where
  nodup := by
    refine List.nodup_append.mpr ⟨h.nodup, List.nodup_singleton x, fun a ha b hb heq => ?_⟩
    rw [List.mem_singleton.mp hb] at heq
    exact hfresh (heq ▸ ha)
  length_le := by
    rw [List.length_append, List.length_singleton]
    exact Nat.succ_le_succ h.length_le
  mem y hy := by
    rcases List.mem_append.mp hy with hy | hy
    · exact h.mem y hy
    · rw [List.mem_singleton.mp hy]
      exact hx
  ordered := by
    refine List.pairwise_append.mpr ⟨h.ordered, List.pairwise_singleton .., fun a ha b hb => ?_⟩
    rw [List.mem_singleton.mp hb]
    exact (h.full x hx hfresh).2 a ha
  full y hy hleft := by
    have hnew : y ∉ l := fun hmem => hleft (List.mem_append_left _ hmem)
    refine ⟨?_, fun a ha => ?_⟩
    · rw [List.length_append, List.length_singleton, (h.full y hy hnew).1]
    · rcases List.mem_append.mp ha with ha | ha
      · exact (h.full y hy hnew).2 a ha
      · rw [List.mem_singleton.mp ha]
        exact hleast y hy hnew

variable (key S) in
/-- There is a batch of every set, of every size. -/
theorem exists_batch (n : Nat) : ∃ l, Batch key S n l := by
  induction n with
  | zero => exact ⟨[], List.nodup_nil, le_rfl, by simp, .nil, fun _ _ _ => ⟨rfl, by simp⟩⟩
  | succ n ih =>
    obtain ⟨l, h⟩ := ih
    by_cases hmore : ∃ x, x ∈ S ∧ x ∉ l
    · obtain ⟨x, ⟨hx, hfresh⟩, hleast⟩ :=
        WellFounded.has_min (InvImage.wf key Nat.lt_wfRel.wf) {x | x ∈ S ∧ x ∉ l} hmore
      exact ⟨l ++ [x], h.append hx hfresh fun y hy hnew => Nat.le_of_not_lt (hleast y ⟨hy, hnew⟩)⟩
    · refine ⟨l, h.nodup, h.length_le.trans (Nat.le_succ n), h.mem, h.ordered, fun y hy hleft => ?_⟩
      exact absurd ⟨y, hy, hleft⟩ hmore

/-- Fewer than `n` elements of `S` that are not in `R` stand at or before `r`. -/
def Near (key : α → Nat) (S R : Set α) (n : Nat) (r : α) : Prop :=
  ∀ l : List α, l.Nodup → (∀ x ∈ l, x ∈ S ∧ x ∉ R ∧ key x ≤ key r) → l.length < n

/-- A batch holds something of `R` if something of `R` is near. -/
theorem meets (h : Batch key S n l) {r : α} (hr : r ∈ S) (hR : r ∈ R) (hnear : Near key S R n r) : ∃ x ∈ l, x ∈ R := by
  by_contra hmiss
  have hnone : ∀ x ∈ l, x ∉ R := fun x hx hmem => hmiss ⟨x, hx, hmem⟩
  obtain ⟨hlength, hbefore⟩ := h.full r hr fun hmem => hnone r hmem hR
  have hshort := hnear l h.nodup fun x hx => ⟨h.mem x hx, hnone x hx, hbefore x hx⟩
  omega

/-- A batch of what is not in `R` is one of the whole set, if nothing of `R` is near. -/
theorem of_far (h : Batch key {x | x ∈ S ∧ x ∉ R} n l) (hfar : ∀ r ∈ S, r ∈ R → ¬Near key S R n r) :
    Batch key S n l where
  nodup := h.nodup
  length_le := h.length_le
  mem x hx := (h.mem x hx).1
  ordered := h.ordered
  full y hy hleft := by
    by_cases hR : y ∈ R
    · have hmany : ∃ l' : List α, l'.Nodup ∧ (∀ x ∈ l', x ∈ S ∧ x ∉ R ∧ key x ≤ key y) ∧ n ≤ l'.length := by
        have := hfar y hy hR
        unfold Near at this
        push Not at this
        exact this
      obtain ⟨l', hnodup, hall, hlength⟩ := hmany
      by_cases hsub : l' ⊆ l
      · -- the batch is no longer than its limit, so it is those elements
        have hperm : (l'.Subperm l) := List.subperm_of_subset hnodup hsub
        have hsame : l.length ≤ l'.length := h.length_le.trans hlength
        have hback : l ⊆ l' := (hperm.perm_of_length_le hsame).symm.subset
        refine ⟨le_antisymm h.length_le (hlength.trans hperm.length_le), fun x hx => (hall x (hback hx)).2.2⟩
      · -- one of them is left out, behind a full batch
        obtain ⟨x, hx, hout⟩ : ∃ x, x ∈ l' ∧ x ∉ l := by
          by_contra hnone
          exact hsub fun x hx => by_contra fun hout => hnone ⟨x, hx, hout⟩
        obtain ⟨hS, hnot, hle⟩ := hall x hx
        obtain ⟨hfull, hbefore⟩ := h.full x ⟨hS, hnot⟩ hout
        exact ⟨hfull, fun z hz => (hbefore z hz).trans hle⟩
    · exact h.full y ⟨hy, hR⟩ hleft

/-- Every batch holds something of `R` exactly when something of `R` is near. -/
theorem meets_iff : (∀ l, Batch key S n l → ∃ x ∈ l, x ∈ R) ↔ ∃ r ∈ S, r ∈ R ∧ Near key S R n r := by
  constructor
  · intro hall
    by_contra hnone
    obtain ⟨l, hl⟩ := exists_batch key {x | x ∈ S ∧ x ∉ R} n
    obtain ⟨x, hx, hR⟩ := hall l (hl.of_far fun r hr hR hnear => hnone ⟨r, hr, hR, hnear⟩)
    exact (hl.mem x hx).2 hR
  · rintro ⟨r, hr, hR, hnear⟩ l hl
    exact hl.meets hr hR hnear

end Batch

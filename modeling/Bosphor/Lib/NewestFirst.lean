import Mathlib.Data.List.Nodup
import Mathlib.Data.List.Perm.Subperm
import Mathlib.Data.List.Sort
import Mathlib.Data.Set.Function

/-!
# The newest of a set

A listing of a set by a key, greatest first, up to a limit; elements of one key
come in any order (`Newest`). All listings of a set show the same keys
(`keys_eq`), and where no two elements share a key there is one (`eq`). Sorting
a list and cutting it off gives one (`newest_sorted`).
-/

variable {α κ : Type} [LinearOrder κ]

/-- The greatest elements of `S` by `key`, in one of the orders that the key allows. -/
structure Newest (key : α → κ) (S : Set α) (limit : Option Nat) (l : List α) : Prop where
  nodup : l.Nodup
  mem : ∀ x ∈ l, x ∈ S
  ordered : l.Pairwise fun x y => key y ≤ key x
  length_le : ∀ n, limit = some n → l.length ≤ n
  /-- What is left out comes after a full listing. -/
  full : ∀ y ∈ S, y ∉ l → limit = some l.length ∧ ∀ x ∈ l, key y ≤ key x

namespace Newest

variable {key : α → κ} {S : Set α} {limit : Option Nat} {l l' : List α}

theorem length_le_length (h : Newest key S limit l) (h' : Newest key S limit l') : l'.length ≤ l.length := by
  by_contra hlt
  obtain ⟨y, hy, hout⟩ : ∃ y ∈ l', y ∉ l := by
    by_contra hnone
    exact hlt (List.subperm_of_subset h'.nodup fun y hy => by_contra fun hout => hnone ⟨y, hy, hout⟩).length_le
  exact hlt (h'.length_le _ (h.full y (h'.mem y hy) hout).1)

theorem length_eq (h : Newest key S limit l) (h' : Newest key S limit l') : l.length = l'.length :=
  le_antisymm (h'.length_le_length h) (h.length_le_length h')

/-- At each place, one listing shows no smaller key than another. -/
theorem key_le (h : Newest key S limit l) (h' : Newest key S limit l') {i : Nat} (hi : i < l.length)
    (hi' : i < l'.length) : key l'[i] ≤ key l[i] := by
  by_contra hlt
  rw [not_le] at hlt
  -- the first `i + 1` elements of the one have greater keys than all that stand behind the first `i` of the other
  have hgreater : ∀ y ∈ l'.take (i + 1), key l[i] < key y := by
    intro y hy
    obtain ⟨j, hj, rfl⟩ := List.getElem_of_mem hy
    rw [List.getElem_take]
    rw [List.length_take] at hj
    obtain hji | rfl : j < i ∨ j = i := by omega
    · exact hlt.trans_le (List.pairwise_iff_getElem.mp h'.ordered j i (by omega) hi' hji)
    · exact hlt
  obtain ⟨y, hy, hout⟩ : ∃ y ∈ l'.take (i + 1), y ∉ l := by
    by_contra hnone
    have hsub : l'.take (i + 1) ⊆ l.take i := by
      intro y hy
      obtain ⟨j, hj, rfl⟩ := List.getElem_of_mem (by_contra fun hout => hnone ⟨y, hy, hout⟩ : y ∈ l)
      have hji : j < i := by
        by_contra hge
        obtain hij | rfl : i < j ∨ i = j := by omega
        · exact absurd (List.pairwise_iff_getElem.mp h.ordered i j hi hj hij) (not_le.mpr (hgreater _ hy))
        · exact absurd (hgreater _ hy) (lt_irrefl _)
      exact List.mem_iff_getElem.mpr ⟨j, by rw [List.length_take]; omega, List.getElem_take⟩
    have hlength := (List.subperm_of_subset (h'.nodup.sublist (List.take_sublist _ _)) hsub).length_le
    rw [List.length_take, List.length_take] at hlength
    omega
  have hleft := (h.full y (h'.mem y (List.mem_of_mem_take hy)) hout).2 l[i] (List.getElem_mem hi)
  exact absurd (hgreater y hy) (not_lt.mpr hleft)

/-- All listings show the same keys. -/
theorem keys_eq (h : Newest key S limit l) (h' : Newest key S limit l') : l.map key = l'.map key := by
  have hlength := h.length_eq h'
  refine List.ext_getElem (by rw [List.length_map, List.length_map, hlength]) fun i hi hi' => ?_
  rw [List.length_map] at hi hi'
  rw [List.getElem_map, List.getElem_map]
  exact le_antisymm (h'.key_le h hi' hi) (h.key_le h' hi hi')

/-- Where no two elements share a key, there is one listing. -/
theorem eq (h : Newest key S limit l) (h' : Newest key S limit l') (hinj : Set.InjOn key S) : l = l' := by
  have hkeys := h.keys_eq h'
  refine List.ext_getElem (h.length_eq h') fun i hi hi' => hinj (h.mem _ (List.getElem_mem hi))
    (h'.mem _ (List.getElem_mem hi')) ?_
  have hat := congrArg (·[i]?) hkeys
  simpa [hi, hi'] using hat

/-- A listing through a map that keeps the keys. -/
theorem map {β : Type} {f : α → β} {key' : β → κ} (h : Newest key S limit l) (hf : Set.InjOn f S)
    (hkey : ∀ x, key' (f x) = key x) : Newest key' (f '' S) limit (l.map f) where
  nodup := h.nodup.map_on fun x hx y hy => hf (h.mem x hx) (h.mem y hy)
  mem y hy := by
    obtain ⟨x, hx, rfl⟩ := List.mem_map.mp hy
    exact ⟨x, h.mem x hx, rfl⟩
  ordered := by
    rw [List.pairwise_map]
    refine h.ordered.imp fun hle => ?_
    rw [hkey, hkey]
    exact hle
  length_le n hn := by
    rw [List.length_map]
    exact h.length_le n hn
  full := by
    rintro _ ⟨y, hy, rfl⟩ hout
    obtain ⟨hlimit, hbefore⟩ := h.full y hy fun hmem => hout (List.mem_map_of_mem hmem)
    refine ⟨by rw [List.length_map]; exact hlimit, fun z hz => ?_⟩
    obtain ⟨x, hx, rfl⟩ := List.mem_map.mp hz
    rw [hkey, hkey]
    exact hbefore x hx

end Newest

/-- Sorted and cut off, the elements are listed. -/
theorem newest_sorted (key : α → κ) {xs : List α} (hnodup : xs.Nodup) (limit : Option Nat) :
    Newest key {x | x ∈ xs} limit
      ((xs.mergeSort fun x y => key y ≤ key x).take (limit.getD xs.length)) := by
  have hperm : (xs.mergeSort fun x y => key y ≤ key x).Perm xs := List.mergeSort_perm ..
  have hsorted : (xs.mergeSort fun x y => key y ≤ key x).Pairwise fun x y => key y ≤ key x := by
    have h : (xs.mergeSort fun x y => key y ≤ key x).Pairwise fun x y => decide (key y ≤ key x) = true :=
      List.pairwise_mergeSort
        (fun x y z hxy hyz => by
          rw [decide_eq_true_eq] at hxy hyz ⊢
          exact hyz.trans hxy)
        (fun x y => by
          rw [Bool.or_eq_true, decide_eq_true_eq, decide_eq_true_eq]
          exact le_total ..) xs
    simpa only [decide_eq_true_eq] using h
  generalize hys : xs.mergeSort (fun x y => decide (key y ≤ key x)) = ys at hperm hsorted ⊢
  refine ⟨(hperm.nodup_iff.mpr hnodup).sublist (List.take_sublist _ _),
    fun x hx => hperm.mem_iff.mp (List.mem_of_mem_take hx), hsorted.sublist (List.take_sublist _ _), ?_, ?_⟩
  · rintro n rfl
    rw [List.length_take, Option.getD_some]
    exact min_le_left ..
  · intro y hy hout
    have hmem : y ∈ ys := hperm.mem_iff.mpr hy
    rw [← List.take_append_drop (limit.getD xs.length) ys] at hmem hsorted
    have hlater : y ∈ ys.drop (limit.getD xs.length) := (List.mem_append.mp hmem).resolve_left hout
    refine ⟨?_, fun x hx => (List.pairwise_append.mp hsorted).2.2 x hx y hlater⟩
    have hlength := List.length_pos_of_mem hlater
    rw [List.length_drop] at hlength
    cases limit with
    | none =>
      rw [Option.getD_none, hperm.length_eq] at hlength
      omega
    | some n =>
      rw [Option.getD_some] at hlength ⊢
      rw [List.length_take, Nat.min_eq_left (by omega)]

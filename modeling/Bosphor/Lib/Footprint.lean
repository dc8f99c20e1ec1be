import Mathlib.Data.List.Basic

/-!
# Steps with a footprint

A store of places, and steps that touch some of its places each: what a step
answers, and what it leaves there, depends on those places alone, and the others
stay as they are (`Local`). Steps that have no place in common do not notice each
other (`Local.answers_filter`).
-/

namespace Footprint

variable {α κ σ τ ρ : Type}

/-- The steps with what each answers, one after the other. -/
def answers (step : α → τ → ρ × τ) : τ → List α → List (α × ρ)
  | _, [] => []
  | s, a :: as => (a, (step a s).1) :: answers step (step a s).2 as

/-- A step of `a` touches the places of `foot a` alone. -/
structure Local (foot : α → κ → Prop) (step : α → (κ → σ) → ρ × (κ → σ)) : Prop where
  frame : ∀ a s k, ¬foot a k → (step a s).2 k = s k
  answer : ∀ a s s', (∀ k, foot a k → s k = s' k) → (step a s).1 = (step a s').1
  leaves : ∀ a s s', (∀ k, foot a k → s k = s' k) → ∀ k, foot a k → (step a s).2 k = (step a s').2 k

variable {foot : α → κ → Prop} {step : α → (κ → σ) → ρ × (κ → σ)}

/-- A step that does not touch a place, or two steps that find the same on it, leave the same there. -/
theorem Local.agree (h : Local foot step) {a : α} {s s' : κ → σ} (hsame : ∀ k, foot a k → s k = s' k) {k : κ}
    (hk : s k = s' k) : (step a s).2 k = (step a s').2 k := by
  by_cases hfoot : foot a k
  · exact h.leaves a s s' hsame k hfoot
  · rw [h.frame a s k hfoot, h.frame a s' k hfoot, hk]

/-- Steps of one kind answer the same with and without the others among them, if they have no place in common. -/
theorem Local.answers_filter (h : Local foot step) (p : α → Bool) {as : List α}
    (hapart : ∀ a ∈ as, ∀ b ∈ as, p a = true → p b = false → ∀ k, foot a k → ¬foot b k) {s s' : κ → σ}
    (hsame : ∀ a ∈ as, p a = true → ∀ k, foot a k → s k = s' k) :
    (answers step s as).filter (fun x => p x.1) = answers step s' (as.filter p) := by
  induction as generalizing s s' with
  | nil => rfl
  | cons a as ih =>
    have hrest : ∀ b ∈ as, ∀ c ∈ as, p b = true → p c = false → ∀ k, foot b k → ¬foot c k := fun b hb c hc =>
      hapart b (List.mem_cons_of_mem a hb) c (List.mem_cons_of_mem a hc)
    cases hp : p a with
    | true =>
      have ha := hsame a List.mem_cons_self hp
      rw [answers, List.filter_cons_of_pos (by exact hp), List.filter_cons_of_pos hp, answers, h.answer a s s' ha]
      refine congrArg _ (ih hrest fun b hb hpb k hk => ?_)
      exact h.agree ha (hsame b (List.mem_cons_of_mem a hb) hpb k hk)
    | false =>
      rw [answers, List.filter_cons_of_neg (by simp [hp]), List.filter_cons_of_neg (by simp [hp])]
      refine ih hrest fun b hb hpb k hk => ?_
      rw [h.frame a s k (hapart b (List.mem_cons_of_mem a hb) a List.mem_cons_self hpb hp k hk)]
      exact hsame b (List.mem_cons_of_mem a hb) hpb k hk

end Footprint

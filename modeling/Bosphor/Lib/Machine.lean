import Mathlib.Logic.Relation

/-!
# Runs of a machine

A machine takes one action after another; an action it refuses changes
nothing. What every accepted action keeps, every run keeps (`run_inv`), and
what every accepted action does, every run does any number of times
(`run_rel`).
-/

namespace Machine

variable {σ α ε : Type}

/-- The state after `a`: unchanged when the step refuses it. -/
def next (step : α → σ → Except ε σ) (s : σ) (a : α) : σ :=
  match step a s with
  | .ok s' => s'
  | .error _ => s

/-- The state after the actions `as`, in order. -/
def run (step : α → σ → Except ε σ) (s : σ) (as : List α) : σ := as.foldl (next step) s

variable {step : α → σ → Except ε σ}

theorem next_ok {s s' : σ} {a : α} (h : step a s = .ok s') : next step s a = s' := by
  rw [next, h]

theorem next_error {s : σ} {a : α} {e : ε} (h : step a s = .error e) : next step s a = s := by
  rw [next, h]

@[simp] theorem run_nil (s : σ) : run step s [] = s := rfl

theorem run_cons (s : σ) (a : α) (as : List α) : run step s (a :: as) = run step (next step s a) as := rfl

theorem run_singleton {s s' : σ} {a : α} (h : step a s = .ok s') : run step s [a] = s' := next_ok h

theorem run_append (s : σ) (as bs : List α) : run step s (as ++ bs) = run step (run step s as) bs :=
  List.foldl_append

/-- Where an action leads, if it leads anywhere. -/
theorem next_cases (step : α → σ → Except ε σ) (s : σ) (a : α) :
    (∃ s', step a s = .ok s' ∧ next step s a = s') ∨ ((∃ e, step a s = .error e) ∧ next step s a = s) := by
  cases h : step a s with
  | ok s' => exact Or.inl ⟨s', rfl, next_ok h⟩
  | error e => exact Or.inr ⟨⟨e, rfl⟩, next_error h⟩

/-- A relation that holds across every accepted action holds across a run. -/
theorem run_rel {R : σ → σ → Prop} (hrefl : ∀ s, R s s) (htrans : ∀ {a b c}, R a b → R b c → R a c)
    (as : List α) (hstep : ∀ a ∈ as, ∀ s s', step a s = .ok s' → R s s') (s : σ) :
    R s (run step s as) := by
  induction as generalizing s with
  | nil => exact hrefl s
  | cons a as ih =>
    have hnext : R s (next step s a) := by
      rcases next_cases step s a with ⟨s', hs, hn⟩ | ⟨-, hn⟩
      · rw [hn]
        exact hstep a List.mem_cons_self s s' hs
      · rw [hn]
        exact hrefl s
    exact htrans hnext (ih (fun b hb => hstep b (List.mem_cons_of_mem a hb)) _)

/-- What every accepted action keeps holds after a run that starts with it. -/
theorem run_inv {P : σ → Prop} (as : List α) (hstep : ∀ a ∈ as, ∀ s s', step a s = .ok s' → P s → P s')
    {s : σ} (h : P s) : P (run step s as) :=
  run_rel (fun _ h => h) (fun hab hbc h => hbc (hab h)) as hstep s h

end Machine

/-- What every step keeps, any number of steps keep. -/
theorem Relation.ReflTransGen.keeps {α : Type} {r : α → α → Prop} {P : α → Prop} {a b : α}
    (hab : Relation.ReflTransGen r a b) (hstep : ∀ a b, r a b → P a → P b) (h : P a) : P b := by
  induction hab with
  | refl => exact h
  | tail _ hbc ih => exact hstep _ _ hbc ih

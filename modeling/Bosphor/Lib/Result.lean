import Mathlib.Logic.Function.Basic

/-!
# Partial computations and tables

What an `Except` computation that returned must have done: `bind_ok` peels one
step off. What a table has after an entry is written: `Table.set_some`,
`Table.remove_some`.
-/

namespace Result

variable {ε α β : Type}

theorem bind_ok {x : Except ε α} {f : α → Except ε β} {b : β} :
    (x >>= f) = .ok b ↔ ∃ a, x = .ok a ∧ f a = .ok b := by
  cases x with
  | ok a => exact ⟨fun h => ⟨a, rfl, h⟩, fun ⟨_, ha, h⟩ => Except.ok.inj ha ▸ h⟩
  | error e => exact ⟨(nomatch ·), fun ⟨_, ha, _⟩ => nomatch ha⟩

@[simp] theorem ok_bind (a : α) (f : α → Except ε β) : (Except.ok a >>= f) = f a := rfl

@[simp] theorem error_bind (e : ε) (f : α → Except ε β) : (Except.error e >>= f) = .error e := rfl

/-- Where a computation that failed has failed. -/
theorem bind_error {x : Except ε α} {f : α → Except ε β} {e : ε} :
    (x >>= f) = .error e ↔ x = .error e ∨ ∃ a, x = .ok a ∧ f a = .error e := by
  cases x with
  | ok a => simp only [ok_bind, reduceCtorEq, Except.ok.injEq, exists_eq_left', false_or]
  | error e' => simp only [error_bind, Except.error.injEq, reduceCtorEq, false_and, exists_false, or_false]

/-- None of the steps fails so. -/
theorem bind_ne_error {x : Except ε α} {f : α → Except ε β} {e : ε} (hx : x ≠ .error e) (hf : ∀ a, f a ≠ .error e) :
    (x >>= f) ≠ .error e := by
  intro h
  obtain herr | ⟨a, -, herr⟩ := bind_error.mp h
  · exact hx herr
  · exact hf a herr

theorem pure_ok {a b : α} : (pure a : Except ε α) = .ok b ↔ b = a :=
  ⟨fun h => (Except.ok.inj h).symm, fun h => congrArg Except.ok h.symm⟩

end Result

namespace Table

variable {κ α : Type} [DecidableEq κ] {t : κ → Option α} {k i : κ} {a b : α}

/-- What is at `i` after an entry at `k` is written. -/
theorem set_some : Function.update t k (some a) i = some b ↔ (i = k ∧ b = a) ∨ (i ≠ k ∧ t i = some b) := by
  by_cases h : i = k
  · subst h
    simp only [Function.update_self, Option.some.injEq, true_and, ne_eq, not_true, false_and, or_false, eq_comm]
  · simp only [Function.update_of_ne h, h, false_and, ne_eq, not_false_eq_true, true_and, false_or]

/-- What is at `i` after the entry at `k` is removed. -/
theorem remove_some : Function.update t k none i = some b ↔ i ≠ k ∧ t i = some b := by
  by_cases h : i = k
  · subst h
    simp only [Function.update_self, reduceCtorEq, ne_eq, not_true, false_and]
  · simp only [Function.update_of_ne h, ne_eq, h, not_false_eq_true, true_and]

end Table

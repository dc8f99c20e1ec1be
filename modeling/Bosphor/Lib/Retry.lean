import Bosphor.Lib.Async

/-!
# Attempts

A program that is tried again when it fails, a bounded number of times.

* `retry enter fn again left attempt`: `fn attempt` behind `enter`, and after a
  failure that `again` lets pass the next attempt, of at most `left` more.
* `wp_retry`: the rule for it. `I n` holds before attempt `n`, `J n` once it is
  entered, and `F n e` after it has failed with `e`; an attempt more than those
  allowed is one that `I` excludes. `Calls.retry`: the calls of all attempts.
-/

namespace Async

variable {Call : Type} {Answer : Call → Type} {ε α : Type}

/-- The attempts from `attempt` on: what `again` throws is thrown, and what it lets pass is tried again. -/
def retry (enter : Async Call Answer ε Unit) (fn : Nat → Async Call Answer ε α)
    (again : Nat → ε → Async Call Answer ε Unit) : Nat → Nat → Async Call Answer ε α
  | 0, attempt => do
    enter
    tryCatch (fn attempt) fun e => do
      again attempt e
      throw e
  | left + 1, attempt => do
    enter
    tryCatch (fn attempt) fun e => do
      again attempt e
      retry enter fn again left (attempt + 1)

/-- What the two ends of a program satisfy. -/
def ends {β : Type} (A : History Call Answer ε → β → Prop) (E : History Call Answer ε → ε → Prop)
    (h : History Call Answer ε) : Except ε β → Prop
  | .ok a => A h a
  | .error e => E h e

section

variable {β : Type} {A : History Call Answer ε → β → Prop} {E : History Call Answer ε → ε → Prop}
  {h : History Call Answer ε}

@[simp] theorem ends_ok (a : β) : ends A E h (.ok a) ↔ A h a := Iff.rfl

@[simp] theorem ends_error (e : ε) : ends A E h (.error e) ↔ E h e := Iff.rfl

end

variable {P : History Call Answer ε → Call → Prop} {A : History Call Answer ε → α → Prop}
  {E : History Call Answer ε → ε → Prop} {I J : Nat → History Call Answer ε → Prop}
  {F : Nat → ε → History Call Answer ε → Prop} {enter : Async Call Answer ε Unit} {fn : Nat → Async Call Answer ε α}
  {again : Nat → ε → Async Call Answer ε Unit}

/-- The rule of an attempt that may be followed by `rest`. -/
theorem wp_attempt {n : Nat} {rest : ε → Async Call Answer ε α} {h : History Call Answer ε}
    (henter : ∀ h, I n h → wp P (ends (fun h _ => J n h) E) h enter)
    (hfn : ∀ h, J n h → wp P (ends A fun h e => F n e h) h (fn n))
    (hrest : ∀ e h, F n e h → wp P (ends A E) h (rest e)) (h₀ : I n h) :
    wp P (ends A E) h (enter >>= fun _ => tryCatch (fn n) rest) := by
  rw [wp_bind]
  refine wp_mono (henter h h₀) (fun _ _ hc => hc) fun h r hr => ?_
  cases r with
  | error e => exact hr
  | ok _ =>
    rw [andThen_ok, wp_tryCatch]
    refine wp_mono (hfn h hr) (fun _ _ hc => hc) fun h r hr => ?_
    cases r with
    | error e => exact hrest e h hr
    | ok a => exact hr

/-- Attempts that keep `I`, which allows no more of them than the bound. -/
theorem wp_retry (henter : ∀ n h, I n h → wp P (ends (fun h _ => J n h) E) h enter)
    (hfn : ∀ n h, J n h → wp P (ends A fun h e => F n e h) h (fn n))
    (hagain : ∀ n e h, F n e h → wp P (ends (fun h _ => I (n + 1) h) E) h (again n e)) {left attempt : Nat}
    (hbound : ∀ h, ¬I (attempt + left + 1) h) {h : History Call Answer ε} (h₀ : I attempt h) :
    wp P (ends A E) h (retry enter fn again left attempt) := by
  induction left generalizing attempt h with
  | zero =>
    refine wp_attempt (I := I) (henter attempt) (hfn attempt) (fun e h he => ?_) h₀
    rw [wp_bind]
    refine wp_mono (hagain attempt e h he) (fun _ _ hc => hc) fun h r hr => ?_
    cases r with
    | error e' => exact hr
    | ok _ => exact absurd hr (hbound h)
  | succ left ih =>
    refine wp_attempt (I := I) (henter attempt) (hfn attempt) (fun e h he => ?_) h₀
    rw [wp_bind]
    refine wp_mono (hagain attempt e h he) (fun _ _ hc => hc) fun h r hr => ?_
    cases r with
    | error e' => exact hr
    | ok _ =>
      rw [andThen_ok]
      refine ih (fun h hI => hbound h ?_) hr
      rwa [show attempt + (left + 1) + 1 = attempt + 1 + left + 1 by omega]

/-- Attempts make the calls that one of them may make. -/
theorem Calls.retry {C : Call → Prop} (henter : Calls C enter) (hfn : ∀ n, Calls C (fn n))
    (hagain : ∀ n e, Calls C (again n e)) {left attempt : Nat} : Calls C (retry enter fn again left attempt) := by
  induction left generalizing attempt with
  | zero => exact henter.bind fun _ => (hfn attempt).tryCatch fun e => (hagain attempt e).bind fun _ => trivial
  | succ left ih => exact henter.bind fun _ => (hfn attempt).tryCatch fun e => (hagain attempt e).bind fun _ => ih

end Async

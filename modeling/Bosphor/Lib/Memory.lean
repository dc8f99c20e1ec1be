import Bosphor.Lib.Async

/-!
# Programs with a memory

Some calls of a program only look into a memory of its own or change it. They
are answered at once, before anything else happens: `settle` takes a program up
to the next call that it waits for, or to its end. `settle_keeps` is the rule for
what the memory keeps meanwhile.
-/

namespace Async

variable {μ Call : Type} {Answer : Call → Type} {ε α : Type}

/-- What a memory answers, and what it becomes; `none` for the calls that are awaited. -/
abbrev Access (μ Call : Type) (Answer : Call → Type) := (c : Call) → Option (μ → Answer c × μ)

/-- A program between two calls: its memory, what it was told, and what is left of it. -/
structure Standing (μ Call : Type) (Answer : Call → Type) (ε α : Type) where
  memory : μ
  told : History Call Answer ε := []
  rest : Async Call Answer ε α

/-- The calls to the memory, up to the next one that is awaited. -/
def settle (access : Access μ Call Answer) (memory : μ) (told : History Call Answer ε) :
    Async Call Answer ε α → Standing μ Call Answer ε α
  | .done a => ⟨memory, told, .done a⟩
  | .fail e => ⟨memory, told, .fail e⟩
  | .await c next =>
    match access c with
    | some f => settle access (f memory).2 (told ++ [⟨c, .ok (f memory).1⟩]) (next (.ok (f memory).1))
    | none => ⟨memory, told, .await c next⟩

variable {access : Access μ Call Answer} {I : μ → History Call Answer ε → Prop}
  {P : History Call Answer ε → Call → Prop}
  {Q : History Call Answer ε → Except ε α → Prop} {memory : μ} {told : History Call Answer ε}
    {p : Async Call Answer ε α}

/-- What the memory keeps, it keeps up to the next call that is awaited. -/
theorem settle_keeps (hI : ∀ m h c f, access c = some f → P h c → I m h → I (f m).2 (h ++ [⟨c, .ok (f m).1⟩]))
    (hp : wp P Q told p) (h : I memory told) :
    I (settle access memory told p).memory (settle access memory told p).told ∧
      wp P Q (settle access memory told p).told (settle access memory told p).rest := by
  induction p generalizing memory told with
  | done a => exact ⟨h, hp⟩
  | fail e => exact ⟨h, hp⟩
  | await c next ih =>
    cases hc : access c with
    | none =>
      simp only [settle, hc]
      exact ⟨h, hp⟩
    | some f =>
      simp only [settle, hc]
      exact ih _ (hp.2 _) (hI _ _ _ _ hc hp.1 h)

end Async

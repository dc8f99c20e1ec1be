import Bosphor.Sui.Records

/-!
# What an execution honours

In every run of the receiver and the executor a received record stays as it is,
and an id is executed once, by a store that honours its record
(`execution_honours`). The two comparisons are computed in wider integers than
their arguments, so that neither aborts on an overflow (`deadlineInU128_exact`,
`coversInU64_exact`).
-/

namespace Bosphor.Sui

/-! ## Checked integers -/

/-- `a + b` in an integer type of `w` bits; out of range it aborts. -/
def checkedAdd (w a b : Nat) : Option Nat := if a + b < 2 ^ w then some (a + b) else none

/-- `a * b` in an integer type of `w` bits. -/
def checkedMul (w a b : Nat) : Option Nat := if a * b < 2 ^ w then some (a * b) else none

/-- `(now_ms as u128) <= (committed_deadline_s as u128) * 1000`. -/
def deadlineInU128 (nowMs committedDeadlineS : UInt64) : Option Bool :=
  (checkedMul 128 committedDeadlineS.toNat 1000).map fun deadlineMs => nowMs.toNat ≤ deadlineMs

/-- `(actual_end_epoch as u64) >= (current_epoch as u64) + (committed_storage_epochs as u64)`. -/
def coversInU64 (committedStorageEpochs actualEndEpoch currentEpoch : UInt32) : Option Bool :=
  (checkedAdd 64 currentEpoch.toNat committedStorageEpochs.toNat).map fun sum => actualEndEpoch.toNat ≥ sum

/-- The deadline's comparison never overflows, and is that of the times. -/
theorem deadlineInU128_exact (nowMs committedDeadlineS : UInt64) :
    (deadlineInU128 nowMs committedDeadlineS).map (assert · Executor.EDeadlineExpired) =
      some (Executor.assertDeadline nowMs.toNat committedDeadlineS) := by
  have hfits : committedDeadlineS.toNat * 1000 < 2 ^ 128 := by
    have := committedDeadlineS.toNat_lt
    omega
  rw [deadlineInU128, checkedMul, if_pos hfits]
  rfl

/-- The end epoch's comparison never overflows, and is that of the epochs. -/
theorem coversInU64_exact (committedStorageEpochs actualEndEpoch currentEpoch : UInt32) :
    coversInU64 committedStorageEpochs actualEndEpoch currentEpoch =
      some (coversStorageEpochs committedStorageEpochs actualEndEpoch currentEpoch) := by
  have hfits : currentEpoch.toNat + committedStorageEpochs.toNat < 2 ^ 64 := by
    have := currentEpoch.toNat_lt
    have := committedStorageEpochs.toNat_lt
    omega
  rw [coversInU64, checkedAdd, if_pos hfits]
  rfl

/-! ## Entering the table -/

/-- The transaction puts the id in the table of executed intents. -/
def Enters (s : State) (a : Nat × Op) (intentId : List UInt8) : Prop :=
  ¬s.Executed intentId ∧ (Machine.next step s a).Executed intentId

/-- The transaction is a store by the relayer, in time and of the committed blob, for long enough. -/
def Honours (s : State) (a : Nat × Op) (intentId : List UInt8) : Prop :=
  ∃ epoch blob originalSender record, a.2 = .executeStore s.executor.relayer epoch intentId blob originalSender ∧
    s.record intentId = some record ∧ a.1 ≤ record.committedDeadline.toNat * 1000 ∧ blob.certifiedEpoch.isSome = true ∧
    blob.blobId = record.committedBlobId ∧
    epoch.toNat + record.committedStorageEpochs.toNat ≤ blob.endEpoch.toNat

theorem Enters.honours {s : State} {a : Nat × Op} {intentId : List UInt8} (h : Enters s a intentId) :
    Honours s a intentId := by
  obtain ⟨hbefore, hafter⟩ := h
  obtain ⟨s', hstep, hnext⟩ | ⟨-, hnext⟩ := Machine.next_cases step s a
  · rw [hnext] at hafter
    obtain ⟨now, op⟩ := a
    cases step_effect hstep with
    | store hc hx hr ht hb he =>
      obtain rfl | hold := executed_update.mp hafter
      · exact ⟨_, _, _, _, rfl, hr, ht, hc, hb, he⟩
      · exact absurd hold hbefore
    | _ => exact absurd hafter hbefore
  · rw [hnext] at hafter
    exact absurd hafter hbefore

theorem run_grown (s : State) (as : List (Nat × Op)) : Grown s (Machine.run step s as) :=
  Machine.run_rel Grown.refl Grown.trans as (fun _ _ _ _ h => (step_effect h).grown) s

/-- An id of the table that was empty was put there by one of the transactions. -/
theorem exists_enters {s : State} {intentId : List UInt8} (hbefore : ¬s.Executed intentId) (as : List (Nat × Op))
    (hafter : (Machine.run step s as).Executed intentId) :
    ∃ pre a post, as = pre ++ a :: post ∧ Enters (Machine.run step s pre) a intentId := by
  induction as generalizing s with
  | nil => exact absurd hafter hbefore
  | cons a as ih =>
    by_cases hnow : (Machine.next step s a).Executed intentId
    · exact ⟨[], a, as, rfl, hbefore, hnow⟩
    · obtain ⟨pre, b, post, rfl, henters⟩ := ih hnow hafter
      exact ⟨a :: pre, b, post, rfl, henters⟩

/-- It is put there only once. -/
theorem Enters.unique {s : State} {intentId : List UInt8} {pre pre' : List (Nat × Op)} {a a' : Nat × Op}
    {post post' : List (Nat × Op)} (hsame : pre ++ a :: post = pre' ++ a' :: post')
    (h : Enters (Machine.run step s pre) a intentId) (h' : Enters (Machine.run step s pre') a' intentId) :
    pre = pre' := by
  -- of two transactions, the later one finds the id in the table
  have hlater : ∀ {p b} (mid : List (Nat × Op)), Enters (Machine.run step s p) b intentId →
      (Machine.run step s (p ++ b :: mid)).Executed intentId := by
    intro p b mid henters
    rw [Machine.run_append, Machine.run_cons]
    exact (run_grown _ mid).executed _ henters.2
  obtain ⟨mid, rfl, hmid⟩ | ⟨mid, rfl, hmid⟩ := List.append_eq_append_iff.mp hsame
  · cases mid with
    | nil => simp
    | cons b mid =>
      obtain ⟨rfl, -⟩ := List.cons.inj hmid
      exact absurd (hlater mid h) h'.1
  · cases mid with
    | nil => simp
    | cons b mid =>
      obtain ⟨rfl, -⟩ := List.cons.inj hmid
      exact absurd (hlater mid h') h.1

theorem run_recorded (now : Nat) (publisher : Address) (as : List (Nat × Op)) :
    Recorded (Machine.run step (init now publisher) as) :=
  Machine.run_inv as (fun _ _ _ _ h hs => (step_effect h).recorded hs) (init_recorded now publisher)

/-- In every run a record is that of a delivered message and stays as it was added, an id is executed at most once, by a
store that honours its record, a transaction that aborts changes nothing, and the comparisons are exact. -/
theorem execution_honours (now : Nat) (publisher : Address) (as : List (Nat × Op)) :
    (∀ pre post, as = pre ++ post → ∀ i r, (Machine.run step (init now publisher) pre).record i = some r →
      (Machine.run step (init now publisher) as).record i = some r) ∧
    (∀ i r, (Machine.run step (init now publisher) as).record i = some r →
      ∃ p ∈ (Machine.run step (init now publisher) as).delivered, ∃ (id : Bytes 32) (c : Commitment), i = id.val ∧
        p.message = id.val ++ c.wire ∧ r = recordOf p c) ∧
    (∀ i, (Machine.run step (init now publisher) as).Executed i →
      ∃ pre a post, as = pre ++ a :: post ∧ Enters (Machine.run step (init now publisher) pre) a i ∧
        Honours (Machine.run step (init now publisher) pre) a i ∧
        ∀ pre' a' post', as = pre' ++ a' :: post' →
          Enters (Machine.run step (init now publisher) pre') a' i → pre' = pre) ∧
    (∀ s a e, step a s = .error e → Machine.next step s a = s) ∧
    (∀ nowMs deadline : UInt64, (deadlineInU128 nowMs deadline).map (assert · Executor.EDeadlineExpired) =
      some (Executor.assertDeadline nowMs.toNat deadline)) ∧
    ∀ epochs endEpoch epoch : UInt32, coversInU64 epochs endEpoch epoch =
      some (coversStorageEpochs epochs endEpoch epoch) := by
  refine ⟨?_, (run_recorded now publisher as).record, fun i hi => ?_, fun _ _ _ => Machine.next_error,
    deadlineInU128_exact, coversInU64_exact⟩
  · rintro pre post rfl i r hr
    rw [Machine.run_append]
    exact (run_grown _ post).record i r hr
  · have hempty : ¬(init now publisher).Executed i := fun h => h rfl
    obtain ⟨pre, a, post, rfl, henters⟩ := exists_enters hempty as hi
    exact ⟨pre, a, post, rfl, henters, henters.honours, fun pre' a' post' hsame h' => (henters.unique hsame h').symm⟩

end Bosphor.Sui

import Bosphor.CrossChain.System

/-!
# Stored and refunded

Whether an intent can be stored on Sui and refunded at its origin. It can: the
store is in time, and its proof is not delivered before the deadline. Then the
store comes no later than the deadline and the refund after it
(`refund_follows_store`), so that no refunded intent is ever stored.
-/

namespace Bosphor.CrossChain

variable {κ : Type}

/-- Sui accepted the message that the deployment `k` sent for `m`. -/
def System.ReceivedFrom (net : Network κ) (σ : System κ) (k : κ) (m : Submission) : Prop :=
  ∃ p ∈ σ.sui.delivered, p.srcEid = (net.peering k).eid ∧ p.sender = (net.peering k).address ∧
    p.message = m.message

/-- The intent was stored at the clock's time `t`. -/
def System.StoredAt (σ : System κ) (id : Bytes 32) (t : Nat) : Prop :=
  ∃ blobId endEpoch executor, ⟨t, .storageExecuted id.val blobId endEpoch executor⟩ ∈ σ.sui.log

variable {net : Network κ} {σ : System κ}

/-- The record of a message that Sui accepted. -/
theorem Sound.record_of_received {k : κ} {m : Submission} (h : Sound net σ) (hm : σ.ReceivedFrom net k m) :
    ∃ r, σ.sui.record m.id.val = some r ∧ r.committedDeadline = m.commitment.deadline ∧
      r.committedBlobId = Sui.blobNumber m.commitment.blobId := by
  obtain ⟨p, hp, -, -, hmessage⟩ := hm
  obtain ⟨id, c, hwire, hr⟩ := h.recorded.delivered p hp
  obtain ⟨rfl, rfl⟩ := Sui.message_inj (hmessage.symm.trans hwire)
  exact ⟨_, hr, rfl, rfl⟩

/-- A store comes no later than the deadline. -/
theorem Sound.stored_in_time {k : κ} {m : Submission} (h : Sound net σ) (hm : σ.ReceivedFrom net k m) {t : Nat}
    (ht : σ.StoredAt m.id t) : t ≤ m.commitment.deadline.toNat * 1000 := by
  obtain ⟨r, hr, hdeadline, -⟩ := h.record_of_received hm
  obtain ⟨b, e, who, hlog⟩ := ht
  obtain ⟨-, r', hr', -, hle⟩ := h.recorded.stored t _ b e who hlog
  obtain rfl := Option.some.inj (hr.symm.trans hr')
  rwa [hdeadline] at hle

/-- Past the deadline there is no store. -/
theorem Sound.not_stored_late {k : κ} {m : Submission} (h : Sound net σ) (hm : σ.ReceivedFrom net k m)
    (hlate : m.commitment.deadline.toNat < σ.seconds) (sender : Sui.Address) (epoch : UInt32) (blob : Sui.Blob)
    (originalSender : Sui.Address) (s' : Sui.State) :
    Sui.step (σ.now, .executeStore sender epoch m.id.val blob originalSender) σ.sui ≠ .ok s' := by
  intro hs
  obtain ⟨r, hr, hdeadline, -⟩ := h.record_of_received hm
  obtain ⟨-, -, -, r', hr', hle, -⟩ := Sui.executeStore_ok.mp hs
  obtain rfl := Option.some.inj (hr.symm.trans hr')
  rw [hdeadline] at hle
  have hnow : (m.commitment.deadline.toNat + 1) * 1000 ≤ σ.now :=
    (Nat.le_div_iff_mul_le (by decide)).mp hlate
  omega

variable [DecidableEq κ]

/-- In every reachable state, an intent that Sui received from a deployment and that is refunded there was
refunded after its deadline, and any store of it came no later than its deadline, before the refund; no
further store of it is possible. An intent that was released is never refunded. -/
theorem refund_follows_store (h : Reachable net anyAction σ) {k : κ} {m : Submission}
    (hm : m ∈ (σ.origins k).submissions) (hreceived : σ.ReceivedFrom net k m) :
    ((σ.origins k).Refunded m.id → ∃ r, (σ.origins k).RefundedAt m.id r ∧
      (m.commitment.deadline.toNat : Int) < r ∧
      (σ.sui.Executed m.id.val → ∃ t, σ.StoredAt m.id t) ∧
      (∀ t, σ.StoredAt m.id t → t ≤ m.commitment.deadline.toNat * 1000 ∧ (t : Int) < r * 1000) ∧
      ∀ σ', Run net anyAction σ σ' → ∀ sender epoch blob originalSender s',
        Sui.step (σ'.now, .executeStore sender epoch m.id.val blob originalSender) σ'.sui ≠ .ok s') ∧
    ((σ.origins k).Released m.id → ∀ σ', Run net anyAction σ σ' → ¬ (σ'.origins k).Refunded m.id) := by
  have hs := h.sound
  refine ⟨fun hr => ?_, fun hr σ' hrun => ?_⟩
  · obtain ⟨r, hat, hlate, hnow⟩ := (hs.origin k).refunded hm hr
    refine ⟨r, hat, hlate, fun hx => ?_, fun t ht => ?_, fun σ' hrun sender epoch blob originalSender s' => ?_⟩
    · obtain ⟨t, b, e, who, hlog⟩ := hs.recorded.executed _ hx
      exact ⟨t, b, e, who, hlog⟩
    · have hle := hs.stored_in_time hreceived ht
      exact ⟨hle, by omega⟩
    · have hgrown := Run.grown hrun
      obtain ⟨p, hp, hfrom⟩ := hreceived
      have hpast : m.commitment.deadline.toNat < σ'.seconds := by
        have hmono : σ.seconds ≤ σ'.seconds := Nat.div_le_div_right hgrown.now
        omega
      exact (Run.sound hrun hs).not_stored_late ⟨p, hgrown.sui.delivered p hp, hfrom⟩ hpast sender epoch blob
        originalSender s'
  · exact ((Run.sound hrun hs).origin k).not_both (((Run.grown hrun).origin k).released _ hr)

/-! ## An intent that is stored and refunded -/

/-- The first deployment, when the intent is refunded. -/
def exampleRefunded : Evm.State :=
  let e := Evm.oneSubmission.escrows Evm.theSubmission.id
  Evm.oneSubmission.settled 101 Evm.theSubmission.id .refunded e.payer
    (.escrowRefunded Evm.theSubmission.id e.payer e.amount)

/-- The intent is stored in time, and refunded when its deadline is past. -/
def storedAndRefunded : System Bool := ⟨101000, exampleOrigins exampleRefunded Evm.peered, exampleStored⟩

theorem exampleRefunded_step : Evm.step (101, .mk (.refund Evm.theSubmission.id) [] []) Evm.oneSubmission =
    .ok exampleRefunded := by
  obtain ⟨-, -, -, he⟩ := Evm.oneSubmission_pending
  refine Evm.refundEscrow_ok.mpr ⟨by rw [he], by rw [he]; decide, ?_, rfl⟩
  rw [he, Evm.oneSubmission_eq]
  decide

theorem storedAndRefunded_reachable : Reachable exampleNetwork anyAction storedAndRefunded := by
  refine ⟨exampleStart, exampleStart_start, ?_⟩
  have h₁ : Run exampleNetwork anyAction exampleStart exampleSystem := exampleSystem_run.mono fun _ _ _ => trivial
  have h₂ := h₁.tail ⟨_, trivial, exampleStored_step⟩
  have h₃ := h₂.tail ⟨_, trivial, .tick _ 96000⟩
  have hrefund : Step exampleNetwork (.evm false (.mk (.refund Evm.theSubmission.id) [] []))
      ⟨101000, exampleOrigins Evm.oneSubmission Evm.peered, exampleStored⟩ storedAndRefunded :=
    step_first trivial exampleRefunded_step
  exact h₃.tail ⟨_, trivial, hrefund⟩

theorem storedAndRefunded_submission :
    exampleSubmission ∈ (storedAndRefunded.origins false).submissions ∧
      storedAndRefunded.ReceivedFrom exampleNetwork false exampleSubmission ∧
      (storedAndRefunded.origins false).Refunded exampleSubmission.id ∧
      storedAndRefunded.sui.Executed exampleSubmission.id.val := by
  refine ⟨exampleSubmission_mem Evm.peered ?_, ⟨examplePacket, List.mem_singleton_self _, rfl, rfl, rfl⟩, ?_, ?_⟩
  · rw [Evm.submissions_append Evm.oneSubmission exampleRefunded (Evm.settled_log _ _ _ _ _ _)]
    exact List.mem_append_left _ Evm.oneSubmission_pending.1
  · have he : exampleRefunded.escrows Evm.theSubmission.id =
        { Evm.oneSubmission.escrows Evm.theSubmission.id with status := .refunded } := Function.update_self _ _ _
    exact congrArg Evm.Escrow.status he
  · exact Sui.executed_update.mpr (Or.inl rfl)

/-- The stored intent is refunded: a reachable state has both. -/
theorem stored_and_refunded :
    ¬ ∀ σ, Reachable exampleNetwork anyAction σ → ∀ k, ∀ m ∈ (σ.origins k).submissions,
      σ.ReceivedFrom exampleNetwork k m → σ.sui.Executed m.id.val → ¬ (σ.origins k).Refunded m.id := by
  intro h
  obtain ⟨hm, hreceived, hrefunded, hexecuted⟩ := storedAndRefunded_submission
  exact h _ storedAndRefunded_reachable false _ hm hreceived hexecuted hrefunded

/-- There the store came first. -/
theorem refund_follows_store_once : ∃ t r, storedAndRefunded.StoredAt exampleSubmission.id t ∧
    (storedAndRefunded.origins false).RefundedAt exampleSubmission.id r ∧ (t : Int) < r * 1000 := by
  obtain ⟨hm, hreceived, hrefunded, hexecuted⟩ := storedAndRefunded_submission
  obtain ⟨r, hr, -, hstored, hbefore, -⟩ :=
    (refund_follows_store storedAndRefunded_reachable hm hreceived).1 hrefunded
  obtain ⟨t, ht⟩ := hstored hexecuted
  exact ⟨t, r, ht, hr, (hbefore t ht).2⟩

end Bosphor.CrossChain

import Bosphor.Lib.Conserved
import Bosphor.Solana.Effects

/-!
# Lamports

Where the lamports of an instruction come from and go to: no instruction makes
or loses any (`step_conserved`), and a submission leaves the vault it opens with
its amount on top of the vault's rent (`submitIntent_funds`).
-/

namespace Bosphor.Solana

theorem moveLamports_conserved {source dest : Key} {amount : Nat} {lamports : Key → Nat}
    (h : amount ≤ lamports source) : Conserved lamports (moveLamports source dest amount lamports) := Conserved.move h

variable {s s' : State}

theorem systemTransfer_conserved {source : Pubkey} {dest : Key} {amount : Nat}
    (h : systemTransfer source dest amount s = .ok s') : Conserved s.lamports s'.lamports := by
  obtain ⟨-, hle, rfl⟩ := systemTransfer_ok.mp h
  exact moveLamports_conserved hle

theorem initIfNeeded_conserved {α : Type} {payer : Pubkey} {key : Key} {space : Nat} {fresh a : α} {account : Option α}
    (h : initIfNeeded payer key space fresh account s = .ok (s', a)) : Conserved s.lamports s'.lamports := by
  cases account with
  | some b =>
    simp only [initIfNeeded, Result.pure_ok, Prod.mk.injEq] at h
    obtain ⟨rfl, -⟩ := h
    exact .refl _
  | none =>
    simp only [initIfNeeded, Result.bind_ok, Result.pure_ok, Prod.mk.injEq] at h
    obtain ⟨t, ht, rfl, -⟩ := h
    exact systemTransfer_conserved ht

theorem deposit_conserved {payer : Pubkey} {id : IntentId} {amount : UInt64} (h : deposit payer id amount s = .ok s') :
    Conserved s.lamports s'.lamports := by
  rw [deposit] at h
  by_cases ha : amount > 0
  · rw [if_pos ha] at h
    exact systemTransfer_conserved h
  · rw [if_neg ha] at h
    rw [← Except.ok.inj h]
    exact .refl _

/-- The vault has the deposit on top of what it had. -/
theorem deposit_adds {payer : Pubkey} {id : IntentId} {amount : UInt64} (h : deposit payer id amount s = .ok s') :
    s'.lamports (.escrow id) = s.lamports (.escrow id) + amount.toNat := by
  rw [deposit] at h
  by_cases ha : amount > 0
  · rw [if_pos ha] at h
    obtain ⟨-, -, rfl⟩ := systemTransfer_ok.mp h
    exact moveLamports_dest payer id amount.toNat s.lamports
  · rw [if_neg ha] at h
    have hz : amount.toNat = 0 := Nat.eq_zero_of_not_pos fun hp => ha (UInt64.lt_iff_toNat_lt.mpr hp)
    rw [← Except.ok.inj h, hz, Nat.add_zero]

theorem endpointSend_conserved {payer : Pubkey} {sent : Sent} {nativeFee : UInt64} {receipt : Option MessagingReceipt}
    {r : MessagingReceipt} (h : endpointSend payer sent nativeFee receipt s = .ok (s', r)) :
    Conserved s.lamports s'.lamports := by
  cases receipt with
  | none => cases h
  | some r' =>
    simp only [endpointSend, Result.bind_ok, require_ok, exists_const, Result.pure_ok, Prod.mk.injEq] at h
    obtain ⟨-, t, ht, rfl, -⟩ := h
    have hpaid := systemTransfer_conserved ht
    exact hpaid

/-- A new account has the rent-exempt minimum of its space. -/
theorem initAccount_rent {payer : Pubkey} {id : IntentId} {space : Nat} {α : Type} {account : Option α}
    (h : initAccount payer (.escrow id) space account s = .ok s') : s.rent space ≤ s'.lamports (.escrow id) := by
  obtain ⟨-, ht⟩ := initAccount_ok.mp h
  obtain ⟨-, -, rfl⟩ := systemTransfer_ok.mp ht
  show _ ≤ moveLamports (.wallet payer) (.escrow id) _ s.lamports (.escrow id)
  rw [moveLamports_dest]
  omega

/-- A submission only moves lamports, and funds its vault. -/
theorem submitIntent_funds {now : Int} {payer : Pubkey} {c : Commitment} {dstEid : UInt32}
    {nativeFee escrowAmount : UInt64} {receipt : Option MessagingReceipt}
    (h : submitIntent now payer c dstEid nativeFee escrowAmount receipt s = .ok s') :
    Conserved s.lamports s'.lamports ∧ s.rent EscrowVault.space + escrowAmount.toNat ≤
      s'.lamports (.escrow (submissionId c payer (s.nextNonce payer))) := by
  simp only [submitIntent, Result.bind_ok, Prod.exists, computeIntentId_eq, encodeForward_eq, Except.ok.injEq,
    Result.pure_ok, loadStore, loadPeer, load_ok, nextNonce_ok] at h
  obtain ⟨s₁, senderNonce, hnonce, id, rfl, s₂, h₂, s₃, h₃, store, -, peer, -, _, -, s₄, h₄, _, rfl, s₅, r, h₅,
    rfl⟩ := h
  obtain ⟨hp₁, rfl⟩ := initIfNeeded_ok hnonce
  have hc₂ := systemTransfer_conserved (initAccount_ok.mp h₂).2
  have hc₃ := systemTransfer_conserved (initAccount_ok.mp h₃).2
  have hc₄ : Conserved s₃.lamports s₄.lamports := by
    have hc := deposit_conserved h₄
    exact hc
  have hc₅ := endpointSend_conserved h₅
  refine ⟨((((initIfNeeded_conserved hnonce).trans hc₂).trans hc₃).trans hc₄).trans hc₅, ?_⟩
  have hrent := initAccount_rent h₃
  have hdeposit := deposit_adds h₄
  obtain ⟨-, t, ht, rfl⟩ := endpointSend_ok h₅
  have hp₂ := hp₁.trans (paid_of_systemTransfer (initAccount_ok.mp h₂).2)
  obtain ⟨l₂, rfl, -⟩ := hp₂
  obtain ⟨l₅, rfl, hv₅⟩ := ht
  refine le_trans ?_ (hv₅ _)
  exact (Nat.add_le_add_right hrent _).trans hdeposit.ge

/-- Closing a vault moves its lamports. -/
theorem close_conserved (id : IntentId) (recipient : Pubkey) (lamports : Key → Nat) :
    Conserved lamports (moveLamports (.escrow id) (.wallet recipient) (lamports (.escrow id)) lamports) :=
  moveLamports_conserved le_rfl

/-- No instruction makes or loses lamports. -/
theorem step_conserved {now : Int} {op : Op} (h : step (now, op) s = .ok s') : Conserved s.lamports s'.lamports := by
  cases op with
  | initStore payer admin endpointProgram ok =>
    simp only [step, initStore, Result.bind_ok, initAccount_ok, require_ok, exists_const, Result.pure_ok] at h
    obtain ⟨s₁, ⟨-, h₁⟩, s₂, ⟨-, h₂⟩, -, rfl⟩ := h
    have hc := (systemTransfer_conserved h₁).trans (systemTransfer_conserved h₂)
    exact hc
  | setPeer admin eid address =>
    simp only [step, setPeer, Result.bind_ok, Prod.exists, require_ok, exists_const, Result.pure_ok] at h
    obtain ⟨s₁, peer, h₁, store, -, -, rfl⟩ := h
    have hc := initIfNeeded_conserved h₁
    exact hc
  | submitIntent payer c dstEid nativeFee escrowAmount receipt => exact (submitIntent_funds h).1
  | lzReceive params beneficiary ok =>
    obtain ⟨-, proof, intent, vault, -, rfl⟩ := lzReceive_ok.mp h
    exact close_conserved proof.intentId beneficiary s.lamports
  | confirmExecution admin id blobId endEpoch =>
    obtain ⟨store, intent, -, -, -, -, -, -, -, rfl⟩ := confirmExecution_ok.mp h
    exact .refl _
  | refundEscrow payer id =>
    obtain ⟨vault, -, -, -, -, -, -, rfl⟩ := refundEscrow_ok.mp h
    exact close_conserved id vault.payer s.lamports
  | transfer source dest amount => exact systemTransfer_conserved h
  | assign key systemOwned =>
    cases h
    exact .refl _

end Bosphor.Solana

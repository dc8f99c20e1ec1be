import Bosphor.Evm.State

/-!
# `EscrowVault`

The escrow transitions and the pull payments of the vault. A pull payment calls
out between two pieces of its own code, so each piece is a function here and
the call itself is in the adapter's `call`.
-/

namespace Bosphor.Evm

/-- `_openNativeEscrow(_intentId, _payer, _amount, _deadline)`. -/
def openNativeEscrow (now : Nat) (intentId : IntentId) (payer : Address) (amount : Nat) (deadline : UInt64)
    (s : State) : Except Revert State := do
  revertIf ((s.escrows intentId).status ≠ .none) .escrowAlreadyExists
  let s := { s with
    escrows := Function.update s.escrows intentId ⟨payer, nativeToken, amount, deadline, .pending⟩ }
  return s.emit now (.escrowOpened intentId payer nativeToken amount deadline)

/-- `_openTokenEscrow(_intentId, _payer, _token, _amount, _deadline)`. -/
def openTokenEscrow (now : Nat) (intentId : IntentId) (payer token : Address) (amount : Nat)
    (deadline : UInt64) (s : State) : Except Revert State := do
  revertIf (token = nativeToken) .unsupportedToken
  revertIf ((s.escrows intentId).status ≠ .none) .escrowAlreadyExists
  let s := { s with escrows := Function.update s.escrows intentId ⟨payer, token, amount, deadline, .pending⟩ }
  return s.emit now (.escrowOpened intentId payer token amount deadline)

/-- `_credit(_token, _to, _amount)`. -/
def credit (token recipient : Address) (amount : Nat) (s : State) : Except Revert State := do
  if token = nativeToken then
    let total ← checkedAdd (s.withdrawable recipient) amount
    return { s with withdrawable := Function.update s.withdrawable recipient total }
  else
    let total ← checkedAdd (s.withdrawableToken token recipient) amount
    return { s with
      withdrawableToken :=
        Function.update s.withdrawableToken token (Function.update (s.withdrawableToken token) recipient total) }

/-- `_releaseEscrow(_intentId, _to)`. -/
def releaseEscrow (now : Nat) (intentId : IntentId) (recipient : Address) (s : State) : Except Revert State := do
  let e := s.escrows intentId
  revertIf (e.status ≠ .pending) .escrowNotPending
  let s := { s with escrows := Function.update s.escrows intentId { e with status := .released } }
  let s ← credit e.token recipient e.amount s
  return s.emit now (.escrowReleased intentId recipient e.amount)

/-- `_refundEscrow(_intentId)`. -/
def refundEscrow (now : Nat) (intentId : IntentId) (s : State) : Except Revert State := do
  let e := s.escrows intentId
  revertIf (e.status ≠ .pending) .escrowNotPending
  revertIf (now ≤ e.deadline.toNat) .deadlineNotReached
  let s := { s with escrows := Function.update s.escrows intentId { e with status := .refunded } }
  let s ← credit e.token e.payer e.amount s
  return s.emit now (.escrowRefunded intentId e.payer e.amount)

/-- The history of withdrawals with one more. -/
def drawMore (asset account : Address) (amount : Nat) (s : State) : Address → Address → Nat :=
  Function.update s.drawn asset
    (Function.update (s.drawn asset) account (s.drawn asset account + amount))

/-- `withdraw()` up to and including the transfer of the value; the amount paid. The call fails
when the recipient fails (`ok`). -/
def beginWithdraw (sender : Address) (ok : Bool) (s : State) : Except Revert (State × Nat) := do
  revertIf s.entered .reentrantCall
  let amount := s.withdrawable sender
  revertIf (amount = 0) .nothingToWithdraw
  let s := { s with
    entered := true
    withdrawable := Function.update s.withdrawable sender 0
    drawn := drawMore nativeToken sender amount s }
  revertIf (¬ (ok ∧ amount ≤ s.balance)) .transferFailed
  return ({ s with balance := s.balance - amount }, amount)

/-- `withdraw()` after the recipient's code ran. -/
def endWithdraw (now : Nat) (sender : Address) (amount : Nat) (s : State) : State :=
  ({ s with entered := false } : State).emit now (.withdrawn sender amount)

/-- `withdrawToken(_token)` up to the call of the token; the amount to pay. -/
def beginWithdrawToken (sender token : Address) (s : State) : Except Revert (State × Nat) := do
  revertIf s.entered .reentrantCall
  let amount := s.withdrawableToken token sender
  revertIf (amount = 0) .nothingToWithdraw
  return ({ s with
    entered := true
    withdrawableToken :=
      Function.update s.withdrawableToken token (Function.update (s.withdrawableToken token) sender 0)
    drawn := drawMore token sender amount s }, amount)

/-- The token contract pays the adapter's `amount` out: exactly that, or, when the token does not
move exact amounts, so that the adapter is left with `left`. -/
def payToken (token : Address) (amount left : Nat) (ok : Bool) (s : State) : Except Revert State := do
  let account := s.tokens token
  revertIf (¬ (ok ∧ (account.exact → amount ≤ account.balance))) .externalCall
  let balance := if account.exact then account.balance - amount else left
  return { s with tokens := Function.update s.tokens token { account with balance } }

/-- `withdrawToken(_token)` after the call of the token. -/
def endWithdrawToken (now : Nat) (sender token : Address) (amount : Nat) (s : State) : State :=
  ({ s with entered := false } : State).emit now (.withdrawnToken token sender amount)

end Bosphor.Evm

import Bosphor.Codec.ReturnProof
import Bosphor.Codec.Solidity
import Bosphor.Evm.EscrowVault
import Bosphor.Lib.Machine

/-!
# `BosphorEscrowAdapter`

The adapter's functions, the calls accounts can make, and runs of calls.

A call of Permit2, of a token or of a withdrawing recipient runs code that may
call the adapter again. `Call` is therefore a tree: an operation with the calls
made while its outside code runs. Such a call may revert on its own, and then
has changed nothing.
-/

namespace Bosphor.Evm

open Bytes (toBE)

/-! ## Submitting -/

/-- The 81 bytes sent for an intent: `abi.encodePacked(_intentId, CommitmentCodec.encode(_c))`. -/
def encodeMessage (intentId : IntentId) (c : Commitment) : Except Revert (List UInt8) := do
  return intentId.val ++ (← CommitmentCodec.encode c)

/-- `_getPeerOrRevert(_eid)`. -/
def getPeerOrRevert (eid : UInt32) (s : State) : Except Revert (Bytes 32) := do
  revertIf (s.peers eid = Bytes.zero 32) .noPeer
  return s.peers eid

/-- The endpoint's quote; `none` when it reverts. -/
def quote (fee : Option Nat) : Except Revert Nat :=
  match fee with
  | some fee => .ok fee
  | none => .error .externalCall

/-- `_payNative(_nativeFee)`. -/
def payNative (value nativeFee : Nat) : Except Revert Nat := do
  revertIf (value < nativeFee) .insufficientPayment
  return nativeFee

/-- `_lzSend`: the endpoint takes the native fee and the message, unless its `send` reverts. -/
def lzSend (dstEid : UInt32) (message : List UInt8) (value nativeFee : Nat) (ok : Bool) (s : State) :
    Except Revert State := do
  let fee ← payNative value nativeFee
  let receiver ← getPeerOrRevert dstEid s
  revertIf (¬ (ok ∧ fee ≤ s.balance)) .externalCall
  return { s with balance := s.balance - fee, sent := s.sent ++ [⟨dstEid, receiver, message⟩] }

/-- `_escrowAndSend(_dstEid, _intentId, _c, _options, _deadline)`. The options only reach the endpoint,
whose quote is `fee` and whose `send` succeeds when `sendOk`. -/
def escrowAndSend (now : Nat) (sender : Address) (value : Nat) (dstEid : UInt32) (intentId : IntentId)
    (c : Commitment) (fee : Option Nat) (sendOk : Bool) (s : State) : Except Revert State := do
  let message ← encodeMessage intentId c
  let _ ← getPeerOrRevert dstEid s
  let nativeFee ← quote fee
  revertIf (value < nativeFee) .insufficientPayment
  let s ← openNativeEscrow now intentId sender (value - nativeFee) c.deadline s
  lzSend dstEid message value nativeFee sendOk s

/-- `submitIntent(_dstEid, _blobId, _size, _encodingType, _storageEpochs, _deadline, _options)`. -/
def submitIntent (now : Nat) (sender : Address) (value : Nat) (dstEid : UInt32) (c : Commitment)
    (fee : Option Nat) (sendOk : Bool) (s : State) : Except Revert State := do
  let s ← receiveValue value s
  revertIf (now > c.deadline.toNat) .deadlineExpired
  let nonce := s.nonces sender
  let nonceNext ← checkedAdd nonce 1
  let s := { s with nonces := Function.update s.nonces sender nonceNext }
  let intentId ← CommitmentCodec.deriveIntentId c (toBytes32 sender) (UInt64.ofNat nonce)
  revertIf (s.intents intentId) .intentAlreadyExists
  let s := { s with
    intents := Function.update s.intents intentId true
    committedBlobId := Function.update s.committedBlobId intentId c.blobId
    intentDeadlines := Function.update s.intentDeadlines intentId c.deadline.toNat }
  let s ← escrowAndSend now sender value dstEid intentId c fee sendOk s
  return s.emit now (.intentSubmitted intentId sender dstEid c (UInt64.ofNat nonce))

/-! ## Proofs -/

/-- `_markExecuted(_intentId, _proof)`. -/
def markExecuted (now : Nat) (intentId : IntentId) (proof : List UInt8) (s : State) : Except Revert State := do
  revertIf (¬ s.intents intentId) .intentNotFound
  revertIf (s.executed intentId) .alreadyExecuted
  let s := { s with executed := Function.update s.executed intentId true }
  return s.emit now (.intentExecuted intentId proof)

/-- `_lzReceive(…, _message, …)`. -/
def lzReceiveMessage (now : Nat) (message : List UInt8) (s : State) : Except Revert State := do
  let (intentId, blobId, endEpoch) ← decodeProofMessage message
  revertIf (blobId ≠ s.committedBlobId intentId) .blobIdMismatch
  let s ← markExecuted now intentId (blobId.val ++ toBE 32 endEpoch) s
  releaseEscrow now intentId s.trustedRelayer s

/-- `lzReceive(_origin, _guid, _message, _executor, _extraData)` of `OAppReceiver`: only the endpoint may
call it, with a message of the peer. -/
def lzReceive (now : Nat) (sender : Address) (value : Nat) (packet : Received) (s : State) :
    Except Revert State := do
  let s ← receiveValue value s
  revertIf (sender ≠ s.endpoint) .onlyEndpoint
  revertIf ((← getPeerOrRevert packet.srcEid s) ≠ packet.sender) .onlyPeer
  let s ← lzReceiveMessage now packet.message s
  return { s with received := s.received ++ [packet] }

/-- `confirmExecution(_intentId, _proof)`. -/
def confirmExecution (now : Nat) (sender : Address) (intentId : IntentId) (proof : List UInt8) (s : State) :
    Except Revert State := do
  onlyOwner sender s
  markExecuted now intentId proof s

/-! ## Deposits -/

/-- `depositUsdcWithPermit2` up to the call of Permit2. -/
def beginDeposit (s : State) : Except Revert Unit :=
  revertIf (s.permit2 = zeroAddress) .permit2NotConfigured

/-- Permit2 moves the amount requested in: exactly that, or, when the token does not move exact
amounts, so that the adapter is left with `left`. -/
def pullToken (token : Address) (amount left : Nat) (ok : Bool) (s : State) : Except Revert State := do
  revertIf (¬ ok) .externalCall
  let account := s.tokens token
  let balance := if account.exact then account.balance + amount else left
  return { s with tokens := Function.update s.tokens token { account with balance } }

/-! ## Administration -/

/-- `setRelayer(_relayer)`. -/
def setRelayer (now : Nat) (sender relayer : Address) (s : State) : Except Revert State := do
  onlyOwner sender s
  revertIf (relayer = zeroAddress) .zeroAddress
  let old := s.trustedRelayer
  return ({ s with trustedRelayer := relayer } : State).emit now (.relayerUpdated old relayer)

/-- `setPermit2(_permit2)`. -/
def setPermit2 (sender permit2 : Address) (s : State) : Except Revert State := do
  onlyOwner sender s
  return { s with permit2 }

/-- `setPeer(_eid, _peer)` of `OAppCore`. -/
def setPeer (now : Nat) (sender : Address) (eid : UInt32) (peer : Bytes 32) (s : State) :
    Except Revert State := do
  onlyOwner sender s
  return ({ s with peers := Function.update s.peers eid peer } : State).emit now (.peerSet eid peer)

/-- `transferOwnership(newOwner)` of `Ownable`. -/
def transferOwnership (now : Nat) (sender newOwner : Address) (s : State) : Except Revert State := do
  onlyOwner sender s
  revertIf (newOwner = zeroAddress) .zeroAddress
  return ({ s with owner := newOwner } : State).emit now (.ownershipTransferred s.owner newOwner)

/-- `renounceOwnership()` of `Ownable`. -/
def renounceOwnership (now : Nat) (sender : Address) (s : State) : Except Revert State := do
  onlyOwner sender s
  return ({ s with owner := zeroAddress } : State).emit now (.ownershipTransferred s.owner zeroAddress)

/-! ## Calls -/

/-- What an account can do to the contract. The last two are not calls: value forced on it, and a
token contract changing the balance it keeps for it (of an exact token nobody else can spend). -/
inductive Op where
  | submitIntent (sender : Address) (value : Nat) (dstEid : UInt32) (c : Commitment) (fee : Option Nat)
      (sendOk : Bool)
  | lzReceive (sender : Address) (value : Nat) (packet : Received)
  | depositUsdcWithPermit2 (sender : Address) (intentId : IntentId) (deadline : UInt64) (token : Address)
      (amount left : Nat) (ok : Bool)
  | refund (intentId : IntentId)
  | confirmExecution (sender : Address) (intentId : IntentId) (proof : List UInt8)
  | setRelayer (sender relayer : Address)
  | setPermit2 (sender permit2 : Address)
  | setPeer (sender : Address) (eid : UInt32) (peer : Bytes 32)
  | transferOwnership (sender newOwner : Address)
  | renounceOwnership (sender : Address)
  | withdraw (sender : Address) (ok : Bool)
  | withdrawToken (sender token : Address) (left : Nat) (ok : Bool)
  | forceValue (value : Nat)
  | tokenMoves (token : Address) (balance : Nat)

/-- A call with the calls made while its outside code runs: before and after that code moves the
value. -/
inductive Call where
  | mk (op : Op) (before after : List Call)

/-- The operations without outside code. -/
def direct (now : Nat) (op : Op) (s : State) : Except Revert State :=
  match op with
  | .submitIntent sender value dstEid c fee sendOk => submitIntent now sender value dstEid c fee sendOk s
  | .lzReceive sender value packet => lzReceive now sender value packet s
  | .refund intentId => refundEscrow now intentId s
  | .confirmExecution sender intentId proof => confirmExecution now sender intentId proof s
  | .setRelayer sender relayer => setRelayer now sender relayer s
  | .setPermit2 sender permit2 => setPermit2 sender permit2 s
  | .setPeer sender eid peer => setPeer now sender eid peer s
  | .transferOwnership sender newOwner => transferOwnership now sender newOwner s
  | .renounceOwnership sender => renounceOwnership now sender s
  | .forceValue value => receiveValue value s
  | .tokenMoves token balance => do
    let account := s.tokens token
    revertIf (account.exact ∧ balance < account.balance) .externalCall
    return { s with tokens := Function.update s.tokens token { account with balance } }
  | .depositUsdcWithPermit2 .. | .withdraw .. | .withdrawToken .. => .error .externalCall

mutual

/-- The call at block time `now`; an error changes nothing. -/
def call (now : Nat) : Call → State → Except Revert State
  | .mk op before after, s =>
    match op with
    | .depositUsdcWithPermit2 sender intentId deadline token amount left ok => do
      beginDeposit s
      let s ← pullToken token amount left ok (reenter now before s)
      openTokenEscrow now intentId sender token amount deadline (reenter now after s)
    | .withdraw sender ok => do
      let (s, amount) ← beginWithdraw sender ok s
      return endWithdraw now sender amount (reenter now after s)
    | .withdrawToken sender token left ok => do
      let (s, amount) ← beginWithdrawToken sender token s
      let s ← payToken token amount left ok (reenter now before s)
      return endWithdrawToken now sender token amount (reenter now after s)
    | op => direct now op s

/-- The calls outside code makes, in order; those that revert change nothing. -/
def reenter (now : Nat) : List Call → State → State
  | [], s => s
  | c :: cs, s =>
    reenter now cs (match call now c s with
      | .ok s' => s'
      | .error _ => s)

end

/-- One transaction's call, at its block time. -/
def step (a : Nat × Call) (s : State) : Except Revert State := call a.1 a.2 s

end Bosphor.Evm

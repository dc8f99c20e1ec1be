import Bosphor.Codec.ReturnProof
import Bosphor.Lib.Machine
import Bosphor.Sui.State

/-!
# The receiver and the executor

The functions of `bosphor_lz::lz_receiver` and `bosphor::walrus_executor`, and
runs of transactions. A transaction that aborts changes nothing.

The OApp is LayerZero's: it hands out a delivered message when the endpoint
brings it from the peer of its source, sends to the peer of a destination, and
knows its admin.
-/

namespace Bosphor.Sui

/-! ## The OApp -/

/-- What the OApp aborts with. -/
def EOApp : Abort := .code .oapp 0

/-- `oapp.lz_receive(cap, call)`: from the endpoint, and from the peer of the source. -/
def oappLzReceive (fromEndpoint : Bool) (packet : Packet) (s : State) : Except Abort Unit :=
  assert (fromEndpoint && s.peers packet.srcEid == some packet.sender) EOApp

/-- `oapp.lz_send(cap, dst_eid, message, ..)`. -/
def oappLzSend (dstEid : UInt32) (message : List UInt8) (s : State) : Except Abort Sent :=
  match s.peers dstEid with
  | some peer => .ok ⟨dstEid, peer, message⟩
  | none => .error EOApp

/-- `oapp.assert_admin(admin_cap)`. -/
def assertAdmin (isAdmin : Bool) : Except Abort Unit := assert isAdmin EOApp

/-! ## `lz_receiver` -/

def EIntentAlreadyReceived : Abort := .code .lzReceiver 0
def EInvalidMessageLength : Abort := .code .lzReceiver 1
def EUnauthorizedRelayer : Abort := .code .lzReceiver 2
def EZeroAddress : Abort := .code .lzReceiver 3
def EIntentNotReceived : Abort := .code .lzReceiver 4

/-- `config.received_intents.contains(intent_id)`. -/
def LzReceiverConfig.contains (config : LzReceiverConfig) (intentId : List UInt8) : Bool :=
  (config.receivedIntents intentId).isSome

/-- `lz_receive(config, oapp, call, ctx)`; the transaction's sender gets the value attached. -/
def lzReceive (now : Nat) (sender : Address) (fromEndpoint : Bool) (packet : Packet) (value : Option Nat)
    (s : State) : Except Abort State := do
  oappLzReceive fromEndpoint packet s
  let message := packet.message
  assert (message.length = 81) EInvalidMessageLength
  let intentId ← slice message 0 32
  let commitment ← slice message 32 49
  assert (!s.receiver.contains intentId) EIntentAlreadyReceived
  let (blobIdBytes, size, encodingType, storageEpochs, deadline) ← CommitmentCodec.decode commitment
  let committedBlobId ← bytes32ToU256 blobIdBytes
  let record : IntentRecord := {
    committedBlobId := committedBlobId
    committedStorageEpochs := storageEpochs
    committedDeadline := deadline
    srcEid := packet.srcEid
    nonce := packet.nonce }
  let s : State := { s with
    receiver := { s.receiver with
      receivedIntents := Function.update s.receiver.receivedIntents intentId (some record) }
    delivered := s.delivered ++ [packet] }
  let s := s.emit now (.intentReceived intentId committedBlobId size encodingType storageEpochs deadline
    packet.srcEid packet.nonce packet.guid)
  return match value with
    | some value => s.transfer (.coin value sender)
    | none => s

/-- `lz_send_proof(config, oapp, intent_id, blob_id, end_epoch, dst_eid, ..)`: the message to send. -/
def lzSendProof (sender : Address) (intentId blobId : List UInt8) (endEpoch : UInt64) (dstEid : UInt32)
    (s : State) : Except Abort Sent := do
  assert (sender = s.receiver.relayer) EUnauthorizedRelayer
  assert (s.receiver.contains intentId) EIntentNotReceived
  let message ← Codec.encode intentId blobId endEpoch
  oappLzSend dstEid message s

/-- What the endpoint returns for a message sent, with the rest of the fee. -/
structure MessagingReceipt where
  guid : Bytes 32
  nonce : UInt64
  refund : Nat

/-- `confirm_lz_send_proof(config, oapp, call, ctx)`. -/
def confirmLzSendProof (now : Nat) (sender : Address) (sent : Sent) (receipt : MessagingReceipt) (s : State) :
    Except Abort State := do
  let intentId ← slice sent.message 1 32
  let blobId ← slice sent.message 33 32
  let endEpoch ← decodeU64FromU256 sent.message 65
  let s := if receipt.refund > 0 then s.transfer (.coin receipt.refund sender) else s
  return s.emit now (.proofSent intentId blobId endEpoch sent.dstEid receipt.nonce receipt.guid)

/-- The transaction of both: the call `lz_send_proof` returns can only be sent by the endpoint, which
may refuse it, and then confirmed. -/
def sendProof (now : Nat) (sender : Address) (intentId blobId : List UInt8) (endEpoch : UInt64) (dstEid : UInt32)
    (receipt : Option MessagingReceipt) (s : State) : Except Abort State := do
  let sent ← lzSendProof sender intentId blobId endEpoch dstEid s
  match receipt with
  | none => .error EOApp
  | some receipt => confirmLzSendProof now sender sent receipt { s with sent := s.sent ++ [sent] }

/-- A field of the record of an intent. -/
def committedField {α : Type} (field : IntentRecord → α) (config : LzReceiverConfig) (intentId : List UInt8) :
    Except Abort α :=
  match config.receivedIntents intentId with
  | some record => .ok (field record)
  | none => .error EIntentNotReceived

/-- `committed_blob_id(config, intent_id)`. -/
def committedBlobId : LzReceiverConfig → List UInt8 → Except Abort U256 := committedField (·.committedBlobId)

/-- `committed_storage_epochs(config, intent_id)`. -/
def committedStorageEpochs : LzReceiverConfig → List UInt8 → Except Abort UInt32 :=
  committedField (·.committedStorageEpochs)

/-- `committed_deadline(config, intent_id)`. -/
def committedDeadline : LzReceiverConfig → List UInt8 → Except Abort UInt64 := committedField (·.committedDeadline)

/-- `set_relayer(config, admin_cap, oapp, new_relayer)`. -/
def setRelayer (isAdmin : Bool) (newRelayer : Address) (s : State) : Except Abort State := do
  assertAdmin isAdmin
  assert (newRelayer ≠ zeroAddress) EZeroAddress
  return { s with receiver := { s.receiver with relayer := newRelayer } }

/-! ## `reference` -/

/-- `blob_id_matches(committed_blob_id, actual_blob_id)`. -/
def blobIdMatches (committedBlobId actualBlobId : U256) : Bool := actualBlobId == committedBlobId

/-- `covers_storage_epochs(committed_storage_epochs, actual_end_epoch, current_epoch)`, in `u64`. -/
def coversStorageEpochs (committedStorageEpochs actualEndEpoch currentEpoch : UInt32) : Bool :=
  actualEndEpoch.toNat ≥ currentEpoch.toNat + committedStorageEpochs.toNat

/-! ## `walrus_executor` -/

namespace Executor

def ENotRelayer : Abort := .code .walrusExecutor 0
def EBlobNotCertified : Abort := .code .walrusExecutor 1
def EIntentAlreadyExecuted : Abort := .code .walrusExecutor 2
def EDeadlineExpired : Abort := .code .walrusExecutor 3
def EBlobIdMismatch : Abort := .code .walrusExecutor 4
def EInsufficientStorageEpochs : Abort := .code .walrusExecutor 5
def EZeroAddress : Abort := .code .walrusExecutor 6

/-- `assert_deadline(now_ms, committed_deadline_s)`, in `u128`. -/
def assertDeadline (nowMs : Nat) (committedDeadlineS : UInt64) : Except Abort Unit :=
  assert (nowMs ≤ committedDeadlineS.toNat * 1000) EDeadlineExpired

/-- `assert_reference`. -/
def assertReference (committedBlobId : U256) (committedStorageEpochs : UInt32) (actualBlobId : U256)
    (actualEndEpoch currentEpoch : UInt32) : Except Abort Unit := do
  assert (blobIdMatches committedBlobId actualBlobId) EBlobIdMismatch
  assert (coversStorageEpochs committedStorageEpochs actualEndEpoch currentEpoch) EInsufficientStorageEpochs

/-- `execute_store(config, lz_config, system, intent_id, blob, clock, original_sender, ctx)`; `epoch` is
the Walrus epoch of `system`, `now` the time of the clock. -/
def executeStore (now : Nat) (sender : Address) (epoch : UInt32) (intentId : List UInt8) (blob : Blob)
    (originalSender : Address) (s : State) : Except Abort State := do
  assert (sender = s.executor.relayer) ENotRelayer
  assert blob.certifiedEpoch.isSome EBlobNotCertified
  assert (s.executor.executedIntents intentId).isNone EIntentAlreadyExecuted
  let deadline ← committedDeadline s.receiver intentId
  assertDeadline now deadline
  let committedId ← committedBlobId s.receiver intentId
  let committedEpochs ← committedStorageEpochs s.receiver intentId
  assertReference committedId committedEpochs blob.blobId blob.endEpoch epoch
  let s : State := { s with
    executor := { s.executor with
      executedIntents := Function.update s.executor.executedIntents intentId (some true) } }
  let s := s.emit now (.storageExecuted intentId blob.blobId blob.endEpoch sender)
  let s := s.transfer (.blob blob originalSender)
  return s.transfer (.receipt ⟨intentId, blob.blobId, blob.endEpoch, originalSender⟩ originalSender)

/-- `update_relayer(config, new_relayer, ctx)`. -/
def updateRelayer (sender newRelayer : Address) (s : State) : Except Abort State := do
  assert (sender = s.executor.relayer) ENotRelayer
  return { s with executor := { s.executor with relayer := newRelayer } }

/-- `set_relayer(config, admin_cap, oapp, new_relayer)`. -/
def setRelayer (now : Nat) (isAdmin : Bool) (newRelayer : Address) (s : State) : Except Abort State := do
  assertAdmin isAdmin
  assert (newRelayer ≠ zeroAddress) EZeroAddress
  let s := s.emit now (.relayerChanged s.executor.relayer newRelayer)
  return { s with executor := { s.executor with relayer := newRelayer } }

end Executor

/-! ## Runs -/

/-- The transactions. -/
inductive Op where
  | lzReceive (sender : Address) (fromEndpoint : Bool) (packet : Packet) (value : Option Nat)
  | sendProof (sender : Address) (intentId blobId : List UInt8) (endEpoch : UInt64) (dstEid : UInt32)
      (receipt : Option MessagingReceipt)
  | setRelayer (isAdmin : Bool) (newRelayer : Address)
  | executeStore (sender : Address) (epoch : UInt32) (intentId : List UInt8) (blob : Blob)
      (originalSender : Address)
  | updateRelayer (sender newRelayer : Address)
  | setExecutorRelayer (isAdmin : Bool) (newRelayer : Address)
  | setPeer (isAdmin : Bool) (eid : UInt32) (peer : Bytes 32)

/-- One transaction, at the clock's time. -/
def step (a : Nat × Op) (s : State) : Except Abort State :=
  match a.2 with
  | .lzReceive sender fromEndpoint packet value => lzReceive a.1 sender fromEndpoint packet value s
  | .sendProof sender intentId blobId endEpoch dstEid receipt =>
    sendProof a.1 sender intentId blobId endEpoch dstEid receipt s
  | .setRelayer isAdmin newRelayer => setRelayer isAdmin newRelayer s
  | .executeStore sender epoch intentId blob originalSender =>
    Executor.executeStore a.1 sender epoch intentId blob originalSender s
  | .updateRelayer sender newRelayer => Executor.updateRelayer sender newRelayer s
  | .setExecutorRelayer isAdmin newRelayer => Executor.setRelayer a.1 isAdmin newRelayer s
  | .setPeer isAdmin eid peer => do
    assertAdmin isAdmin
    return { s with peers := Function.update s.peers eid (some peer) }

end Bosphor.Sui

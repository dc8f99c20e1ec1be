import Bosphor.Codec.ReturnProof
import Bosphor.Codec.Rust
import Bosphor.Lib.Machine
import Bosphor.Solana.State

/-!
# The program

The instructions of the Solana adapter, each with the account constraints Anchor
checks before its handler, and runs of instructions. An instruction that fails
changes nothing.

The accounts an instruction names by seeds are given by the seeds; the others
are arguments.
-/

namespace Bosphor.Solana

/-- `require!(cond, e)`. -/
def require (cond : Prop) [Decidable cond] (e : Error) : Except Error Unit :=
  if cond then .ok () else .error e

/-! ## Accounts -/

/-- The lamports with `amount` moved. -/
def moveLamports (source dest : Key) (amount : Nat) (lamports : Key → Nat) : Key → Nat :=
  let lamports := Function.update lamports source (lamports source - amount)
  Function.update lamports dest (lamports dest + amount)

/-- `system_program::transfer`. -/
def systemTransfer (source : Pubkey) (dest : Key) (amount : Nat) (s : State) : Except Error State := do
  require (s.systemOwned source) .notSystemAccount
  require (amount ≤ s.lamports (.wallet source)) .insufficientLamports
  return { s with lamports := moveLamports (.wallet source) dest amount s.lamports }

/-- `init`: `payer` funds a new account up to the rent-exempt minimum of its space. -/
def initAccount {α : Type} (payer : Pubkey) (key : Key) (space : Nat) (account : Option α) (s : State) :
    Except Error State := do
  require (account.isNone) .accountInUse
  systemTransfer payer key (s.rent space - s.lamports key) s

/-- `init_if_needed`, with what a new account starts with. -/
def initIfNeeded {α : Type} (payer : Pubkey) (key : Key) (space : Nat) (fresh : α) (account : Option α)
    (s : State) : Except Error (State × α) :=
  match account with
  | some a => return (s, a)
  | none => do return (← systemTransfer payer key (s.rent space - s.lamports key) s, fresh)

/-- `#[account(seeds = [..], bump = x.bump)]`: the account exists, and records its bump. -/
def load {α : Type} (key : Key) (bump : α → UInt8) (account : Option α) (s : State) : Except Error α :=
  match account with
  | none => .error .accountNotInitialized
  | some a => do
    require (bump a = s.bumps key) .constraintSeeds
    return a

def loadStore (s : State) : Except Error Store := load .store (·.bump) s.store s

def loadPeer (eid : UInt32) (s : State) : Except Error Peer := load (.peer eid) (·.bump) (s.peers eid) s

def loadIntent (intentId : IntentId) (s : State) : Except Error IntentState :=
  load (.intent intentId) (·.bump) (s.intents intentId) s

def loadEscrow (intentId : IntentId) (s : State) : Except Error EscrowVault :=
  load (.escrow intentId) (·.bump) (s.escrows intentId) s

/-- `close = recipient` on an escrow vault: all its lamports go to the recipient. -/
def closeEscrow (intentId : IntentId) (recipient : Pubkey) (s : State) : State :=
  { s with
    lamports := moveLamports (.escrow intentId) (.wallet recipient) (s.lamports (.escrow intentId)) s.lamports
    escrows := Function.update s.escrows intentId none }

/-! ## Escrow transitions -/

/-- `check_release(status)`. -/
def checkRelease (status : UInt8) : Except Error Unit := require (status = escrowPending) .escrowNotPending

/-- `check_refund(status, now_unix, deadline)`. -/
def checkRefund (status : UInt8) (nowUnix : Int) (deadline : UInt64) : Except Error Unit := do
  require (status = escrowPending) .escrowNotPending
  require (nowUnix > deadline.toNat) .deadlineNotReached

/-! ## Configuration -/

/-- `init_store`; `ok` tells whether the endpoint registers the program. -/
def initStore (payer admin endpointProgram : Pubkey) (ok : Bool) (s : State) : Except Error State := do
  let s ← initAccount payer .store Store.space s.store s
  let s ← initAccount payer .lzReceiveTypes LzReceiveTypesAccounts.space s.lzReceiveTypes s
  require ok .endpoint
  return { s with
    store := some ⟨admin, endpointProgram, s.bumps .store⟩
    lzReceiveTypes := some ⟨.store⟩ }

/-- `set_peer`. -/
def setPeer (admin : Pubkey) (eid : UInt32) (address : Bytes 32) (s : State) : Except Error State := do
  let (s, _) ← initIfNeeded admin (.peer eid) Peer.space (⟨Bytes.zero 32, 0⟩ : Peer) (s.peers eid) s
  let store ← loadStore s
  require (store.admin = admin) .unauthorized
  return { s with peers := Function.update s.peers eid (some ⟨address, s.bumps (.peer eid)⟩) }

/-! ## Submitting -/

/-- `compute_intent_id`. -/
def computeIntentId (c : Commitment) (sender : Pubkey) (nonce : UInt64) : Except Error IntentId :=
  match Rust.deriveIntentId c sender.val nonce with
  | .ok intentId => .ok intentId
  | .error _ => .error .panicked

/-- `encode_forward(intent_id, commitment)`: 81 bytes. -/
def encodeForward (intentId : IntentId) (c : Commitment) : Except Error (List UInt8) :=
  match Rust.encode c with
  | .ok encoded => .ok (intentId.val ++ encoded)
  | .error _ => .error .panicked

/-- What the endpoint's `send` returns, with the fee it took and the account that got it. -/
structure MessagingReceipt where
  guid : Bytes 32
  nonce : UInt64
  fee : Nat
  feeTo : Pubkey

/-- `oapp::endpoint_cpi::send`: `none` when the endpoint refuses; it takes at most `nativeFee`. -/
def endpointSend (payer : Pubkey) (sent : Sent) (nativeFee : UInt64) (receipt : Option MessagingReceipt)
    (s : State) : Except Error (State × MessagingReceipt) :=
  match receipt with
  | none => .error .endpoint
  | some receipt => do
    require (receipt.fee ≤ nativeFee.toNat) .endpoint
    let s ← systemTransfer payer (.wallet receipt.feeTo) receipt.fee s
    return ({ s with sent := s.sent ++ [sent] }, receipt)

/-- `sender_nonce.nonce = nonce.checked_add(1)`. -/
def nextNonce (nonce : UInt64) : Except Error UInt64 :=
  if nonce.toNat + 1 < 2 ^ 64 then .ok (nonce + 1) else .error .nonceOverflow

/-- The payment into the vault, if there is any. -/
def deposit (payer : Pubkey) (intentId : IntentId) (escrowAmount : UInt64) (s : State) : Except Error State :=
  if escrowAmount > 0 then systemTransfer payer (.escrow intentId) escrowAmount.toNat s else .ok s

/-- `submit_intent`. -/
def submitIntent (now : Int) (payer : Pubkey) (c : Commitment) (dstEid : UInt32)
    (nativeFee escrowAmount : UInt64) (receipt : Option MessagingReceipt) (s : State) : Except Error State := do
  let (s, senderNonce) ← initIfNeeded payer (.nonce payer) SenderNonce.space (⟨0, 0⟩ : SenderNonce)
    (s.nonces payer) s
  let nonce := senderNonce.nonce
  let intentId ← computeIntentId c payer nonce
  let s ← initAccount payer (.intent intentId) IntentState.space (s.intents intentId) s
  let s ← initAccount payer (.escrow intentId) EscrowVault.space (s.escrows intentId) s
  let store ← loadStore s
  let peer ← loadPeer dstEid s
  let s := { s with
    intents := Function.update s.intents intentId (some {
      committedBlobId := c.blobId
      size := c.size
      storageEpochs := c.storageEpochs
      deadline := c.deadline
      sender := payer
      nonce := nonce
      executed := false
      endEpoch := 0
      bump := s.bumps (.intent intentId) }) }
  let next ← nextNonce nonce
  let s := { s with nonces := Function.update s.nonces payer (some ⟨next, s.bumps (.nonce payer)⟩) }
  let s := { s with
    escrows := Function.update s.escrows intentId (some {
      payer := payer
      beneficiary := store.admin
      amount := escrowAmount
      deadline := c.deadline
      status := escrowPending
      bump := s.bumps (.escrow intentId) }) }
  let s ← deposit payer intentId escrowAmount s
  let message ← encodeForward intentId c
  let (s, receipt) ← endpointSend payer ⟨dstEid, peer.address, message⟩ nativeFee receipt s
  return s.emit now (.intentSubmitted intentId payer nonce c dstEid receipt.guid receipt.nonce)

/-! ## Proofs -/

/-- `decode_intent_id(message)`: zero for a malformed proof, which the handler then rejects. -/
def decodeIntentId (message : List UInt8) : IntentId :=
  match decodeProof message with
  | .ok p => p.intentId
  | .error _ => Bytes.zero 32

/-- `lz_receive`; `ok` tells whether the endpoint's `clear` finds the message verified and not yet
cleared. -/
def lzReceive (now : Int) (params : LzReceiveParams) (beneficiary : Pubkey) (ok : Bool) (s : State) :
    Except Error State := do
  let peer ← loadPeer params.srcEid s
  require (peer.address = params.sender) .invalidPeer
  let _ ← loadStore s
  let intentId := decodeIntentId params.message
  let intent ← loadIntent intentId s
  let escrow ← loadEscrow intentId s
  require (s.systemOwned beneficiary) .notSystemAccount
  require (beneficiary = escrow.beneficiary) .invalidBeneficiary
  let proof ← match decodeProof params.message with
    | .ok proof => .ok proof
    | .error _ => .error .invalidProof
  require ok .endpoint
  require (¬ intent.executed) .alreadyExecuted
  require (proof.blobId = intent.committedBlobId) .blobIdMismatch
  let s := { s with
    intents := Function.update s.intents intentId
      (some { intent with executed := true, endEpoch := proof.endEpoch }) }
  checkRelease escrow.status
  let s := s.emit now (.intentExecuted proof.intentId proof.blobId proof.endEpoch params.srcEid)
  let s := closeEscrow intentId beneficiary s
  return { s with received := s.received ++ [params] }

/-- `SUI_EID` of the default build. -/
def suiEid : UInt32 := 40378

/-- `confirm_execution`. -/
def confirmExecution (now : Int) (admin : Pubkey) (intentId : IntentId) (returnedBlobId : Bytes 32)
    (endEpoch : UInt64) (s : State) : Except Error State := do
  let store ← loadStore s
  require (store.admin = admin) .unauthorized
  let intent ← loadIntent intentId s
  require (¬ intent.executed) .alreadyExecuted
  require (returnedBlobId = intent.committedBlobId) .blobIdMismatch
  let s := { s with
    intents := Function.update s.intents intentId (some { intent with executed := true, endEpoch }) }
  return s.emit now (.intentExecuted intentId returnedBlobId endEpoch suiEid)

/-- `refund_escrow`. -/
def refundEscrow (now : Int) (payer : Pubkey) (intentId : IntentId) (s : State) : Except Error State := do
  require (s.systemOwned payer) .notSystemAccount
  let escrow ← loadEscrow intentId s
  require (escrow.payer = payer) .unauthorized
  checkRefund escrow.status now escrow.deadline
  let s := s.emit now (.escrowRefunded intentId escrow.payer escrow.amount)
  return closeEscrow intentId payer s

/-! ## Runs -/

/-- What can happen to the accounts: an instruction of the program, with its signer first where it
checks one, a transfer between accounts by the system program, or a wallet changing its owner. -/
inductive Op where
  | initStore (payer admin endpointProgram : Pubkey) (ok : Bool)
  | setPeer (admin : Pubkey) (eid : UInt32) (address : Bytes 32)
  | submitIntent (payer : Pubkey) (c : Commitment) (dstEid : UInt32) (nativeFee escrowAmount : UInt64)
      (receipt : Option MessagingReceipt)
  | lzReceive (params : LzReceiveParams) (beneficiary : Pubkey) (ok : Bool)
  | confirmExecution (admin : Pubkey) (intentId : IntentId) (returnedBlobId : Bytes 32) (endEpoch : UInt64)
  | refundEscrow (payer : Pubkey) (intentId : IntentId)
  | transfer (source : Pubkey) (dest : Key) (amount : Nat)
  | assign (key : Pubkey) (systemOwned : Bool)

/-- One instruction at the clock's time. -/
def step (a : Int × Op) (s : State) : Except Error State :=
  match a.2 with
  | .initStore payer admin endpointProgram ok => initStore payer admin endpointProgram ok s
  | .setPeer admin eid address => setPeer admin eid address s
  | .submitIntent payer c dstEid nativeFee escrowAmount receipt =>
    submitIntent a.1 payer c dstEid nativeFee escrowAmount receipt s
  | .lzReceive params beneficiary ok => lzReceive a.1 params beneficiary ok s
  | .confirmExecution admin intentId returnedBlobId endEpoch =>
    confirmExecution a.1 admin intentId returnedBlobId endEpoch s
  | .refundEscrow payer intentId => refundEscrow a.1 payer intentId s
  | .transfer source dest amount => systemTransfer source dest amount s
  | .assign key systemOwned => .ok { s with systemOwned := Function.update s.systemOwned key systemOwned }

end Bosphor.Solana

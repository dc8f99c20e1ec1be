import Bosphor.Lib.Result
import Bosphor.Solana.Program

/-!
# Instructions with the accounts they are given

An instruction as it is invoked: its data, and a list of accounts chosen by the
caller, each with the flags of the transaction. What Anchor's `try_accounts`
checks of each account stands before the handler, which works on the accounts
that passed. `process_step` says that an accepted invocation, whatever accounts
it was given, is a step of the program.
-/

namespace Bosphor.Solana

/-- `AccountMeta`, `LzAccount`. -/
structure AccountMeta where
  pubkey : Key
  isSigner : Bool
  isWritable : Bool
  deriving DecidableEq

/-- An error of Anchor's checks, or of the program itself. -/
inductive AccountError where
  | notEnoughAccountKeys
  | accountNotSigner
  | constraintMut
  | constraintSeeds
  | invalidProgramId
  | notSystemOwned
  | program (e : Error)
  deriving DecidableEq

/-- The data of an instruction. -/
inductive Instruction where
  | initStore (admin endpointProgram : Pubkey)
  | setPeer (eid : UInt32) (address : Bytes 32)
  | submitIntent (c : Commitment) (dstEid : UInt32) (nativeFee escrowAmount : UInt64)
  | lzReceive (params : LzReceiveParams)
  | confirmExecution (intentId : IntentId) (returnedBlobId : Bytes 32) (endEpoch : UInt64)
  | refundEscrow (intentId : IntentId)

/-- An instruction invoked with a list of accounts, and how the endpoint answers the call it makes. -/
structure Invocation where
  now : Int
  instruction : Instruction
  accounts : List AccountMeta
  endpoint : Bool
  receipt : Option MessagingReceipt

/-! ## The checks of an account -/

def check (cond : Prop) [Decidable cond] (e : AccountError) : Except AccountError Unit :=
  if cond then .ok () else .error e

theorem check_ok {cond : Prop} [Decidable cond] {e : AccountError} {u : Unit} : check cond e = .ok u ↔ cond := by
  by_cases h : cond
  · simp only [check, h, if_true]
  · simp only [check, h, if_false, reduceCtorEq]

/-- `Signer`. The program's own accounts sign for nobody but the endpoint. -/
def AccountMeta.signer (a : AccountMeta) : Except AccountError Pubkey :=
  match a.pubkey with
  | .wallet key => do
    check (a.isSigner = true) .accountNotSigner
    return key
  | _ => .error .accountNotSigner

/-- `mut`. -/
def AccountMeta.writable (a : AccountMeta) : Except AccountError Unit := check (a.isWritable = true) .constraintMut

/-- `seeds = [..]`. -/
def AccountMeta.seeds (a : AccountMeta) (key : Key) : Except AccountError Unit :=
  check (a.pubkey = key) .constraintSeeds

/-- `SystemAccount`. -/
def AccountMeta.systemAccount (a : AccountMeta) (s : State) : Except AccountError Pubkey :=
  match a.pubkey with
  | .wallet key => do
    check (s.systemOwned key = true) .notSystemOwned
    return key
  | _ => .error .notSystemOwned

/-- The system program. -/
def systemProgramId : Key := .wallet (Bytes.zero 32)

/-- `Program<'info, System>`. -/
def AccountMeta.systemProgram (a : AccountMeta) : Except AccountError Unit :=
  check (a.pubkey = systemProgramId) .invalidProgramId

/-! ## The accounts of each instruction -/

/-- `InitStore`: the payer. -/
def initStoreAccounts : List AccountMeta → Except AccountError Pubkey
  | payer :: store :: lzReceiveTypes :: systemProgram :: _ => do
    let key ← payer.signer
    payer.writable
    store.seeds .store
    store.writable
    lzReceiveTypes.seeds .lzReceiveTypes
    lzReceiveTypes.writable
    systemProgram.systemProgram
    return key
  | _ => .error .notEnoughAccountKeys

/-- `SetPeer`: the admin. -/
def setPeerAccounts (eid : UInt32) : List AccountMeta → Except AccountError Pubkey
  | admin :: peer :: store :: systemProgram :: _ => do
    let key ← admin.signer
    admin.writable
    peer.seeds (.peer eid)
    peer.writable
    store.seeds .store
    systemProgram.systemProgram
    return key
  | _ => .error .notEnoughAccountKeys

/-- `SubmitIntent`: the payer. The ids of the intent and its vault are those of the payer's nonce. -/
def submitIntentAccounts (c : Commitment) (dstEid : UInt32) (s : State) :
    List AccountMeta → Except AccountError Pubkey
  | payer :: senderNonce :: intent :: escrow :: store :: peer :: systemProgram :: _ => do
    let key ← payer.signer
    payer.writable
    senderNonce.seeds (.nonce key)
    senderNonce.writable
    let intentId ← (computeIntentId c key ((s.nonces key).getD ⟨0, 0⟩).nonce).mapError .program
    intent.seeds (.intent intentId)
    intent.writable
    escrow.seeds (.escrow intentId)
    escrow.writable
    store.seeds .store
    peer.seeds (.peer dstEid)
    systemProgram.systemProgram
    return key
  | _ => .error .notEnoughAccountKeys

/-- `LzReceive`: the beneficiary. Behind its accounts stand at least `clearAccounts` for the endpoint's `clear`. -/
def lzReceiveAccounts (clearAccounts : Nat) (params : LzReceiveParams) (s : State) :
    List AccountMeta → Except AccountError Pubkey
  | payer :: peer :: store :: intent :: escrow :: beneficiary :: remaining => do
    let _ ← payer.signer
    payer.writable
    peer.seeds (.peer params.srcEid)
    store.seeds .store
    intent.seeds (.intent (decodeIntentId params.message))
    intent.writable
    escrow.seeds (.escrow (decodeIntentId params.message))
    escrow.writable
    let key ← beneficiary.systemAccount s
    beneficiary.writable
    check (clearAccounts ≤ remaining.length) (.program .panicked)
    return key
  | _ => .error .notEnoughAccountKeys

/-- `ConfirmExecution`: the admin. -/
def confirmExecutionAccounts (intentId : IntentId) : List AccountMeta → Except AccountError Pubkey
  | admin :: store :: intent :: _ => do
    let key ← admin.signer
    store.seeds .store
    intent.seeds (.intent intentId)
    intent.writable
    return key
  | _ => .error .notEnoughAccountKeys

/-- `RefundEscrow`: the payer, who need not be the refunder. -/
def refundEscrowAccounts (intentId : IntentId) (s : State) : List AccountMeta → Except AccountError Pubkey
  | refunder :: payer :: escrow :: _ => do
    let _ ← refunder.signer
    refunder.writable
    let key ← payer.systemAccount s
    payer.writable
    escrow.seeds (.escrow intentId)
    escrow.writable
    return key
  | _ => .error .notEnoughAccountKeys

/-! ## Invocations -/

/-- An invocation: the checks of its accounts, and then the handler with those they let through. -/
def process (clearAccounts : Nat) (x : Invocation) (s : State) : Except AccountError State :=
  match x.instruction with
  | .initStore admin endpointProgram => do
    let payer ← initStoreAccounts x.accounts
    (initStore payer admin endpointProgram x.endpoint s).mapError .program
  | .setPeer eid address => do
    let admin ← setPeerAccounts eid x.accounts
    (setPeer admin eid address s).mapError .program
  | .submitIntent c dstEid nativeFee escrowAmount => do
    let payer ← submitIntentAccounts c dstEid s x.accounts
    (submitIntent x.now payer c dstEid nativeFee escrowAmount x.receipt s).mapError .program
  | .lzReceive params => do
    let beneficiary ← lzReceiveAccounts clearAccounts params s x.accounts
    (lzReceive x.now params beneficiary x.endpoint s).mapError .program
  | .confirmExecution intentId returnedBlobId endEpoch => do
    let admin ← confirmExecutionAccounts intentId x.accounts
    (confirmExecution x.now admin intentId returnedBlobId endEpoch s).mapError .program
  | .refundEscrow intentId => do
    let payer ← refundEscrowAccounts intentId s x.accounts
    (refundEscrow x.now payer intentId s).mapError .program

/-- What can happen to the accounts: an instruction invoked with any accounts, a transfer between accounts by the
system program, or a wallet changing its owner. -/
inductive Action where
  | invoke (x : Invocation)
  | transfer (source : Pubkey) (dest : Key) (amount : Nat)
  | assign (key : Pubkey) (systemOwned : Bool)

/-- One action; the runtime undoes one that fails. -/
def perform (clearAccounts : Nat) (a : Action) (s : State) : Except AccountError State :=
  match a with
  | .invoke x => process clearAccounts x s
  | .transfer source dest amount => (systemTransfer source dest amount s).mapError .program
  | .assign key systemOwned => .ok { s with systemOwned := Function.update s.systemOwned key systemOwned }

/-! ## Invocations are steps -/

/-- The step of the program that an action is. -/
inductive Action.Runs : Action → Int × Op → Prop
  | initStore {now accounts endpoint receipt admin endpointProgram} (payer : Pubkey) :
    Runs (.invoke ⟨now, .initStore admin endpointProgram, accounts, endpoint, receipt⟩)
      (now, .initStore payer admin endpointProgram endpoint)
  | setPeer {now accounts endpoint receipt eid address} (admin : Pubkey) :
    Runs (.invoke ⟨now, .setPeer eid address, accounts, endpoint, receipt⟩) (now, .setPeer admin eid address)
  | submitIntent {now accounts endpoint receipt c dstEid nativeFee escrowAmount} (payer : Pubkey) :
    Runs (.invoke ⟨now, .submitIntent c dstEid nativeFee escrowAmount, accounts, endpoint, receipt⟩)
      (now, .submitIntent payer c dstEid nativeFee escrowAmount receipt)
  | lzReceive {now accounts endpoint receipt params} (beneficiary : Pubkey) :
    Runs (.invoke ⟨now, .lzReceive params, accounts, endpoint, receipt⟩) (now, .lzReceive params beneficiary endpoint)
  | confirmExecution {now accounts endpoint receipt intentId returnedBlobId endEpoch} (admin : Pubkey) :
    Runs (.invoke ⟨now, .confirmExecution intentId returnedBlobId endEpoch, accounts, endpoint, receipt⟩)
      (now, .confirmExecution admin intentId returnedBlobId endEpoch)
  | refundEscrow {now accounts endpoint receipt intentId} (payer : Pubkey) :
    Runs (.invoke ⟨now, .refundEscrow intentId, accounts, endpoint, receipt⟩) (now, .refundEscrow payer intentId)
  | transfer {now source dest amount} : Runs (.transfer source dest amount) (now, .transfer source dest amount)
  | assign {now key systemOwned} : Runs (.assign key systemOwned) (now, .assign key systemOwned)

theorem mapError_ok {ε ε' α : Type} {f : ε → ε'} {x : Except ε α} {a : α} : x.mapError f = .ok a ↔ x = .ok a := by
  cases x with
  | ok b => simp only [Except.mapError, Except.ok.injEq]
  | error e => simp only [Except.mapError, reduceCtorEq]

/-- Whatever accounts it is given, an action that succeeds is a step of the program. -/
theorem perform_step {clearAccounts : Nat} {a : Action} {s s' : State} (h : perform clearAccounts a s = .ok s') :
    ∃ x, a.Runs x ∧ step x s = .ok s' := by
  cases a with
  | transfer source dest amount => exact ⟨(0, .transfer source dest amount), .transfer, mapError_ok.mp h⟩
  | assign key systemOwned =>
    cases h
    exact ⟨(0, .assign key systemOwned), .assign, rfl⟩
  | invoke x =>
    obtain ⟨now, instruction, accounts, endpoint, receipt⟩ := x
    cases instruction with
    | initStore admin endpointProgram =>
      obtain ⟨payer, -, hstep⟩ := Result.bind_ok.mp h
      exact ⟨_, .initStore payer, mapError_ok.mp hstep⟩
    | setPeer eid address =>
      obtain ⟨admin, -, hstep⟩ := Result.bind_ok.mp h
      exact ⟨_, .setPeer admin, mapError_ok.mp hstep⟩
    | submitIntent c dstEid nativeFee escrowAmount =>
      obtain ⟨payer, -, hstep⟩ := Result.bind_ok.mp h
      exact ⟨_, .submitIntent payer, mapError_ok.mp hstep⟩
    | lzReceive params =>
      obtain ⟨beneficiary, -, hstep⟩ := Result.bind_ok.mp h
      exact ⟨_, .lzReceive beneficiary, mapError_ok.mp hstep⟩
    | confirmExecution intentId returnedBlobId endEpoch =>
      obtain ⟨admin, -, hstep⟩ := Result.bind_ok.mp h
      exact ⟨_, .confirmExecution admin, mapError_ok.mp hstep⟩
    | refundEscrow intentId =>
      obtain ⟨payer, -, hstep⟩ := Result.bind_ok.mp h
      exact ⟨_, .refundEscrow payer, mapError_ok.mp hstep⟩

end Bosphor.Solana

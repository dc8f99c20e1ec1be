import Bosphor.Relayer.Store
import Bosphor.Solana.InstructionData

/-!
# `confirmExecution`

The confirmation of an intent on its origin, as the service of each chain makes
it, over the calls of the chain's library. The EVM service sends again where an
attempt failed, with a new nonce and higher fees after a nonce conflict
(`confirmAttempts`). The Solana service sends once, and reads the intent's
account where that failed.
-/

namespace Bosphor.Relayer

open StagedIntentStore
open Solana (AccountMeta Key Pubkey)

/-! ## Errors of the libraries -/

/-- An error, as far as the relayer looks at it. -/
inductive RpcError where
  | mk (code : Option String) (message : String) (cause : Option RpcError)

def RpcError.code : RpcError → Option String
  | .mk code _ _ => code

def RpcError.message : RpcError → String
  | .mk _ message _ => message

def RpcError.cause : RpcError → Option RpcError
  | .mk _ _ cause => cause

/-- `new Error(message)`. -/
def RpcError.of (message : String) : RpcError := .mk none message none

def NONCE_CONFLICT_ETHERS_CODES : List String := ["REPLACEMENT_UNDERPRICED", "NONCE_EXPIRED"]

/-- `NONCE_CONFLICT_MESSAGE_RE`, which does not look at the case. -/
def nonceConflictMessage (message : String) : Bool :=
  ["replacement transaction underpriced", "nonce expired", "nonce too low", "already known", "known transaction"].any
    fun part => includes message.toLower part

/-- Whether the error or one of its first `depth - 1` causes says that the nonce collided. -/
def nonceConflictWithin : Nat → RpcError → Bool
  | 0, _ => false
  | depth + 1, err => err.code.any (· ∈ NONCE_CONFLICT_ETHERS_CODES) || nonceConflictMessage err.message ||
    err.cause.any fun cause => nonceConflictWithin depth cause

def isNonceConflictError (err : RpcError) : Bool := nonceConflictWithin 6 err

/-! ## Fees -/

structure FeeOverrides where
  maxFeePerGas : Nat
  maxPriorityFeePerGas : Nat
  deriving DecidableEq

/-- What the provider suggests; any of it may be missing. -/
structure FeeData where
  maxFeePerGas : Option Nat
  gasPrice : Option Nat
  maxPriorityFeePerGas : Option Nat

def FEE_BUMP_NUMERATOR : Nat := 112
def FEE_BUMP_DENOMINATOR : Nat := 100
def MAX_FEE_BUMPS : Nat := 3

/-- A fee raised by 12%, rounded up. -/
def bumpFee (fee : Nat) : Nat := (fee * FEE_BUMP_NUMERATOR + (FEE_BUMP_DENOMINATOR - 1)) / FEE_BUMP_DENOMINATOR

def bumpFeeOverrides (fees : FeeOverrides) : FeeOverrides :=
  ⟨bumpFee fees.maxFeePerGas, bumpFee fees.maxPriorityFeePerGas⟩

/-! ## The calls -/

/-- The calls of the chains' libraries that a confirmation awaits. -/
inductive Rpc where
  | getFeeData
  | getTransactionCount
  | confirmExecution (intentId : IntentId) (proof : List UInt8) (nonce : Nat) (fees : FeeOverrides)
  | wait (tx : Nat)
  | sleep (ms : Nat)
  | sendAndConfirmTransaction (keys : List AccountMeta) (data : List UInt8)
  | getAccountInfo (account : Key)

/-- A transaction sent on EVM is known by its number; a receipt, and a transaction on Solana, by a text. -/
abbrev Rpc.Answer : Rpc → Type
  | .getFeeData => FeeData
  | .getTransactionCount => Nat
  | .confirmExecution .. => Nat
  | .wait _ => String
  | .sleep _ => Unit
  | .sendAndConfirmTransaction .. => String
  | .getAccountInfo _ => Option (List UInt8)

abbrev RpcProgram := Async Rpc Rpc.Answer RpcError

abbrev rpc (c : Rpc) : RpcProgram c.Answer := Async.call c

/-- What a confirmation was told. -/
abbrev RpcTold := Async.History Rpc Rpc.Answer RpcError

/-! ## EVM -/

/-- `parseUnits('1.5', 'gwei')`. -/
def FEE_FLOOR : Nat := 1500000000

def initialFeeOverrides : RpcProgram FeeOverrides := do
  let feeData ← rpc .getFeeData
  return {
    maxFeePerGas := (feeData.maxFeePerGas.orElse fun _ => feeData.gasPrice).getD FEE_FLOOR
    maxPriorityFeePerGas := feeData.maxPriorityFeePerGas.getD FEE_FLOOR }

/-- The attempts that are left. An error of the last is thrown; a nonce conflict has the next one built anew. -/
def confirmAttempts (intentId : IntentId) (proof : List UInt8) : Nat → FeeOverrides → Nat → Nat → RpcProgram String
  | 0, _, _, _ => throw (.of "Unreachable")
  | left + 1, fees, nonce, feeBumps =>
    tryCatch (do
      let tx ← rpc (.confirmExecution intentId proof nonce fees)
      rpc (.wait tx)) fun err => do
        if left = 0 then throw err
        if isNonceConflictError err then do
          let nonce ← rpc .getTransactionCount
          if feeBumps < MAX_FEE_BUMPS then
            confirmAttempts intentId proof left (bumpFeeOverrides fees) nonce (feeBumps + 1)
          else confirmAttempts intentId proof left fees nonce feeBumps
        else do
          rpc (.sleep 2000)
          confirmAttempts intentId proof left fees nonce feeBumps

/-- What follows an error, with `left` attempts left. -/
def afterError (intentId : IntentId) (proof : List UInt8) (left : Nat) (fees : FeeOverrides) (nonce feeBumps : Nat)
    (err : RpcError) : RpcProgram String :=
  if left = 0 then throw err
  else if isNonceConflictError err then do
    let nonce ← rpc .getTransactionCount
    if feeBumps < MAX_FEE_BUMPS then confirmAttempts intentId proof left (bumpFeeOverrides fees) nonce (feeBumps + 1)
    else confirmAttempts intentId proof left fees nonce feeBumps
  else do
    rpc (.sleep 2000)
    confirmAttempts intentId proof left fees nonce feeBumps

/-- `EvmService.sendConfirmExecution`. -/
def sendConfirmExecution (intentId : IntentId) (proof : List UInt8) : RpcProgram String := do
  let fees ← initialFeeOverrides
  let nonce ← rpc .getTransactionCount
  confirmAttempts intentId proof 3 fees nonce 0

/-! ## Solana -/

/-- `getBytes` of a hexadecimal text. -/
def getBytes (hex : String) : Except RpcError (List UInt8) :=
  match hex.toList with
  | '0' :: 'x' :: digits =>
    if digits.length % 2 = 0 ∧ digits.all (fun c => (hexDigit c).isSome) then .ok (bytesOfHex digits)
    else .error (.mk (some "INVALID_ARGUMENT") "invalid BytesLike value" none)
  | _ => .error (.mk (some "INVALID_ARGUMENT") "invalid BytesLike value" none)

/-- Bytes are read back from their hexadecimal text. -/
theorem getBytes_hexlify (bytes : List UInt8) : getBytes (hexlify bytes) = .ok bytes := by
  obtain ⟨digits, hdigits⟩ : ∃ digits, digits = bytes.flatMap fun b => padStart 2 (Nat.toDigits 16 b.toNat) := ⟨_, rfl⟩
  have hbyte : ∀ n < 256, (padStart 2 (Nat.toDigits 16 n)).length = 2 ∧
      (padStart 2 (Nat.toDigits 16 n)).all (fun c => (hexDigit c).isSome) = true := by
    decide +kernel
  have hwell : digits.length % 2 = 0 ∧ digits.all (fun c => (hexDigit c).isSome) = true := by
    rw [hdigits]
    clear hdigits
    induction bytes with
    | nil => exact ⟨rfl, rfl⟩
    | cons b rest ih =>
      obtain ⟨hlength, hall⟩ := hbyte b.toNat b.toNat_lt
      rw [List.flatMap_cons, List.length_append, List.all_append, hlength, hall, Bool.true_and]
      exact ⟨by omega, ih.2⟩
  have htext : (hexlify bytes).toList = '0' :: 'x' :: digits := by
    simp only [hexlify, String.toList_append, String.toList_ofList, hdigits]
    rfl
  have hread : bytesOfHex digits = bytes := hdigits ▸ bytesOfHex_digits bytes
  simp only [getBytes, htext, hread]
  exact if_pos hwell

def CONFIRM_EXECUTION_DISC : Bytes 8 := ⟨[0x22, 0x4b, 0xf7, 0x49, 0x59, 0x7f, 0x65, 0x7b], rfl⟩

/-- The data of `confirm_execution`; `returnedBlobId` are the bytes of its hexadecimal text. -/
def encodeConfirmExecutionData (intentId : IntentId) (returnedBlobId : List UInt8) (endEpoch : Nat) :
    Except RpcError (List UInt8) := do
  let id ← getBytes intentId
  if id.length ≠ 32 then throw (.of s!"intentId must be 32 bytes, got {id.length}")
  if returnedBlobId.length ≠ 32 then throw (.of s!"returnedBlobId must be 32 bytes, got {returnedBlobId.length}")
  if endEpoch ≥ 2 ^ 64 then throw (.mk (some "ERR_OUT_OF_RANGE") "The value of \"value\" is out of range." none)
  return CONFIRM_EXECUTION_DISC.val ++ (id ++ (returnedBlobId ++ Borsh.toLE 8 endEpoch))

/-- The address of the intent's `IntentState`. One of fewer bytes is never used: the encoder throws the same. -/
def intentPda (intentId : IntentId) : Except RpcError Key := do
  let seed ← getBytes intentId
  if h : seed.length = 32 then return .intent ⟨seed, h⟩
  else if seed.length > 32 then throw (.of "Max seed length exceeded")
  else throw (.of s!"intentId must be 32 bytes, got {seed.length}")

/-- Whether the data of an account says that its intent was executed. -/
def showsExecuted (data : List UInt8) : Bool := data.length > 96 && data.getD 96 0 == 1

/-- `SolanaService.isIntentExecuted`: byte 96 of the account; no account, or a read that fails, is `false`. -/
def isIntentExecuted (intentPda : Key) : RpcProgram Bool :=
  tryCatch (do
    let acc ← rpc (.getAccountInfo intentPda)
    return acc.any showsExecuted) fun _ => return false

/-- The answer for an intent that an earlier send had executed. -/
def ALREADY_EXECUTED : String := "ALREADY_EXECUTED"

theorem encodeConfirmExecutionData_ok {intentId : IntentId} {id : Bytes 32} {returnedBlobId : List UInt8}
    {endEpoch : Nat}
    (hid : getBytes intentId = .ok id.val) (hblob : returnedBlobId.length = 32) (hepoch : endEpoch < 2 ^ 64) :
    encodeConfirmExecutionData intentId returnedBlobId endEpoch =
      .ok (CONFIRM_EXECUTION_DISC.val ++ (id.val ++ (returnedBlobId ++ Borsh.toLE 8 endEpoch))) := by
  simp only [encodeConfirmExecutionData, hid, bind, Except.bind, id.property, hblob, ne_eq, not_true, if_false,
    ge_iff_le, Nat.not_le.mpr hepoch, pure, Except.pure]

theorem encodeConfirmExecutionData_error {intentId : IntentId} {id : Bytes 32} {returnedBlobId : List UInt8}
    {endEpoch : Nat} (hid : getBytes intentId = .ok id.val) (h : ¬(returnedBlobId.length = 32 ∧ endEpoch < 2 ^ 64)) :
    ∃ e, encodeConfirmExecutionData intentId returnedBlobId endEpoch = .error e := by
  simp only [encodeConfirmExecutionData, hid, bind, Except.bind, id.property, ne_eq, not_true, if_false]
  by_cases hblob : returnedBlobId.length = 32
  · have hepoch : endEpoch ≥ 2 ^ 64 := Nat.not_lt.mp fun hlt => h ⟨hblob, hlt⟩
    rw [if_neg (not_not.mpr hblob), if_pos hepoch]
    exact ⟨_, rfl⟩
  · rw [if_pos hblob]
    exact ⟨_, rfl⟩

theorem intentPda_ok {intentId : IntentId} {id : Bytes 32} (hid : getBytes intentId = .ok id.val) :
    intentPda intentId = .ok (.intent id) := by
  simp only [intentPda, hid, bind, Except.bind, id.property, dif_pos, pure, Except.pure]

/-- `SolanaService.confirmExecution`; `admin` signs, if there is a signer. -/
def solanaConfirmExecution (canConfirm : Bool) (admin : Pubkey) (intentId : IntentId) (returnedBlobId : List UInt8)
    (endEpoch : Nat) : RpcProgram String := do
  if !canConfirm then throw (.of "Solana return leg not configured (SOLANA_RELAYER_KEYPAIR unset)")
  let intentPda ← Async.ofExcept (intentPda intentId)
  let data ← Async.ofExcept (encodeConfirmExecutionData intentId returnedBlobId endEpoch)
  tryCatch (rpc (.sendAndConfirmTransaction
      [⟨.wallet admin, true, true⟩, ⟨.store, false, false⟩, ⟨intentPda, false, true⟩] data)) fun err => do
    if ← isIntentExecuted intentPda then return ALREADY_EXECUTED
    throw err

end Bosphor.Relayer

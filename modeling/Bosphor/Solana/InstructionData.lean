import Bosphor.Lib.Borsh
import Bosphor.Solana.Accounts

/-!
# The data of instructions and accounts

The arguments of `submit_intent` and `confirm_execution` as Anchor reads them:
behind the eight bytes that name the instruction, the fields in Borsh, in the
order of the handler's parameters. What is written so is read back
(`decodeSubmitIntent_encoded`, `decodeConfirmExecution_encoded`). The account of
an intent is its fields behind the eight bytes that name their type
(`IntentState.data`).
-/

namespace Bosphor.Solana

open Borsh

/-- The arguments of `submit_intent`. -/
structure SubmitIntentParams where
  blobId : Bytes 32
  size : UInt32
  encodingType : UInt8
  storageEpochs : UInt32
  deadline : UInt64
  dstEid : UInt32
  options : List UInt8
  nativeFee : UInt64
  escrowAmount : UInt64

/-- `build_commitment`. -/
def SubmitIntentParams.commitment (p : SubmitIntentParams) : Commitment :=
  ⟨p.blobId, p.size, p.encodingType, p.storageEpochs, p.deadline⟩

def SubmitIntentParams.instruction (p : SubmitIntentParams) : Instruction :=
  .submitIntent p.commitment p.dstEid p.nativeFee p.escrowAmount

def readSubmitIntent : Reader SubmitIntentParams := do
  let blobId ← array 32
  let size ← u32
  let encodingType ← u8
  let storageEpochs ← u32
  let deadline ← u64
  let dstEid ← u32
  let options ← vecU8
  let nativeFee ← u64
  let escrowAmount ← u64
  return ⟨blobId, size, encodingType, storageEpochs, deadline, dstEid, options, nativeFee, escrowAmount⟩

/-- The arguments, when the data names the instruction; what stands behind them is not read. -/
def decodeSubmitIntent (discriminator : Bytes 8) (data : List UInt8) : Option SubmitIntentParams := do
  let (name, rest) ← array 8 data
  guard (name = discriminator)
  let (params, _) ← readSubmitIntent rest
  return params

/-- The fields are read as they were written, each cut to its width: those behind the options where their length
fits. -/
theorem decodeSubmitIntent_encoded (discriminator : Bytes 8) (blobId : Bytes 32) (size : Nat) (encodingType : UInt8)
    (storageEpochs deadline dstEid : Nat) (options : List UInt8) (nativeFee escrowAmount : Nat) :
    ∃ params, decodeSubmitIntent discriminator (discriminator.val ++ (blobId.val ++ (toLE 4 size ++ (encodingType ::
        (toLE 4 storageEpochs ++ (toLE 8 deadline ++ (toLE 4 dstEid ++ (toLE 4 options.length ++ (options ++
          (toLE 8 nativeFee ++ toLE 8 escrowAmount)))))))))) = some params ∧
      params.commitment = ⟨blobId, UInt32.ofNat size, encodingType, UInt32.ofNat storageEpochs, UInt64.ofNat deadline⟩ ∧
      params.dstEid = UInt32.ofNat dstEid ∧ (options.length < 2 ^ 32 → params.nativeFee = UInt64.ofNat nativeFee ∧
        params.escrowAmount = UInt64.ofNat escrowAmount) := by
  have hlength : (UInt32.ofNat options.length).toNat ≤ options.length := by
    rw [UInt32.toNat_ofNat']
    exact Nat.mod_le _ _
  -- a length that does not fit leaves bytes of the options in front of the fees
  obtain ⟨tail, htail⟩ : ∃ tail, tail = options.drop (UInt32.ofNat options.length).toNat ++
    (toLE 8 nativeFee ++ toLE 8 escrowAmount) := ⟨_, rfl⟩
  have hfees : 16 ≤ tail.length := by
    rw [htail]
    simp only [List.length_append, length_toLE]
    omega
  obtain ⟨fee, hfee⟩ := u64_of_length (show 8 ≤ tail.length by omega)
  obtain ⟨escrow, hescrow⟩ := u64_of_length (show 8 ≤ (tail.drop 8).length by rw [List.length_drop]; omega)
  have hread : readSubmitIntent (blobId.val ++ (toLE 4 size ++ (encodingType :: (toLE 4 storageEpochs ++
      (toLE 8 deadline ++ (toLE 4 dstEid ++ (toLE 4 options.length ++ (options ++
        (toLE 8 nativeFee ++ toLE 8 escrowAmount))))))))) = some (⟨blobId, UInt32.ofNat size, encodingType,
          UInt32.ofNat storageEpochs, UInt64.ofNat deadline, UInt32.ofNat dstEid,
          options.take (UInt32.ofNat options.length).toNat, fee, escrow⟩, (tail.drop 8).drop 8) := by
    rw [readSubmitIntent, bind_some (array_append blobId _), bind_some (u32_append size _), bind_some (u8_cons _ _),
      bind_some (u32_append storageEpochs _), bind_some (u64_append deadline _), bind_some (u32_append dstEid _),
      bind_some (vecU8_append options _ hlength), ← htail, bind_some hfee, bind_some hescrow]
    rfl
  refine ⟨⟨blobId, UInt32.ofNat size, encodingType, UInt32.ofNat storageEpochs, UInt64.ofNat deadline,
    UInt32.ofNat dstEid,
    options.take (UInt32.ofNat options.length).toNat, fee, escrow⟩, ?_, rfl, rfl, fun hfits => ?_⟩
  · rw [decodeSubmitIntent, array_append]
    simp only [Option.bind_eq_bind, Option.bind_some, guard, if_true, hread]
    rfl
  · have hdrop : options.drop (UInt32.ofNat options.length).toNat = [] := by
      rw [UInt32.toNat_ofNat_of_lt' hfits, List.drop_length]
    have hrest : tail.drop 8 = toLE 8 escrowAmount ++ [] := by
      rw [htail, hdrop, List.nil_append, List.append_nil]
      exact List.drop_left' (length_toLE 8 nativeFee)
    rw [htail, hdrop, List.nil_append, u64_append] at hfee
    rw [hrest, u64_append] at hescrow
    exact ⟨(Prod.mk.inj (Option.some.inj hfee)).1.symm, (Prod.mk.inj (Option.some.inj hescrow)).1.symm⟩

/-! ## `confirm_execution` -/

def readConfirmExecution : Reader Instruction := do
  let intentId ← array 32
  let returnedBlobId ← array 32
  let endEpoch ← u64
  return .confirmExecution intentId returnedBlobId endEpoch

/-- The instruction, when the data names it. -/
def decodeConfirmExecution (discriminator : Bytes 8) (data : List UInt8) : Option Instruction := do
  let (name, rest) ← array 8 data
  guard (name = discriminator)
  let (instruction, _) ← readConfirmExecution rest
  return instruction

theorem decodeConfirmExecution_encoded (discriminator : Bytes 8) (intentId returnedBlobId : Bytes 32) (endEpoch : Nat) :
    decodeConfirmExecution discriminator
        (discriminator.val ++ (intentId.val ++ (returnedBlobId.val ++ toLE 8 endEpoch))) =
      some (.confirmExecution intentId returnedBlobId (UInt64.ofNat endEpoch)) := by
  have hepoch : u64 (toLE 8 endEpoch) = some (UInt64.ofNat endEpoch, []) := by
    rw [← List.append_nil (toLE 8 endEpoch), u64_append]
  have hread : readConfirmExecution (intentId.val ++ (returnedBlobId.val ++ toLE 8 endEpoch)) =
      some (.confirmExecution intentId returnedBlobId (UInt64.ofNat endEpoch), []) := by
    rw [readConfirmExecution, bind_some (array_append intentId _), bind_some (array_append returnedBlobId _),
      bind_some hepoch]
    rfl
  rw [decodeConfirmExecution, array_append]
  simp only [Option.bind_eq_bind, Option.bind_some, guard, if_true, hread]
  rfl

/-! ## The account of an intent -/

/-- The fields of `IntentState` up to `executed`. -/
def IntentState.head (intent : IntentState) : List UInt8 :=
  intent.committedBlobId.val ++ toLE 4 intent.size.toNat ++ toLE 4 intent.storageEpochs.toNat ++
    toLE 8 intent.deadline.toNat ++ intent.sender.val ++ toLE 8 intent.nonce.toNat

/-- The account's data. -/
def IntentState.data (discriminator : Bytes 8) (intent : IntentState) : List UInt8 :=
  discriminator.val ++ intent.head ++
    ((if intent.executed then 1 else 0) :: (toLE 8 intent.endEpoch.toNat ++ [intent.bump]))

theorem IntentState.length_head (discriminator : Bytes 8) (intent : IntentState) :
    (discriminator.val ++ intent.head).length = 96 := by
  simp only [head, List.length_append, length_toLE, discriminator.property, intent.committedBlobId.property,
    intent.sender.property]

/-- Byte 96 says whether the intent was executed. -/
theorem IntentState.data_executed (discriminator : Bytes 8) (intent : IntentState) :
    (intent.data discriminator).length > 96 ∧
      (intent.data discriminator).getD 96 0 = if intent.executed then 1 else 0 := by
  have hlength := intent.length_head discriminator
  constructor
  · rw [data, List.length_append, hlength, List.length_cons]
    omega
  · rw [data, List.getD_eq_getElem?_getD, List.getElem?_append_right hlength.le, hlength]
    rfl

end Bosphor.Solana

import Bosphor.Codec.Commitment
import Bosphor.Sui.Move

/-!
# The Move codec

`encode`, `decode` and `derive_intent_id` of `bosphor_lz::commitment_codec`,
whose fields travel as separate arguments and results and whose byte loops
borrow element by element.

* `encode_eq`, `decode_ok`, `preimage_eq`: the module computes the canonical
  format, and accepts exactly the strings of 49 bytes.
-/

namespace Bosphor.Sui.CommitmentCodec

open Bytes (toBE ofBE)

/-- `blob_id` must be exactly 32 bytes. -/
def EInvalidBlobIdLength : Abort := .code .commitmentCodec 0
/-- The encoded commitment must be exactly 49 bytes. -/
def EInvalidCommitmentLength : Abort := .code .commitmentCodec 1
/-- `sender` must be at most 32 bytes. -/
def EInvalidSenderLength : Abort := .code .commitmentCodec 2

/-- The results of `decode`, which are the first arguments of `encode`. -/
abbrev Fields : Type := List UInt8 × UInt32 × UInt8 × UInt32 × UInt64

/-- The fields of a commitment, as Move passes them. -/
def fieldsOf (c : Commitment) : Fields :=
  (c.blobId.val, c.size, c.encodingType, c.storageEpochs, c.deadline)

/-- `encode(blob_id, size, encoding_type, storage_epochs, deadline)`. -/
def encode : Fields → Except Abort (List UInt8)
  | (blobId, size, encodingType, storageEpochs, deadline) => do
    assert (blobId.length = 32) EInvalidBlobIdLength
    let out ← pushSlice blobId 0 32 []
    let out := out ++ beBytes32 size
    let out := out ++ [encodingType]
    let out := out ++ beBytes32 storageEpochs
    return out ++ beBytes64 deadline

/-- `decode(data)`. -/
def decode (data : List UInt8) : Except Abort Fields := do
  assert (data.length = commitmentLen) EInvalidCommitmentLength
  let blobId ← slice data 0 32
  let size ← decodeU32BE data 32
  let encodingType ← borrow data 36
  let storageEpochs ← decodeU32BE data 37
  let deadline ← decodeU64BE data 41
  return (blobId, size, encodingType, storageEpochs, deadline)

/-- `append_left_padded_sender(out, sender)`. -/
def appendLeftPaddedSender (out sender : List UInt8) : Except Abort (List UInt8) := do
  assert (sender.length ≤ senderLen) EInvalidSenderLength
  pushSlice sender 0 sender.length (pushZeros (senderLen - sender.length) out)

/-- The bytes `derive_intent_id` hashes. -/
def derivePreimage (fields : Fields) (sender : List UInt8) (nonce : UInt64) : Except Abort (List UInt8) := do
  let preimage ← encode fields
  let preimage ← appendLeftPaddedSender preimage sender
  return preimage ++ beBytes64 nonce

/-- `derive_intent_id`. -/
def deriveIntentId (fields : Fields) (sender : List UInt8) (nonce : UInt64) : Except Abort (Bytes 32) := do
  return keccak256 (← derivePreimage fields sender nonce)

/-! ## The module computes the canonical format -/

theorem encode_eq (c : Commitment) : encode (fieldsOf c) = .ok c.wire := by
  have hb := c.blobId.property
  have hs := pushSlice_ok c.blobId.val 0 32 [] (by rw [hb])
  rw [List.nil_append, Bytes.slice_all hb] at hs
  simp only [encode, fieldsOf, assert, hb, decide_true, if_true, hs, beBytes32_eq, beBytes64_eq, bind,
    Except.bind, pure, Except.pure, Commitment.wire, List.append_assoc]

theorem decode_ok {b : List UInt8} (h : b.length = commitmentLen) :
    decode b = .ok (fieldsOf (Commitment.read b h)) := by
  have hl : b.length = 49 := h
  simp only [decode, assert, h, decide_true, if_true, slice_ok (show 0 + 32 ≤ b.length by omega),
    decodeU32BE_ok (show 32 + 4 ≤ b.length by omega), borrow_ok (show 36 < b.length by omega),
    decodeU32BE_ok (show 37 + 4 ≤ b.length by omega), decodeU64BE_ok (show 41 + 8 ≤ b.length by omega),
    bind, Except.bind, pure, Except.pure]
  rfl

theorem decode_abort {b : List UInt8} (h : b.length ≠ commitmentLen) :
    decode b = .error EInvalidCommitmentLength := by
  simp only [decode, assert, h, decide_false, Bool.false_eq_true, if_false, bind, Except.bind]

theorem preimage_eq (c : Commitment) {sender : List UInt8} (nonce : UInt64) (h : sender.length ≤ senderLen) :
    derivePreimage (fieldsOf c) sender nonce = .ok (preimage c sender nonce) := by
  have hs := pushSlice_ok sender 0 sender.length
    (c.wire ++ List.replicate (senderLen - sender.length) 0) (by rw [Nat.zero_add])
  rw [Bytes.slice_all rfl] at hs
  simp only [derivePreimage, encode_eq, appendLeftPaddedSender, assert, h, decide_true, if_true, pushZeros_eq,
    hs, beBytes64_eq, bind, Except.bind, pure, Except.pure, preimage, padSender, List.append_assoc]

end Bosphor.Sui.CommitmentCodec

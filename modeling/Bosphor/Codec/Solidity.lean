import Bosphor.Codec.Commitment
import Bosphor.Evm.Revert

/-!
# The Solidity codec

`encode`, `decode` and `deriveIntentId` of the `CommitmentCodec` library. The
decoder loads whole words from memory and shifts them down, so that the last
loads run past the end of the value: `after` is the memory there.

* `encode_eq`, `decode_ok`, `preimage_eq`: the library computes the canonical
  format whatever memory follows, and accepts exactly the strings of 49 bytes.
-/

namespace Bosphor.Evm.CommitmentCodec

open Bytes (toBE ofBE)

/-- `abi.encodePacked(c.blobId, c.size, c.encodingType, c.storageEpochs, c.deadline)`. -/
def encodePacked (c : Commitment) : List UInt8 :=
  c.blobId.val ++ toBE 4 c.size.toNat ++ toBE 1 c.encodingType.toNat ++ toBE 4 c.storageEpochs.toNat ++
    toBE 8 c.deadline.toNat

/-- `encode(c)`. -/
def encode (c : Commitment) : Except Revert (List UInt8) := do
  let out := encodePacked c
  revertIf (out.length ≠ commitmentLen) .assertion
  return out

/-- `decode(data)`. -/
def decode (data : List UInt8) (after : Nat → UInt8) : Except Revert Commitment := do
  revertIf (data.length ≠ commitmentLen) .invalidCommitmentLength
  return {
    blobId := ⟨toBE 32 (mload data after 0), Bytes.length_toBE _ _⟩
    size := UInt32.ofNat (shr 224 (mload data after 32))
    encodingType := UInt8.ofNat (shr 248 (mload data after 36))
    storageEpochs := UInt32.ofNat (shr 224 (mload data after 37))
    deadline := UInt64.ofNat (shr 192 (mload data after 41)) }

/-- The bytes `deriveIntentId` hashes. -/
def derivePreimage (c : Commitment) (sender : Bytes 32) (nonce : UInt64) : Except Revert (List UInt8) := do
  return (← encode c) ++ sender.val ++ toBE 8 nonce.toNat

/-- `deriveIntentId(c, sender, nonce)`. -/
def deriveIntentId (c : Commitment) (sender : Bytes 32) (nonce : UInt64) : Except Revert (Bytes 32) := do
  return keccak256 (← derivePreimage c sender nonce)

/-! ## The library computes the canonical format -/

theorem toBE_one (b : UInt8) : toBE 1 b.toNat = [b] := by
  simp only [toBE, List.nil_append, UInt8.ofNat_toNat]

theorem encode_eq (c : Commitment) : encode c = .ok c.wire := by
  have h : encodePacked c = c.wire := by
    simp only [encodePacked, toBE_one, Commitment.wire, List.append_assoc]
  simp only [encode, h, revertIf, c.length_wire, ne_eq, not_true, if_false, bind, Except.bind, pure, Except.pure]

theorem decode_ok {b : List UInt8} (after : Nat → UInt8) (h : b.length = commitmentLen) :
    decode b after = .ok (Commitment.read b h) := by
  have hl : b.length = 49 := h
  have hid : toBE 32 (mload b after 0) = Bytes.slice b 0 32 := by
    have := shr_mload (n := 32) (i := 0) after (Nat.le_refl _) (by omega : 0 + 32 ≤ b.length)
    rw [shr, Nat.sub_self, Nat.mul_zero, Nat.shiftRight_zero] at this
    rw [this, Bytes.toBE_ofBE_of_length (Bytes.length_slice (by omega))]
  have hs := shr_mload (n := 4) (i := 32) after (by decide) (by omega : 32 + 4 ≤ b.length)
  have he := shr_mload (n := 1) (i := 36) after (by decide) (by omega : 36 + 1 ≤ b.length)
  have ht := shr_mload (n := 4) (i := 37) after (by decide) (by omega : 37 + 4 ≤ b.length)
  have hd := shr_mload (n := 8) (i := 41) after (by decide) (by omega : 41 + 8 ≤ b.length)
  have h1 : UInt8.ofNat (ofBE (Bytes.slice b 36 1)) = b.getD 36 0 := by
    rw [Bytes.slice_eq_map_range (by omega)]
    exact (congrArg UInt8.ofNat (Nat.zero_add _)).trans UInt8.ofNat_toNat
  simp only [decode, revertIf, hl, commitmentLen, ne_eq, not_true, if_false, bind, Except.bind, pure,
    Except.pure, hid, hs, he, ht, hd, h1]
  rfl

theorem decode_revert {b : List UInt8} (after : Nat → UInt8) (h : b.length ≠ commitmentLen) :
    decode b after = .error .invalidCommitmentLength := by
  simp only [decode, revertIf, h, ne_eq, not_false_eq_true, if_true, bind, Except.bind]

theorem preimage_eq (c : Commitment) (sender : Bytes 32) (nonce : UInt64) :
    derivePreimage c sender nonce = .ok (preimage c sender.val nonce) := by
  simp only [derivePreimage, encode_eq, bind, Except.bind, pure, Except.pure, preimage,
    padSender_of_length sender.property, List.append_assoc]

theorem deriveIntentId_eq (c : Commitment) (sender : Bytes 32) (nonce : UInt64) :
    deriveIntentId c sender nonce = .ok (intentIdOf c sender.val nonce) := by
  simp only [deriveIntentId, preimage_eq, bind, Except.bind, pure, Except.pure, intentIdOf]

end Bosphor.Evm.CommitmentCodec

import Bosphor.Codec.Commitment

/-!
# The Rust codec

`encode`, `decode` and `derive_intent_id` of the Solana crate, with its
fixed-size arrays: a copy between slices of different lengths, an index out of
range and a failed assertion panic.

* `encode_eq`, `decode_eq`, `preimage_eq`: the crate computes the canonical
  format, and accepts exactly the strings of 49 bytes.
-/

namespace Bosphor.Rust

open Bytes (toBE ofBE slice)

/-- A Rust panic. -/
inductive Panic where
  | index
  | copyLength
  | assertion (message : String)
  deriving DecidableEq

/-- `out[lo..hi].copy_from_slice(src)`. -/
def copyFromSlice (out : List UInt8) (lo hi : Nat) (src : List UInt8) : Except Panic (List UInt8) :=
  if lo ≤ hi ∧ hi ≤ out.length then
    if src.length = hi - lo then .ok (out.take lo ++ src ++ out.drop hi) else .error .copyLength
  else .error .index

/-- `out[i] = v`. -/
def setIndex (out : List UInt8) (i : Nat) (v : UInt8) : Except Panic (List UInt8) :=
  if i < out.length then .ok (out.set i v) else .error .index

/-- A zeroed array with a written prefix of length `lo`: the next field extends the prefix. -/
theorem copyFromSlice_next (done src : List UInt8) (lo hi n : Nat) (hd : done.length = lo)
    (hs : src.length = hi - lo) (hlo : lo ≤ hi) (hn : hi ≤ n) :
    copyFromSlice (done ++ List.replicate (n - lo) 0) lo hi src =
      .ok (done ++ src ++ List.replicate (n - hi) 0) := by
  have hlen : (done ++ List.replicate (n - lo) (0 : UInt8)).length = n := by
    rw [List.length_append, List.length_replicate]
    omega
  rw [copyFromSlice, if_pos ⟨hlo, by rw [hlen]; exact hn⟩, if_pos hs, List.take_left' hd, List.drop_append,
    List.drop_eq_nil_of_le (by omega), List.nil_append, List.drop_replicate, hd,
    show n - lo - (hi - lo) = n - hi by omega]

theorem setIndex_next (done : List UInt8) (i n : Nat) (v : UInt8) (hd : done.length = i) (hn : i < n) :
    setIndex (done ++ List.replicate (n - i) 0) i v = .ok (done ++ [v] ++ List.replicate (n - (i + 1)) 0) := by
  have hr : List.replicate (n - i) (0 : UInt8) = 0 :: List.replicate (n - (i + 1)) 0 := by
    rw [← List.replicate_succ]
    congr 1
    omega
  rw [setIndex, if_pos (by rw [List.length_append, List.length_replicate]; omega), hr,
    List.set_append_right _ _ (by omega), hd, Nat.sub_self, List.set_cons_zero, List.append_assoc]
  rfl

/-- `encode(c: &Commitment) -> [u8; COMMITMENT_LEN]`. -/
def encode (c : Commitment) : Except Panic (List UInt8) := do
  let out := List.replicate commitmentLen 0
  let out ← copyFromSlice out 0 32 c.blobId.val
  let out ← copyFromSlice out 32 36 (toBE 4 c.size.toNat)
  let out ← setIndex out 36 c.encodingType
  let out ← copyFromSlice out 37 41 (toBE 4 c.storageEpochs.toNat)
  copyFromSlice out 41 49 (toBE 8 c.deadline.toNat)

inductive DecodeError where
  | invalidLength (len : Nat)
  deriving DecidableEq

/-- `decode(bytes: &[u8]) -> Result<Commitment, DecodeError>`: every slice has the width
its field reads, since the length is checked first. -/
def decode (bytes : List UInt8) : Except DecodeError Commitment :=
  if h : bytes.length ≠ commitmentLen then .error (.invalidLength bytes.length)
  else .ok {
    blobId := ⟨slice bytes 0 32, Bytes.length_slice (by rw [not_ne_iff.mp h]; decide)⟩
    size := UInt32.ofNat (ofBE (slice bytes 32 4))
    encodingType := bytes.getD 36 0
    storageEpochs := UInt32.ofNat (ofBE (slice bytes 37 4))
    deadline := UInt64.ofNat (ofBE (slice bytes 41 8)) }

/-- The bytes `derive_intent_id` hashes. -/
def derivePreimage (c : Commitment) (sender : List UInt8) (nonce : UInt64) :
    Except Panic (List UInt8) := do
  if ¬ sender.length ≤ senderLen then throw (.assertion "sender must be <= 32 bytes")
  let preimage := List.replicate (commitmentLen + senderLen + 8) 0
  let preimage ← copyFromSlice preimage 0 commitmentLen (← encode c)
  let senderStart := commitmentLen + (senderLen - sender.length)
  let preimage ← copyFromSlice preimage senderStart (commitmentLen + senderLen) sender
  copyFromSlice preimage (commitmentLen + senderLen) preimage.length (toBE 8 nonce.toNat)

/-- `derive_intent_id`. -/
def deriveIntentId (c : Commitment) (sender : List UInt8) (nonce : UInt64) : Except Panic (Bytes 32) := do
  return keccak256 (← derivePreimage c sender nonce)

/-! ## The crate computes the canonical format -/

theorem encode_eq (c : Commitment) : encode c = .ok c.wire := by
  have hb := c.blobId.property
  have h0 := copyFromSlice_next [] c.blobId.val 0 32 49
    rfl (by rw [hb]) (by decide) (by decide)
  have h1 := copyFromSlice_next c.blobId.val (toBE 4 c.size.toNat) 32 36 49 hb
    (by rw [Bytes.length_toBE]) (by decide) (by decide)
  have h2 := setIndex_next (c.blobId.val ++ toBE 4 c.size.toNat) 36 49 c.encodingType
    (by rw [List.length_append, hb, Bytes.length_toBE]) (by decide)
  have h3 := copyFromSlice_next (c.blobId.val ++ toBE 4 c.size.toNat ++ [c.encodingType])
    (toBE 4 c.storageEpochs.toNat) 37 41 49
    (by simp only [List.length_append, hb, Bytes.length_toBE, List.length_singleton])
    (by rw [Bytes.length_toBE]) (by decide) (by decide)
  have h4 := copyFromSlice_next
    (c.blobId.val ++ toBE 4 c.size.toNat ++ [c.encodingType] ++ toBE 4 c.storageEpochs.toNat)
    (toBE 8 c.deadline.toNat) 41 49 49
    (by simp only [List.length_append, hb, Bytes.length_toBE, List.length_singleton])
    (by rw [Bytes.length_toBE]) (by decide) (by decide)
  simp only [List.nil_append] at h0
  simp only [encode, commitmentLen, h0, h1, h2, h3, h4, bind, Except.bind]
  simp only [Nat.sub_self, List.replicate_zero, List.append_nil, Commitment.wire, List.append_assoc]

theorem decode_eq {b : List UInt8} (h : b.length = commitmentLen) :
    decode b = .ok (Commitment.read b h) := by
  rw [decode, dif_neg (not_not_intro h)]
  rfl

theorem decode_error {b : List UInt8} (h : b.length ≠ commitmentLen) :
    decode b = .error (.invalidLength b.length) := by
  rw [decode, dif_pos h]

theorem preimage_eq (c : Commitment) {sender : List UInt8} (nonce : UInt64) (h : sender.length ≤ senderLen) :
    derivePreimage c sender nonce = .ok (preimage c sender nonce) := by
  have hs : sender.length ≤ 32 := h
  have hw : c.wire.length = 49 := c.length_wire
  have h0 := copyFromSlice_next [] c.wire 0 49 89
    rfl (by rw [hw]) (by decide) (by decide)
  -- The padding is the part of the zeroed array the sender is not copied over.
  have hpad : c.wire ++ List.replicate 40 (0 : UInt8) =
      c.wire ++ List.replicate (32 - sender.length) 0 ++
        List.replicate (89 - (49 + (32 - sender.length))) 0 := by
    rw [List.append_assoc, List.replicate_append_replicate]
    congr 2
    omega
  have h1 := copyFromSlice_next (c.wire ++ List.replicate (32 - sender.length) 0) sender
    (49 + (32 - sender.length)) 81 89
    (by rw [List.length_append, hw, List.length_replicate]) (by omega) (by omega) (by decide)
  have h2 := copyFromSlice_next (c.wire ++ padSender sender) (toBE 8 nonce.toNat) 81 89 89
    (by rw [List.length_append, hw, length_padSender h]; rfl)
    (by rw [Bytes.length_toBE]) (by decide) (by decide)
  have hlen : (c.wire ++ padSender sender ++ List.replicate 8 (0 : UInt8)).length = 89 := by
    rw [List.length_append, List.length_append, hw, length_padSender h, List.length_replicate]
    rfl
  rw [List.nil_append, List.nil_append, show 89 - 49 = 40 from rfl] at h0
  rw [← hpad] at h1
  simp only [padSender, senderLen, ← List.append_assoc, Nat.reduceSub] at h1 h2 hlen ⊢
  simp only [derivePreimage, encode_eq, commitmentLen, senderLen, hs, not_true, if_false, h0, h1, hlen, h2,
    Nat.reduceAdd, bind, Except.bind]
  simp only [preimage, padSender, senderLen, List.replicate_zero, List.append_nil, List.append_assoc]

end Bosphor.Rust

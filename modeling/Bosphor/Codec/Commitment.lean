import Bosphor.Keccak

/-!
# The commitment format

The canonical commitment and the intent-id preimage, as the format's
description gives them (49 bytes, big endian; the preimage appends the sender,
left-padded to 32 bytes, and the nonce). The four implementations are each
modelled from their own source and proved to compute these bytes.

* `wire_inj`: the encoding determines the commitment;
* `preimage_inj`: the preimage determines the commitment, the padded sender
  and the nonce.
-/

namespace Bosphor

open Bytes (toBE ofBE slice)

/-- The storage terms an intent commits to. -/
structure Commitment where
  blobId : Bytes 32
  size : UInt32
  encodingType : UInt8
  storageEpochs : UInt32
  deadline : UInt64
  deriving DecidableEq, Inhabited

/-- The terms of an intent, for examples. -/
def exampleCommitment : Commitment := ⟨Bytes.zero 32, 1000, 1, 2, 100⟩

/-- Length of the encoded commitment. -/
def commitmentLen : Nat := 49

/-- Width of the sender in the preimage. -/
def senderLen : Nat := 32

namespace Commitment

/-- `blobId(32) ++ size(u32) ++ encodingType(u8) ++ storageEpochs(u32) ++ deadline(u64)`. -/
def wire (c : Commitment) : List UInt8 :=
  c.blobId.val ++ (toBE 4 c.size.toNat ++ ([c.encodingType] ++
    (toBE 4 c.storageEpochs.toNat ++ toBE 8 c.deadline.toNat)))

/-- The commitment a 49-byte string writes. -/
def read (b : List UInt8) (h : b.length = commitmentLen) : Commitment where
  blobId := ⟨slice b 0 32, Bytes.length_slice (by rw [h]; decide)⟩
  size := UInt32.ofNat (ofBE (slice b 32 4))
  encodingType := b.getD 36 0
  storageEpochs := UInt32.ofNat (ofBE (slice b 37 4))
  deadline := UInt64.ofNat (ofBE (slice b 41 8))

theorem length_wire (c : Commitment) : c.wire.length = commitmentLen := by
  simp only [wire, List.length_append, c.blobId.property, Bytes.length_toBE, List.length_singleton]
  rfl

end Commitment

/-- A sender of at most 32 bytes, left-padded with zeros. -/
def padSender (sender : List UInt8) : List UInt8 :=
  List.replicate (senderLen - sender.length) 0 ++ sender

theorem length_padSender {sender : List UInt8} (h : sender.length ≤ senderLen) :
    (padSender sender).length = senderLen := by
  rw [padSender, List.length_append, List.length_replicate]
  omega

theorem padSender_of_length {sender : List UInt8} (h : sender.length = senderLen) :
    padSender sender = sender := by
  rw [padSender, h, Nat.sub_self, List.replicate_zero, List.nil_append]

/-- Padding a second time changes nothing. -/
theorem padSender_padSender {sender : List UInt8} (h : sender.length ≤ senderLen) :
    padSender (padSender sender) = padSender sender :=
  padSender_of_length (length_padSender h)

/-- `commitment(49) ++ sender(32, left-padded) ++ nonce(u64)`. -/
def preimage (c : Commitment) (sender : List UInt8) (nonce : UInt64) : List UInt8 :=
  c.wire ++ (padSender sender ++ toBE 8 nonce.toNat)

/-- The intent id of a commitment made by `sender` at `nonce`. -/
def intentIdOf (c : Commitment) (sender : List UInt8) (nonce : UInt64) : Bytes 32 :=
  keccak256 (preimage c sender nonce)

/-! ## What the bytes determine -/

theorem Commitment.wire_inj {c d : Commitment} (h : c.wire = d.wire) : c = d := by
  simp only [wire] at h
  obtain ⟨hb, h⟩ := List.append_inj h (by rw [c.blobId.property, d.blobId.property])
  obtain ⟨hs, h⟩ := List.append_inj h (by simp only [Bytes.length_toBE])
  obtain ⟨he, h⟩ := List.append_inj h rfl
  obtain ⟨hst, hd⟩ := List.append_inj h (by simp only [Bytes.length_toBE])
  obtain ⟨cb, cs, ce, ct, cd⟩ := c
  obtain ⟨db, ds, de, dt, dd⟩ := d
  obtain rfl := Subtype.ext hb
  obtain rfl := Bytes.toBE_uint32_inj hs
  obtain rfl := List.singleton_inj.mp he
  obtain rfl := Bytes.toBE_uint32_inj hst
  obtain rfl := Bytes.toBE_uint64_inj hd
  rfl

theorem preimage_inj {c d : Commitment} {s t : List UInt8} {m n : UInt64} (hs : s.length ≤ senderLen)
    (ht : t.length ≤ senderLen) (h : preimage c s m = preimage d t n) :
    c = d ∧ padSender s = padSender t ∧ m = n := by
  obtain ⟨hc, h⟩ := List.append_inj h (by rw [c.length_wire, d.length_wire])
  obtain ⟨hp, hn⟩ := List.append_inj h (by rw [length_padSender hs, length_padSender ht])
  exact ⟨Commitment.wire_inj hc, hp, Bytes.toBE_uint64_inj hn⟩

/-! ## Reading an encoding -/

/-- Writing what was read gives the string back. -/
theorem Commitment.wire_read {b : List UInt8} (h : b.length = commitmentLen) : (read b h).wire = b := by
  have hl : ∀ start len, start + len ≤ 49 → (slice b start len).length = len := fun start len hle =>
    Bytes.length_slice (by rw [h]; exact hle)
  have h1 : [b.getD 36 0] = slice b 36 1 := by
    rw [Bytes.slice_eq_map_range (by rw [h]; decide)]
    rfl
  simp only [wire, read]
  rw [Bytes.toNat_uint32_ofBE (hl 32 4 (by decide)), Bytes.toNat_uint32_ofBE (hl 37 4 (by decide)),
    Bytes.toNat_uint64_ofBE (hl 41 8 (by decide)), Bytes.toBE_ofBE_of_length (hl 32 4 (by decide)),
    Bytes.toBE_ofBE_of_length (hl 37 4 (by decide)), Bytes.toBE_ofBE_of_length (hl 41 8 (by decide)),
    h1, Bytes.slice_append_slice b 37 4 8, Bytes.slice_append_slice b 36 1 12,
    Bytes.slice_append_slice b 32 4 13, Bytes.slice_append_slice b 0 32 17]
  exact Bytes.slice_all h

/-- Reading what was written gives the commitment back. -/
theorem Commitment.read_wire (c : Commitment) : read c.wire c.length_wire = c :=
  wire_inj (wire_read c.length_wire)

end Bosphor

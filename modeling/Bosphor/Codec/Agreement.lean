import Bosphor.Codec.Move
import Bosphor.Codec.Rust
import Bosphor.Codec.Solidity
import Bosphor.Codec.TypeScript

/-!
# The four codecs are one codec

* `codecs_agree`: the TypeScript, Solidity, Move and Rust codecs encode every
  commitment and every preimage to the same bytes, each decodes what it
  encodes and encodes what it decodes, each accepts exactly the strings of 49
  bytes, and the preimage determines what it was made from.
* `deriveIntentId_agree`: all four derive the same intent id.
-/

namespace Bosphor

/-- An implementation that holds a commitment as `rep` says undoes its own encoding, encodes
whatever it decodes back to the same string, and decodes exactly the strings of the format's
length. -/
structure RoundTrips {α ε₁ ε₂ : Type} (rep : Commitment → α) (encode : α → Except ε₁ (List UInt8))
    (decode : List UInt8 → Except ε₂ α) : Prop where
  decode_encode : ∀ c, ∃ b, encode (rep c) = .ok b ∧ decode b = .ok (rep c)
  encode_decode : ∀ b v, decode b = .ok v → encode v = .ok b
  accepts : ∀ b, (∃ v, decode b = .ok v) ↔ b.length = commitmentLen

/-- An implementation of the canonical format round-trips. -/
theorem RoundTrips.of_canonical {α ε₁ ε₂ : Type} {rep : Commitment → α}
    {encode : α → Except ε₁ (List UInt8)} {decode : List UInt8 → Except ε₂ α}
    (henc : ∀ c, encode (rep c) = .ok c.wire)
    (hdec : ∀ b (h : b.length = commitmentLen), decode b = .ok (rep (.read b h)))
    (herr : ∀ b, b.length ≠ commitmentLen → ∃ e, decode b = .error e) : RoundTrips rep encode decode where
  decode_encode c := ⟨c.wire, henc c, by rw [hdec _ c.length_wire, Commitment.read_wire]⟩
  encode_decode b v hv := by
    by_cases h : b.length = commitmentLen
    · rw [hdec b h] at hv
      rw [← Except.ok.inj hv, henc, Commitment.wire_read]
    · obtain ⟨e, he⟩ := herr b h
      rw [he] at hv
      cases hv
  accepts b := by
    constructor
    · rintro ⟨v, hv⟩
      by_contra h
      obtain ⟨e, he⟩ := herr b h
      rw [he] at hv
      cases hv
    · exact fun h => ⟨_, hdec b h⟩

theorem Ts.roundTrips : RoundTrips Ts.Commitment.of Ts.encodeCommitment Ts.decodeCommitment :=
  .of_canonical Ts.encode_eq (fun _ => Ts.decode_ok) fun _ => Ts.decode_error

theorem Evm.CommitmentCodec.roundTrips (after : Nat → UInt8) :
    RoundTrips id Evm.CommitmentCodec.encode (Evm.CommitmentCodec.decode · after) :=
  .of_canonical encode_eq (fun _ => decode_ok after) fun _ h => ⟨_, decode_revert after h⟩

theorem Sui.CommitmentCodec.roundTrips :
    RoundTrips Sui.CommitmentCodec.fieldsOf Sui.CommitmentCodec.encode Sui.CommitmentCodec.decode :=
  .of_canonical encode_eq (fun _ => decode_ok) fun _ h => ⟨_, decode_abort h⟩

theorem Rust.roundTrips : RoundTrips id Rust.encode Rust.decode :=
  .of_canonical Rust.encode_eq (fun _ => Rust.decode_eq) fun _ h => ⟨_, Rust.decode_error h⟩

/-- Solidity takes the sender already padded. -/
def paddedSender (sender : List UInt8) (h : sender.length ≤ senderLen) : Bytes 32 :=
  ⟨padSender sender, length_padSender h⟩

theorem Evm.CommitmentCodec.preimage_padded (c : Commitment) {sender : List UInt8} (nonce : UInt64)
    (h : sender.length ≤ senderLen) :
    derivePreimage c (paddedSender sender h) nonce = .ok (preimage c sender nonce) := by
  rw [preimage_eq, preimage, preimage, paddedSender, padSender_padSender h]

/-- The four implementations compute one format: the same encodings and preimages, on every
commitment, sender of at most 32 bytes and nonce; each round-trips; and the preimage is injective
up to the padding of the sender. -/
theorem codecs_agree :
    (∀ c : Commitment, ∃ b, Ts.encodeCommitment (.of c) = .ok b ∧ Evm.CommitmentCodec.encode c = .ok b ∧
      Sui.CommitmentCodec.encode (Sui.CommitmentCodec.fieldsOf c) = .ok b ∧ Rust.encode c = .ok b) ∧
    (∀ (c : Commitment) (sender : List UInt8) (nonce : UInt64) (h : sender.length ≤ 32),
      Ts.derivePreimage (.of c) sender nonce.toNat = .ok (preimage c sender nonce) ∧
      Evm.CommitmentCodec.derivePreimage c (paddedSender sender h) nonce = .ok (preimage c sender nonce) ∧
      Sui.CommitmentCodec.derivePreimage (Sui.CommitmentCodec.fieldsOf c) sender nonce =
        .ok (preimage c sender nonce) ∧
      Rust.derivePreimage c sender nonce = .ok (preimage c sender nonce)) ∧
    RoundTrips Ts.Commitment.of Ts.encodeCommitment Ts.decodeCommitment ∧
    (∀ after, RoundTrips id Evm.CommitmentCodec.encode (Evm.CommitmentCodec.decode · after)) ∧
    RoundTrips Sui.CommitmentCodec.fieldsOf Sui.CommitmentCodec.encode Sui.CommitmentCodec.decode ∧
    RoundTrips id Rust.encode Rust.decode ∧
    (∀ (c d : Commitment) (s t : List UInt8) (m n : UInt64), s.length ≤ 32 → t.length ≤ 32 →
      preimage c s m = preimage d t n → c = d ∧ padSender s = padSender t ∧ m = n) := by
  refine ⟨fun c => ⟨c.wire, Ts.encode_eq c, Evm.CommitmentCodec.encode_eq c, Sui.CommitmentCodec.encode_eq c,
      Rust.encode_eq c⟩, fun c sender nonce h => ⟨Ts.preimage_eq c nonce h,
      Evm.CommitmentCodec.preimage_padded c nonce h, Sui.CommitmentCodec.preimage_eq c nonce h,
      Rust.preimage_eq c nonce h⟩, Ts.roundTrips, Evm.CommitmentCodec.roundTrips,
    Sui.CommitmentCodec.roundTrips, Rust.roundTrips, ?_⟩
  intro c d s t m n hs ht h
  exact preimage_inj hs ht h

/-- The four implementations derive the same intent id. -/
theorem deriveIntentId_agree (c : Commitment) {sender : List UInt8} (nonce : UInt64)
    (h : sender.length ≤ senderLen) :
    Ts.deriveIntentId (.of c) sender nonce.toNat = .ok (intentIdOf c sender nonce) ∧
    Evm.CommitmentCodec.deriveIntentId c (paddedSender sender h) nonce = .ok (intentIdOf c sender nonce) ∧
    Sui.CommitmentCodec.deriveIntentId (Sui.CommitmentCodec.fieldsOf c) sender nonce =
      .ok (intentIdOf c sender nonce) ∧
    Rust.deriveIntentId c sender nonce = .ok (intentIdOf c sender nonce) := by
  simp only [Ts.deriveIntentId, Evm.CommitmentCodec.deriveIntentId, Sui.CommitmentCodec.deriveIntentId,
    Rust.deriveIntentId, Ts.preimage_eq c nonce h, Evm.CommitmentCodec.preimage_padded c nonce h,
    Sui.CommitmentCodec.preimage_eq c nonce h, Rust.preimage_eq c nonce h, intentIdOf, bind, Except.bind, pure,
    Except.pure, and_self]

end Bosphor

import Bosphor.Evm.Revert
import Bosphor.Sui.Move

/-!
# The return proof

The type-1 message that carries a proof from Sui to an origin: `encode` and
`decode` of the Move module, the Solana program's `decode_proof`, and what the
EVM adapter's `_lzReceive` decodes.

* `proof_decoders`: on the messages of the format all three decoders read the
  same values; Sui and Solana read the same on every string; and the EVM
  decoder also accepts longer strings and keeps the whole last word.
-/

namespace Bosphor

open Bytes (toBE ofBE)

/-! ## Sui -/

namespace Sui.Codec

def EInvalidIntentIdLength : Abort := .code .codec 0
def EInvalidBlobIdLength : Abort := .code .codec 1
def EInvalidMessageLength : Abort := .code .codec 2
def EInvalidMessageType : Abort := .code .codec 3

/-- `encode_u64_as_u256(msg, value)`. -/
def encodeU64AsU256 (msg : List UInt8) (value : UInt64) : List UInt8 :=
  pushZeros 24 msg ++ beBytes64 value

/-- `encode(intent_id, blob_id, end_epoch)`. -/
def encode (intentId blobId : List UInt8) (endEpoch : UInt64) : Except Abort (List UInt8) := do
  assert (intentId.length = 32) EInvalidIntentIdLength
  assert (blobId.length = 32) EInvalidBlobIdLength
  let msg ← pushSlice intentId 0 32 [1]
  let msg ← pushSlice blobId 0 32 msg
  return encodeU64AsU256 msg endEpoch

/-- `decode(message)`. -/
def decode (message : List UInt8) : Except Abort (List UInt8 × List UInt8 × UInt64) := do
  assert (message.length = 97) EInvalidMessageLength
  assert ((← borrow message 0) = 1) EInvalidMessageType
  let intentId ← slice message 1 32
  let blobId ← slice message 33 32
  let endEpoch ← decodeU64FromU256 message 65
  return (intentId, blobId, endEpoch)

end Sui.Codec

/-! ## Solana -/

namespace Solana

/-- Length of the return-leg proof message. -/
def proofMessageLen : Nat := 97

/-- The type byte of the return-leg proof. -/
def proofType1 : UInt8 := 1

structure DecodedProof where
  intentId : Bytes 32
  blobId : Bytes 32
  endEpoch : UInt64
  deriving DecidableEq

inductive ProofError where
  | invalidLength (len : Nat)
  | invalidType (type : UInt8)
  deriving DecidableEq

/-- `decode_proof(message)`: every slice has the width it is copied to, since the length is
checked first. -/
def decodeProof (message : List UInt8) : Except ProofError DecodedProof :=
  if h : message.length ≠ proofMessageLen then .error (.invalidLength message.length)
  else if message.getD 0 0 ≠ proofType1 then .error (.invalidType (message.getD 0 0))
  else .ok {
    intentId := ⟨Bytes.slice message 1 32, Bytes.length_slice (by rw [not_ne_iff.mp h]; decide)⟩
    blobId := ⟨Bytes.slice message 33 32, Bytes.length_slice (by rw [not_ne_iff.mp h]; decide)⟩
    endEpoch := UInt64.ofNat (ofBE (Bytes.slice message 89 8)) }

end Solana

/-! ## EVM -/

namespace Evm

/-- `abi.decode(data, (bytes32, bytes32, uint256))`: three words from the front, whatever follows. -/
def abiDecodeProof (data : List UInt8) : Except Revert (Bytes 32 × Bytes 32 × Nat) :=
  if h : data.length < 96 then .error .abiDecode
  else .ok (⟨Bytes.slice data 0 32, Bytes.length_slice (by omega)⟩,
    ⟨Bytes.slice data 32 32, Bytes.length_slice (by omega)⟩, ofBE (Bytes.slice data 64 32))

/-- What `_lzReceive` decodes of its message. -/
def decodeProofMessage (message : List UInt8) : Except Revert (Bytes 32 × Bytes 32 × Nat) := do
  revertIf (message.length = 0) .unknownMessageType
  let msgType := message.getD 0 0
  if msgType = 1 then abiDecodeProof (message.drop 1)
  else .error .unknownMessageType

end Evm

/-! ## The format -/

/-- `0x01 ++ intentId(32) ++ blobId(32) ++ endEpoch(u256)`. -/
def proofWire (intentId blobId : Bytes 32) (endEpoch : UInt64) : List UInt8 :=
  [1] ++ (intentId.val ++ (blobId.val ++ (List.replicate 24 0 ++ toBE 8 endEpoch.toNat)))

theorem length_proofWire (intentId blobId : Bytes 32) (endEpoch : UInt64) :
    (proofWire intentId blobId endEpoch).length = 97 := by
  simp only [proofWire, List.length_append, intentId.property, blobId.property, Bytes.length_toBE,
    List.length_replicate, List.length_singleton]

/-- The parts of a string of at least 97 bytes that starts with the type byte. -/
theorem proof_parts {m : List UInt8} (hl : 97 ≤ m.length) (ht : m.getD 0 0 = 1) :
    m = [1] ++ (Bytes.slice m 1 32 ++ (Bytes.slice m 33 32 ++ (Bytes.slice m 65 24 ++
      (Bytes.slice m 89 8 ++ m.drop 97)))) := by
  have h1 : [(1 : UInt8)] = Bytes.slice m 0 1 := by
    rw [Bytes.slice_eq_map_range (by omega), ← ht]
    rfl
  have hd : Bytes.slice m 89 8 ++ m.drop 97 = m.drop 89 := by
    rw [Bytes.slice, show m.drop 97 = (m.drop 89).drop 8 by rw [List.drop_drop], List.take_append_drop]
  rw [hd, h1, ← List.append_assoc, ← List.append_assoc, ← List.append_assoc, Bytes.slice_append_slice m 0 1 32,
    Bytes.slice_append_slice m 0 33 32, Bytes.slice_append_slice m 0 65 24]
  exact (List.take_append_drop 89 m).symm

/-- The strings of the format: 97 bytes, the type byte, and 24 zero bytes before the epoch. -/
theorem exists_proofWire_eq {m : List UInt8} :
    (∃ intentId blobId endEpoch, m = proofWire intentId blobId endEpoch) ↔
      m.length = 97 ∧ m.getD 0 0 = 1 ∧ Bytes.slice m 65 24 = List.replicate 24 0 := by
  constructor
  · rintro ⟨i, b, e, rfl⟩
    refine ⟨length_proofWire i b e, rfl, ?_⟩
    have := Bytes.slice_mid ([1] ++ (i.val ++ b.val)) (List.replicate 24 0) (toBE 8 e.toNat) 65 24
      (by simp only [List.length_append, i.property, b.property, List.length_singleton]) rfl
    simpa only [proofWire, List.append_assoc] using this
  · rintro ⟨hl, ht, hz⟩
    have hlen : ∀ start len, start + len ≤ 97 → (Bytes.slice m start len).length = len := fun start len h =>
      Bytes.length_slice (by omega)
    refine ⟨⟨_, hlen 1 32 (by decide)⟩, ⟨_, hlen 33 32 (by decide)⟩,
      UInt64.ofNat (ofBE (Bytes.slice m 89 8)), ?_⟩
    have hp := proof_parts (Nat.le_of_eq hl.symm) ht
    rw [hz, List.drop_eq_nil_of_le (Nat.le_of_eq hl), List.append_nil] at hp
    rw [proofWire, Bytes.toNat_uint64_ofBE (hlen 89 8 (by decide)),
      Bytes.toBE_ofBE_of_length (hlen 89 8 (by decide))]
    exact hp

/-- The last word is its padding over the bytes read as the epoch. -/
theorem ofBE_last_word {m : List UInt8} (hl : 97 ≤ m.length) :
    ofBE (Bytes.slice m 65 32) = ofBE (Bytes.slice m 65 24) * 2 ^ 64 + ofBE (Bytes.slice m 89 8) := by
  rw [← Bytes.slice_append_slice m 65 24 8, Bytes.ofBE_append,
    Bytes.length_slice (show 89 + 8 ≤ m.length by omega)]
  rfl

/-! ## What each decoder accepts and reads -/

theorem Sui.Codec.encode_eq (intentId blobId : Bytes 32) (endEpoch : UInt64) :
    encode intentId.val blobId.val endEpoch = .ok (proofWire intentId blobId endEpoch) := by
  have hi := pushSlice_ok intentId.val 0 32 [1] (by rw [intentId.property])
  have hb := pushSlice_ok blobId.val 0 32 ([1] ++ intentId.val)
    (by rw [blobId.property])
  rw [Bytes.slice_all intentId.property] at hi
  rw [Bytes.slice_all blobId.property] at hb
  simp only [encode, assert, intentId.property, blobId.property, decide_true, if_true, hi, hb, encodeU64AsU256,
    pushZeros_eq, beBytes64_eq, bind, Except.bind, pure, Except.pure, proofWire, List.append_assoc]

theorem Sui.Codec.decode_ok_iff {m : List UInt8} {p : List UInt8 × List UInt8 × UInt64} :
    decode m = .ok p ↔ m.length = 97 ∧ m.getD 0 0 = 1 ∧
      p = (Bytes.slice m 1 32, Bytes.slice m 33 32, UInt64.ofNat (ofBE (Bytes.slice m 89 8))) := by
  by_cases hl : m.length = 97
  · by_cases ht : m.getD 0 0 = 1
    · have : decode m =
          .ok (Bytes.slice m 1 32, Bytes.slice m 33 32, UInt64.ofNat (ofBE (Bytes.slice m 89 8))) := by
        simp only [decode, decodeU64FromU256, assert, hl, ht, decide_true, if_true,
          borrow_ok (show 0 < m.length by omega), slice_ok (show 1 + 32 ≤ m.length by omega),
          slice_ok (show 33 + 32 ≤ m.length by omega), decodeU64BE_ok (show 65 + 24 + 8 ≤ m.length by omega),
          bind, Except.bind, pure, Except.pure]
      rw [this, Except.ok.injEq]
      exact ⟨fun h => ⟨hl, ht, h.symm⟩, fun h => h.2.2.symm⟩
    · simp only [decode, assert, hl, ht, decide_true, if_true, decide_false, Bool.false_eq_true, if_false,
        borrow_ok (show 0 < m.length by omega), bind, Except.bind, reduceCtorEq, false_and, and_false]
  · simp only [decode, assert, hl, decide_false, Bool.false_eq_true, if_false, bind, Except.bind, reduceCtorEq,
      false_and]

theorem Solana.decodeProof_ok_iff {m : List UInt8} {q : DecodedProof} :
    decodeProof m = .ok q ↔ m.length = 97 ∧ m.getD 0 0 = 1 ∧ q.intentId.val = Bytes.slice m 1 32 ∧
      q.blobId.val = Bytes.slice m 33 32 ∧ q.endEpoch = UInt64.ofNat (ofBE (Bytes.slice m 89 8)) := by
  by_cases hl : m.length = proofMessageLen
  · have hl' : m.length = 97 := hl
    by_cases ht : m.getD 0 0 = proofType1
    · have ht' : m.getD 0 0 = 1 := ht
      rw [decodeProof, dif_neg (not_not_intro hl), if_neg (not_not_intro ht), Except.ok.injEq]
      obtain ⟨i, b, e⟩ := q
      simp only [hl', ht', true_and, DecodedProof.mk.injEq, Subtype.ext_iff]
      exact and_congr eq_comm (and_congr eq_comm eq_comm)
    · rw [decodeProof, dif_neg (not_not_intro hl), if_pos ht]
      exact iff_of_false (by simp only [reduceCtorEq, not_false_eq_true]) fun h => ht h.2.1
  · rw [decodeProof, dif_pos hl]
    exact iff_of_false (by simp only [reduceCtorEq, not_false_eq_true]) fun h => hl h.1

theorem Evm.decodeProofMessage_ok_iff {m : List UInt8} {r : Bytes 32 × Bytes 32 × Nat} :
    decodeProofMessage m = .ok r ↔ 97 ≤ m.length ∧ m.getD 0 0 = 1 ∧ r.1.val = Bytes.slice m 1 32 ∧
      r.2.1.val = Bytes.slice m 33 32 ∧ r.2.2 = ofBE (Bytes.slice m 65 32) := by
  have hs : ∀ start len, Bytes.slice (m.drop 1) start len = Bytes.slice m (1 + start) len := fun start len => by
    rw [Bytes.slice, Bytes.slice, List.drop_drop]
  by_cases h0 : m.length = 0
  · have hl : ¬ 97 ≤ m.length := by omega
    simp only [decodeProofMessage, revertIf, h0, if_true, bind, Except.bind, reduceCtorEq, false_iff]
    exact fun h => hl (by omega)
  by_cases ht : m.getD 0 0 = 1
  · by_cases hl : 97 ≤ m.length
    · have hd : ¬ (m.drop 1).length < 96 := by rw [List.length_drop]; omega
      obtain ⟨i, b, e⟩ := r
      simp only [decodeProofMessage, revertIf, h0, ht, if_true, if_false, bind, Except.bind, abiDecodeProof, hd,
        dif_neg, not_false_eq_true, Except.ok.injEq, Prod.mk.injEq, Subtype.ext_iff, hs, Nat.reduceAdd, hl,
        true_and]
      exact and_congr eq_comm (and_congr eq_comm eq_comm)
    · have hd : (m.drop 1).length < 96 := by rw [List.length_drop]; omega
      simp only [decodeProofMessage, revertIf, h0, ht, if_true, if_false, bind, Except.bind, abiDecodeProof, hd,
        dif_pos, reduceCtorEq, hl, false_and]
  · simp only [decodeProofMessage, revertIf, h0, ht, if_false, bind, Except.bind, reduceCtorEq, false_and,
      and_false]

/-- The Solana decoder reads the string of the format it is given. -/
theorem Solana.decodeProof_wire (intentId blobId : Bytes 32) (endEpoch : UInt64) :
    decodeProof (proofWire intentId blobId endEpoch) = .ok ⟨intentId, blobId, endEpoch⟩ := by
  obtain ⟨hl, ht, -⟩ := exists_proofWire_eq.mp ⟨intentId, blobId, endEpoch, rfl⟩
  have h1 := Bytes.slice_mid [1] intentId.val
    (blobId.val ++ (List.replicate 24 0 ++ toBE 8 endEpoch.toNat)) 1 _ rfl intentId.property
  have h2 := Bytes.slice_mid ([1] ++ intentId.val) blobId.val (List.replicate 24 0 ++ toBE 8 endEpoch.toNat) 33 _
    (by rw [List.length_append, intentId.property, List.length_singleton]) blobId.property
  have h3 := Bytes.slice_end ([1] ++ (intentId.val ++ (blobId.val ++ List.replicate 24 0)))
    (toBE 8 endEpoch.toNat) 89 _
    (by simp only [List.length_append, intentId.property, blobId.property, List.length_replicate,
      List.length_singleton]) (Bytes.length_toBE 8 _)
  simp only [List.append_assoc] at h1 h2 h3
  refine decodeProof_ok_iff.mpr ⟨hl, ht, h1.symm, h2.symm, ?_⟩
  rw [proofWire, h3, Bytes.ofBE_toBE endEpoch.toNat_lt, UInt64.ofNat_toNat]

theorem proofWire_inj {id id' b b' : Bytes 32} {e e' : UInt64} (h : proofWire id b e = proofWire id' b' e') :
    id = id' ∧ b = b' ∧ e = e' := by
  have hdec := Solana.decodeProof_wire id b e
  rw [h, Solana.decodeProof_wire, Except.ok.injEq, Solana.DecodedProof.mk.injEq] at hdec
  exact ⟨hdec.1.symm, hdec.2.1.symm, hdec.2.2.symm⟩

/-- Sui and Solana read the same. -/
theorem Sui.Codec.decode_ok_iff_decodeProof {m : List UInt8} {p : List UInt8 × List UInt8 × UInt64} :
    decode m = .ok p ↔ ∃ q, Solana.decodeProof m = .ok q ∧ p = (q.intentId.val, q.blobId.val, q.endEpoch) := by
  rw [decode_ok_iff]
  constructor
  · rintro ⟨hl, ht, rfl⟩
    exact ⟨⟨⟨_, Bytes.length_slice (by omega)⟩, ⟨_, Bytes.length_slice (by omega)⟩, _⟩,
      Solana.decodeProof_ok_iff.mpr ⟨hl, ht, rfl, rfl, rfl⟩, rfl⟩
  · rintro ⟨q, hq, rfl⟩
    obtain ⟨hl, ht, hi, hb, he⟩ := Solana.decodeProof_ok_iff.mp hq
    exact ⟨hl, ht, by rw [hi, hb, he]⟩

/-- What Solana reads, EVM reads, with the padding over the epoch. -/
theorem Evm.decodeProofMessage_of_decodeProof {m : List UInt8} {q : Solana.DecodedProof}
    (h : Solana.decodeProof m = .ok q) :
    decodeProofMessage m =
      .ok (q.intentId, q.blobId, ofBE (Bytes.slice m 65 24) * 2 ^ 64 + q.endEpoch.toNat) := by
  obtain ⟨hl, ht, hi, hb, he⟩ := Solana.decodeProof_ok_iff.mp h
  refine decodeProofMessage_ok_iff.mpr ⟨Nat.le_of_eq hl.symm, ht, hi, hb, ?_⟩
  rw [ofBE_last_word (Nat.le_of_eq hl.symm), he, Bytes.toNat_uint64_ofBE (Bytes.length_slice (by omega))]

/-- EVM reads the first 97 bytes. -/
theorem Evm.decodeProofMessage_take {m : List UInt8} (hl : 97 ≤ m.length) :
    decodeProofMessage (m.take 97) = decodeProofMessage m := by
  have hs : ∀ start len, start + len ≤ 97 → Bytes.slice (m.take 97) start len = Bytes.slice m start len := by
    intro start len h
    rw [Bytes.slice, Bytes.slice, List.drop_take, List.take_take, Nat.min_eq_left (by omega)]
  have hlen : (m.take 97).length = 97 := by rw [List.length_take]; omega
  have h0 : (m.take 97).getD 0 0 = m.getD 0 0 := by
    rw [List.getD_eq_getElem?_getD, List.getD_eq_getElem?_getD, List.getElem?_take_of_lt (by decide)]
  have hok : ∀ r, decodeProofMessage (m.take 97) = .ok r ↔ decodeProofMessage m = .ok r := fun r => by
    rw [decodeProofMessage_ok_iff, decodeProofMessage_ok_iff, hlen, h0, hs 1 32 (by decide),
      hs 33 32 (by decide), hs 65 32 (by decide)]
    simp only [Nat.le_refl, hl]
  cases h : decodeProofMessage m with
  | ok r => exact (hok r).mpr h
  | error e =>
    have ht : m.getD 0 0 ≠ 1 := fun ht => by
      have := decodeProofMessage_ok_iff (m := m) (r := (⟨Bytes.slice m 1 32, Bytes.length_slice (by omega)⟩,
        ⟨Bytes.slice m 33 32, Bytes.length_slice (by omega)⟩, _)) |>.mpr ⟨hl, ht, rfl, rfl, rfl⟩
      rw [h] at this
      cases this
    have hne : m.length ≠ 0 := by omega
    simp only [decodeProofMessage, revertIf, hlen, h0, ht, hne, if_false, bind, Except.bind] at h ⊢
    exact h

/-- All three decoders read the string of the format they are given. -/
theorem decode_proofWire (i b : Bytes 32) (e : UInt64) :
    Sui.Codec.decode (proofWire i b e) = .ok (i.val, b.val, e) ∧
      Solana.decodeProof (proofWire i b e) = .ok ⟨i, b, e⟩ ∧
      Evm.decodeProofMessage (proofWire i b e) = .ok (i, b, e.toNat) := by
  have h := Solana.decodeProof_wire i b e
  have hz := (exists_proofWire_eq.mp ⟨i, b, e, rfl⟩).2.2
  have hevm := Evm.decodeProofMessage_of_decodeProof h
  rw [hz, Bytes.ofBE_replicate_zero, Nat.zero_mul, Nat.zero_add] at hevm
  exact ⟨Sui.Codec.decode_ok_iff_decodeProof.mpr ⟨_, h, rfl⟩, h, hevm⟩

/-- The return proof's decoders. On what Sui encodes all three read the values encoded, and they
all read the same values only there, so that encoding those again gives the message. On every
string Sui and Solana accept the same and read the same, which is 97 bytes with the type byte.
EVM accepts those and longer ones, reads the same ids from the first 97 bytes, and keeps the
whole last word, of which the others read the low 64 bits. -/
theorem proof_decoders :
    (∀ (i b : Bytes 32) (e : UInt64), ∃ m, Sui.Codec.encode i.val b.val e = .ok m ∧
      Sui.Codec.decode m = .ok (i.val, b.val, e) ∧ Solana.decodeProof m = .ok ⟨i, b, e⟩ ∧
      Evm.decodeProofMessage m = .ok (i, b, e.toNat)) ∧
    (∀ (m : List UInt8) (i b : Bytes 32) (e : UInt64),
      (Sui.Codec.decode m = .ok (i.val, b.val, e) ∧ Solana.decodeProof m = .ok ⟨i, b, e⟩ ∧
        Evm.decodeProofMessage m = .ok (i, b, e.toNat)) ↔ Sui.Codec.encode i.val b.val e = .ok m) ∧
    (∀ (m : List UInt8) (p : List UInt8 × List UInt8 × UInt64), Sui.Codec.decode m = .ok p ↔
      ∃ q, Solana.decodeProof m = .ok q ∧ p = (q.intentId.val, q.blobId.val, q.endEpoch)) ∧
    (∀ m : List UInt8, (∃ q, Solana.decodeProof m = .ok q) ↔ m.length = 97 ∧ m.getD 0 0 = 1) ∧
    (∀ m : List UInt8, (∃ r, Evm.decodeProofMessage m = .ok r) ↔ 97 ≤ m.length ∧ m.getD 0 0 = 1) ∧
    (∀ m : List UInt8, 97 ≤ m.length → Evm.decodeProofMessage (m.take 97) = Evm.decodeProofMessage m) ∧
    (∀ (m : List UInt8) (q : Solana.DecodedProof), Solana.decodeProof m = .ok q →
      ∃ e, Evm.decodeProofMessage m = .ok (q.intentId, q.blobId, e) ∧ e % 2 ^ 64 = q.endEpoch.toNat) := by
  refine ⟨fun i b e => ⟨_, Sui.Codec.encode_eq i b e, decode_proofWire i b e⟩, ?_,
    fun m p => Sui.Codec.decode_ok_iff_decodeProof, ?_, ?_, fun m => Evm.decodeProofMessage_take, ?_⟩
  · intro m i b e
    rw [Sui.Codec.encode_eq, Except.ok.injEq]
    constructor
    · rintro ⟨-, hsol, hevm⟩
      -- The last word is the epoch only when its padding is zero.
      rw [Evm.decodeProofMessage_of_decodeProof hsol, Except.ok.injEq, Prod.mk.injEq, Prod.mk.injEq] at hevm
      obtain ⟨hl, ht, -⟩ := Solana.decodeProof_ok_iff.mp hsol
      have hpad : ofBE (Bytes.slice m 65 24) = 0 := by
        have hword : ofBE (Bytes.slice m 65 24) * 2 ^ 64 + e.toNat = e.toNat := hevm.2.2
        omega
      have hz : Bytes.slice m 65 24 = List.replicate 24 0 :=
        Bytes.ofBE_inj (by rw [Bytes.length_slice (by omega), List.length_replicate])
          (by rw [hpad, Bytes.ofBE_replicate_zero])
      obtain ⟨i', b', e', rfl⟩ := exists_proofWire_eq.mpr ⟨hl, ht, hz⟩
      rw [Solana.decodeProof_wire, Except.ok.injEq, Solana.DecodedProof.mk.injEq] at hsol
      obtain ⟨rfl, rfl, rfl⟩ := hsol
      rfl
    · rintro rfl
      exact decode_proofWire i b e
  · intro m
    constructor
    · rintro ⟨q, hq⟩
      obtain ⟨hl, ht, -⟩ := Solana.decodeProof_ok_iff.mp hq
      exact ⟨hl, ht⟩
    · rintro ⟨hl, ht⟩
      exact ⟨⟨⟨_, Bytes.length_slice (by omega)⟩, ⟨_, Bytes.length_slice (by omega)⟩, _⟩,
        Solana.decodeProof_ok_iff.mpr ⟨hl, ht, rfl, rfl, rfl⟩⟩
  · intro m
    constructor
    · rintro ⟨r, hr⟩
      obtain ⟨hl, ht, -⟩ := Evm.decodeProofMessage_ok_iff.mp hr
      exact ⟨hl, ht⟩
    · rintro ⟨hl, ht⟩
      exact ⟨(⟨_, Bytes.length_slice (by omega)⟩, ⟨_, Bytes.length_slice (by omega)⟩, _),
        Evm.decodeProofMessage_ok_iff.mpr ⟨hl, ht, rfl, rfl, rfl⟩⟩
  · intro m q hq
    refine ⟨_, Evm.decodeProofMessage_of_decodeProof hq, ?_⟩
    have := q.endEpoch.toNat_lt
    omega

/-- One byte more, and EVM alone accepts; a bit in the padding, and EVM alone reads it: the three
decoders do not agree on every string. -/
theorem proof_decoders_differ :
    (∃ m, (∃ r, Evm.decodeProofMessage m = .ok r) ∧ Solana.decodeProof m = .error (.invalidLength 98) ∧
      Sui.Codec.decode m = .error Sui.Codec.EInvalidMessageLength) ∧
    (∃ m, Evm.decodeProofMessage m = .ok (Bytes.zero 32, Bytes.zero 32, 2 ^ 64) ∧
      Solana.decodeProof m = .ok ⟨Bytes.zero 32, Bytes.zero 32, 0⟩ ∧
      Sui.Codec.decode m = .ok ((Bytes.zero 32).val, (Bytes.zero 32).val, 0) ∧
      Sui.Codec.encode (Bytes.zero 32).val (Bytes.zero 32).val 0 ≠ .ok m) :=
  ⟨⟨proofWire (Bytes.zero 32) (Bytes.zero 32) 0 ++ [0],
      ⟨(Bytes.zero 32, Bytes.zero 32, 0), by decide⟩, by decide, by decide⟩,
    ⟨[1] ++ List.replicate 64 0 ++ toBE 32 (2 ^ 64), by decide, by decide, by decide, by decide⟩⟩

end Bosphor

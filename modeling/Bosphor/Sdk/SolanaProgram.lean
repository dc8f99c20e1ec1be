import Bosphor.Codec.TypeScript
import Bosphor.Relayer.WalrusBlobId
import Bosphor.Solana.InstructionData

/-!
# The commitment in the data of `submit_intent`

What the SDK's `ByteWriter` writes, and the fields of a commitment behind either
of its encoders. Both cut a field to its width without a word, so that what is
read back is the commitment that was written just when its fields are integers
of their widths, or nothing is written at all (`commitment_kept_iff`).
-/

namespace Bosphor.Sdk

open Ts (JsNumber JsError encodeCommitment decodeCommitment toUint8 toUint32 toUint64 setAt)
open Borsh (toLE)

/-! ## The writer -/

structure ByteWriter where
  parts : List (List UInt8) := []

namespace ByteWriter

def bytes (w : ByteWriter) (b : List UInt8) : ByteWriter := ⟨w.parts ++ [b]⟩

/-- `Uint8Array.of(v & 0xff)`. -/
def u8 (w : ByteWriter) (v : JsNumber) : ByteWriter := w.bytes [toUint8 v]

/-- `setUint32(0, v >>> 0, true)`. -/
def u32 (w : ByteWriter) (v : JsNumber) : ByteWriter := w.bytes (toLE 4 (toUint32 v).toNat)

/-- `setBigUint64(0, v, true)`. -/
def u64 (w : ByteWriter) (v : Int) : ByteWriter := w.bytes (toLE 8 (toUint64 v).toNat)

def vecU8 (w : ByteWriter) (v : List UInt8) : ByteWriter := (w.u32 (.finite v.length)).bytes v

/-- The loop of `finish`, which sets the parts one behind the other. -/
def setParts : List (List UInt8) → List UInt8 → Nat → Except JsError (List UInt8)
  | [], out, _ => .ok out
  | p :: parts, out, o => do setParts parts (← setAt out p o) (o + p.length)

def finish (w : ByteWriter) : Except JsError (List UInt8) :=
  let total := w.parts.foldl (fun n p => n + p.length) 0
  setParts w.parts (List.replicate total 0) 0

theorem setParts_ok (parts : List (List UInt8)) (done : List UInt8) :
    setParts parts (done ++ List.replicate (parts.flatten.length) 0) done.length = .ok (done ++ parts.flatten) := by
  induction parts generalizing done with
  | nil => rw [setParts, List.flatten_nil, List.length_nil, List.replicate_zero]
  | cons p parts ih =>
    have hset := Ts.setAt_next done p done.length (done.length + (p ++ parts.flatten).length) rfl
      (by rw [List.length_append]; omega)
    have hrest : done.length + (p ++ parts.flatten).length - (done.length + p.length) = parts.flatten.length := by
      rw [List.length_append]
      omega
    rw [Nat.add_sub_cancel_left, hrest] at hset
    rw [setParts, List.flatten_cons, hset, Result.ok_bind, ← List.length_append, ih, List.append_assoc]

/-- What is written are the parts. -/
theorem finish_ok (w : ByteWriter) : w.finish = .ok w.parts.flatten := by
  have htotal : w.parts.foldl (fun n p => n + p.length) 0 = w.parts.flatten.length := by
    have hfold : ∀ (parts : List (List UInt8)) (n : Nat),
        parts.foldl (fun n p => n + p.length) n = n + parts.flatten.length := by
      intro parts
      induction parts with
      | nil => exact fun n => rfl
      | cons p parts ih =>
        intro n
        rw [List.foldl_cons, ih, List.flatten_cons, List.length_append, Nat.add_assoc]
    rw [hfold, Nat.zero_add]
  unfold finish
  rw [htotal]
  exact setParts_ok w.parts []

end ByteWriter

/-! ## The instruction -/

structure SubmitIntentArgs where
  blobId : String
  size : JsNumber
  encodingType : JsNumber
  storageEpochs : JsNumber
  deadline : Int
  dstEid : JsNumber
  options : List UInt8
  nativeFee : Int
  escrowAmount : Int

/-- `hex.startsWith("0x") ? hex.slice(2) : hex`. -/
def strip0x (hex : String) : String :=
  match hex.toList with
  | '0' :: 'x' :: digits => String.ofList digits
  | _ => hex

/-- The library's `hexToBytes`, and the first eight bytes of the SHA-256 that names an instruction. -/
structure Codecs where
  hexToBytes : String → Except JsError (List UInt8)
  instructionDiscriminator : String → Bytes 8

variable (codecs : Codecs)

/-- `encodeSubmitIntentData(a)`. -/
def encodeSubmitIntentData (a : SubmitIntentArgs) : Except JsError (List UInt8) := do
  let blob ← codecs.hexToBytes (strip0x a.blobId)
  let len := blob.length
  if len ≠ 32 then throw (.error s!"blobId must be 32 bytes, got {len}")
  let writer : ByteWriter := {}
  (((((((((((writer.bytes (codecs.instructionDiscriminator "submit_intent").val).bytes blob).u32 a.size).u8
    a.encodingType).u32 a.storageEpochs).u64 a.deadline).u32 a.dstEid).vecU8 a.options).u64 a.nativeFee).u64
    a.escrowAmount)).finish

/-- The commitment that the arguments name, once their blob id is known. -/
def SubmitIntentArgs.commitment (a : SubmitIntentArgs) (blobId : List UInt8) : Ts.Commitment :=
  ⟨blobId, a.size, a.encodingType, a.storageEpochs, a.deadline⟩

/-- What is written when nothing is thrown, and what the program reads of it. -/
theorem encodeSubmitIntentData_ok (a : SubmitIntentArgs) (blobId : Bytes 32)
    (hblob : codecs.hexToBytes (strip0x a.blobId) = .ok blobId.val) :
    ∃ data params, encodeSubmitIntentData codecs a = .ok data ∧
      Solana.decodeSubmitIntent (codecs.instructionDiscriminator "submit_intent") data = some params ∧
      params.commitment = (a.commitment blobId.val).cut blobId ∧ params.dstEid = toUint32 a.dstEid ∧
      (a.options.length < 2 ^ 32 → params.nativeFee = toUint64 a.nativeFee ∧
        params.escrowAmount = toUint64 a.escrowAmount) := by
  obtain ⟨params, hparams, hcommitment, hdst, hfees⟩ := Solana.decodeSubmitIntent_encoded
    (codecs.instructionDiscriminator "submit_intent") blobId (toUint32 a.size).toNat (toUint8 a.encodingType)
    (toUint32 a.storageEpochs).toNat (toUint64 a.deadline).toNat (toUint32 a.dstEid).toNat a.options
    (toUint64 a.nativeFee).toNat (toUint64 a.escrowAmount).toNat
  refine ⟨_, params, ?_, hparams, ?_, ?_, ?_⟩
  · have hlength : toLE 4 (toUint32 (.finite a.options.length)).toNat = toLE 4 a.options.length := by
      rw [← Borsh.toLE_mod 4 a.options.length, Ts.toUint32_toBigInt (Ts.toBigInt_natCast a.options.length)]
      rfl
    simp only [encodeSubmitIntentData, hblob, Result.ok_bind, blobId.property, ne_eq, not_true, if_false,
      ByteWriter.finish_ok, ByteWriter.bytes, ByteWriter.u8, ByteWriter.u32, ByteWriter.u64, ByteWriter.vecU8, hlength,
      List.nil_append, List.cons_append, List.flatten_cons, List.flatten_nil, List.append_nil]
  · rw [hcommitment]
    simp only [UInt32.ofNat_toNat, UInt64.ofNat_toNat, SubmitIntentArgs.commitment, Ts.Commitment.cut]
  · rw [hdst, UInt32.ofNat_toNat]
  · simpa only [UInt64.ofNat_toNat] using hfees

/-- What is written had 32 bytes of a blob id. -/
theorem blob_of_encoded {a : SubmitIntentArgs} {data : List UInt8} (h : encodeSubmitIntentData codecs a = .ok data) :
    ∃ blobId : Bytes 32, codecs.hexToBytes (strip0x a.blobId) = .ok blobId.val := by
  obtain ⟨blob, hblob, h⟩ := Result.bind_ok.mp h
  by_cases hlength : blob.length = 32
  · exact ⟨⟨blob, hlength⟩, hblob⟩
  · simp only [ne_eq, hlength, not_false_eq_true, if_true] at h
    cases h

/-! ## Commitments that are kept -/

/-- The number is an integer of this width. -/
def IsUint (bits : Nat) (x : JsNumber) : Prop := ∃ n : Nat, n < 2 ^ bits ∧ x = .finite n

def IsInteger (x : JsNumber) : Prop := ∃ n : Int, x = .finite n

/-- The fields are integers of their widths. -/
structure InRange (c : Ts.Commitment) : Prop where
  size : IsUint 32 c.size
  encodingType : IsUint 8 c.encodingType
  storageEpochs : IsUint 32 c.storageEpochs
  deadline : 0 ≤ c.deadline ∧ c.deadline < 2 ^ 64

/-- Nothing is cut off just when the fields are in range. -/
theorem cut_eq_iff {c : Ts.Commitment} (hb : c.blobId.length = 32) :
    Ts.Commitment.of (c.cut ⟨c.blobId, hb⟩) = c ↔ InRange c := by
  obtain ⟨blobId, size, encodingType, storageEpochs, deadline⟩ := c
  constructor
  · intro h
    simp only [Ts.Commitment.of, Ts.Commitment.cut, Ts.Commitment.mk.injEq, true_and] at h
    obtain ⟨hs, he, hn, hd⟩ := h
    refine ⟨⟨_, (toUint32 size).toNat_lt, hs.symm⟩, ⟨_, (toUint8 encodingType).toNat_lt, he.symm⟩,
      ⟨_, (toUint32 storageEpochs).toNat_lt, hn.symm⟩, ?_⟩
    have hlt := (toUint64 deadline).toNat_lt
    show 0 ≤ deadline ∧ deadline < 2 ^ 64
    omega
  · rintro ⟨⟨s, hs, rfl⟩, ⟨e, he, rfl⟩, ⟨n, hn, rfl⟩, hd⟩
    have hd : 0 ≤ deadline ∧ deadline < 2 ^ 64 := hd
    have hs' : (UInt32.ofNat s).toNat = s := UInt32.toNat_ofNat_of_lt' hs
    have he' : (UInt8.ofNat e).toNat = e := UInt8.toNat_ofNat_of_lt' he
    have hn' : (UInt32.ofNat n).toNat = n := UInt32.toNat_ofNat_of_lt' hn
    have hdl : ((toUint64 deadline).toNat : Int) = deadline := by
      rw [Ts.toUint64_toNat]
      omega
    have hcut := Ts.toUint32_natCast (UInt32.ofNat s)
    have hcut' := Ts.toUint32_natCast (UInt32.ofNat n)
    have hcut'' := Ts.toUint8_natCast (UInt8.ofNat e)
    rw [hs'] at hcut
    rw [hn'] at hcut'
    rw [he'] at hcut''
    simp only [Ts.Commitment.of, Ts.Commitment.cut, hcut, hcut', hcut'', hs', hn', he', hdl]

/-- What is encoded had 32 bytes of a blob id, and integers to write. -/
theorem integers_of_encoded {c : Ts.Commitment} {bytes : List UInt8} (h : encodeCommitment c = .ok bytes) :
    c.blobId.length = 32 ∧ ∃ size storageEpochs, Ts.toBigInt c.size = .ok size ∧
      Ts.toBigInt c.storageEpochs = .ok storageEpochs := by
  unfold encodeCommitment at h
  by_cases hb : c.blobId.length = 32
  · simp only [hb, ne_eq, not_true, if_false] at h
    obtain ⟨out, -, h⟩ := Result.bind_ok.mp h
    obtain ⟨size, hs, h⟩ := Result.bind_ok.mp h
    obtain ⟨view, -, h⟩ := Result.bind_ok.mp h
    obtain ⟨view, -, h⟩ := Result.bind_ok.mp h
    obtain ⟨storageEpochs, hn, -⟩ := Result.bind_ok.mp h
    exact ⟨hb, size, storageEpochs, hs, hn⟩
  · simp only [hb, ne_eq, not_false_eq_true, if_true] at h
    cases h

theorem encodeCommitment_kept_iff (c : Ts.Commitment) :
    (∀ bytes, encodeCommitment c = .ok bytes → decodeCommitment bytes = .ok c) ↔
      (c.blobId.length = 32 → IsInteger c.size → IsInteger c.storageEpochs → InRange c) := by
  constructor
  · rintro h hb ⟨s, hs⟩ ⟨n, hn⟩
    have hencode := Ts.encode_cut hb (Ts.toBigInt_ok.mpr hs) (Ts.toBigInt_ok.mpr hn)
    have hdecode := h _ hencode
    rw [Ts.decode_ok (Commitment.length_wire _), Commitment.read_wire] at hdecode
    exact (cut_eq_iff hb).mp (Except.ok.inj hdecode)
  · intro h bytes hencode
    obtain ⟨hb, s, n, hs, hn⟩ := integers_of_encoded hencode
    have hrange := h hb ⟨s, Ts.toBigInt_ok.mp hs⟩ ⟨n, Ts.toBigInt_ok.mp hn⟩
    rw [Ts.encode_cut hb hs hn] at hencode
    rw [← Except.ok.inj hencode, Ts.decode_ok (Commitment.length_wire _), Commitment.read_wire,
      (cut_eq_iff hb).mpr hrange]

/-- The program reads the commitment that the arguments name. -/
def ReadsBack (a : SubmitIntentArgs) (data : List UInt8) : Prop :=
  ∃ params, Solana.decodeSubmitIntent (codecs.instructionDiscriminator "submit_intent") data = some params ∧
    codecs.hexToBytes (strip0x a.blobId) = .ok params.blobId.val ∧
    Ts.Commitment.of params.commitment = a.commitment params.blobId.val

theorem encodeSubmitIntentData_kept_iff (a : SubmitIntentArgs) :
    (∀ data, encodeSubmitIntentData codecs a = .ok data → ReadsBack codecs a data) ↔
      ∀ blobId, codecs.hexToBytes (strip0x a.blobId) = .ok blobId → blobId.length = 32 →
        InRange (a.commitment blobId) := by
  constructor
  · intro h blob hblob hlength
    obtain ⟨data, params, hdata, hparams, hcut, -⟩ := encodeSubmitIntentData_ok codecs a ⟨blob, hlength⟩ hblob
    obtain ⟨params', hparams', hblob', hsame⟩ := h data hdata
    obtain rfl : params = params' := Option.some.inj (hparams.symm.trans hparams')
    rw [hblob, Except.ok.injEq] at hblob'
    subst hblob'
    rw [hcut] at hsame
    exact (cut_eq_iff (c := a.commitment params.blobId.val) hlength).mp hsame
  · intro h data hdata
    obtain ⟨blobId, hblob⟩ := blob_of_encoded codecs hdata
    obtain ⟨data', params, hdata', hparams, hcut, -⟩ := encodeSubmitIntentData_ok codecs a blobId hblob
    obtain rfl : data = data' := Except.ok.inj (hdata.symm.trans hdata')
    have hid : params.blobId = blobId := congrArg Commitment.blobId hcut
    refine ⟨params, hparams, hid ▸ hblob, ?_⟩
    rw [hcut, hid]
    exact (cut_eq_iff (c := a.commitment blobId.val) blobId.property).mpr (h blobId.val hblob blobId.property)

/-- What either encoder writes is read back as the commitment that it was given just when its fields are in range, or
the encoder throws. -/
theorem commitment_kept_iff (c : Ts.Commitment) (a : SubmitIntentArgs) :
    ((∀ bytes, encodeCommitment c = .ok bytes → decodeCommitment bytes = .ok c) ↔
      (c.blobId.length = 32 → IsInteger c.size → IsInteger c.storageEpochs → InRange c)) ∧
    ((∀ data, encodeSubmitIntentData codecs a = .ok data → ReadsBack codecs a data) ↔
      ∀ blobId, codecs.hexToBytes (strip0x a.blobId) = .ok blobId → blobId.length = 32 →
        InRange (a.commitment blobId)) :=
  ⟨encodeCommitment_kept_iff c, encodeSubmitIntentData_kept_iff codecs a⟩

/-! ## A size that is cut -/

/-- The commitment of 1000 bytes, with a size that is more by `2 ^ 32`. -/
def oversized : Ts.Commitment := { Ts.Commitment.of exampleCommitment with size := .finite (2 ^ 32 + 1000 : Int) }

def oversizedArgs : SubmitIntentArgs where
  blobId := "0x" ++ String.ofList (List.replicate 64 '0')
  size := oversized.size
  encodingType := oversized.encodingType
  storageEpochs := oversized.storageEpochs
  deadline := oversized.deadline
  dstEid := .finite 40378
  options := []
  nativeFee := 0
  escrowAmount := 0

/-- The library's decoder, where the text is in hexadecimal. -/
def exampleCodecs : Codecs where
  hexToBytes hex := .ok (Relayer.bytesOfHex hex.toList)
  instructionDiscriminator _ := ⟨[0x9f, 0xff, 0x99, 0x09, 0x95, 0x8b, 0x49, 0x70], rfl⟩

/-- Both encoders take the commitment for one of 1000 bytes. -/
theorem size_cut : (∃ bytes, encodeCommitment oversized = .ok bytes ∧ decodeCommitment bytes ≠ .ok oversized ∧
      decodeCommitment bytes = .ok (Ts.Commitment.of exampleCommitment)) ∧
    ∃ data, encodeSubmitIntentData exampleCodecs oversizedArgs = .ok data ∧
      ¬ ReadsBack exampleCodecs oversizedArgs data ∧
      ∃ params, Solana.decodeSubmitIntent (exampleCodecs.instructionDiscriminator "submit_intent") data = some params ∧
        params.commitment = exampleCommitment := by
  have hblob : exampleCodecs.hexToBytes (strip0x oversizedArgs.blobId) = .ok (Bytes.zero 32).val := by decide +kernel
  have hcut : oversized.cut (Bytes.zero 32) = exampleCommitment := by decide +kernel
  have hne : Ts.Commitment.of exampleCommitment ≠ oversized := by decide +kernel
  refine ⟨⟨exampleCommitment.wire, ?_, ?_, ?_⟩, ?_⟩
  · have hencode := Ts.encode_cut (c := oversized) (Bytes.zero 32).property (Ts.toBigInt_ok.mpr rfl)
      (Ts.toBigInt_natCast 2)
    rwa [show oversized.cut ⟨oversized.blobId, (Bytes.zero 32).property⟩ = exampleCommitment from hcut] at hencode
  · rw [Ts.decode_ok (Commitment.length_wire _), Commitment.read_wire]
    exact fun h => hne (Except.ok.inj h)
  · rw [Ts.decode_ok (Commitment.length_wire _), Commitment.read_wire]
  · obtain ⟨data, params, hdata, hparams, hcommitment, -⟩ :=
      encodeSubmitIntentData_ok exampleCodecs oversizedArgs _ hblob
    have hread : params.commitment = exampleCommitment := hcommitment.trans hcut
    refine ⟨data, hdata, ?_, params, hparams, hread⟩
    rintro ⟨params', hparams', -, hsame⟩
    obtain rfl : params = params' := Option.some.inj (hparams.symm.trans hparams')
    rw [hread] at hsame
    rw [show params.blobId = Bytes.zero 32 from congrArg Commitment.blobId hread] at hsame
    exact hne hsame

end Bosphor.Sdk

import Bosphor.Codec.Commitment

/-!
# The TypeScript codec

`encodeCommitment`, `decodeCommitment` and `deriveIntentId` of the SDK, over
JavaScript's values: a `number` is any rational or not finite at all, a
`bigint` is any integer, and neither is held to the width of its field.

* `encode_eq`, `decode_ok`, `preimage_eq`: on commitments with fields in range
  the SDK computes the canonical format, and it accepts exactly the strings of
  49 bytes.
-/

namespace Bosphor.Ts

open Bytes (toBE ofBE slice)

/-- A JavaScript `number`: a double's value (the two zeros are one), or none. -/
inductive JsNumber where
  | nan
  | posInfinity
  | negInfinity
  | finite (value : Rat)
  deriving DecidableEq

/-- What is thrown. -/
inductive JsError where
  | error (message : String)
  | rangeError
  deriving DecidableEq

/-- `BigInt(n)`: a number that is not an integer throws. -/
def toBigInt : JsNumber → Except JsError Int
  | .finite q => if q.den = 1 then .ok q.num else .error .rangeError
  | _ => .error .rangeError

/-- The conversion `setUint8` applies to a number: truncation, then the low byte. -/
def toUint8 : JsNumber → UInt8
  | .finite q => UInt8.ofNat (q.num.tdiv q.den % 256).toNat
  | _ => 0

/-- `n >>> 0`: truncation, then the low four bytes. -/
def toUint32 : JsNumber → UInt32
  | .finite q => UInt32.ofNat (q.num.tdiv q.den % 2 ^ 32).toNat
  | _ => 0

/-- The conversion `setBigUint64` applies to a bigint: the low eight bytes. -/
def toUint64 (value : Int) : UInt64 := UInt64.ofNat (value % 2 ^ 64).toNat

/-- `Number(value & 0xffn)`: the low byte of the two's complement. -/
def lowByte (value : Int) : UInt8 := UInt8.ofNat (value % 256).toNat

/-- The interface `Commitment`. -/
structure Commitment where
  blobId : List UInt8
  size : JsNumber
  encodingType : JsNumber
  storageEpochs : JsNumber
  deadline : Int
  deriving DecidableEq

/-- A commitment with its fields in range, as the SDK holds it. -/
def Commitment.of (c : Bosphor.Commitment) : Commitment where
  blobId := c.blobId.val
  size := .finite (c.size.toNat : Nat)
  encodingType := .finite (c.encodingType.toNat : Nat)
  storageEpochs := .finite (c.storageEpochs.toNat : Nat)
  deadline := c.deadline.toNat

/-- The commitment with each of its fields cut to its width. -/
def Commitment.cut (c : Commitment) (blobId : Bytes 32) : Bosphor.Commitment where
  blobId := blobId
  size := toUint32 c.size
  encodingType := toUint8 c.encodingType
  storageEpochs := toUint32 c.storageEpochs
  deadline := toUint64 c.deadline

/-- `view.setUint8(i, v)`. -/
def setUint8 (view : List UInt8) (i : Nat) (v : UInt8) : Except JsError (List UInt8) :=
  if i < view.length then .ok (view.set i v) else .error .rangeError

/-- `view.getUint8(i)`. -/
def getUint8 (view : List UInt8) (i : Nat) : Except JsError UInt8 :=
  if i < view.length then .ok (view.getD i 0) else .error .rangeError

/-- `array.set(source, offset)`. -/
def setAt (array source : List UInt8) (offset : Nat) : Except JsError (List UInt8) :=
  if offset + source.length ≤ array.length then
    .ok (array.take offset ++ source ++ array.drop (offset + source.length))
  else .error .rangeError

/-- `writeUintBE(view, offset, value, byteLength)`: from the last byte to the first. -/
def writeUintBE (view : List UInt8) (offset : Nat) (value : Int) : Nat → Except JsError (List UInt8)
  | 0 => .ok view
  | i + 1 => do writeUintBE (← setUint8 view (offset + i) (lowByte value)) offset (value >>> (8 : Nat)) i

/-- `n` turns, from `i` on, of the loop of `readUintBE`. -/
def readLoop (view : List UInt8) (offset : Nat) : Nat → Nat → Nat → Except JsError Nat
  | _, 0, value => .ok value
  | i, n + 1, value => do readLoop view offset (i + 1) n (value <<< 8 ||| (← getUint8 view (offset + i)).toNat)

/-- `readUintBE(view, offset, byteLength)`. -/
def readUintBE (view : List UInt8) (offset byteLength : Nat) : Except JsError Nat :=
  readLoop view offset 0 byteLength 0

/-- `encodeCommitment(c)`. -/
def encodeCommitment (c : Commitment) : Except JsError (List UInt8) := do
  let len := c.blobId.length
  if len ≠ 32 then throw (.error s!"blobId must be 32 bytes, got {len}")
  let out ← setAt (List.replicate commitmentLen 0) c.blobId 0
  let view ← writeUintBE out 32 (← toBigInt c.size) 4
  let view ← setUint8 view 36 (toUint8 c.encodingType)
  let view ← writeUintBE view 37 (← toBigInt c.storageEpochs) 4
  writeUintBE view 41 c.deadline 8

/-- `decodeCommitment(bytes)`. -/
def decodeCommitment (bytes : List UInt8) : Except JsError Commitment := do
  let len := bytes.length
  if len ≠ commitmentLen then throw (.error s!"commitment must be 49 bytes, got {len}")
  let size ← readUintBE bytes 32 4
  let encodingType ← getUint8 bytes 36
  let storageEpochs ← readUintBE bytes 37 4
  let deadline ← readUintBE bytes 41 8
  return {
    blobId := slice bytes 0 32
    size := .finite size
    encodingType := .finite (encodingType.toNat : Nat)
    storageEpochs := .finite storageEpochs
    deadline := deadline }

/-- The bytes `deriveIntentId` hashes. -/
def derivePreimage (c : Commitment) (sender : List UInt8) (nonce : Int) : Except JsError (List UInt8) := do
  let len := sender.length
  if len > senderLen then throw (.error s!"sender must be <= 32 bytes, got {len}")
  let preimage := List.replicate (commitmentLen + senderLen + 8) 0
  let preimage ← setAt preimage (← encodeCommitment c) 0
  let preimage ← setAt preimage sender (commitmentLen + (senderLen - sender.length))
  writeUintBE preimage (commitmentLen + senderLen) nonce 8

/-- `deriveIntentId(c, sender, nonce)`. -/
def deriveIntentId (c : Commitment) (sender : List UInt8) (nonce : Int) : Except JsError (Bytes 32) := do
  return keccak256 (← derivePreimage c sender nonce)

/-! ## Writing and reading -/

theorem lowByte_natCast (v : Nat) : lowByte v = UInt8.ofNat v := by
  have h : ((v : Int) % 256).toNat = v % 256 := by omega
  rw [lowByte, h, ← UInt8.toNat_inj, UInt8.toNat_ofNat', UInt8.toNat_ofNat', Nat.mod_mod]

theorem shiftRight_natCast (v : Nat) : (v : Int) >>> (8 : Nat) = (v / 256 : Nat) := by
  rw [Int.shiftRight_eq_div_pow]
  rfl

theorem toBigInt_natCast (n : Nat) : toBigInt (.finite n) = .ok (n : Int) := by
  simp only [toBigInt, Rat.den_natCast, if_true, Rat.num_natCast]

/-- The integers are the numbers that convert. -/
theorem toBigInt_ok {x : JsNumber} {n : Int} : toBigInt x = .ok n ↔ x = .finite n := by
  cases x with
  | nan => simp [toBigInt]
  | posInfinity => simp [toBigInt]
  | negInfinity => simp [toBigInt]
  | finite q =>
    simp only [toBigInt, JsNumber.finite.injEq]
    constructor
    · intro h
      split at h
      · rename_i hden
        rw [← Except.ok.inj h]
        exact ((Rat.den_eq_one_iff q).mp hden).symm
      · cases h
    · rintro rfl
      rw [Rat.den_intCast, if_pos rfl, Rat.num_intCast]

theorem toUint8_natCast (b : UInt8) : toUint8 (.finite (b.toNat : Nat)) = b := by
  have hb := b.toNat_lt
  have h : ((b.toNat : Int) % 256).toNat = b.toNat := by omega
  rw [toUint8, Rat.num_natCast, Rat.den_natCast,
    show ((b.toNat : Int).tdiv (1 : Nat)) = b.toNat from Int.tdiv_one _, h, UInt8.ofNat_toNat]

/-- `writeUintBE` over the middle of a view: the induction is on the bytes still to write, the
ones written are at the front of `zs`. -/
theorem writeUintBE_ok (xs ys : List UInt8) (offset n : Nat) (v : Nat) (zs : List UInt8)
    (hx : xs.length = offset) (hy : ys.length = n) :
    writeUintBE (xs ++ ys ++ zs) offset v n = .ok (xs ++ toBE n v ++ zs) := by
  induction n generalizing v ys zs with
  | zero => rw [List.length_eq_zero_iff.mp hy]; rfl
  | succ n ih =>
    obtain ⟨ys, y, rfl⟩ : ∃ ys' y, ys = ys' ++ [y] :=
      ⟨_, _, (List.dropLast_concat_getLast (List.ne_nil_of_length_eq_add_one hy)).symm⟩
    have hy : ys.length = n := by
      simpa only [List.length_append, List.length_singleton, Nat.add_right_cancel_iff] using hy
    have hset : setUint8 (xs ++ (ys ++ [y]) ++ zs) (offset + n) (lowByte v) =
        .ok (xs ++ ys ++ (UInt8.ofNat v :: zs)) := by
      rw [setUint8, if_pos (by simp only [List.length_append, List.length_singleton]; omega), lowByte_natCast,
        List.append_assoc xs, List.set_append_right _ _ (by omega), List.append_assoc ys,
        List.set_append_right _ _ (by omega), hx, Nat.add_sub_cancel_left, hy, Nat.sub_self, List.append_assoc]
      rfl
    simp only [writeUintBE, hset, bind, Except.bind, shiftRight_natCast]
    rw [ih _ (v / 256) _ hy, toBE, ← List.append_assoc xs, List.append_assoc _ [UInt8.ofNat v]]
    rfl

/-- A multiple of the width is not written. -/
theorem writeUintBE_add (view : List UInt8) (offset n : Nat) (v k : Int) :
    writeUintBE view offset (v + 256 ^ n * k) n = writeUintBE view offset v n := by
  induction n generalizing view v with
  | zero => rfl
  | succ n ih =>
    have hsplit : v + 256 ^ (n + 1) * k = v + 256 ^ n * k * 256 := by ring
    have hbyte : lowByte (v + 256 ^ n * k * 256) = lowByte v := by rw [lowByte, lowByte, Int.add_mul_emod_self_right]
    have hshift : (v + 256 ^ n * k * 256) >>> (8 : Nat) = v >>> (8 : Nat) + 256 ^ n * k := by
      rw [Int.shiftRight_eq_div_pow, Int.shiftRight_eq_div_pow]
      exact Int.add_mul_ediv_right _ _ (by decide)
    rw [hsplit, writeUintBE, writeUintBE, hbyte, hshift]
    cases setUint8 view (offset + n) (lowByte v) with
    | ok view => exact ih view _
    | error e => rfl

theorem writeUintBE_int (xs ys zs : List UInt8) (offset n : Nat) (v : Int) (hx : xs.length = offset)
    (hy : ys.length = n) :
    writeUintBE (xs ++ ys ++ zs) offset v n = .ok (xs ++ toBE n (v % 256 ^ n).toNat ++ zs) := by
  have hv : v = ((v % 256 ^ n).toNat : Int) + 256 ^ n * (v / 256 ^ n) := by
    rw [Int.toNat_of_nonneg (Int.emod_nonneg _ (pow_ne_zero n (by decide))), Int.emod_add_mul_ediv]
  conv_lhs => rw [hv]
  rw [writeUintBE_add, writeUintBE_ok xs ys offset n _ zs hx hy]

/-- The loop keeps the number of the bytes read so far. -/
theorem readLoop_ok (view : List UInt8) (offset i n value : Nat) (h : offset + (i + n) ≤ view.length)
    (hv : value = ofBE (slice view offset i)) :
    readLoop view offset i n value = .ok (ofBE (slice view offset (i + n))) := by
  induction n generalizing i value with
  | zero => rw [hv]; rfl
  | succ n ih =>
    have hor := Bytes.or_next (ofBE (slice view offset i)) 0 (view.getD (offset + i) 0)
    simp only [Nat.pow_zero, Nat.mul_one, Nat.zero_add] at hor
    simp only [readLoop, getUint8, show offset + i < view.length by omega, if_true, bind, Except.bind]
    rw [ih (i + 1) _ (by omega) (by rw [hv, Nat.shiftLeft_eq, hor, Bytes.ofBE_slice_succ _ _ _ (by omega)]),
      Nat.add_assoc, Nat.add_comm 1 n]

theorem readUintBE_ok {view : List UInt8} {offset n : Nat} (h : offset + n ≤ view.length) :
    readUintBE view offset n = .ok (ofBE (slice view offset n)) := by
  have := readLoop_ok view offset 0 n 0 (by omega) rfl
  rwa [Nat.zero_add] at this

/-- Setting a source over a zeroed array past what is done: the source extends the prefix. -/
theorem setAt_next (done src : List UInt8) (offset n : Nat) (hd : done.length = offset)
    (hn : offset + src.length ≤ n) :
    setAt (done ++ List.replicate (n - offset) 0) src offset =
      .ok (done ++ src ++ List.replicate (n - (offset + src.length)) 0) := by
  have hlen : (done ++ List.replicate (n - offset) (0 : UInt8)).length = n := by
    rw [List.length_append, List.length_replicate]
    omega
  rw [setAt, if_pos (by rw [hlen]; exact hn), List.take_left' hd, List.drop_append,
    List.drop_eq_nil_of_le (by omega), List.nil_append, List.drop_replicate, hd,
    show n - offset - (offset + src.length - offset) = n - (offset + src.length) by omega]

/-! ## The SDK computes the canonical format -/

/-- What the bytes of an integer are cut to. -/
theorem toUint32_toBigInt {x : JsNumber} {n : Int} (h : toBigInt x = .ok n) :
    (toUint32 x).toNat = (n % 256 ^ 4).toNat := by
  rw [toBigInt_ok.mp h, toUint32, Rat.den_intCast, Rat.num_intCast, Nat.cast_one, Int.tdiv_one, UInt32.toNat_ofNat']
  omega

theorem toUint64_toNat (v : Int) : (toUint64 v).toNat = (v % 256 ^ 8).toNat := by
  rw [toUint64, UInt64.toNat_ofNat']
  omega

/-- The SDK writes a commitment with each of its fields cut to its width. -/
theorem encode_cut {c : Commitment} (hb : c.blobId.length = 32) {size storageEpochs : Int}
    (hs : toBigInt c.size = .ok size) (he : toBigInt c.storageEpochs = .ok storageEpochs) :
    encodeCommitment c = .ok (c.cut ⟨c.blobId, hb⟩).wire := by
  have h0 := setAt_next [] c.blobId 0 49 rfl (by rw [hb]; decide)
  -- The 17 bytes still zero, as the four fields and a rest.
  have hz : c.blobId ++ List.replicate 17 (0 : UInt8) = c.blobId ++ List.replicate 4 0 ++ List.replicate 13 0 := by
    rw [List.append_assoc, List.replicate_append_replicate]
  have h1 := writeUintBE_int c.blobId (List.replicate 4 0) (List.replicate 13 0) _ 4 size hb rfl
  rw [← toUint32_toBigInt hs] at h1
  have h2 : setUint8 (c.blobId ++ toBE 4 (toUint32 c.size).toNat ++ List.replicate 13 0) 36 (toUint8 c.encodingType) =
      .ok (c.blobId ++ toBE 4 (toUint32 c.size).toNat ++ [toUint8 c.encodingType] ++ List.replicate 4 0 ++
        List.replicate 8 0) := by
    have hl : (c.blobId ++ toBE 4 (toUint32 c.size).toNat).length = 36 := by
      rw [List.length_append, hb, Bytes.length_toBE]
    rw [setUint8, if_pos (by rw [List.length_append, hl]; decide), List.set_append_right _ _ (by omega), hl,
      List.append_assoc _ _ (List.replicate 8 0), List.append_assoc _ [toUint8 c.encodingType]]
    rfl
  have h3 := writeUintBE_int (c.blobId ++ toBE 4 (toUint32 c.size).toNat ++ [toUint8 c.encodingType])
    (List.replicate 4 0) (List.replicate 8 0) 37 4 storageEpochs
    (by simp only [List.length_append, hb, Bytes.length_toBE, List.length_singleton]) rfl
  rw [← toUint32_toBigInt he] at h3
  have h4 := writeUintBE_int
    (c.blobId ++ toBE 4 (toUint32 c.size).toNat ++ [toUint8 c.encodingType] ++ toBE 4 (toUint32 c.storageEpochs).toNat)
    (List.replicate 8 0) [] 41 8 c.deadline
    (by simp only [List.length_append, hb, Bytes.length_toBE, List.length_singleton]) rfl
  rw [← toUint64_toNat, List.append_nil, List.append_nil] at h4
  simp only [List.nil_append, hb] at h0
  simp only [encodeCommitment, hb, commitmentLen, ne_eq, not_true, if_false, h0, hz, h1, h2, h3, h4, hs, he,
    Nat.reduceAdd, Nat.reduceSub, bind, Except.bind]
  simp only [Bosphor.Commitment.wire, Commitment.cut, List.append_assoc]

theorem toUint32_natCast (n : UInt32) : toUint32 (.finite (n.toNat : Nat)) = n := by
  have h := toUint32_toBigInt (toBigInt_natCast n.toNat)
  have hn := n.toNat_lt
  rw [← UInt32.toNat_inj, h]
  omega

theorem toUint64_natCast (n : UInt64) : toUint64 n.toNat = n := by
  have hn := n.toNat_lt
  rw [← UInt64.toNat_inj, toUint64_toNat]
  omega

/-- Nothing is cut off a commitment with its fields in range. -/
theorem Commitment.cut_of (c : Bosphor.Commitment) : (Commitment.of c).cut c.blobId = c := by
  simp only [Commitment.cut, Commitment.of, toUint32_natCast, toUint8_natCast, toUint64_natCast]

theorem encode_eq (c : Bosphor.Commitment) : encodeCommitment (.of c) = .ok c.wire := by
  have h := encode_cut (c := .of c) c.blobId.property (toBigInt_natCast _) (toBigInt_natCast _)
  rwa [show (Commitment.of c).cut ⟨(Commitment.of c).blobId, c.blobId.property⟩ = c from Commitment.cut_of c] at h

theorem decode_ok {b : List UInt8} (h : b.length = commitmentLen) :
    decodeCommitment b = .ok (.of (Bosphor.Commitment.read b h)) := by
  have hl : b.length = 49 := h
  have h4 : ∀ start, start + 4 ≤ 49 → (slice b start 4).length = 4 := fun start hs =>
    Bytes.length_slice (by omega)
  simp only [decodeCommitment, hl, commitmentLen, ne_eq, not_true, if_false, getUint8, Nat.reduceLT, if_true,
    readUintBE_ok (show 32 + 4 ≤ b.length by omega), readUintBE_ok (show 37 + 4 ≤ b.length by omega),
    readUintBE_ok (show 41 + 8 ≤ b.length by omega), bind, Except.bind, pure, Except.pure, Commitment.of,
    Bosphor.Commitment.read, Bytes.toNat_uint32_ofBE (h4 32 (by decide)),
    Bytes.toNat_uint32_ofBE (h4 37 (by decide)),
    Bytes.toNat_uint64_ofBE (Bytes.length_slice (show 41 + 8 ≤ b.length by omega))]

theorem decode_error {b : List UInt8} (h : b.length ≠ commitmentLen) :
    ∃ e, decodeCommitment b = .error e := by
  simp only [decodeCommitment, h, ne_eq, not_false_eq_true, if_true, bind, Except.bind, throw, throwThe,
    MonadExceptOf.throw, Except.error.injEq, exists_eq']

theorem preimage_eq (c : Bosphor.Commitment) {sender : List UInt8} (nonce : UInt64)
    (h : sender.length ≤ senderLen) :
    derivePreimage (.of c) sender nonce.toNat = .ok (preimage c sender nonce) := by
  have hs : sender.length ≤ 32 := h
  have hw : c.wire.length = 49 := c.length_wire
  have h0 := setAt_next [] c.wire 0 89 rfl (by rw [hw]; decide)
  -- The padding is the part of the zeroed array the sender is not set over.
  have hpad : c.wire ++ List.replicate 40 (0 : UInt8) =
      c.wire ++ List.replicate (32 - sender.length) 0 ++
        List.replicate (89 - (49 + (32 - sender.length))) 0 := by
    rw [List.append_assoc, List.replicate_append_replicate]
    congr 2
    omega
  have h1 := setAt_next (c.wire ++ List.replicate (32 - sender.length) 0) sender (49 + (32 - sender.length)) 89
    (by rw [List.length_append, hw, List.length_replicate]) (by omega)
  rw [← hpad, show 89 - (49 + (32 - sender.length) + sender.length) = 8 by omega] at h1
  have h2 := writeUintBE_ok (c.wire ++ List.replicate (32 - sender.length) 0 ++ sender)
    (List.replicate 8 0) 81 8 nonce.toNat []
    (by simp only [List.length_append, hw, List.length_replicate]; omega) rfl
  rw [List.append_nil, List.append_nil] at h2
  simp only [List.nil_append, hw] at h0
  simp only [derivePreimage, encode_eq, commitmentLen, senderLen, gt_iff_lt, Nat.not_lt.mpr hs, if_false, h0,
    h1, h2, Nat.reduceAdd, Nat.reduceSub, Nat.zero_add, bind, Except.bind]
  simp only [preimage, padSender, senderLen, List.append_assoc]

end Bosphor.Ts

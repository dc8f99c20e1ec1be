import Bosphor.Lib.Bytes

/-!
# Move byte vectors

What the Move modules do with `vector<u8>`: borrowing an element (which aborts
out of range), the loops that copy a slice, and the shifts and masks that write
and read big-endian integers.

* `slice_ok`: the `slice` loop returns the slice when it is in range;
* `beBytes32_eq`, `beBytes64_eq`: the bytes the shifts and masks push;
* `decodeU32BE_ok`, `decodeU64BE_ok`, `bytes32ToU256_ok`: the numbers the
  shifts and ors read.
-/

namespace Bosphor.Sui

open Bytes (toBE ofBE)

/-- The modules whose assertions carry a code. -/
inductive Module where
  | commitmentCodec
  | codec
  | lzReceiver
  | walrusExecutor
  | oapp
  deriving DecidableEq

/-- How a Move call aborts: with the code of a module's assertion, or on an index out of a
vector's range. -/
inductive Abort where
  | code (module : Module) (code : Nat)
  | vectorIndex
  deriving DecidableEq

/-- `assert!(cond, e)`. -/
def assert (cond : Bool) (e : Abort) : Except Abort Unit :=
  if cond then .ok () else .error e

/-- `*data.borrow(i)`. -/
def borrow (data : List UInt8) (i : Nat) : Except Abort UInt8 :=
  match data[i]? with
  | some b => .ok b
  | none => .error .vectorIndex

/-- `len` turns of the loop that pushes `*data.borrow(start + i)` onto `out`. -/
def pushSlice (data : List UInt8) (start : Nat) : Nat → List UInt8 → Except Abort (List UInt8)
  | 0, out => .ok out
  | len + 1, out => do pushSlice data (start + 1) len (out ++ [← borrow data start])

/-- `slice(data, start, len)`. -/
def slice (data : List UInt8) (start len : Nat) : Except Abort (List UInt8) :=
  pushSlice data start len []

/-- `n` turns of the loop that pushes `0u8` onto `out`. -/
def pushZeros : Nat → List UInt8 → List UInt8
  | 0, out => out
  | n + 1, out => pushZeros n (out ++ [0])

/-- The bytes `encode_u32_be` pushes. -/
def beBytes32 (value : UInt32) : List UInt8 :=
  [((value >>> 24) &&& 0xFF).toUInt8, ((value >>> 16) &&& 0xFF).toUInt8,
   ((value >>> 8) &&& 0xFF).toUInt8, (value &&& 0xFF).toUInt8]

/-- The bytes `encode_u64_be` pushes. -/
def beBytes64 (value : UInt64) : List UInt8 :=
  [((value >>> 56) &&& 0xFF).toUInt8, ((value >>> 48) &&& 0xFF).toUInt8,
   ((value >>> 40) &&& 0xFF).toUInt8, ((value >>> 32) &&& 0xFF).toUInt8,
   ((value >>> 24) &&& 0xFF).toUInt8, ((value >>> 16) &&& 0xFF).toUInt8,
   ((value >>> 8) &&& 0xFF).toUInt8, (value &&& 0xFF).toUInt8]

/-- `decode_u32_be(data, offset)`. -/
def decodeU32BE (data : List UInt8) (offset : Nat) : Except Abort UInt32 := do
  return (← borrow data offset).toUInt32 <<< 24
    ||| (← borrow data (offset + 1)).toUInt32 <<< 16
    ||| (← borrow data (offset + 2)).toUInt32 <<< 8
    ||| (← borrow data (offset + 3)).toUInt32

/-- `decode_u64_be(data, offset)`. -/
def decodeU64BE (data : List UInt8) (offset : Nat) : Except Abort UInt64 := do
  return (← borrow data offset).toUInt64 <<< 56
    ||| (← borrow data (offset + 1)).toUInt64 <<< 48
    ||| (← borrow data (offset + 2)).toUInt64 <<< 40
    ||| (← borrow data (offset + 3)).toUInt64 <<< 32
    ||| (← borrow data (offset + 4)).toUInt64 <<< 24
    ||| (← borrow data (offset + 5)).toUInt64 <<< 16
    ||| (← borrow data (offset + 6)).toUInt64 <<< 8
    ||| (← borrow data (offset + 7)).toUInt64

/-- `decode_u64_from_u256(data, offset)`: the last 8 of 32 bytes; the first 24 are not read. -/
def decodeU64FromU256 (data : List UInt8) (offset : Nat) : Except Abort UInt64 :=
  decodeU64BE data (offset + 24)

/-- A `u256`. -/
abbrev U256 : Type := BitVec 256

/-- `n` turns, from index `i` on, of the loop of `bytes32_to_u256`. -/
def shiftIn (bytes : List UInt8) : Nat → Nat → U256 → Except Abort U256
  | _, 0, result => .ok result
  | i, n + 1, result => do
    shiftIn bytes (i + 1) n (result <<< 8 ||| BitVec.ofNat 256 (← borrow bytes i).toNat)

/-- `bytes32_to_u256(bytes)`. -/
def bytes32ToU256 (bytes : List UInt8) : Except Abort U256 := shiftIn bytes 0 32 0

/-! ## The loops -/

theorem borrow_ok {data : List UInt8} {i : Nat} (h : i < data.length) :
    borrow data i = .ok (data.getD i 0) := by
  rw [borrow, List.getElem?_eq_getElem h, List.getD_eq_getElem?_getD, List.getElem?_eq_getElem h]
  rfl

theorem pushSlice_ok (data : List UInt8) (start len : Nat) (out : List UInt8)
    (h : start + len ≤ data.length) :
    pushSlice data start len out = .ok (out ++ Bytes.slice data start len) := by
  induction len generalizing start out with
  | zero => simp only [pushSlice, Bytes.slice, List.take_zero, List.append_nil]
  | succ len ih =>
    have hs : Bytes.slice data start (len + 1) = data.getD start 0 :: Bytes.slice data (start + 1) len := by
      rw [Nat.add_comm len 1, ← Bytes.slice_append_slice, Bytes.slice_eq_map_range (by omega)]
      rfl
    simp only [pushSlice, borrow_ok (show start < data.length by omega), bind, Except.bind]
    rw [ih _ _ (by omega), hs, List.append_assoc]
    rfl

theorem slice_ok {data : List UInt8} {start len : Nat} (h : start + len ≤ data.length) :
    slice data start len = .ok (Bytes.slice data start len) :=
  pushSlice_ok data start len [] h

theorem pushZeros_eq (n : Nat) (out : List UInt8) : pushZeros n out = out ++ List.replicate n 0 := by
  induction n generalizing out with
  | zero => rw [pushZeros, List.replicate_zero, List.append_nil]
  | succ n ih => rw [pushZeros, ih, List.append_assoc, List.replicate_succ]; rfl

/-! ## Integers -/

theorem toUInt8_shift32 (value k : UInt32) (hk : k < 32) :
    ((value >>> k) &&& 0xFF).toUInt8 = UInt8.ofNat (value.toNat / 2 ^ k.toNat) := by
  have hk : k.toNat < 32 := UInt32.lt_iff_toNat_lt.mp hk
  rw [← UInt8.toNat_inj, UInt32.toNat_toUInt8, UInt32.toNat_and, UInt32.toNat_shiftRight,
    UInt8.toNat_ofNat', Nat.mod_eq_of_lt hk, Nat.shiftRight_eq_div_pow]
  exact (congrArg (· % 256) (Nat.and_two_pow_sub_one_eq_mod _ 8)).trans (Nat.mod_mod _ _)

theorem toUInt8_shift64 (value k : UInt64) (hk : k < 64) :
    ((value >>> k) &&& 0xFF).toUInt8 = UInt8.ofNat (value.toNat / 2 ^ k.toNat) := by
  have hk : k.toNat < 64 := UInt64.lt_iff_toNat_lt.mp hk
  rw [← UInt8.toNat_inj, UInt64.toNat_toUInt8, UInt64.toNat_and, UInt64.toNat_shiftRight,
    UInt8.toNat_ofNat', Nat.mod_eq_of_lt hk, Nat.shiftRight_eq_div_pow]
  exact (congrArg (· % 256) (Nat.and_two_pow_sub_one_eq_mod _ 8)).trans (Nat.mod_mod _ _)

theorem beBytes32_eq (value : UInt32) : beBytes32 value = toBE 4 value.toNat := by
  have h0 := toUInt8_shift32 value 0 (by decide)
  rw [UInt32.shiftRight_zero] at h0
  rw [beBytes32, toUInt8_shift32 _ _ (by decide), toUInt8_shift32 _ _ (by decide),
    toUInt8_shift32 _ _ (by decide), h0]
  simp [toBE, Nat.div_div_eq_div_mul]

theorem beBytes64_eq (value : UInt64) : beBytes64 value = toBE 8 value.toNat := by
  have h0 := toUInt8_shift64 value 0 (by decide)
  rw [UInt64.shiftRight_zero] at h0
  rw [beBytes64, toUInt8_shift64 _ _ (by decide), toUInt8_shift64 _ _ (by decide), toUInt8_shift64 _ _ (by decide),
    toUInt8_shift64 _ _ (by decide), toUInt8_shift64 _ _ (by decide), toUInt8_shift64 _ _ (by decide),
    toUInt8_shift64 _ _ (by decide), h0]
  simp [toBE, Nat.div_div_eq_div_mul]

/-- The next byte of a `u32` read, joined to the ones above it. -/
theorem or_shift32 {x : UInt32} {p : Nat} (b : UInt8) (k : UInt32) (hx : x.toNat = p * 2 ^ (k.toNat + 8))
    (hk : k.toNat + 8 ≤ 32) : (x ||| b.toUInt32 <<< k).toNat = (p * 256 + b.toNat) * 2 ^ k.toNat := by
  have hb : b.toNat * 2 ^ k.toNat < 2 ^ 32 :=
    calc b.toNat * 2 ^ k.toNat < 2 ^ 8 * 2 ^ k.toNat :=
          Nat.mul_lt_mul_of_pos_right b.toNat_lt (Nat.two_pow_pos _)
      _ = 2 ^ (8 + k.toNat) := (Nat.pow_add _ _ _).symm
      _ ≤ 2 ^ 32 := Nat.pow_le_pow_right (by decide) (by omega)
  rw [UInt32.toNat_or, UInt32.toNat_shiftLeft, UInt8.toNat_toUInt32, hx,
    Nat.mod_eq_of_lt (show k.toNat < 32 by omega), Nat.shiftLeft_eq, Nat.mod_eq_of_lt hb, Bytes.or_next]

/-- The next byte of a `u64` read, joined to the ones above it. -/
theorem or_shift64 {x : UInt64} {p : Nat} (b : UInt8) (k : UInt64) (hx : x.toNat = p * 2 ^ (k.toNat + 8))
    (hk : k.toNat + 8 ≤ 64) : (x ||| b.toUInt64 <<< k).toNat = (p * 256 + b.toNat) * 2 ^ k.toNat := by
  have hb : b.toNat * 2 ^ k.toNat < 2 ^ 64 :=
    calc b.toNat * 2 ^ k.toNat < 2 ^ 8 * 2 ^ k.toNat :=
          Nat.mul_lt_mul_of_pos_right b.toNat_lt (Nat.two_pow_pos _)
      _ = 2 ^ (8 + k.toNat) := (Nat.pow_add _ _ _).symm
      _ ≤ 2 ^ 64 := Nat.pow_le_pow_right (by decide) (by omega)
  rw [UInt64.toNat_or, UInt64.toNat_shiftLeft, UInt8.toNat_toUInt64, hx,
    Nat.mod_eq_of_lt (show k.toNat < 64 by omega), Nat.shiftLeft_eq, Nat.mod_eq_of_lt hb, Bytes.or_next]

theorem join32 (a b c d : UInt8) :
    a.toUInt32 <<< 24 ||| b.toUInt32 <<< 16 ||| c.toUInt32 <<< 8 ||| d.toUInt32 =
      UInt32.ofNat (ofBE [a, b, c, d]) := by
  have e0 := or_shift32 (x := 0) (p := 0) a 24 rfl (by decide)
  rw [UInt32.zero_or] at e0
  have e1 := or_shift32 b 16 e0 (by decide)
  have e2 := or_shift32 c 8 e1 (by decide)
  have e3 := or_shift32 d 0 e2 (by decide)
  rw [UInt32.shiftLeft_zero, UInt32.toNat_zero, Nat.pow_zero, Nat.mul_one] at e3
  rw [← UInt32.toNat_inj, e3, Bytes.toNat_uint32_ofBE rfl]
  rfl

theorem join64 (a b c d e f g h : UInt8) :
    a.toUInt64 <<< 56 ||| b.toUInt64 <<< 48 ||| c.toUInt64 <<< 40 ||| d.toUInt64 <<< 32 |||
      e.toUInt64 <<< 24 ||| f.toUInt64 <<< 16 ||| g.toUInt64 <<< 8 ||| h.toUInt64 =
      UInt64.ofNat (ofBE [a, b, c, d, e, f, g, h]) := by
  have e0 := or_shift64 (x := 0) (p := 0) a 56 rfl (by decide)
  rw [UInt64.zero_or] at e0
  have e1 := or_shift64 b 48 e0 (by decide)
  have e2 := or_shift64 c 40 e1 (by decide)
  have e3 := or_shift64 d 32 e2 (by decide)
  have e4 := or_shift64 e 24 e3 (by decide)
  have e5 := or_shift64 f 16 e4 (by decide)
  have e6 := or_shift64 g 8 e5 (by decide)
  have e7 := or_shift64 h 0 e6 (by decide)
  rw [UInt64.shiftLeft_zero, UInt64.toNat_zero, Nat.pow_zero, Nat.mul_one] at e7
  rw [← UInt64.toNat_inj, e7, Bytes.toNat_uint64_ofBE rfl]
  rfl

theorem decodeU32BE_ok {data : List UInt8} {offset : Nat} (h : offset + 4 ≤ data.length) :
    decodeU32BE data offset = .ok (UInt32.ofNat (ofBE (Bytes.slice data offset 4))) := by
  simp only [decodeU32BE, borrow_ok (show offset < data.length by omega),
    borrow_ok (show offset + 1 < data.length by omega), borrow_ok (show offset + 2 < data.length by omega),
    borrow_ok (show offset + 3 < data.length by omega), bind, Except.bind, pure, Except.pure, join32]
  rw [Bytes.slice_eq_map_range h]
  rfl

theorem decodeU64BE_ok {data : List UInt8} {offset : Nat} (h : offset + 8 ≤ data.length) :
    decodeU64BE data offset = .ok (UInt64.ofNat (ofBE (Bytes.slice data offset 8))) := by
  simp only [decodeU64BE, borrow_ok (show offset < data.length by omega),
    borrow_ok (show offset + 1 < data.length by omega), borrow_ok (show offset + 2 < data.length by omega),
    borrow_ok (show offset + 3 < data.length by omega), borrow_ok (show offset + 4 < data.length by omega),
    borrow_ok (show offset + 5 < data.length by omega), borrow_ok (show offset + 6 < data.length by omega),
    borrow_ok (show offset + 7 < data.length by omega), bind, Except.bind, pure, Except.pure, join64]
  rw [Bytes.slice_eq_map_range h]
  rfl

/-- The loop keeps the number of the bytes read so far, as long as they fit. -/
theorem shiftIn_ok (bytes : List UInt8) (i n : Nat) (result : U256) (h : i + n ≤ bytes.length)
    (hfit : i + n ≤ 32) (hr : result.toNat = ofBE (Bytes.slice bytes 0 i)) :
    ∃ r, shiftIn bytes i n result = .ok r ∧ r.toNat = ofBE (Bytes.slice bytes 0 (i + n)) := by
  induction n generalizing i result with
  | zero => exact ⟨result, rfl, hr⟩
  | succ n ih =>
    have hlt := Bytes.ofBE_lt_of_length (Bytes.length_slice (show 0 + i ≤ bytes.length by omega))
    have hpow : (256 : Nat) ^ (i + 1) ≤ 256 ^ 32 := Nat.pow_le_pow_right (by decide) (by omega)
    have hb := (bytes.getD i 0).toNat_lt
    have hs := Bytes.ofBE_slice_succ bytes 0 i (by omega)
    rw [Nat.zero_add] at hs
    rw [Nat.pow_succ] at hpow
    have hstep : (result <<< 8 ||| BitVec.ofNat 256 (bytes.getD i 0).toNat).toNat =
        ofBE (Bytes.slice bytes 0 (i + 1)) := by
      have hor := Bytes.or_next (ofBE (Bytes.slice bytes 0 i)) 0 (bytes.getD i 0)
      simp only [Nat.pow_zero, Nat.mul_one, Nat.zero_add] at hor
      rw [BitVec.toNat_or, BitVec.toNat_shiftLeft, BitVec.toNat_ofNat, hr, Nat.shiftLeft_eq,
        Nat.mod_eq_of_lt (show _ < 2 ^ 256 by omega), Nat.mod_eq_of_lt (show _ < 2 ^ 256 by omega), hor, hs]
    simp only [shiftIn, borrow_ok (show i < bytes.length by omega), bind, Except.bind]
    have := ih (i + 1) _ (by omega) (by omega) hstep
    rwa [Nat.add_assoc, Nat.add_comm 1 n] at this

theorem bytes32ToU256_ok {bytes : List UInt8} (h : bytes.length = 32) :
    bytes32ToU256 bytes = .ok (BitVec.ofNat 256 (ofBE bytes)) := by
  obtain ⟨r, hr, hn⟩ := shiftIn_ok bytes 0 32 0 (by omega) (by decide) rfl
  rw [Nat.zero_add, Bytes.slice_all h] at hn
  rw [bytes32ToU256, hr, ← hn, BitVec.ofNat_toNat, BitVec.setWidth_eq]

end Bosphor.Sui

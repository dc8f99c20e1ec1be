import Bosphor.Relayer.SuiCheckpoint
import Bosphor.Sdk.Blob
import Bosphor.Sui.Modules
import Mathlib.Data.Nat.Digits.Defs

/-!
# One blob id in every form

A Walrus blob id is 32 bytes, which write a number with the least significant
byte first. Its text is their base64url; the commitment field is the bytes the
other way round, which the relayer and the SDK take from the text, the Sui
packages read as the number, and the relayer writes from the number's decimal
form. All of these name one blob (`oneBlob`), so that the relayer's comparison
of a text with a field and the one on Sui agree.
-/

namespace Bosphor.CrossChain

open Bytes (toBE ofBE)
open Relayer (toBase64url hexlify padStart bufferFromHex walrusBlobIdToField fieldToWalrusBlobId)
open Relayer.SuiCheckpoint (u256ToHex)
open Sdk (base64UrlToBytes32Hex)

/-- The number of a blob id: its first byte is the least significant one. -/
def blobIdToInt (blobId : Bytes 32) : Nat := Nat.ofDigits 256 (blobId.val.map UInt8.toNat)

theorem ofBE_reverse (bytes : List UInt8) : ofBE bytes.reverse = Nat.ofDigits 256 (bytes.map UInt8.toNat) := by
  induction bytes with
  | nil => rfl
  | cons b rest ih =>
    rw [List.reverse_cons, Bytes.ofBE_snoc, ih, List.map_cons, Nat.ofDigits_cons]
    omega

theorem blobIdToInt_lt (blobId : Bytes 32) : blobIdToInt blobId < 2 ^ 256 := by
  have hlt : ofBE blobId.val.reverse < 256 ^ 32 :=
    Bytes.ofBE_lt_of_length ((List.length_reverse ..).trans blobId.property)
  rw [ofBE_reverse] at hlt
  exact hlt

/-! ## Hexadecimal digits -/

/-- The last `m` hexadecimal digits of a number. -/
def lastDigits : Nat → Nat → List Char
  | 0, _ => []
  | m + 1, n => lastDigits m (n / 16) ++ [Nat.digitChar (n % 16)]

theorem lastDigits_zero (m : Nat) : lastDigits m 0 = List.replicate m '0' := by
  induction m with
  | zero => rfl
  | succ m ih => rw [lastDigits, Nat.zero_div, ih, List.replicate_succ', Nat.zero_mod]; rfl

/-- Padded to its length, a number is written by that many digits. -/
theorem padStart_toDigits (m : Nat) {n : Nat} (h : n < 16 ^ (m + 1)) :
    padStart (m + 1) (Nat.toDigits 16 n) = lastDigits (m + 1) n := by
  induction m generalizing n with
  | zero =>
    have hlt : n < 16 := h
    rw [Nat.toDigits_of_lt_base hlt, lastDigits, lastDigits, Nat.mod_eq_of_lt hlt]
    rfl
  | succ m ih =>
    by_cases hlt : n < 16
    · rw [Nat.toDigits_of_lt_base hlt, lastDigits, Nat.div_eq_of_lt hlt, lastDigits_zero, Nat.mod_eq_of_lt hlt]
      rfl
    · have hrest := ih (show n / 16 < 16 ^ (m + 1) by rw [Nat.div_lt_iff_lt_mul (by omega), ← Nat.pow_succ]; exact h)
      rw [Nat.toDigits_of_base_le (by omega) (by omega), lastDigits, ← hrest]
      simp only [padStart, List.length_append, List.length_singleton, Nat.add_sub_add_right, List.append_assoc]

theorem lastDigits_bytes (k n : Nat) :
    lastDigits (2 * k) n = (toBE k n).flatMap fun b => padStart 2 (Nat.toDigits 16 b.toNat) := by
  induction k generalizing n with
  | zero => rfl
  | succ k ih =>
    have hbyte : padStart 2 (Nat.toDigits 16 (UInt8.ofNat n).toNat) = lastDigits 2 (UInt8.ofNat n).toNat :=
      padStart_toDigits 1 (UInt8.ofNat n).toNat_lt
    have hmod : (UInt8.ofNat n).toNat = n % 256 := UInt8.toNat_ofNat'
    rw [toBE, List.flatMap_append, ← ih, List.flatMap_singleton, hbyte, hmod]
    show lastDigits (2 * k) (n / 16 / 16) ++ [Nat.digitChar (n / 16 % 16)] ++ [Nat.digitChar (n % 16)] =
      lastDigits (2 * k) (n / 256) ++ ([] ++ [Nat.digitChar (n % 256 / 16 % 16)] ++ [Nat.digitChar (n % 256 % 16)])
    rw [Nat.div_div_eq_div_mul, show n % 256 / 16 % 16 = n / 16 % 16 by omega, show n % 256 % 16 = n % 16 by omega]
    simp only [List.nil_append, List.append_assoc]

theorem u256ToHex_toString {n : Nat} (h : n < 2 ^ 256) : u256ToHex (toString n) = hexlify (toBE 32 n) := by
  rw [u256ToHex, Relayer.SuiCheckpoint.bigInt_toString]
  show "0x" ++ String.ofList (padStart 64 (Nat.toDigits 16 n)) = _
  rw [padStart_toDigits 63 h, show 63 + 1 = 2 * 32 from rfl, lastDigits_bytes]
  rfl

theorem bufferFromHex_hexlify (bytes : List UInt8) : bufferFromHex (hexlify bytes) = bytes := by
  have htext : (hexlify bytes).toList = '0' :: 'x' :: bytes.flatMap fun b => padStart 2 (Nat.toDigits 16 b.toNat) := by
    simp only [hexlify, String.toList_append, String.toList_ofList]
    rfl
  rw [bufferFromHex, htext]
  exact Relayer.bytesOfHex_digits bytes

/-! ## The forms -/

/-- The forms of a blob id, given by its bytes and by its text. -/
structure OneBlob (blobId : Bytes 32) (text : String) : Prop where
  relayer : walrusBlobIdToField text = .ok blobId.val.reverse
  sdk : base64UrlToBytes32Hex text = .ok (hexlify blobId.val.reverse)
  inverse : ∀ committedHex, bufferFromHex committedHex = blobId.val.reverse →
    fieldToWalrusBlobId committedHex = .ok text
  sui : Sui.bytes32ToU256 blobId.val.reverse = .ok (BitVec.ofNat 256 (blobIdToInt blobId))
  event : u256ToHex (toString (blobIdToInt blobId)) = hexlify blobId.val.reverse
  agree : ∀ (committed : Bytes 32) (committedHex : String), bufferFromHex committedHex = committed.val →
    (Relayer.blobIdMatches text committedHex = true ↔ ∃ committedBlobId, Sui.bytes32ToU256 committed.val =
      .ok committedBlobId ∧
      Sui.blobIdMatches committedBlobId (BitVec.ofNat 256 (blobIdToInt blobId)) = true)

theorem walrusBlobIdToField_toBase64url {bytes : List UInt8} (h : bytes.length = 32) :
    walrusBlobIdToField (toBase64url bytes) = .ok bytes.reverse := by
  unfold walrusBlobIdToField
  simp only [Relayer.bufferFromBase64url_toBase64url]
  exact if_neg (not_not.mpr h)

theorem bytes32ToU256_field (blobId : Bytes 32) :
    Sui.bytes32ToU256 blobId.val.reverse = .ok (BitVec.ofNat 256 (blobIdToInt blobId)) := by
  rw [Sui.bytes32ToU256_ok ((List.length_reverse ..).trans blobId.property), ofBE_reverse]
  rfl

theorem oneBlob (blobId : Bytes 32) : OneBlob blobId (toBase64url blobId.val) where
  relayer := walrusBlobIdToField_toBase64url blobId.property
  sdk := Sdk.base64UrlToBytes32Hex_toBase64url blobId.property
  inverse committedHex h := by
    have hlength : blobId.val.reverse.length = 32 := (List.length_reverse ..).trans blobId.property
    unfold fieldToWalrusBlobId
    simp only [h, List.reverse_reverse]
    exact if_neg (not_not.mpr hlength)
  sui := bytes32ToU256_field blobId
  event := by
    rw [u256ToHex_toString (blobIdToInt_lt blobId), blobIdToInt, ← ofBE_reverse,
      Bytes.toBE_ofBE_of_length ((List.length_reverse ..).trans blobId.property)]
  agree committed committedHex h := by
    have hlength : blobId.val.reverse.length = committed.val.length :=
      (List.length_reverse ..).trans (blobId.property.trans committed.property.symm)
    have hlt := blobIdToInt_lt blobId
    have hlt' : ofBE committed.val < 2 ^ 256 := Bytes.ofBE_lt_of_length committed.property
    rw [Relayer.blobIdMatches_iff, walrusBlobIdToField_toBase64url blobId.property, h,
      Sui.bytes32ToU256_ok committed.property]
    simp only [committed.property, true_and, Except.ok.injEq, exists_eq_left', Sui.blobIdMatches, beq_iff_eq]
    constructor
    · intro heq
      rw [← heq, ofBE_reverse]
      rfl
    · intro heq
      have hnumber := congrArg BitVec.toNat heq
      rw [BitVec.toNat_ofNat, BitVec.toNat_ofNat, Nat.mod_eq_of_lt hlt, Nat.mod_eq_of_lt hlt', blobIdToInt,
        ← ofBE_reverse] at hnumber
      exact Bytes.ofBE_inj hlength hnumber

end Bosphor.CrossChain

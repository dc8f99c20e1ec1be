import Bosphor.Lib.Result
import Bosphor.Relayer.WalrusBlobId

/-!
# Blob ids in the SDK

The SDK decodes a blob id with `atob`, which fails where the relayer's decoder
skips; on the text of an id the two are the same (`base64UrlToBytes_toBase64url`).
-/

namespace Bosphor.Sdk

open Relayer (bytesOfDigits base64urlChar digitsOfBytes toBase64url hexlify)

/-- The digit of a character of the standard alphabet. -/
def atobDigit (c : Char) : Option Nat :=
  if c = '-' ∨ c = '_' then none else Relayer.base64Digit c

/-- Without up to two `=` at the end. -/
def withoutPadding (chars : List Char) : List Char :=
  match chars.reverse with
  | '=' :: '=' :: rest => rest.reverse
  | '=' :: rest => rest.reverse
  | _ => chars

/-- `atob(base64)`: ASCII white space is left out, any other character that is no digit fails. -/
def atob (base64 : String) : Except String (List UInt8) :=
  let chars := base64.toList.filter (· ∉ ['\t', '\n', '\x0c', '\r', ' '])
  let chars := if chars.length % 4 = 0 then withoutPadding chars else chars
  match chars.mapM atobDigit with
  | some digits => if digits.length % 4 = 1 then .error "InvalidCharacterError" else .ok (bytesOfDigits digits)
  | none => .error "InvalidCharacterError"

def base64ToBytes (base64 : String) : Except String (List UInt8) := atob base64

/-- The replacements of the two characters that the alphabets do not share. -/
def standardChar (c : Char) : Char := if c = '-' then '+' else if c = '_' then '/' else c

def base64UrlToBytes (base64url : String) : Except String (List UInt8) :=
  base64ToBytes (String.ofList (base64url.toList.map standardChar))

def base64UrlToBytes32Hex (base64url : String) : Except String String := do
  let bytes ← base64UrlToBytes base64url
  if bytes.length ≠ 32 then
    .error s!"expected a 32-byte Walrus blob id, decoded {bytes.length} bytes from \"{base64url}\""
  else .ok (hexlify bytes.reverse)

/-! ## The text of an id -/

theorem length_digitsOfBytes (bytes : List UInt8) : (digitsOfBytes bytes).length = (bytes.length * 4 + 2) / 3 := by
  fun_induction digitsOfBytes bytes with
  | case1 a b c rest ih =>
    simp only [List.length_cons, ih]
    omega
  | case2 | case3 | case4 => simp

/-- The characters of digits are read as these, and none of them is left out. -/
theorem atob_digits {digits : List Nat} (h : ∀ d ∈ digits, d < 64) :
    (digits.map (standardChar ∘ base64urlChar)).filter (· ∉ ['\t', '\n', '\x0c', '\r', ' ']) =
        digits.map (standardChar ∘ base64urlChar) ∧
      (digits.map (standardChar ∘ base64urlChar)).mapM atobDigit = some digits := by
  have hall : ∀ d < 64, atobDigit (standardChar (base64urlChar d)) = some d ∧
      standardChar (base64urlChar d) ∉ ['\t', '\n', '\x0c', '\r', ' '] := by decide +kernel
  constructor
  · refine List.filter_eq_self.mpr fun c hc => ?_
    obtain ⟨d, hd, rfl⟩ := List.mem_map.mp hc
    exact decide_eq_true (hall d (h d hd)).2
  · induction digits with
    | nil => rfl
    | cons d rest ih =>
      obtain ⟨hd, hrest⟩ := List.forall_mem_cons.mp h
      rw [List.map_cons, List.mapM_cons, Function.comp_apply, (hall d hd).1, ih hrest]
      rfl

/-- The bytes of an id are read back from its text, which has no padding. -/
theorem base64UrlToBytes_toBase64url {bytes : List UInt8} (h : bytes.length = 32) :
    base64UrlToBytes (toBase64url bytes) = .ok bytes := by
  obtain ⟨hfilter, hdigits⟩ := atob_digits (Relayer.digitsOfBytes_lt bytes)
  have hlength : (digitsOfBytes bytes).length = 43 := by rw [length_digitsOfBytes, h]
  unfold base64UrlToBytes base64ToBytes atob toBase64url
  rw [String.toList_ofList, String.toList_ofList, List.map_map]
  simp only [hfilter, List.length_map, hlength, Nat.reduceMod, OfNat.ofNat_ne_zero, if_false, hdigits,
    Relayer.bytesOfDigits_digitsOfBytes]
  rfl

theorem base64UrlToBytes32Hex_toBase64url {bytes : List UInt8} (h : bytes.length = 32) :
    base64UrlToBytes32Hex (toBase64url bytes) = .ok (hexlify bytes.reverse) := by
  rw [base64UrlToBytes32Hex, base64UrlToBytes_toBase64url h, Result.ok_bind, if_neg (not_not.mpr h)]

end Bosphor.Sdk

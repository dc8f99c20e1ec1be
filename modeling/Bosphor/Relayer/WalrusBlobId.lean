import Bosphor.Lib.Bytes
import Bosphor.Lib.Text

/-!
# Walrus blob ids

A blob id is a number of 256 bits, written in base64url with its least
significant byte first; a commitment carries it with the most significant byte
first. The decoders are those of the runtime: they read the low byte of every
code unit, skip what is not a digit of their alphabet or stop there, and never
fail.
-/

namespace Bosphor.Relayer

/-- The digit of a base64 character; both alphabets are accepted. -/
def base64Digit (c : Char) : Option Nat :=
  if 'A' ≤ c ∧ c ≤ 'Z' then some (c.toNat - 65)
  else if 'a' ≤ c ∧ c ≤ 'z' then some (c.toNat - 71)
  else if '0' ≤ c ∧ c ≤ '9' then some (c.toNat + 4)
  else if c = '+' ∨ c = '-' then some 62
  else if c = '/' ∨ c = '_' then some 63
  else none

/-- The bytes of base64 digits, four at a time. A lone last digit is dropped. -/
def bytesOfDigits : List Nat → List UInt8
  | a :: b :: c :: d :: rest =>
    UInt8.ofNat (a * 4 + b / 16) :: UInt8.ofNat (b % 16 * 16 + c / 4) :: UInt8.ofNat (c % 4 * 64 + d) ::
      bytesOfDigits rest
  | [a, b, c] => [UInt8.ofNat (a * 4 + b / 16), UInt8.ofNat (b % 16 * 16 + c / 4)]
  | [a, b] => [UInt8.ofNat (a * 4 + b / 16)]
  | _ => []

/-- `Buffer.from(text, 'base64url')`: up to the padding, other characters skipped. -/
def bufferFromBase64url (text : String) : List UInt8 :=
  bytesOfDigits (((Text.latin1 text.toList).takeWhile (· ≠ '=')).filterMap base64Digit)

/-- The base64url character of a digit. -/
def base64urlChar (d : Nat) : Char :=
  "ABCDEFGHIJKLMNOPQRSTUVWXYZabcdefghijklmnopqrstuvwxyz0123456789-_".toList.getD d 'A'

/-- The base64 digits of bytes, three at a time. -/
def digitsOfBytes : List UInt8 → List Nat
  | a :: b :: c :: rest =>
    a.toNat / 4 :: (a.toNat % 4 * 16 + b.toNat / 16) :: (b.toNat % 16 * 4 + c.toNat / 64) :: c.toNat % 64 ::
      digitsOfBytes rest
  | [a, b] => [a.toNat / 4, a.toNat % 4 * 16 + b.toNat / 16, b.toNat % 16 * 4]
  | [a] => [a.toNat / 4, a.toNat % 4 * 16]
  | [] => []

/-- `bytes.toString('base64url')`, which writes no padding. -/
def toBase64url (bytes : List UInt8) : String := String.ofList ((digitsOfBytes bytes).map base64urlChar)

/-- The value of a hexadecimal digit. -/
def hexDigit (c : Char) : Option Nat :=
  if '0' ≤ c ∧ c ≤ '9' then some (c.toNat - 48)
  else if 'a' ≤ c ∧ c ≤ 'f' then some (c.toNat - 87)
  else if 'A' ≤ c ∧ c ≤ 'F' then some (c.toNat - 55)
  else none

/-- The bytes of pairs of hexadecimal digits, up to the first that is none. -/
def bytesOfPairs : List Char → List UInt8
  | a :: b :: rest =>
    match hexDigit a, hexDigit b with
    | some x, some y => UInt8.ofNat (x * 16 + y) :: bytesOfPairs rest
    | _, _ => []
  | _ => []

/-- `Buffer.from(text, 'hex')`. -/
def bytesOfHex (text : List Char) : List UInt8 := bytesOfPairs (Text.latin1 text)

/-- `Buffer.from(text.replace(/^0x/i, ''), 'hex')`. -/
def bufferFromHex (text : String) : List UInt8 :=
  match text.toList with
  | '0' :: x :: rest => bytesOfHex (if x = 'x' ∨ x = 'X' then rest else '0' :: x :: rest)
  | chars => bytesOfHex chars

/-- `text.padStart(length, '0')`. -/
def padStart (length : Nat) (text : List Char) : List Char := List.replicate (length - text.length) '0' ++ text

/-- The bytes in hexadecimal, two digits each, behind `0x`. -/
def hexlify (bytes : List UInt8) : String := "0x" ++ String.ofList
    (bytes.flatMap fun b => padStart 2 (Nat.toDigits 16 b.toNat))

/-- The commitment field of a blob id. -/
def walrusBlobIdToField (base64url : String) : Except String (List UInt8) :=
  let le := bufferFromBase64url base64url
  if le.length ≠ 32 then
    .error s!"expected a 32-byte Walrus blob id, decoded {le.length} bytes from \"{base64url}\""
  else .ok le.reverse

/-- The blob id of a commitment field. -/
def fieldToWalrusBlobId (committedHex : String) : Except String String :=
  let be := bufferFromHex committedHex
  if be.length ≠ 32 then .error s!"expected a 32-byte commitment, got {be.length} bytes from \"{committedHex}\""
  else .ok (toBase64url be.reverse)

/-- Whether a recomputed blob id is the committed one. -/
def blobIdMatches (recomputedBase64Url committedHex : String) : Bool :=
  match walrusBlobIdToField recomputedBase64Url with
  | .ok field =>
    let committed := bufferFromHex committedHex
    committed.length == 32 && field == committed
  | .error _ => false

/-! ## There and back -/

theorem base64Digit_char {d : Nat} (h : d < 64) : base64Digit (base64urlChar d) = some d := by
  have hall : ∀ d < 64, base64Digit (base64urlChar d) = some d := by decide +kernel
  exact hall d h

theorem base64urlChar_ne {d : Nat} (h : d < 64) : base64urlChar d ≠ '=' := by
  have hall : ∀ d < 64, base64urlChar d ≠ '=' := by decide +kernel
  exact hall d h

/-- A digit is a character of one byte. -/
theorem base64Digit_lt {c : Char} {d : Nat} (h : base64Digit c = some d) : c.toNat < 256 := by
  have hrange : ∀ {hi : Char}, hi.toNat < 256 → c ≤ hi → c.toNat < 256 := by
    intro hi hhi hle
    have hle : c.toNat ≤ hi.toNat := hle
    omega
  unfold base64Digit at h
  split at h
  · rename_i hc
    exact hrange (by decide) hc.2
  · split at h
    · rename_i hc
      exact hrange (by decide) hc.2
    · split at h
      · rename_i hc
        exact hrange (by decide) hc.2
      · split at h
        · rename_i hc
          obtain rfl | rfl := hc <;> decide
        · split at h
          · rename_i hc
            obtain rfl | rfl := hc <;> decide
          · cases h

theorem digitsOfBytes_lt (bytes : List UInt8) : ∀ d ∈ digitsOfBytes bytes, d < 64 := by
  fun_induction digitsOfBytes bytes with
  | case1 a b c rest ih =>
    have ha := a.toNat_lt
    have hb := b.toNat_lt
    have hc := c.toNat_lt
    simp only [List.forall_mem_cons]
    exact ⟨by omega, by omega, by omega, by omega, ih⟩
  | case2 a b =>
    have ha := a.toNat_lt
    have hb := b.toNat_lt
    simp only [List.forall_mem_cons]
    exact ⟨by omega, by omega, by omega, by simp⟩
  | case3 a =>
    have ha := a.toNat_lt
    simp only [List.forall_mem_cons]
    exact ⟨by omega, by omega, by simp⟩
  | case4 => simp

theorem bytesOfDigits_digitsOfBytes (bytes : List UInt8) : bytesOfDigits (digitsOfBytes bytes) = bytes := by
  have hbyte : ∀ (b : UInt8) (n : Nat), n = b.toNat → UInt8.ofNat n = b := by
    intro b n hn
    rw [hn, UInt8.ofNat_toNat]
  fun_induction digitsOfBytes bytes with
  | case1 a b c rest ih =>
    have ha := a.toNat_lt
    have hb := b.toNat_lt
    have hc := c.toNat_lt
    rw [bytesOfDigits, ih, hbyte a _ (by omega), hbyte b _ (by omega), hbyte c _ (by omega)]
  | case2 a b =>
    have ha := a.toNat_lt
    have hb := b.toNat_lt
    rw [bytesOfDigits, hbyte a _ (by omega), hbyte b _ (by omega)]
  | case3 a =>
    have ha := a.toNat_lt
    rw [bytesOfDigits, hbyte a _ (by omega)]
  | case4 => rfl

/-- Digits are read back from their characters, padded or not. -/
theorem digits_read {char : Nat → Char} (hchar : ∀ {d}, d < 64 → base64Digit (char d) = some d)
    (hpad : ∀ {d}, d < 64 → char d ≠ '=') {digits : List Nat} (h : ∀ d ∈ digits, d < 64) {n : Nat} :
    ((Text.latin1 (digits.map char ++ List.replicate n '=')).takeWhile (· ≠ '=')).filterMap base64Digit = digits := by
  have hone : ∀ c ∈ digits.map char ++ List.replicate n '=', c.toNat < 256 := by
    intro c hc
    obtain hc | hc := List.mem_append.mp hc
    · obtain ⟨d, hd, rfl⟩ := List.mem_map.mp hc
      exact base64Digit_lt (hchar (h d hd))
    · rw [List.eq_of_mem_replicate hc]
      decide
  rw [Text.latin1_eq_self hone]
  clear hone
  induction digits with
  | nil => cases n <;> simp [List.replicate_succ]
  | cons d rest ih =>
    obtain ⟨hd, hrest⟩ := List.forall_mem_cons.mp h
    have hplain : decide (char d ≠ '=') = true := decide_eq_true (hpad hd)
    rw [List.map_cons, List.cons_append, List.takeWhile_cons, if_pos hplain,
      List.filterMap_cons_some (hchar hd), ih hrest]

/-- Bytes are read back from their hexadecimal digits. -/
theorem bytesOfHex_digits (bytes : List UInt8) :
    bytesOfHex (bytes.flatMap fun b => padStart 2 (Nat.toDigits 16 b.toNat)) = bytes := by
  have hbyte : ∀ n < 256, padStart 2 (Nat.toDigits 16 n) = [Nat.digitChar (n / 16), Nat.digitChar (n % 16)] ∧
      hexDigit (Nat.digitChar (n / 16)) = some (n / 16) ∧ hexDigit (Nat.digitChar (n % 16)) = some (n % 16) := by
    decide +kernel
  have hone : ∀ d < 16, (Nat.digitChar d).toNat < 256 := by decide
  induction bytes with
  | nil => rfl
  | cons b rest ih =>
    obtain ⟨hdigits, hhigh, hlow⟩ := hbyte b.toNat b.toNat_lt
    have hsum : b.toNat / 16 * 16 + b.toNat % 16 = b.toNat := by omega
    have hlt := b.toNat_lt
    unfold bytesOfHex at ih ⊢
    rw [List.flatMap_cons, hdigits, List.cons_append, List.cons_append, List.nil_append,
      Text.latin1_cons (hone _ (by omega)), Text.latin1_cons (hone _ (by omega)), bytesOfPairs, hhigh, hlow]
    simp only [ih, hsum, UInt8.ofNat_toNat]

/-- Bytes are read back from their base64url. -/
theorem bufferFromBase64url_toBase64url (bytes : List UInt8) : bufferFromBase64url (toBase64url bytes) = bytes := by
  have hread := digits_read base64Digit_char base64urlChar_ne (digitsOfBytes_lt bytes) (n := 0)
  rw [List.replicate_zero, List.append_nil] at hread
  rw [bufferFromBase64url, toBase64url, String.toList_ofList, hread, bytesOfDigits_digitsOfBytes]

/-- The blob id of a commitment field matches the commitment. -/
theorem fieldToWalrusBlobId_matches {committedHex blobId : String} (h : fieldToWalrusBlobId committedHex = .ok blobId) :
    blobIdMatches blobId committedHex = true := by
  simp only [fieldToWalrusBlobId] at h
  split at h
  · cases h
  · rename_i hlength
    cases h
    rw [not_not] at hlength
    have hfield : walrusBlobIdToField (toBase64url (bufferFromHex committedHex).reverse) =
        .ok (bufferFromHex committedHex) := by
      simp only [walrusBlobIdToField, bufferFromBase64url_toBase64url, List.length_reverse, hlength,
        List.reverse_reverse]
      simp
    simp [blobIdMatches, hfield, hlength]

theorem blobIdMatches_iff {recomputedBase64Url committedHex : String} :
    blobIdMatches recomputedBase64Url committedHex = true ↔
    (bufferFromHex committedHex).length = 32 ∧ walrusBlobIdToField recomputedBase64Url =
      .ok (bufferFromHex committedHex) := by
  unfold blobIdMatches
  cases hfield : walrusBlobIdToField recomputedBase64Url with
  | error message => simp
  | ok field =>
    simp only [Bool.and_eq_true, beq_iff_eq, Except.ok.injEq]

end Bosphor.Relayer

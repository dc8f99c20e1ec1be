import Bosphor.Lib.Bytes

/-!
# Borsh

Readers of the fields of a Borsh encoding. Each takes its bytes off the front of
the input, numbers little end first, and a field that is written in front of the
others is read back (`array_append`, `u8_cons`, `u32_append`, `u64_append`,
`vecU8_append`).
-/

namespace Borsh

open Bytes (toBE ofBE)

/-- The low `n` bytes of `v`, the least significant first. -/
def toLE (n v : Nat) : List UInt8 := (toBE n v).reverse

def ofLE (bytes : List UInt8) : Nat := ofBE bytes.reverse

@[simp] theorem length_toLE (n v : Nat) : (toLE n v).length = n := by
  rw [toLE, List.length_reverse, Bytes.length_toBE]

theorem ofLE_toLE (n v : Nat) : ofLE (toLE n v) = v % 256 ^ n := by
  rw [ofLE, toLE, List.reverse_reverse, Bytes.ofBE_toBE_mod]

/-- What does not fit is not written. -/
theorem toLE_mod (n v : Nat) : toLE n (v % 256 ^ n) = toLE n v := by
  have hsame : toBE n (v % 256 ^ n) = toBE n v := by
    refine Bytes.ofBE_inj ?_ ?_
    · rw [Bytes.length_toBE, Bytes.length_toBE]
    · rw [Bytes.ofBE_toBE_mod, Bytes.ofBE_toBE_mod, Nat.mod_mod]
  rw [toLE, toLE, hsame]

/-- A reader of a field: what it read, with the input behind it. -/
abbrev Reader (α : Type) := StateT (List UInt8) Option α

def array (n : Nat) : Reader (Bytes n) := fun input =>
  if h : n ≤ input.length then some (⟨input.take n, List.length_take_of_le h⟩, input.drop n) else none

def u8 : Reader UInt8
  | [] => none
  | b :: rest => some (b, rest)

def u32 : Reader UInt32 := do
  let bytes ← array 4
  return UInt32.ofNat (ofLE bytes.val)

def u64 : Reader UInt64 := do
  let bytes ← array 8
  return UInt64.ofNat (ofLE bytes.val)

def vecU8 : Reader (List UInt8) := do
  let length ← u32
  let bytes ← array length.toNat
  return bytes.val

variable {α β : Type}

theorem bind_some {x : Reader α} {f : α → Reader β} {input rest : List UInt8} {a : α} (h : x input = some (a, rest)) :
    (x >>= f) input = f a rest := by
  show (x input).bind _ = _
  rw [h]
  rfl

theorem array_append {n : Nat} (xs : Bytes n) (rest : List UInt8) : array n (xs.val ++ rest) = some (xs, rest) := by
  have hlength := xs.property
  have hle : n ≤ (xs.val ++ rest).length := by
    rw [List.length_append]
    omega
  have htake : (xs.val ++ rest).take n = xs.val := List.take_left' hlength
  have hdrop : (xs.val ++ rest).drop n = rest := List.drop_left' hlength
  rw [array, dif_pos hle]
  simp only [htake, hdrop]

theorem u8_cons (b : UInt8) (rest : List UInt8) : u8 (b :: rest) = some (b, rest) := rfl

theorem u32_append (v : Nat) (rest : List UInt8) : u32 (toLE 4 v ++ rest) = some (UInt32.ofNat v, rest) := by
  have hv : UInt32.ofNat (v % 256 ^ 4) = UInt32.ofNat v := by
    rw [← UInt32.toNat_inj, UInt32.toNat_ofNat', UInt32.toNat_ofNat']
    omega
  rw [u32, bind_some (array_append ⟨toLE 4 v, length_toLE 4 v⟩ rest), ofLE_toLE, hv]
  rfl

theorem u64_append (v : Nat) (rest : List UInt8) : u64 (toLE 8 v ++ rest) = some (UInt64.ofNat v, rest) := by
  have hv : UInt64.ofNat (v % 256 ^ 8) = UInt64.ofNat v := by
    rw [← UInt64.toNat_inj, UInt64.toNat_ofNat', UInt64.toNat_ofNat']
    omega
  rw [u64, bind_some (array_append ⟨toLE 8 v, length_toLE 8 v⟩ rest), ofLE_toLE, hv]
  rfl

/-- Eight bytes are a number. -/
theorem u64_of_length {input : List UInt8} (h : 8 ≤ input.length) : ∃ v, u64 input = some (v, input.drop 8) := by
  have harray : array 8 input = some (⟨input.take 8, List.length_take_of_le h⟩, input.drop 8) := dif_pos h
  rw [u64, bind_some harray]
  exact ⟨_, rfl⟩

/-- A byte string is read as far as its length says, which is cut to 32 bits. -/
theorem vecU8_append {n : Nat} (xs rest : List UInt8) (h : (UInt32.ofNat n).toNat ≤ xs.length) :
    vecU8 (toLE 4 n ++ (xs ++ rest)) =
      some (xs.take (UInt32.ofNat n).toNat, xs.drop (UInt32.ofNat n).toNat ++ rest) := by
  have hsplit : xs ++ rest = xs.take (UInt32.ofNat n).toNat ++ (xs.drop (UInt32.ofNat n).toNat ++ rest) := by
    rw [← List.append_assoc, List.take_append_drop]
  rw [vecU8, bind_some (u32_append n _), hsplit, bind_some (array_append ⟨_, List.length_take_of_le h⟩ _)]
  rfl

end Borsh

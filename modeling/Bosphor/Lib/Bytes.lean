import Mathlib.Data.List.Induction
import Mathlib.Tactic.Ring

/-!
# Fixed-length and big-endian byte strings

Byte strings of a fixed length (`Bytes n`), and unsigned numbers written big
end first:

* `toBE n v`: the low `n` bytes of `v`; `ofBE` reads a byte string back;
* `ofBE_toBE`, `toBE_ofBE`: each undoes the other, on numbers that fit;
* `or_eq_add`: what a reader that shifts bytes into place and joins them with
  `|` computes;
* `slice`: a contiguous part of a byte string, and how it is read off an
  `append`.
-/

/-- A byte string of length `n`. -/
abbrev Bytes (n : Nat) : Type := { l : List UInt8 // l.length = n }

namespace Bytes

/-- `n` zero bytes. -/
def zero (n : Nat) : Bytes n := ⟨List.replicate n 0, List.length_replicate⟩

instance (n : Nat) : Inhabited (Bytes n) := ⟨zero n⟩

/-! ## Numbers and bytes -/

/-- The low `n` bytes of `v`, the most significant first. -/
def toBE : Nat → Nat → List UInt8
  | 0, _ => []
  | n + 1, v => toBE n (v / 256) ++ [UInt8.ofNat v]

/-- The number a byte string writes, the most significant byte first. -/
def ofBE (bs : List UInt8) : Nat := bs.foldl (fun acc b => acc * 256 + b.toNat) 0

@[simp] theorem length_toBE (n v : Nat) : (toBE n v).length = n := by
  induction n generalizing v with
  | zero => rfl
  | succ n ih => simp only [toBE, List.length_append, ih, List.length_singleton]

@[simp] theorem ofBE_nil : ofBE [] = 0 := rfl

theorem ofBE_snoc (bs : List UInt8) (b : UInt8) : ofBE (bs ++ [b]) = ofBE bs * 256 + b.toNat := by
  simp only [ofBE, List.foldl_append, List.foldl_cons, List.foldl_nil]

theorem ofBE_append (xs ys : List UInt8) : ofBE (xs ++ ys) = ofBE xs * 256 ^ ys.length + ofBE ys := by
  induction ys using List.reverseRecOn with
  | nil => simp
  | append_singleton ys y ih =>
    rw [← List.append_assoc, ofBE_snoc, ih, ofBE_snoc, List.length_append, List.length_singleton,
      Nat.pow_succ, Nat.add_mul, Nat.mul_assoc, Nat.add_assoc]

theorem ofBE_lt (bs : List UInt8) : ofBE bs < 256 ^ bs.length := by
  induction bs using List.reverseRecOn with
  | nil => simp
  | append_singleton bs b ih =>
    have hb := b.toNat_lt
    rw [ofBE_snoc, List.length_append, List.length_singleton, Nat.pow_succ]
    omega

theorem ofBE_lt_of_length {bs : List UInt8} {n : Nat} (h : bs.length = n) : ofBE bs < 256 ^ n :=
  h ▸ ofBE_lt bs

/-- Reading back what was written: the value, cut to the width. -/
theorem ofBE_toBE_mod (n v : Nat) : ofBE (toBE n v) = v % 256 ^ n := by
  induction n generalizing v with
  | zero => simp [toBE, Nat.mod_one]
  | succ n ih =>
    rw [toBE, ofBE_snoc, ih, UInt8.toNat_ofNat', Nat.pow_succ 256 n, Nat.mul_comm (256 ^ n) 256,
      Nat.mod_mul]
    omega

theorem ofBE_toBE {n v : Nat} (h : v < 256 ^ n) : ofBE (toBE n v) = v := by
  rw [ofBE_toBE_mod, Nat.mod_eq_of_lt h]

/-- Writing back what was read. -/
theorem toBE_ofBE (bs : List UInt8) : toBE bs.length (ofBE bs) = bs := by
  induction bs using List.reverseRecOn with
  | nil => rfl
  | append_singleton bs b ih =>
    have hb := b.toNat_lt
    rw [List.length_append, List.length_singleton, toBE, ofBE_snoc]
    have hdiv : (ofBE bs * 256 + b.toNat) / 256 = ofBE bs := by omega
    have hlow : UInt8.ofNat (ofBE bs * 256 + b.toNat) = b := by
      rw [← UInt8.toNat_inj, UInt8.toNat_ofNat']
      omega
    rw [hdiv, hlow, ih]

theorem toBE_ofBE_of_length {bs : List UInt8} {n : Nat} (h : bs.length = n) : toBE n (ofBE bs) = bs :=
  h ▸ toBE_ofBE bs

theorem ofBE_inj {xs ys : List UInt8} (hl : xs.length = ys.length) (h : ofBE xs = ofBE ys) : xs = ys := by
  rw [← toBE_ofBE xs, ← toBE_ofBE ys, h, hl]

theorem toBE_inj {n v w : Nat} (hv : v < 256 ^ n) (hw : w < 256 ^ n) (h : toBE n v = toBE n w) :
    v = w := by
  rw [← ofBE_toBE hv, ← ofBE_toBE hw, h]

@[simp] theorem ofBE_replicate_zero (n : Nat) : ofBE (List.replicate n 0) = 0 := by
  induction n with
  | zero => rfl
  | succ n ih => rw [List.replicate_succ', ofBE_snoc, ih]; rfl

theorem toBE_uint32_inj {v w : UInt32} (h : toBE 4 v.toNat = toBE 4 w.toNat) : v = w :=
  UInt32.toNat_inj.mp (toBE_inj v.toNat_lt w.toNat_lt h)

theorem toBE_uint64_inj {v w : UInt64} (h : toBE 8 v.toNat = toBE 8 w.toNat) : v = w :=
  UInt64.toNat_inj.mp (toBE_inj v.toNat_lt w.toNat_lt h)

theorem toNat_uint32_ofBE {bs : List UInt8} (h : bs.length = 4) :
    (UInt32.ofNat (ofBE bs)).toNat = ofBE bs :=
  UInt32.toNat_ofNat_of_lt' (ofBE_lt_of_length h)

theorem toNat_uint64_ofBE {bs : List UInt8} (h : bs.length = 8) :
    (UInt64.ofNat (ofBE bs)).toNat = ofBE bs :=
  UInt64.toNat_ofNat_of_lt' (ofBE_lt_of_length h)

/-- Joining disjoint bits with `|` adds. -/
theorem or_eq_add {a b : Nat} (k : Nat) (ha : 2 ^ k ∣ a) (hb : b < 2 ^ k) : a ||| b = a + b := by
  obtain ⟨c, rfl⟩ := ha
  rw [Nat.mul_comm, ← Nat.shiftLeft_eq, Nat.shiftLeft_add_eq_or_of_lt hb]

/-- A reader's next byte, shifted into place and joined with `|` to those above it. -/
theorem or_next (p k : Nat) (b : UInt8) :
    p * 2 ^ (k + 8) ||| b.toNat * 2 ^ k = (p * 256 + b.toNat) * 2 ^ k := by
  have hb : b.toNat * 2 ^ k < 2 ^ (k + 8) := by
    rw [Nat.pow_add, Nat.mul_comm (2 ^ k)]
    exact Nat.mul_lt_mul_of_pos_right b.toNat_lt (Nat.two_pow_pos k)
  rw [or_eq_add (k + 8) (Nat.dvd_mul_left _ _) hb, Nat.pow_add]
  ring_nf

/-! ## Slices -/

/-- The `len` bytes of `l` from `start` on. -/
def slice (l : List UInt8) (start len : Nat) : List UInt8 := (l.drop start).take len

theorem length_slice {l : List UInt8} {start len : Nat} (h : start + len ≤ l.length) :
    (slice l start len).length = len := by
  rw [slice, List.length_take, List.length_drop]
  omega

/-- The middle of three pieces. -/
theorem slice_append (xs ys zs : List UInt8) : slice (xs ++ (ys ++ zs)) xs.length ys.length = ys := by
  rw [slice, List.drop_left, List.take_left]

theorem slice_mid (xs ys zs : List UInt8) (start len : Nat) (hs : xs.length = start)
    (hl : ys.length = len) : slice (xs ++ (ys ++ zs)) start len = ys := by
  subst hs hl
  exact slice_append xs ys zs

/-- The last of two pieces. -/
theorem slice_end (xs ys : List UInt8) (start len : Nat) (hs : xs.length = start)
    (hl : ys.length = len) : slice (xs ++ ys) start len = ys := by
  have := slice_mid xs ys [] start len hs hl
  rwa [List.append_nil] at this

/-- A byte string is its slices, one after the other. -/
theorem slice_append_slice (l : List UInt8) (start m n : Nat) :
    slice l start m ++ slice l (start + m) n = slice l start (m + n) := by
  simp only [slice]
  rw [← List.drop_drop, ← List.take_add]

theorem slice_all {l : List UInt8} {n : Nat} (h : l.length = n) : slice l 0 n = l := by
  rw [slice, List.drop_zero, ← h, List.take_length]

theorem getElem?_slice {l : List UInt8} {start len i : Nat} (h : i < len) :
    (slice l start len)[i]? = l[start + i]? := by
  rw [slice, List.getElem?_take_of_lt h, List.getElem?_drop]

/-- A slice, byte by byte. -/
theorem slice_eq_map_range {l : List UInt8} {start len : Nat} (h : start + len ≤ l.length) :
    slice l start len = (List.range len).map fun i => l.getD (start + i) 0 := by
  apply List.ext_getElem
  · rw [length_slice h, List.length_map, List.length_range]
  · intro i h₁ h₂
    rw [length_slice h] at h₁
    simp only [slice, List.getElem_take, List.getElem_drop, List.getElem_map, List.getElem_range]
    rw [List.getD_eq_getElem?_getD, List.getElem?_eq_getElem (by omega), Option.getD_some]

/-- The number a slice one byte longer writes. -/
theorem ofBE_slice_succ (l : List UInt8) (start len : Nat) (h : start + len < l.length) :
    ofBE (slice l start (len + 1)) = ofBE (slice l start len) * 256 + (l.getD (start + len) 0).toNat := by
  rw [slice_eq_map_range h, List.range_succ, List.map_append, List.map_singleton, ofBE_snoc,
    ← slice_eq_map_range (by omega)]

end Bytes

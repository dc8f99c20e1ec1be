import Bosphor.Lib.Bytes

/-!
# Keccak-256

The hash every intent id is made with, as the dependency-free `keccak` module
of the Rust codec computes it. Solidity's `keccak256`, Sui's
`hash::keccak256` and the SDK's `keccak_256` are the same function; the proofs
read it only through `keccak256`, and assume of it that the byte strings at
hand do not collide.
-/

namespace Bosphor.Keccak

/-- The 25 lanes of the sponge, row by row. -/
abbrev State := List UInt64

def roundConstants : List UInt64 :=
  [0x0000000000000001, 0x0000000000008082, 0x800000000000808a, 0x8000000080008000,
   0x000000000000808b, 0x0000000080000001, 0x8000000080008081, 0x8000000000008009,
   0x000000000000008a, 0x0000000000000088, 0x0000000080008009, 0x000000008000000a,
   0x000000008000808b, 0x800000000000008b, 0x8000000000008089, 0x8000000000008003,
   0x8000000000008002, 0x8000000000000080, 0x000000000000800a, 0x800000008000000a,
   0x8000000080008081, 0x8000000000008080, 0x0000000080000001, 0x8000000080008008]

def rotations : List UInt64 :=
  [1, 3, 6, 10, 15, 21, 28, 36, 45, 55, 2, 14, 27, 41, 56, 8, 25, 43, 62, 18, 39, 61, 20, 44]

def piLanes : List Nat :=
  [10, 7, 11, 17, 18, 3, 5, 16, 8, 21, 24, 4, 15, 23, 19, 13, 12, 2, 20, 14, 22, 9, 6, 1]

def rotateLeft (x k : UInt64) : UInt64 := x <<< k ||| x >>> (64 - k)

def theta (s : State) : State :=
  let bc := (List.range 5).map fun i =>
    s.getD i 0 ^^^ s.getD (i + 5) 0 ^^^ s.getD (i + 10) 0 ^^^ s.getD (i + 15) 0 ^^^ s.getD (i + 20) 0
  (List.range 25).map fun k =>
    s.getD k 0 ^^^ (bc.getD ((k + 4) % 5) 0 ^^^ rotateLeft (bc.getD ((k + 1) % 5) 0) 1)

/-- Rho and pi: the lane carried along is written, rotated, over the next one. -/
def rhoPi (s : State) : State :=
  ((List.range 24).foldl (fun (p : State × UInt64) i =>
    let j := piLanes.getD i 0
    (p.1.set j (rotateLeft p.2 (rotations.getD i 0)), p.1.getD j 0)) (s, s.getD 1 0)).1

def chi (s : State) : State :=
  (List.range 25).map fun k =>
    s.getD k 0 ^^^ (~~~ s.getD (k / 5 * 5 + (k + 1) % 5) 0 &&& s.getD (k / 5 * 5 + (k + 2) % 5) 0)

def iota (c : UInt64) (s : State) : State := s.set 0 (s.getD 0 0 ^^^ c)

def keccakF1600 (s : State) : State :=
  roundConstants.foldl (fun s c => iota c (chi (rhoPi (theta s)))) s

/-- The rate, in bytes. -/
def rate : Nat := 136

def absorbBlock (s : State) (block : List UInt8) : State :=
  (List.range 25).map fun i =>
    if i < block.length / 8 then
      s.getD i 0 ^^^ (List.range 8).foldl
        (fun v b => v ||| (block.getD (i * 8 + b) 0).toUInt64 <<< UInt64.ofNat (8 * b)) 0
    else s.getD i 0

/-- Absorb `n` whole blocks; the state and the input left. -/
def absorbBlocks : Nat → State → List UInt8 → State × List UInt8
  | 0, s, input => (s, input)
  | n + 1, s, input => absorbBlocks n (keccakF1600 (absorbBlock s (input.take rate))) (input.drop rate)

/-- The final block: the input left, domain byte `0x01`, terminator `0x80`. -/
def padBlock (rest : List UInt8) : List UInt8 :=
  let block := rest ++ List.replicate (rate - rest.length) 0
  let block := block.set rest.length (block.getD rest.length 0 ^^^ 0x01)
  block.set (rate - 1) (block.getD (rate - 1) 0 ^^^ 0x80)

def toLeBytes (v : UInt64) : List UInt8 :=
  (List.range 8).map fun b => (v >>> UInt64.ofNat (8 * b)).toUInt8

/-- The digest of `input`, as bytes. -/
def digest (input : List UInt8) : List UInt8 :=
  let (s, rest) := absorbBlocks (input.length / rate) (List.replicate 25 0) input
  let s := keccakF1600 (absorbBlock s (padBlock rest))
  (List.range 4).flatMap fun i => toLeBytes (s.getD i 0)

theorem length_digest (input : List UInt8) : (digest input).length = 32 := by
  simp only [digest, toLeBytes, List.length_flatMap, List.length_map, List.length_range]
  rfl

end Bosphor.Keccak

namespace Bosphor

/-- The keccak-256 digest of `input`. -/
@[irreducible] def keccak256 (input : List UInt8) : Bytes 32 :=
  ⟨Keccak.digest input, Keccak.length_digest input⟩

/-- The known answer for the empty string. -/
example : (keccak256 []).val =
    [0xc5, 0xd2, 0x46, 0x01, 0x86, 0xf7, 0x23, 0x3c, 0x92, 0x7e, 0x7d, 0xb2, 0xdc, 0xc7, 0x03, 0xc0,
     0xe5, 0x00, 0xb6, 0x53, 0xca, 0x82, 0x27, 0x3b, 0x7b, 0xfa, 0xd8, 0x04, 0x5d, 0x85, 0xa4, 0x70] := by
  decide +kernel

end Bosphor

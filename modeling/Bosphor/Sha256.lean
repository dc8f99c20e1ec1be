import Bosphor.Lib.Bytes

/-!
# SHA-256

The hash from which Anchor takes the eight bytes in front of an instruction, an
account or an event (`discriminator`). The proofs read of it only the few tags
that the code has written out, which are computed here.
-/

namespace Bosphor.Sha256

/-- The eight working variables. -/
structure State where
  a : UInt32
  b : UInt32
  c : UInt32
  d : UInt32
  e : UInt32
  f : UInt32
  g : UInt32
  h : UInt32

def initial : State :=
  ⟨0x6a09e667, 0xbb67ae85, 0x3c6ef372, 0xa54ff53a, 0x510e527f, 0x9b05688c, 0x1f83d9ab, 0x5be0cd19⟩

def roundConstants : List UInt32 :=
  [0x428a2f98, 0x71374491, 0xb5c0fbcf, 0xe9b5dba5, 0x3956c25b, 0x59f111f1, 0x923f82a4, 0xab1c5ed5,
   0xd807aa98, 0x12835b01, 0x243185be, 0x550c7dc3, 0x72be5d74, 0x80deb1fe, 0x9bdc06a7, 0xc19bf174,
   0xe49b69c1, 0xefbe4786, 0x0fc19dc6, 0x240ca1cc, 0x2de92c6f, 0x4a7484aa, 0x5cb0a9dc, 0x76f988da,
   0x983e5152, 0xa831c66d, 0xb00327c8, 0xbf597fc7, 0xc6e00bf3, 0xd5a79147, 0x06ca6351, 0x14292967,
   0x27b70a85, 0x2e1b2138, 0x4d2c6dfc, 0x53380d13, 0x650a7354, 0x766a0abb, 0x81c2c92e, 0x92722c85,
   0xa2bfe8a1, 0xa81a664b, 0xc24b8b70, 0xc76c51a3, 0xd192e819, 0xd6990624, 0xf40e3585, 0x106aa070,
   0x19a4c116, 0x1e376c08, 0x2748774c, 0x34b0bcb5, 0x391c0cb3, 0x4ed8aa4a, 0x5b9cca4f, 0x682e6ff3,
   0x748f82ee, 0x78a5636f, 0x84c87814, 0x8cc70208, 0x90befffa, 0xa4506ceb, 0xbef9a3f7, 0xc67178f2]

def rotateRight (x k : UInt32) : UInt32 := x >>> k ||| x <<< (32 - k)

def bigSigma0 (x : UInt32) : UInt32 := rotateRight x 2 ^^^ rotateRight x 13 ^^^ rotateRight x 22
def bigSigma1 (x : UInt32) : UInt32 := rotateRight x 6 ^^^ rotateRight x 11 ^^^ rotateRight x 25
def smallSigma0 (x : UInt32) : UInt32 := rotateRight x 7 ^^^ rotateRight x 18 ^^^ x >>> 3
def smallSigma1 (x : UInt32) : UInt32 := rotateRight x 17 ^^^ rotateRight x 19 ^^^ x >>> 10

def ch (x y z : UInt32) : UInt32 := (x &&& y) ^^^ (~~~ x &&& z)
def maj (x y z : UInt32) : UInt32 := (x &&& y) ^^^ (x &&& z) ^^^ (y &&& z)

/-- The words of a block, then 48 that follow from them. -/
def schedule (block : List UInt8) : List UInt32 :=
  let words := (List.range 16).map fun i => UInt32.ofNat (Bytes.ofBE (Bytes.slice block (4 * i) 4))
  (List.range 48).foldl (fun w i =>
    w ++ [smallSigma1 (w.getD (i + 14) 0) + w.getD (i + 9) 0 + smallSigma0 (w.getD (i + 1) 0) + w.getD i 0]) words

def round (s : State) (kw : UInt32 × UInt32) : State :=
  let t1 := s.h + bigSigma1 s.e + ch s.e s.f s.g + kw.1 + kw.2
  let t2 := bigSigma0 s.a + maj s.a s.b s.c
  ⟨t1 + t2, s.a, s.b, s.c, s.d + t1, s.e, s.f, s.g⟩

def compress (s : State) (block : List UInt8) : State :=
  let t := (roundConstants.zip (schedule block)).foldl round s
  ⟨s.a + t.a, s.b + t.b, s.c + t.c, s.d + t.d, s.e + t.e, s.f + t.f, s.g + t.g, s.h + t.h⟩

/-- The input, a one bit, zeros up to a block less eight bytes, and the length in bits. -/
def pad (input : List UInt8) : List UInt8 :=
  input ++ 0x80 :: List.replicate ((119 - input.length % 64) % 64) 0 ++ Bytes.toBE 8 (8 * input.length)

def compressBlocks : Nat → State → List UInt8 → State
  | 0, s, _ => s
  | n + 1, s, input => compressBlocks n (compress s (input.take 64)) (input.drop 64)

def State.bytes (s : State) : List UInt8 :=
  [s.a, s.b, s.c, s.d, s.e, s.f, s.g, s.h].flatMap fun w => Bytes.toBE 4 w.toNat

/-- The digest of `input`, as bytes. -/
def digest (input : List UInt8) : List UInt8 :=
  let padded := pad input
  (compressBlocks (padded.length / 64) initial padded).bytes

theorem length_digest (input : List UInt8) : (digest input).length = 32 := by
  simp only [digest, State.bytes, List.flatMap_cons, List.flatMap_nil, List.length_append, Bytes.length_toBE,
    List.length_nil]

end Bosphor.Sha256

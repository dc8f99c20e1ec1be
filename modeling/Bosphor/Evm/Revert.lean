import Bosphor.Lib.Bytes

/-!
# Solidity calls

Why a call of the adapter reverts, and the words and checked operations its
functions use.
-/

namespace Bosphor.Evm

open Bytes (ofBE)

/-- The errors of the contracts, of the libraries they inherit from, and of the compiler. -/
inductive Revert where
  -- `IBosphorAdapter`, `BosphorEscrowAdapter`
  | deadlineExpired
  | intentAlreadyExists
  | intentNotFound
  | alreadyExecuted
  | blobIdMismatch
  | unknownMessageType
  | zeroAddress
  | insufficientPayment
  | permit2NotConfigured
  -- `EscrowVault`
  | escrowAlreadyExists
  | escrowNotPending
  | deadlineNotReached
  | nothingToWithdraw
  | transferFailed
  | unsupportedToken
  -- `CommitmentCodec`
  | invalidCommitmentLength
  -- `OApp`, `Ownable`, `ReentrancyGuard`
  | noPeer
  | onlyEndpoint
  | onlyPeer
  | callerNotOwner
  | reentrantCall
  -- The endpoint, Permit2 and token calls
  | externalCall
  -- A failed `assert`, a checked operation out of range, `abi.decode` of too few bytes
  | assertion
  | overflow
  | abiDecode
  deriving DecidableEq

/-- `if (cond) revert e;` -/
def revertIf (cond : Prop) [Decidable cond] (e : Revert) : Except Revert Unit :=
  if cond then .error e else .ok ()

/-- Numbers below `2 ^ 256`, where checked arithmetic stays. -/
def uint256Size : Nat := 2 ^ 256

/-- `a + b` on `uint256`. -/
def checkedAdd (a b : Nat) : Except Revert Nat :=
  if a + b < uint256Size then .ok (a + b) else .error .overflow

/-- The byte of memory at offset `i` of a `bytes memory` value: past its end, whatever `after`
holds. -/
def byteAt (data : List UInt8) (after : Nat → UInt8) (i : Nat) : UInt8 :=
  data.getD i (after i)

/-- `mload` at offset `i` of a `bytes memory` value: 32 bytes, as a word. -/
def mload (data : List UInt8) (after : Nat → UInt8) (i : Nat) : Nat :=
  ofBE ((List.range 32).map fun k => byteAt data after (i + k))

/-- `shr(bits, word)`. -/
def shr (bits word : Nat) : Nat := word >>> bits

/-- The top `n` bytes of a word loaded inside the value are the value's own. -/
theorem shr_mload {data : List UInt8} {i n : Nat} (after : Nat → UInt8) (hn : n ≤ 32)
    (h : i + n ≤ data.length) :
    shr (8 * (32 - n)) (mload data after i) = ofBE (Bytes.slice data i n) := by
  have hsplit : (List.range 32).map (fun k => byteAt data after (i + k)) =
      (List.range n).map (fun k => byteAt data after (i + k)) ++
        (List.range (32 - n)).map (fun k => byteAt data after (i + (n + k))) := by
    rw [show (32 : Nat) = n + (32 - n) by omega, List.range_add, List.map_append, List.map_map,
      show n + (32 - n) - n = 32 - n by omega]
    rfl
  have hin : (List.range n).map (fun k => byteAt data after (i + k)) = Bytes.slice data i n := by
    rw [Bytes.slice_eq_map_range h]
    refine List.map_congr_left fun k hk => ?_
    have hk := List.mem_range.mp hk
    rw [byteAt, List.getD_eq_getElem?_getD, List.getD_eq_getElem?_getD, List.getElem?_eq_getElem (by omega)]
    rfl
  have hlt := Bytes.ofBE_lt ((List.range (32 - n)).map fun k => byteAt data after (i + (n + k)))
  rw [List.length_map, List.length_range] at hlt
  rw [shr, mload, hsplit, Bytes.ofBE_append, hin, List.length_map, List.length_range, Nat.shiftRight_eq_div_pow,
    Nat.pow_mul, Nat.mul_comm, Nat.mul_add_div (Nat.pow_pos (by decide)), Nat.div_eq_of_lt hlt, Nat.add_zero]

end Bosphor.Evm

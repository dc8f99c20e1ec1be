import Mathlib.Logic.Function.Basic
import Bosphor.Codec.Commitment

/-!
# The program's accounts

The accounts of the Solana adapter with the lamports they hold, and the
program's history: its events, the messages it sent and the proofs it accepted.

A program-derived address is known by its seeds here, so that different seeds
are different accounts, and none of them is a wallet.
-/

namespace Bosphor.Solana

/-- A `Pubkey`. -/
abbrev Pubkey : Type := Bytes 32

/-- An intent id, a `[u8; 32]`. -/
abbrev IntentId : Type := Bytes 32

/-- An account: a wallet, or a program-derived address by its seeds. -/
inductive Key where
  | wallet (key : Pubkey)
  | store
  | lzReceiveTypes
  | peer (eid : UInt32)
  | nonce (sender : Pubkey)
  | intent (intentId : IntentId)
  | escrow (intentId : IntentId)
  deriving DecidableEq

/-- `Store`. -/
structure Store where
  admin : Pubkey
  endpointProgram : Pubkey
  bump : UInt8

/-- `Peer`. -/
structure Peer where
  address : Bytes 32
  bump : UInt8

/-- `LzReceiveTypesAccounts`. -/
structure LzReceiveTypesAccounts where
  store : Key

/-- `SenderNonce`. -/
structure SenderNonce where
  nonce : UInt64
  bump : UInt8

/-- `IntentState`. -/
structure IntentState where
  committedBlobId : Bytes 32
  size : UInt32
  storageEpochs : UInt32
  deadline : UInt64
  sender : Pubkey
  nonce : UInt64
  executed : Bool
  endEpoch : UInt64
  bump : UInt8

/-- `EscrowVault`. -/
structure EscrowVault where
  payer : Pubkey
  beneficiary : Pubkey
  amount : UInt64
  deadline : UInt64
  status : UInt8
  bump : UInt8

/-- `8 + INIT_SPACE` of each account. -/
def Store.space : Nat := 8 + 65
def Peer.space : Nat := 8 + 33
def LzReceiveTypesAccounts.space : Nat := 8 + 32
def SenderNonce.space : Nat := 8 + 9
def IntentState.space : Nat := 8 + 98
def EscrowVault.space : Nat := 8 + 82

/-- Escrow status codes. -/
def escrowPending : UInt8 := 0
def escrowReleased : UInt8 := 1
def escrowRefunded : UInt8 := 2

/-- `BosphorError`, and the errors of the libraries the program calls. -/
inductive Error where
  | unauthorized
  | alreadyExecuted
  | blobIdMismatch
  | intentIdMismatch
  | nonceOverflow
  | invalidPeer
  | invalidProof
  | escrowNotPending
  | deadlineNotReached
  | insufficientFunds
  | invalidBeneficiary
  -- Anchor, the system program, the endpoint, a panic
  | accountNotInitialized
  | constraintSeeds
  | accountInUse
  | notSystemAccount
  | insufficientLamports
  | endpoint
  | panicked
  deriving DecidableEq

/-- The events of the program. -/
inductive Event where
  | intentSubmitted (intentId : IntentId) (sender : Pubkey) (nonce : UInt64) (commitment : Commitment)
      (dstEid : UInt32) (guid : Bytes 32) (lzNonce : UInt64)
  | intentExecuted (intentId : IntentId) (returnedBlobId : Bytes 32) (endEpoch : UInt64) (srcEid : UInt32)
  | escrowRefunded (intentId : IntentId) (payer : Pubkey) (amount : UInt64)
  deriving DecidableEq

/-- An emitted event, with the clock's `unix_timestamp`. -/
structure Entry where
  time : Int
  event : Event
  deriving DecidableEq

/-- A message handed to the LayerZero endpoint. -/
structure Sent where
  dstEid : UInt32
  receiver : Bytes 32
  message : List UInt8
  deriving DecidableEq

/-- `LzReceiveParams`. -/
structure LzReceiveParams where
  srcEid : UInt32
  sender : Bytes 32
  nonce : UInt64
  guid : Bytes 32
  message : List UInt8
  deriving DecidableEq

/-- The accounts, and the program's history. -/
structure State where
  /-- The bump `find_program_address` gives. -/
  bumps : Key → UInt8
  /-- The rent-exempt minimum of a size. -/
  rent : Nat → Nat
  /-- The wallets the system program owns. -/
  systemOwned : Pubkey → Bool
  lamports : Key → Nat
  -- The accounts of the program; `none` before they are created and after they are closed.
  store : Option Store
  lzReceiveTypes : Option LzReceiveTypesAccounts
  peers : UInt32 → Option Peer
  nonces : Pubkey → Option SenderNonce
  intents : IntentId → Option IntentState
  escrows : IntentId → Option EscrowVault
  -- Its history, oldest first
  log : List Entry
  sent : List Sent
  received : List LzReceiveParams

/-- `emit!(e)`. -/
def State.emit (s : State) (now : Int) (e : Event) : State := { s with log := s.log ++ [⟨now, e⟩] }

/-- The program deployed, with the wallets around it. -/
def initial (bumps : Key → UInt8) (rent : Nat → Nat) (systemOwned : Pubkey → Bool) (lamports : Key → Nat) :
    State where
  bumps := bumps
  rent := rent
  systemOwned := systemOwned
  lamports := lamports
  store := none
  lzReceiveTypes := none
  peers := fun _ => none
  nonces := fun _ => none
  intents := fun _ => none
  escrows := fun _ => none
  log := []
  sent := []
  received := []

/-- A wallet, for examples. -/
def walletOf (b : UInt8) : Pubkey := ⟨List.replicate 32 b, List.length_replicate⟩

/-- Wallets of some lamports, for examples. -/
def exampleLamports : Key → Nat
  | .wallet _ => 10000
  | _ => 0

/-- The program deployed among them. -/
def exampleProgram : State := initial (fun _ => 255) (fun size => size) (fun _ => true) exampleLamports

end Bosphor.Solana

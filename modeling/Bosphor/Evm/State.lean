import Mathlib.Logic.Function.Basic
import Bosphor.Codec.Commitment
import Bosphor.Evm.Revert

/-!
# The adapter's state

The storage of `BosphorEscrowAdapter` and of the contracts it inherits from,
its balances, and its history: the events it emitted with their block times,
the LayerZero messages it sent, the proofs it accepted and what was withdrawn.
-/

namespace Bosphor.Evm

/-- An account. -/
abbrev Address : Type := Bytes 20

/-- An intent id, a `bytes32`. -/
abbrev IntentId : Type := Bytes 32

/-- `address(0)`. -/
def zeroAddress : Address := Bytes.zero 20

/-- `NATIVE_TOKEN`, the sentinel for the native token in a `token` field. -/
def nativeToken : Address := zeroAddress

/-- `bytes32(uint256(uint160(a)))`. -/
def toBytes32 (a : Address) : Bytes 32 :=
  ⟨List.replicate 12 0 ++ a.val, by rw [List.length_append, List.length_replicate, a.property]⟩

theorem toBytes32_inj {a b : Address} (h : toBytes32 a = toBytes32 b) : a = b :=
  Subtype.ext (List.append_cancel_left (congrArg Subtype.val h))

/-- `EscrowStatus`. -/
inductive EscrowStatus where
  | none
  | pending
  | released
  | refunded
  deriving DecidableEq, Inhabited

/-- `Escrow`. -/
structure Escrow where
  payer : Address
  token : Address
  amount : Nat
  deadline : UInt64
  status : EscrowStatus
  deriving DecidableEq

/-- The zeroed storage of an id without an escrow. -/
def Escrow.empty : Escrow := ⟨zeroAddress, zeroAddress, 0, 0, .none⟩

/-- The events of the contract. -/
inductive Event where
  | escrowOpened (intentId : IntentId) (payer token : Address) (amount : Nat) (deadline : UInt64)
  | escrowReleased (intentId : IntentId) (recipient : Address) (amount : Nat)
  | escrowRefunded (intentId : IntentId) (payer : Address) (amount : Nat)
  | withdrawn (recipient : Address) (amount : Nat)
  | withdrawnToken (token recipient : Address) (amount : Nat)
  | intentSubmitted (intentId : IntentId) (sender : Address) (targetChainId : UInt32)
      (commitment : Commitment) (nonce : UInt64)
  | intentExecuted (intentId : IntentId) (proof : List UInt8)
  | relayerUpdated (oldRelayer newRelayer : Address)
  | peerSet (eid : UInt32) (peer : Bytes 32)
  | ownershipTransferred (previousOwner newOwner : Address)
  deriving DecidableEq

/-- An emitted event, with the `block.timestamp` of its block. -/
structure Entry where
  time : Nat
  event : Event
  deriving DecidableEq

/-- A message handed to the LayerZero endpoint. -/
structure Sent where
  dstEid : UInt32
  receiver : Bytes 32
  message : List UInt8
  deriving DecidableEq

/-- A message `lzReceive` accepted. -/
structure Received where
  srcEid : UInt32
  sender : Bytes 32
  message : List UInt8
  deriving DecidableEq

/-- A token contract, as far as the adapter depends on it: the adapter's balance, and whether it
moves exactly the amounts it is asked to. -/
structure TokenAccount where
  balance : Nat
  exact : Bool

/-- The state of the contract and of the accounts it holds. -/
structure State where
  /-- `address(this)`. -/
  self : Address
  -- `OAppCore`, `Ownable`
  endpoint : Address
  owner : Address
  peers : UInt32 → Bytes 32
  -- `ReentrancyGuard`
  entered : Bool
  -- `EscrowVault`
  escrows : IntentId → Escrow
  withdrawable : Address → Nat
  withdrawableToken : Address → Address → Nat
  -- `BosphorEscrowAdapter`
  trustedRelayer : Address
  intents : IntentId → Bool
  executed : IntentId → Bool
  committedBlobId : IntentId → Bytes 32
  intentDeadlines : IntentId → Nat
  nonces : Address → Nat
  permit2 : Address
  -- What the contract holds
  balance : Nat
  tokens : Address → TokenAccount
  -- Its history, oldest first
  log : List Entry
  sent : List Sent
  received : List Received
  /-- What each account has withdrawn of each asset. -/
  drawn : Address → Address → Nat

/-- `emit e`. -/
def State.emit (s : State) (now : Nat) (e : Event) : State := { s with log := s.log ++ [⟨now, e⟩] }

/-- Native value arrives with a call. No account can hold `2 ^ 256` wei. -/
def receiveValue (value : Nat) (s : State) : Except Revert State :=
  if s.balance + value < uint256Size then .ok { s with balance := s.balance + value } else .error .externalCall

/-- `onlyOwner`. -/
def onlyOwner (sender : Address) (s : State) : Except Revert Unit :=
  revertIf (sender ≠ s.owner) .callerNotOwner

/-- The storage right after the constructor: `owner` is the deployer, and `tokens` the token contracts
around it. -/
def initial (self endpoint owner trustedRelayer : Address) (tokens : Address → TokenAccount) : State where
  self := self
  endpoint := endpoint
  owner := owner
  peers := fun _ => Bytes.zero 32
  entered := false
  escrows := fun _ => .empty
  withdrawable := fun _ => 0
  withdrawableToken := fun _ _ => 0
  trustedRelayer := trustedRelayer
  intents := fun _ => false
  executed := fun _ => false
  committedBlobId := fun _ => Bytes.zero 32
  intentDeadlines := fun _ => 0
  nonces := fun _ => 0
  permit2 := zeroAddress
  balance := 0
  tokens := tokens
  log := []
  sent := []
  received := []
  drawn := fun _ _ => 0

/-- The constructor. -/
def deploy (self endpoint owner trustedRelayer : Address) (tokens : Address → TokenAccount) :
    Except Revert State := do
  revertIf (trustedRelayer = zeroAddress) .zeroAddress
  return initial self endpoint owner trustedRelayer tokens

/-- An account, for examples. -/
def accountOf (b : UInt8) : Address := ⟨List.replicate 20 b, List.length_replicate⟩

/-- A deployment whose tokens move exact amounts, for examples. -/
def exampleAdapter : State :=
  initial (accountOf 1) (accountOf 2) (accountOf 3) (accountOf 4) fun _ => ⟨0, true⟩

theorem exampleAdapter_deployed :
    deploy (accountOf 1) (accountOf 2) (accountOf 3) (accountOf 4) (fun _ => ⟨0, true⟩) = .ok exampleAdapter :=
  rfl

end Bosphor.Evm

import Mathlib.Logic.Function.Basic
import Bosphor.Codec.Move

/-!
# The Sui objects

The shared objects of the receiver and the executor, the peers of the OApp they
use, and their history: the events with the times of the clock, the LayerZero
messages accepted and sent, and what was transferred.
-/

namespace Bosphor.Sui

/-- An address. -/
abbrev Address : Type := Bytes 32

/-- `@0x0`. -/
def zeroAddress : Address := Bytes.zero 32

/-- `IntentRecord`. -/
structure IntentRecord where
  committedBlobId : U256
  committedStorageEpochs : UInt32
  committedDeadline : UInt64
  srcEid : UInt32
  nonce : UInt64
  deriving DecidableEq

/-- `LzReceiverConfig`. -/
structure LzReceiverConfig where
  receivedIntents : List UInt8 → Option IntentRecord
  relayer : Address

/-- `ExecutorConfig`; the table of executed intents has no value but `true`. -/
structure ExecutorConfig where
  relayer : Address
  executedIntents : List UInt8 → Option Bool

/-- A Walrus `Blob`, as far as the executor reads it. -/
structure Blob where
  blobId : U256
  certifiedEpoch : Option UInt32
  endEpoch : UInt32
  deriving DecidableEq

/-- `StorageReceipt`. -/
structure StorageReceipt where
  intentId : List UInt8
  walrusBlobId : U256
  endEpoch : UInt32
  sender : Address
  deriving DecidableEq

/-- The events of the modules. -/
inductive Event where
  | intentReceived (intentId : List UInt8) (committedBlobId : U256) (size : UInt32) (encodingType : UInt8)
      (storageEpochs : UInt32) (deadline : UInt64) (srcEid : UInt32) (nonce : UInt64) (guid : Bytes 32)
  | proofSent (intentId blobId : List UInt8) (endEpoch : UInt64) (dstEid : UInt32) (nonce : UInt64)
      (guid : Bytes 32)
  | storageExecuted (intentId : List UInt8) (walrusBlobId : U256) (endEpoch : UInt32) (executor : Address)
  | configCreated (relayer : Address)
  | relayerChanged (oldRelayer newRelayer : Address)
  deriving DecidableEq

/-- An emitted event, with the clock's `timestamp_ms`. -/
structure Entry where
  time : Nat
  event : Event
  deriving DecidableEq

/-- A message the endpoint delivers. -/
structure Packet where
  srcEid : UInt32
  sender : Bytes 32
  nonce : UInt64
  guid : Bytes 32
  message : List UInt8
  deriving DecidableEq

/-- A message handed to the endpoint. -/
structure Sent where
  dstEid : UInt32
  receiver : Bytes 32
  message : List UInt8
  deriving DecidableEq

/-- What a transaction transfers. -/
inductive Transfer where
  | coin (value : Nat) (recipient : Address)
  | blob (blob : Blob) (recipient : Address)
  | receipt (receipt : StorageReceipt) (recipient : Address)
  deriving DecidableEq

/-- The objects, and their history. -/
structure State where
  /-- The peers of the OApp. -/
  peers : UInt32 → Option (Bytes 32)
  receiver : LzReceiverConfig
  executor : ExecutorConfig
  -- Their history, oldest first
  log : List Entry
  delivered : List Packet
  sent : List Sent
  transferred : List Transfer

/-- `event::emit(e)`. -/
def State.emit (s : State) (now : Nat) (e : Event) : State := { s with log := s.log ++ [⟨now, e⟩] }

/-- `transfer`. -/
def State.transfer (s : State) (t : Transfer) : State := { s with transferred := s.transferred ++ [t] }

/-- Both modules published by `publisher`. -/
def init (now : Nat) (publisher : Address) : State where
  peers := fun _ => none
  receiver := ⟨fun _ => none, publisher⟩
  executor := ⟨publisher, fun _ => none⟩
  log := [⟨now, .configCreated publisher⟩]
  delivered := []
  sent := []
  transferred := []

end Bosphor.Sui

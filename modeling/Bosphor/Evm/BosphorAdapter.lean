import Bosphor.Evm.Settlement

/-!
# `BosphorAdapter`

The adapter without an escrow, which `BosphorEscrowAdapter` was made from: the
same intents, proofs and administration, and the whole value of a submission
goes to the endpoint. What the endpoint's fee leaves of it comes back to the
sender, before the submission is logged: a sender with code may call the adapter
then. The adapter with the escrow pays the fee exactly, and nothing comes back.

* `State.observed`: what the adapter with the escrow shows of the things that
  both have;
* `call_observed`: whatever a call of the adapter with the escrow does to them,
  some calls of this adapter do that run no code of the sender
  (`Effect.observed`, `Call.Quiet`);
* `step_lifts`: what such a call of this adapter does, a call of the other one
  does, as long as no escrow holds any value (`Plain`);
* `run_flattens`: any run of this adapter comes to what one of such calls comes
  to, up to the order of the events (`Alike`);
* `observed_reachable_iff`: so both show the same states.
-/

namespace Bosphor.Evm

open Bytes (toBE)

namespace BosphorAdapter

/-- The storage of the contract and of those it inherits from, and its history. -/
structure State where
  endpoint : Address
  owner : Address
  peers : UInt32 → Bytes 32
  trustedRelayer : Address
  intents : IntentId → Bool
  executed : IntentId → Bool
  committedBlobId : IntentId → Bytes 32
  intentDeadlines : IntentId → Nat
  nonces : Address → Nat
  log : List Entry
  sent : List Sent
  received : List Received

def State.emit (s : State) (now : Nat) (e : Event) : State := { s with log := s.log ++ [⟨now, e⟩] }

def initial (endpoint owner trustedRelayer : Address) : State where
  endpoint := endpoint
  owner := owner
  peers := fun _ => Bytes.zero 32
  trustedRelayer := trustedRelayer
  intents := fun _ => false
  executed := fun _ => false
  committedBlobId := fun _ => Bytes.zero 32
  intentDeadlines := fun _ => 0
  nonces := fun _ => 0
  log := []
  sent := []
  received := []

/-- The constructor. -/
def deploy (endpoint owner trustedRelayer : Address) : Except Revert State := do
  revertIf (trustedRelayer = zeroAddress) .zeroAddress
  return initial endpoint owner trustedRelayer

def onlyOwner (sender : Address) (s : State) : Except Revert Unit :=
  revertIf (sender ≠ s.owner) .callerNotOwner

def getPeerOrRevert (eid : UInt32) (s : State) : Except Revert (Bytes 32) := do
  revertIf (s.peers eid = Bytes.zero 32) .noPeer
  return s.peers eid

/-- `_lzSend`: the endpoint takes the message and all of the value, unless its `send` reverts or the value does not
cover its fee. -/
def lzSend (dstEid : UInt32) (message : List UInt8) (value fee : Nat) (ok : Bool) (s : State) :
    Except Revert State := do
  let receiver ← getPeerOrRevert dstEid s
  revertIf (¬ (ok ∧ fee ≤ value)) .externalCall
  return { s with sent := s.sent ++ [⟨dstEid, receiver, message⟩] }

/-- `submitIntent(_dstEid, _blobId, _size, _encodingType, _storageEpochs, _deadline, _options)`, up to where the
endpoint gives back what its fee leaves of the value. -/
def beginSubmit (now : Nat) (sender : Address) (value : Nat) (dstEid : UInt32) (c : Commitment) (fee : Nat)
    (sendOk : Bool) (s : State) : Except Revert (State × IntentId × Nat) := do
  -- no account can hold more
  revertIf (uint256Size ≤ value) .externalCall
  revertIf (now > c.deadline.toNat) .deadlineExpired
  let nonce := s.nonces sender
  let nonceNext ← checkedAdd nonce 1
  let s := { s with nonces := Function.update s.nonces sender nonceNext }
  let intentId ← CommitmentCodec.deriveIntentId c (toBytes32 sender) (UInt64.ofNat nonce)
  revertIf (s.intents intentId) .intentAlreadyExists
  let s := { s with
    intents := Function.update s.intents intentId true
    committedBlobId := Function.update s.committedBlobId intentId c.blobId
    intentDeadlines := Function.update s.intentDeadlines intentId c.deadline.toNat }
  let message ← encodeMessage intentId c
  let s ← lzSend dstEid message value fee sendOk s
  return (s, intentId, nonce)

/-- Its end. -/
def endSubmit (now : Nat) (sender : Address) (dstEid : UInt32) (c : Commitment) (intentId : IntentId) (nonce : Nat)
    (s : State) : State :=
  s.emit now (.intentSubmitted intentId sender dstEid c (UInt64.ofNat nonce))

/-- `_markExecuted(_intentId, _proof)`. -/
def markExecuted (now : Nat) (intentId : IntentId) (proof : List UInt8) (s : State) : Except Revert State := do
  revertIf (¬ s.intents intentId) .intentNotFound
  revertIf (s.executed intentId) .alreadyExecuted
  let s := { s with executed := Function.update s.executed intentId true }
  return s.emit now (.intentExecuted intentId proof)

/-- `_lzReceive(…, _message, …)`. -/
def lzReceiveMessage (now : Nat) (message : List UInt8) (s : State) : Except Revert State := do
  let (intentId, blobId, endEpoch) ← decodeProofMessage message
  revertIf (blobId ≠ s.committedBlobId intentId) .blobIdMismatch
  markExecuted now intentId (blobId.val ++ toBE 32 endEpoch) s

/-- `lzReceive(_origin, _guid, _message, _executor, _extraData)` of `OAppReceiver`. -/
def lzReceive (now : Nat) (sender : Address) (packet : Received) (s : State) : Except Revert State := do
  revertIf (sender ≠ s.endpoint) .onlyEndpoint
  revertIf ((← getPeerOrRevert packet.srcEid s) ≠ packet.sender) .onlyPeer
  let s ← lzReceiveMessage now packet.message s
  return { s with received := s.received ++ [packet] }

/-- `confirmExecution(_intentId, _proof)`. -/
def confirmExecution (now : Nat) (sender : Address) (intentId : IntentId) (proof : List UInt8) (s : State) :
    Except Revert State := do
  onlyOwner sender s
  markExecuted now intentId proof s

/-- `setRelayer(_relayer)`. -/
def setRelayer (now : Nat) (sender relayer : Address) (s : State) : Except Revert State := do
  onlyOwner sender s
  revertIf (relayer = zeroAddress) .zeroAddress
  let old := s.trustedRelayer
  return ({ s with trustedRelayer := relayer } : State).emit now (.relayerUpdated old relayer)

/-- `setPeer(_eid, _peer)` of `OAppCore`. -/
def setPeer (now : Nat) (sender : Address) (eid : UInt32) (peer : Bytes 32) (s : State) : Except Revert State := do
  onlyOwner sender s
  return ({ s with peers := Function.update s.peers eid peer } : State).emit now (.peerSet eid peer)

/-- `transferOwnership(newOwner)` of `Ownable`. -/
def transferOwnership (now : Nat) (sender newOwner : Address) (s : State) : Except Revert State := do
  onlyOwner sender s
  revertIf (newOwner = zeroAddress) .zeroAddress
  return ({ s with owner := newOwner } : State).emit now (.ownershipTransferred s.owner newOwner)

/-- `renounceOwnership()` of `Ownable`. -/
def renounceOwnership (now : Nat) (sender : Address) (s : State) : Except Revert State := do
  onlyOwner sender s
  return ({ s with owner := zeroAddress } : State).emit now (.ownershipTransferred s.owner zeroAddress)

/-- A call. When a submission has something to come back, the sender's code makes the calls `refunded`. -/
inductive Call where
  | submitIntent (sender : Address) (value : Nat) (dstEid : UInt32) (c : Commitment) (fee : Nat) (sendOk : Bool)
      (refunded : List Call)
  | lzReceive (sender : Address) (packet : Received)
  | confirmExecution (sender : Address) (intentId : IntentId) (proof : List UInt8)
  | setRelayer (sender relayer : Address)
  | setPeer (sender : Address) (eid : UInt32) (peer : Bytes 32)
  | transferOwnership (sender newOwner : Address)
  | renounceOwnership (sender : Address)

mutual

/-- The call at block time `now`; an error changes nothing. -/
def call (now : Nat) : Call → State → Except Revert State
  | .submitIntent sender value dstEid c fee sendOk refunded, s => do
    let (s, intentId, nonce) ← beginSubmit now sender value dstEid c fee sendOk s
    let s := if fee < value then reenter now refunded s else s
    return endSubmit now sender dstEid c intentId nonce s
  | .lzReceive sender packet, s => lzReceive now sender packet s
  | .confirmExecution sender intentId proof, s => confirmExecution now sender intentId proof s
  | .setRelayer sender relayer, s => setRelayer now sender relayer s
  | .setPeer sender eid peer, s => setPeer now sender eid peer s
  | .transferOwnership sender newOwner, s => transferOwnership now sender newOwner s
  | .renounceOwnership sender, s => renounceOwnership now sender s

/-- The calls the sender's code makes, in order; those that revert change nothing. -/
def reenter (now : Nat) : List Call → State → State
  | [], s => s
  | b :: bs, s =>
    reenter now bs (match call now b s with
      | .ok s' => s'
      | .error _ => s)

end

/-- One transaction's call, at its block time. -/
def step (a : Nat × Call) (s : State) : Except Revert State := call a.1 a.2 s

/-! ## When the functions return -/

variable {now : Nat} {s s' : State}

theorem onlyOwner_ok {sender : Address} {u : Unit} : onlyOwner sender s = .ok u ↔ sender = s.owner := by
  simp only [onlyOwner, revertIf_ok, ne_eq, not_not]

theorem getPeerOrRevert_ok {eid : UInt32} {peer : Bytes 32} :
    getPeerOrRevert eid s = .ok peer ↔ s.peers eid ≠ Bytes.zero 32 ∧ peer = s.peers eid := by
  simp only [getPeerOrRevert, Result.bind_ok, revertIf_ok, exists_const, Result.pure_ok, ne_eq]

/-- The id `sender` submits `c` under next. -/
def State.nextId (s : State) (sender : Address) (c : Commitment) : IntentId :=
  submissionId c sender (s.nonces sender)

/-- The state when the endpoint has taken the message. -/
def handed (sender : Address) (dstEid : UInt32) (c : Commitment) (s : State) : State :=
  let id := s.nextId sender c
  { s with
    nonces := Function.update s.nonces sender (s.nonces sender + 1)
    intents := Function.update s.intents id true
    committedBlobId := Function.update s.committedBlobId id c.blobId
    intentDeadlines := Function.update s.intentDeadlines id c.deadline.toNat
    sent := s.sent ++ [⟨dstEid, s.peers dstEid, id.val ++ c.wire⟩] }

/-- The event of a submission. -/
def State.submission (s : State) (now : Nat) (sender : Address) (dstEid : UInt32) (c : Commitment) : Entry :=
  ⟨now, .intentSubmitted (s.nextId sender c) sender dstEid c (UInt64.ofNat (s.nonces sender))⟩

/-- The state a submission leaves. -/
def submitted (now : Nat) (sender : Address) (dstEid : UInt32) (c : Commitment) (s : State) : State :=
  { handed sender dstEid c s with log := s.log ++ [s.submission now sender dstEid c] }

/-- A submission that the adapter and the endpoint accept. -/
structure Submittable (now : Nat) (sender : Address) (value : Nat) (dstEid : UInt32) (c : Commitment) (fee : Nat)
    (s : State) : Prop where
  fits : value < uint256Size
  inTime : now ≤ c.deadline.toNat
  nonceFits : s.nonces sender + 1 < uint256Size
  new : s.intents (s.nextId sender c) = false
  peer : s.peers dstEid ≠ Bytes.zero 32
  paid : fee ≤ value

section

variable {sender : Address} {value : Nat} {dstEid : UInt32} {c : Commitment} {fee : Nat} {sendOk : Bool}

theorem beginSubmit_ok {id : IntentId} {nonce : Nat} :
    beginSubmit now sender value dstEid c fee sendOk s = .ok (s', id, nonce) ↔
      Submittable now sender value dstEid c fee s ∧ sendOk = true ∧ s' = handed sender dstEid c s ∧
        id = s.nextId sender c ∧ nonce = s.nonces sender := by
  simp only [beginSubmit, lzSend, Result.bind_ok, revertIf_ok, exists_const, Result.pure_ok, checkedAdd_ok,
    deriveIntentId_submission, encodeMessage_eq, getPeerOrRevert_ok, Except.ok.injEq, gt_iff_lt, not_lt, not_le,
    ne_eq, Bool.not_eq_true, not_not, Prod.mk.injEq]
  constructor
  · rintro ⟨hvalue, htime, _, ⟨hnonce, rfl⟩, _, rfl, hnew, _, rfl, _, ⟨_, ⟨hpeer, rfl⟩, ⟨hok, hpaid⟩, rfl⟩, rfl,
      rfl, rfl⟩
    exact ⟨⟨hvalue, htime, hnonce, hnew, hpeer, hpaid⟩, hok, rfl, rfl, rfl⟩
  · rintro ⟨⟨hvalue, htime, hnonce, hnew, hpeer, hpaid⟩, hok, rfl, rfl, rfl⟩
    exact ⟨hvalue, htime, _, ⟨hnonce, rfl⟩, _, rfl, hnew, _, rfl, _, ⟨_, ⟨hpeer, rfl⟩, ⟨hok, hpaid⟩, rfl⟩, rfl,
      rfl, rfl⟩

/-- A submission, with what the sender's code does when it is refunded. -/
theorem submitIntent_ok {refunded : List Call} :
    call now (.submitIntent sender value dstEid c fee sendOk refunded) s = .ok s' ↔
      Submittable now sender value dstEid c fee s ∧ sendOk = true ∧
        s' = (if fee < value then reenter now refunded (handed sender dstEid c s)
          else handed sender dstEid c s).emit now (s.submission now sender dstEid c).event := by
  simp only [call, Result.bind_ok, Prod.exists, beginSubmit_ok, Result.pure_ok, endSubmit]
  constructor
  · rintro ⟨_, _, _, ⟨hs, hok, rfl, rfl, rfl⟩, rfl⟩
    exact ⟨hs, hok, rfl⟩
  · rintro ⟨hs, hok, rfl⟩
    exact ⟨_, _, _, ⟨hs, hok, rfl, rfl, rfl⟩, rfl⟩

/-- A submission whose sender makes no calls. -/
theorem submitIntent_quiet {refunded : List Call} (hquiet : fee < value → refunded = []) :
    call now (.submitIntent sender value dstEid c fee sendOk refunded) s = .ok s' ↔
      Submittable now sender value dstEid c fee s ∧ sendOk = true ∧ s' = submitted now sender dstEid c s := by
  have hnone : (if fee < value then reenter now refunded (handed sender dstEid c s) else handed sender dstEid c s) =
      handed sender dstEid c s := by
    split
    · rename_i hlt
      rw [hquiet hlt, reenter]
    · rfl
  rw [submitIntent_ok, hnone]
  rfl

end

/-- The state an execution leaves. -/
def executedBy (now : Nat) (id : IntentId) (proof : List UInt8) (s : State) : State :=
  { s with
    executed := Function.update s.executed id true
    log := s.log ++ [⟨now, .intentExecuted id proof⟩] }

theorem markExecuted_ok {id : IntentId} {proof : List UInt8} : markExecuted now id proof s = .ok s' ↔
    s.intents id = true ∧ s.executed id = false ∧ s' = executedBy now id proof s := by
  simp only [markExecuted, Result.bind_ok, revertIf_ok, exists_const, Result.pure_ok, Bool.not_eq_true,
    Bool.not_eq_false, State.emit, executedBy]

theorem confirmExecution_ok {sender : Address} {id : IntentId} {proof : List UInt8} :
    confirmExecution now sender id proof s = .ok s' ↔
      sender = s.owner ∧ s.intents id = true ∧ s.executed id = false ∧ s' = executedBy now id proof s := by
  simp only [confirmExecution, Result.bind_ok, onlyOwner_ok, exists_const, markExecuted_ok]

theorem setRelayer_ok {sender relayer : Address} : setRelayer now sender relayer s = .ok s' ↔
    sender = s.owner ∧ relayer ≠ zeroAddress ∧ s' = { s with
      trustedRelayer := relayer
      log := s.log ++ [⟨now, .relayerUpdated s.trustedRelayer relayer⟩] } := by
  simp only [setRelayer, Result.bind_ok, onlyOwner_ok, exists_const, revertIf_ok, Result.pure_ok, State.emit, ne_eq]

theorem setPeer_ok {sender : Address} {eid : UInt32} {peer : Bytes 32} : setPeer now sender eid peer s = .ok s' ↔
    sender = s.owner ∧ s' = { s with
      peers := Function.update s.peers eid peer
      log := s.log ++ [⟨now, .peerSet eid peer⟩] } := by
  simp only [setPeer, Result.bind_ok, onlyOwner_ok, exists_const, Result.pure_ok, State.emit]

/-- The state under a new owner. -/
def ownedBy (now : Nat) (owner : Address) (s : State) : State :=
  { s with
    owner
    log := s.log ++ [⟨now, .ownershipTransferred s.owner owner⟩] }

theorem transferOwnership_ok {sender newOwner : Address} : transferOwnership now sender newOwner s = .ok s' ↔
    sender = s.owner ∧ newOwner ≠ zeroAddress ∧ s' = ownedBy now newOwner s := by
  simp only [transferOwnership, Result.bind_ok, onlyOwner_ok, exists_const, revertIf_ok, Result.pure_ok, State.emit,
    ownedBy, ne_eq]

theorem renounceOwnership_ok {sender : Address} : renounceOwnership now sender s = .ok s' ↔
    sender = s.owner ∧ s' = ownedBy now zeroAddress s := by
  simp only [renounceOwnership, Result.bind_ok, onlyOwner_ok, exists_const, Result.pure_ok, State.emit, ownedBy]

theorem lzReceive_ok {sender : Address} {packet : Received} :
    lzReceive now sender packet s = .ok s' ↔ sender = s.endpoint ∧ s.peers packet.srcEid = packet.sender ∧
      packet.sender ≠ Bytes.zero 32 ∧ ∃ id blobId endEpoch,
        decodeProofMessage packet.message = .ok (id, blobId, endEpoch) ∧ blobId = s.committedBlobId id ∧
          s.intents id = true ∧ s.executed id = false ∧
            s' = { executedBy now id (blobId.val ++ toBE 32 endEpoch) s with received := s.received ++ [packet] } := by
  simp only [lzReceive, lzReceiveMessage, Result.bind_ok, revertIf_ok, exists_const, Result.pure_ok,
    getPeerOrRevert_ok, not_not, ne_eq, markExecuted_ok]
  constructor
  · rintro ⟨hsender, _, ⟨hset, rfl⟩, hpeer, _, ⟨⟨id, blobId, endEpoch⟩, hdec, hblob, hi, hx, rfl⟩, rfl⟩
    exact ⟨hsender, hpeer, hpeer ▸ hset, id, blobId, endEpoch, hdec, hblob, hi, hx, rfl⟩
  · rintro ⟨hsender, hpeer, hset, id, blobId, endEpoch, hdec, hblob, hi, hx, rfl⟩
    exact ⟨hsender, _, ⟨hpeer ▸ hset, rfl⟩, hpeer, _, ⟨⟨id, blobId, endEpoch⟩, hdec, hblob, hi, hx, rfl⟩, rfl⟩

/-! ## Calls of the sender's code -/

def Call.Submits : Call → Prop
  | .submitIntent .. => True
  | _ => False

/-- No code of the sender runs: nothing comes back, or the sender makes no call then. -/
def Call.Quiet : Call → Prop
  | .submitIntent _ value _ _ fee _ refunded => fee < value → refunded = []
  | _ => True

theorem Call.quiet_of_not_submits {b : Call} (hb : ¬b.Submits) : b.Quiet := by
  cases b <;> first | exact absurd trivial hb | trivial

/-- `t` has the events of `s` and the entries `xs`, in any order, and is `s` otherwise. -/
def Owes (xs : List Entry) (s t : State) : Prop := ∃ log : List Entry, log.Perm (s.log ++ xs) ∧ t = { s with log }

/-- The states differ in the order of their events at most. -/
abbrev Alike (s t : State) : Prop := Owes [] s t

section

variable {xs log : List Entry} {t : State}

theorem Alike.refl (s : State) : Alike s s := ⟨s.log, by rw [List.append_nil], rfl⟩

/-- What both emit. -/
theorem perm_emit {old : List Entry} (h : log.Perm (old ++ xs)) (ys : List Entry) :
    (log ++ ys).Perm (old ++ ys ++ xs) := by
  have hswap : (old ++ xs ++ ys).Perm (old ++ ys ++ xs) := by
    rw [List.append_assoc, List.append_assoc]
    exact List.perm_append_comm.append_left old
  exact (h.append_right ys).trans hswap

/-- What is owed is emitted. -/
theorem Owes.emit {e : Event} (h : Owes (⟨now, e⟩ :: xs) s t) : Owes xs (s.emit now e) t := by
  obtain ⟨log, hperm, rfl⟩ := h
  refine ⟨log, ?_, rfl⟩
  show log.Perm (s.log ++ [⟨now, e⟩] ++ xs)
  rwa [List.append_assoc, List.singleton_append]

/-- No function looks at the log, and none but a submission runs other code. -/
theorem call_owes {b : Call} (hb : ¬b.Submits) (hcall : call now b s = .ok s') (h : Owes xs s t) :
    ∃ t', call now b t = .ok t' ∧ Owes xs s' t' := by
  obtain ⟨log, hperm, rfl⟩ := h
  cases b with
  | submitIntent sender value dstEid c fee sendOk refunded => exact absurd trivial hb
  | lzReceive sender packet =>
    rw [call] at hcall
    obtain ⟨hsender, hpeer, hset, id, blobId, endEpoch, hdec, hblob, hi, hx, rfl⟩ := lzReceive_ok.mp hcall
    refine ⟨_, ?_, _, perm_emit hperm _, rfl⟩
    rw [call]
    exact lzReceive_ok.mpr ⟨hsender, hpeer, hset, id, blobId, endEpoch, hdec, hblob, hi, hx, rfl⟩
  | confirmExecution sender id proof =>
    rw [call] at hcall
    obtain ⟨hsender, hi, hx, rfl⟩ := confirmExecution_ok.mp hcall
    refine ⟨_, ?_, _, perm_emit hperm _, rfl⟩
    rw [call]
    exact confirmExecution_ok.mpr ⟨hsender, hi, hx, rfl⟩
  | setRelayer sender relayer =>
    rw [call] at hcall
    obtain ⟨hsender, hne, rfl⟩ := setRelayer_ok.mp hcall
    refine ⟨_, ?_, _, perm_emit hperm _, rfl⟩
    rw [call]
    exact setRelayer_ok.mpr ⟨hsender, hne, rfl⟩
  | setPeer sender eid peer =>
    rw [call] at hcall
    obtain ⟨hsender, rfl⟩ := setPeer_ok.mp hcall
    refine ⟨_, ?_, _, perm_emit hperm _, rfl⟩
    rw [call]
    exact setPeer_ok.mpr ⟨hsender, rfl⟩
  | transferOwnership sender newOwner =>
    rw [call] at hcall
    obtain ⟨hsender, hne, rfl⟩ := transferOwnership_ok.mp hcall
    refine ⟨_, ?_, _, perm_emit hperm _, rfl⟩
    rw [call]
    exact transferOwnership_ok.mpr ⟨hsender, hne, rfl⟩
  | renounceOwnership sender =>
    rw [call] at hcall
    obtain ⟨hsender, rfl⟩ := renounceOwnership_ok.mp hcall
    refine ⟨_, ?_, _, perm_emit hperm _, rfl⟩
    rw [call]
    exact renounceOwnership_ok.mpr ⟨hsender, rfl⟩

/-- A submission and the same one without the calls of the sender's code: its event is there before theirs. -/
theorem submit_owes {sender : Address} {value : Nat} {dstEid : UInt32} {c : Commitment} {fee : Nat}
    (hs : Submittable now sender value dstEid c fee s) (h : Owes xs s t) :
    ∃ t', call now (.submitIntent sender value dstEid c fee true []) t = .ok t' ∧
      Owes (s.submission now sender dstEid c :: xs) (handed sender dstEid c s) t' := by
  obtain ⟨log, hperm, rfl⟩ := h
  have hs' : Submittable now sender value dstEid c fee { s with log } :=
    ⟨hs.fits, hs.inTime, hs.nonceFits, hs.new, hs.peer, hs.paid⟩
  refine ⟨_, (submitIntent_quiet fun _ => rfl).mpr ⟨hs', rfl, rfl⟩, _, ?_, rfl⟩
  have hemit := perm_emit hperm [s.submission now sender dstEid c]
  rwa [List.append_assoc, List.singleton_append] at hemit

/-- One call does what one call does. -/
theorem call_flattens_one {b : Call} (hb : ¬b.Submits) (hcall : call now b s = .ok s') (h : Owes xs s t) :
    ∃ bs : List (Nat × Call), (∀ a ∈ bs, a.2.Quiet) ∧ Owes xs s' (Machine.run step t bs) := by
  obtain ⟨t', ht, howes⟩ := call_owes hb hcall h
  have hstep : step (now, b) t = .ok t' := ht
  refine ⟨[(now, b)], List.forall_mem_singleton.mpr (Call.quiet_of_not_submits hb), ?_⟩
  rwa [Machine.run_singleton hstep]

mutual

/-- What a call does, calls do that run no code of the sender; they come one after the other. -/
theorem call_flattens {now : Nat} : (b : Call) → (xs : List Entry) → (s s' t : State) → call now b s = .ok s' →
    Owes xs s t → ∃ bs : List (Nat × Call), (∀ a ∈ bs, a.2.Quiet) ∧ Owes xs s' (Machine.run step t bs)
  | .submitIntent sender value dstEid c fee sendOk refunded, xs, s, s', t, hcall, h => by
    obtain ⟨hs, -, rfl⟩ := submitIntent_ok.mp hcall
    obtain ⟨t₁, hfirst, howes⟩ := submit_owes hs h
    have hstep : step (now, .submitIntent sender value dstEid c fee true []) t = .ok t₁ := hfirst
    have hquiet : Call.Quiet (.submitIntent sender value dstEid c fee true []) := fun _ => rfl
    by_cases hback : fee < value
    · rw [if_pos hback]
      obtain ⟨bs, hbs, hend⟩ := reenter_flattens refunded _ _ _ howes
      refine ⟨(now, .submitIntent sender value dstEid c fee true []) :: bs, ?_, ?_⟩
      · exact List.forall_mem_cons.mpr ⟨hquiet, hbs⟩
      · rw [Machine.run_cons, Machine.next_ok hstep]
        exact hend.emit
    · rw [if_neg hback]
      refine ⟨[(now, .submitIntent sender value dstEid c fee true [])], ?_, ?_⟩
      · exact List.forall_mem_singleton.mpr hquiet
      · rw [Machine.run_singleton hstep]
        exact howes.emit
  | .lzReceive .., _, _, _, _, hcall, h => call_flattens_one id hcall h
  | .confirmExecution .., _, _, _, _, hcall, h => call_flattens_one id hcall h
  | .setRelayer .., _, _, _, _, hcall, h => call_flattens_one id hcall h
  | .setPeer .., _, _, _, _, hcall, h => call_flattens_one id hcall h
  | .transferOwnership .., _, _, _, _, hcall, h => call_flattens_one id hcall h
  | .renounceOwnership .., _, _, _, _, hcall, h => call_flattens_one id hcall h

theorem reenter_flattens {now : Nat} : (bs : List Call) → (xs : List Entry) → (s t : State) → Owes xs s t →
    ∃ as : List (Nat × Call), (∀ a ∈ as, a.2.Quiet) ∧ Owes xs (reenter now bs s) (Machine.run step t as)
  | [], xs, s, t, h => ⟨[], List.forall_mem_nil _, by rwa [reenter]⟩
  | b :: bs, xs, s, t, h => by
    rw [reenter]
    cases hcall : call now b s with
    | error e => exact reenter_flattens bs xs s t h
    | ok s₁ =>
      obtain ⟨as, has, hfirst⟩ := call_flattens b xs s s₁ t hcall h
      obtain ⟨as', has', hend⟩ := reenter_flattens bs xs s₁ _ hfirst
      refine ⟨as ++ as', List.forall_mem_append.mpr ⟨has, has'⟩, ?_⟩
      rwa [Machine.run_append]

end

/-- Any run comes to what a run comes to in which no code of a sender runs, up to the order of the events. -/
theorem run_flattens (h : Alike s t) (bs : List (Nat × Call)) :
    ∃ as : List (Nat × Call), (∀ a ∈ as, a.2.Quiet) ∧ Alike (Machine.run step s bs) (Machine.run step t as) := by
  induction bs generalizing s t with
  | nil => exact ⟨[], List.forall_mem_nil _, h⟩
  | cons b bs ih =>
    rw [Machine.run_cons]
    obtain ⟨s', hstep, hnext⟩ | ⟨-, hnext⟩ := Machine.next_cases step s b
    · rw [hnext]
      obtain ⟨as, has, hfirst⟩ := call_flattens b.2 [] s s' t hstep h
      obtain ⟨as', has', hend⟩ := ih hfirst
      refine ⟨as ++ as', List.forall_mem_append.mpr ⟨has, has'⟩, ?_⟩
      rwa [Machine.run_append]
    · rw [hnext]
      exact ih h

/-- A sender that owns the adapter may confirm its intent while it is refunded: the execution is logged before the
submission. -/
theorem owner_confirms_first {value : Nat} {dstEid : UInt32} {c : Commitment} {fee : Nat}
    (hs : Submittable now s.owner value dstEid c fee s) (hback : fee < value)
    (hfresh : s.executed (s.nextId s.owner c) = false) (proof : List UInt8) :
    ∃ s', call now (.submitIntent s.owner value dstEid c fee true
        [.confirmExecution s.owner (s.nextId s.owner c) proof]) s = .ok s' ∧
      s'.log = s.log ++ [⟨now, .intentExecuted (s.nextId s.owner c) proof⟩, s.submission now s.owner dstEid c] := by
  refine ⟨_, submitIntent_ok.mpr ⟨hs, rfl, rfl⟩, ?_⟩
  have hconfirm : call now (.confirmExecution s.owner (s.nextId s.owner c) proof) (handed s.owner dstEid c s) =
      .ok (executedBy now (s.nextId s.owner c) proof (handed s.owner dstEid c s)) := by
    rw [call]
    exact confirmExecution_ok.mpr ⟨rfl, Function.update_self .., hfresh, rfl⟩
  rw [if_pos hback, reenter, hconfirm, reenter]
  exact List.append_assoc ..

end

end BosphorAdapter

/-! ## What both adapters have -/

/-- An event that both adapters emit. -/
def Event.shared : Event → Bool
  | .escrowOpened .. | .escrowReleased .. | .escrowRefunded .. | .withdrawn .. | .withdrawnToken .. => false
  | _ => true

def sharedLog (log : List Entry) : List Entry := log.filter fun x => x.event.shared

/-- What the adapter shows of what both have. -/
def State.observed (s : State) : BosphorAdapter.State where
  endpoint := s.endpoint
  owner := s.owner
  peers := s.peers
  trustedRelayer := s.trustedRelayer
  intents := s.intents
  executed := s.executed
  committedBlobId := s.committedBlobId
  intentDeadlines := s.intentDeadlines
  nonces := s.nonces
  log := sharedLog s.log
  sent := s.sent
  received := s.received

/-- Some calls of the plain adapter that run no code of a sender lead from one state to the other. -/
def Explained (t t' : BosphorAdapter.State) : Prop :=
  ∃ bs : List (Nat × BosphorAdapter.Call), (∀ b ∈ bs, b.2.Quiet) ∧ Machine.run BosphorAdapter.step t bs = t'

theorem Explained.refl (t : BosphorAdapter.State) : Explained t t := ⟨[], List.forall_mem_nil _, rfl⟩

theorem Explained.trans {t t' t'' : BosphorAdapter.State} (h : Explained t t') (h' : Explained t' t'') :
    Explained t t'' := by
  obtain ⟨bs, hbs, rfl⟩ := h
  obtain ⟨bs', hbs', rfl⟩ := h'
  exact ⟨bs ++ bs', List.forall_mem_append.mpr ⟨hbs, hbs'⟩, Machine.run_append _ _ _⟩

theorem Explained.of_call {t t' : BosphorAdapter.State} (b : Nat × BosphorAdapter.Call) (hb : b.2.Quiet)
    (h : BosphorAdapter.step b t = .ok t') : Explained t t' :=
  ⟨[b], List.forall_mem_singleton.mpr hb, Machine.run_singleton h⟩

section

variable {now : Nat} {allowed : Op → Prop} {s s' : State}

theorem sharedLog_append (log log' : List Entry) : sharedLog (log ++ log') = sharedLog log ++ sharedLog log' :=
  List.filter_append ..

theorem sharedLog_hidden {e : Event} (log : List Entry) (h : e.shared = false) :
    sharedLog (log ++ [⟨now, e⟩]) = sharedLog log := by
  rw [sharedLog_append, sharedLog, sharedLog, List.filter_cons_of_neg (by simp [h]), List.filter_nil, List.append_nil]

theorem observed_emit (s : State) (now : Nat) {e : Event} (h : e.shared = true) :
    (s.emit now e).observed = s.observed.emit now e := by
  simp only [State.observed, State.emit, BosphorAdapter.State.emit, sharedLog_append]
  rw [show sharedLog [⟨now, e⟩] = [⟨now, e⟩] from List.filter_cons_of_pos h]

/-- An event that is not shared is all that both could have seen. -/
theorem Explained.of_hidden {e : Event} (h : e.shared = false) (hlog : s'.log = s.log ++ [⟨now, e⟩])
    (hrest : s'.observed = { s.observed with log := sharedLog s'.log }) : Explained s.observed s'.observed := by
  rw [hrest, hlog, sharedLog_hidden s.log h]
  exact .refl _

/-- What an effect does to the things that both adapters have, a call of the plain one does, or nothing does. -/
theorem Effect.observed {x y : State × (Address → Nat)} (h : Effect now allowed x y) :
    Explained x.1.observed y.1.observed := by
  cases h with
  | @submit s r sender value nativeFee dstEid c ha hs hnew hnone =>
    have hfits : value < uint256Size := Nat.lt_of_le_of_lt (Nat.le_add_left _ _) hs.fits
    refine .of_call (now, .submitIntent sender value dstEid c value true []) (fun _ => rfl)
      ((BosphorAdapter.submitIntent_quiet fun _ => rfl).mpr
        ⟨⟨hfits, hs.inTime, hs.nonceFits, hnew, hs.peer, Nat.le_refl _⟩, rfl, ?_⟩)
    simp only [State.observed, submitted, BosphorAdapter.submitted, BosphorAdapter.handed, sharedLog_append]
    rfl
  | @prove s r value packet id blobId endEpoch ha hdec hp =>
    refine .of_call (now, .lzReceive s.endpoint packet) trivial (BosphorAdapter.lzReceive_ok.mpr
      ⟨rfl, hp.peer, hp.peerSet, id, blobId, endEpoch, hdec, hp.committed, hp.submitted, hp.notExecuted, ?_⟩)
    simp only [State.observed, proven, State.settled, State.credited, BosphorAdapter.executedBy, sharedLog_append,
      List.append_assoc]
    rfl
  | @refund s r id ha hpending hlate hfit => exact .of_hidden rfl rfl rfl
  | @confirm s r id proof ha hi hx =>
    refine .of_call (now, .confirmExecution s.owner id proof) trivial (BosphorAdapter.confirmExecution_ok.mpr
      ⟨rfl, hi, hx, ?_⟩)
    simp only [State.observed, BosphorAdapter.executedBy, sharedLog_append]
    rfl
  | @setRelayer s r relayer ha hne =>
    refine .of_call (now, .setRelayer s.owner relayer) trivial (BosphorAdapter.setRelayer_ok.mpr ⟨rfl, hne, ?_⟩)
    simp only [State.observed, sharedLog_append]
    rfl
  | @setPeer s r eid peer ha =>
    refine .of_call (now, .setPeer s.owner eid peer) trivial (BosphorAdapter.setPeer_ok.mpr ⟨rfl, ?_⟩)
    simp only [State.observed, sharedLog_append]
    rfl
  | @setOwner s r owner =>
    have howned : State.observed { s with owner, log := s.log ++ [⟨now, .ownershipTransferred s.owner owner⟩] } =
        BosphorAdapter.ownedBy now owner s.observed := by
      simp only [State.observed, BosphorAdapter.ownedBy, sharedLog_append]
      rfl
    -- a new owner that is the zero address comes from renouncing
    by_cases hzero : owner = zeroAddress
    · subst hzero
      exact .of_call (now, .renounceOwnership s.owner) trivial (BosphorAdapter.renounceOwnership_ok.mpr ⟨rfl, howned⟩)
    · exact .of_call (now, .transferOwnership s.owner owner) trivial
        (BosphorAdapter.transferOwnership_ok.mpr ⟨rfl, hzero, howned⟩)
  | setPermit2 => exact .refl _
  | receive => exact .refl _
  | tokenMoves => exact .refl _
  | pull => exact .refl _
  | openToken => exact .of_hidden rfl rfl rfl
  | withdraw => exact .refl _
  | debitToken => exact .refl _
  | payToken => exact .refl _
  | withdrawn => exact .of_hidden rfl rfl rfl
  | withdrawnToken => exact .of_hidden rfl rfl rfl

theorem call_observed {a : Nat × Call} (h : step a s = .ok s') : Explained s.observed s'.observed := by
  have hany : ∀ op ∈ a.2.ops, (fun _ => True : Op → Prop) op := fun _ _ => trivial
  have heffects := call_effects a.2 hany s s' h 0
  have : ∀ y, Effects a.1 (fun _ => True) (s, 0) y → Explained s.observed y.1.observed := by
    intro y hy
    induction hy with
    | refl => exact .refl _
    | tail _ hlast ih => exact ih.trans hlast.observed
  exact this _ heffects

theorem run_observed (s : State) (as : List (Nat × Call)) : Explained s.observed (Machine.run step s as).observed := by
  refine Machine.run_rel (R := fun s s' => Explained s.observed s'.observed) (fun s => .refl _) ?_ as
    (fun _ _ _ _ h => call_observed h) s
  intro _ _ _ h h'
  exact h.trans h'

end

/-! ## What the plain adapter does -/

/-- No value is in an escrow, or owed. What was submitted and not executed can be released. -/
structure Plain (s : State) : Prop where
  balance : s.balance = 0
  fresh : ∀ id, s.intents id = false → (s.escrows id).status = .none
  pending : ∀ id, s.intents id = true → s.executed id = false → (s.escrows id).status = .pending
  empty : ∀ id, (s.escrows id).amount = 0
  owed : ∀ asset account, s.withdrawableOf asset account = 0

/-- A call of the plain adapter is one of the adapter with the escrow, which is given no more than the fee. -/
def BosphorAdapter.Call.lift : BosphorAdapter.Call → Evm.Call
  | .submitIntent sender _ dstEid c fee sendOk _ => .mk (.submitIntent sender fee dstEid c (some fee) sendOk) [] []
  | .lzReceive sender packet => .mk (.lzReceive sender 0 packet) [] []
  | .confirmExecution sender intentId proof => .mk (.confirmExecution sender intentId proof) [] []
  | .setRelayer sender relayer => .mk (.setRelayer sender relayer) [] []
  | .setPeer sender eid peer => .mk (.setPeer sender eid peer) [] []
  | .transferOwnership sender newOwner => .mk (.transferOwnership sender newOwner) [] []
  | .renounceOwnership sender => .mk (.renounceOwnership sender) [] []

section

variable {s : State} {t : BosphorAdapter.State} {now : Nat}

/-- What changes neither the escrows, the intents nor the money leaves it so. -/
theorem Plain.same {s' : State} (h : Plain s) (hbalance : s'.balance = s.balance) (hescrows : s'.escrows = s.escrows)
    (hintents : s'.intents = s.intents) (hexecuted : ∀ id, s'.executed id = false → s.executed id = false)
    (howed : s'.withdrawableOf = s.withdrawableOf) : Plain s' where
  balance := hbalance.trans h.balance
  fresh id hid := by
    rw [hintents] at hid
    rw [hescrows, h.fresh id hid]
  pending id hid hx := by
    rw [hintents] at hid
    rw [hescrows, h.pending id hid (hexecuted id hx)]
  empty id := by rw [hescrows, h.empty]
  owed asset account := by rw [howed, h.owed]

theorem not_executed_before {executed : IntentId → Bool} {id id' : IntentId}
    (h : Function.update executed id true id' = false) : executed id' = false := by
  by_cases hid : id' = id
  · rw [hid, Function.update_self] at h
    cases h
  · rwa [Function.update_of_ne hid] at h

theorem submit_lifts {sender : Address} {value : Nat} {dstEid : UInt32} {c : Commitment} {fee : Nat} (h : Plain s)
    (hs : BosphorAdapter.Submittable now sender value dstEid c fee s.observed) :
    ∃ s', submitIntent now sender fee dstEid c (some fee) true s = .ok s' ∧
      s'.observed = BosphorAdapter.submitted now sender dstEid c s.observed ∧ Plain s' := by
  have hfits : s.balance + fee < uint256Size := by
    rw [h.balance, Nat.zero_add]
    exact Nat.lt_of_le_of_lt hs.paid hs.fits
  have hsubmittable : Submittable now sender fee dstEid c fee s :=
    ⟨hs.inTime, Nat.le_refl _, hfits, hs.nonceFits, hs.peer⟩
  refine ⟨_, submitIntent_ok.mpr ⟨fee, rfl, rfl, hsubmittable, hs.new, h.fresh _ hs.new, rfl⟩, ?_, ?_⟩
  · simp only [State.observed, submitted, BosphorAdapter.submitted, BosphorAdapter.handed, sharedLog_append]
    rfl
  · constructor
    case balance =>
      show s.balance + fee - fee = 0
      rw [h.balance]
      omega
    case fresh =>
      intro id hid
      show (Function.update s.escrows (s.nextId sender c) _ id).status = .none
      have hne : id ≠ s.nextId sender c := by
        rintro rfl
        exact absurd hid (by simp [submitted])
      rw [Function.update_of_ne hne]
      exact h.fresh id ((Function.update_of_ne hne _ _).symm.trans hid)
    case pending =>
      intro id hid hx
      show (Function.update s.escrows (s.nextId sender c) _ id).status = .pending
      by_cases hne : id = s.nextId sender c
      · rw [hne, Function.update_self]
      · rw [Function.update_of_ne hne]
        exact h.pending id ((Function.update_of_ne hne _ _).symm.trans hid) hx
    case empty =>
      intro id
      show (Function.update s.escrows (s.nextId sender c) _ id).amount = 0
      by_cases hne : id = s.nextId sender c
      · rw [hne, Function.update_self]
        exact Nat.sub_self fee
      · rw [Function.update_of_ne hne, h.empty]
    case owed => exact h.owed

theorem confirm_lifts {sender : Address} {id : IntentId} {proof : List UInt8} (h : Plain s)
    (hstep : BosphorAdapter.confirmExecution now sender id proof s.observed = .ok t) :
    ∃ s', confirmExecution now sender id proof s = .ok s' ∧ s'.observed = t ∧ Plain s' := by
  obtain ⟨hsender, hi, hx, rfl⟩ := BosphorAdapter.confirmExecution_ok.mp hstep
  refine ⟨_, confirmExecution_ok.mpr ⟨hsender, hi, hx, rfl⟩, ?_, ?_⟩
  · simp only [State.observed, BosphorAdapter.executedBy, sharedLog_append]
    rfl
  · exact h.same rfl rfl rfl (fun _ => not_executed_before) rfl

theorem receive_lifts {sender : Address} {packet : Received} (h : Plain s)
    (hstep : BosphorAdapter.lzReceive now sender packet s.observed = .ok t) :
    ∃ s', lzReceive now sender 0 packet s = .ok s' ∧ s'.observed = t ∧ Plain s' := by
  obtain ⟨hsender, hpeer, hset, id, blobId, endEpoch, hdec, hblob, hi, hx, rfl⟩ := BosphorAdapter.lzReceive_ok.mp hstep
  have hprovable : Provable 0 packet id blobId s := by
    refine ⟨hpeer, hset, hblob, hi, hx, h.pending id hi hx, ?_, ?_⟩
    · rw [h.balance]
      decide
    · rw [h.owed, h.empty]
      decide
  refine ⟨_, lzReceive_ok.mpr ⟨hsender, id, blobId, endEpoch, hdec, hprovable, rfl⟩, ?_, ?_⟩
  · simp only [State.observed, proven, State.settled, State.credited, BosphorAdapter.executedBy, sharedLog_append,
      List.append_assoc]
    rfl
  · constructor
    case balance => exact h.balance
    case fresh =>
      intro id' hid
      show (Function.update s.escrows id _ id').status = .none
      have hne : id' ≠ id := by
        rintro rfl
        cases hi.symm.trans hid
      rw [Function.update_of_ne hne]
      exact h.fresh id' hid
    case pending =>
      intro id' hid hx'
      show (Function.update s.escrows id _ id').status = .pending
      have hexecuted : Function.update s.executed id true id' = false := hx'
      have hne : id' ≠ id := by
        rintro rfl
        rw [Function.update_self] at hexecuted
        cases hexecuted
      rw [Function.update_of_ne hne]
      exact h.pending id' hid (not_executed_before hx')
    case empty =>
      intro id'
      show (Function.update s.escrows id _ id').amount = 0
      by_cases hne : id' = id
      · rw [hne, Function.update_self]
        exact h.empty id
      · rw [Function.update_of_ne hne, h.empty]
    case owed =>
      intro asset account
      show (s.credited (s.escrows id).token s.trustedRelayer (s.escrows id).amount).withdrawableOf asset account = 0
      rw [withdrawableOf_credited, h.owed, h.empty, ite_self]

theorem step_lifts {b : Nat × BosphorAdapter.Call} (h : Plain s) (hb : b.2.Quiet)
    (hstep : BosphorAdapter.step b s.observed = .ok t) :
    ∃ s', step (b.1, b.2.lift) s = .ok s' ∧ s'.observed = t ∧ Plain s' := by
  obtain ⟨now, b⟩ := b
  cases b with
  | submitIntent sender value dstEid c fee sendOk refunded =>
    obtain ⟨hs, rfl, rfl⟩ := (BosphorAdapter.submitIntent_quiet hb).mp hstep
    exact submit_lifts h hs
  | lzReceive sender packet =>
    exact receive_lifts h hstep
  | confirmExecution sender id proof => exact confirm_lifts h hstep
  | setRelayer sender relayer =>
    obtain ⟨hsender, hne, rfl⟩ := BosphorAdapter.setRelayer_ok.mp hstep
    refine ⟨({ s with trustedRelayer := relayer } : State).emit now (.relayerUpdated s.trustedRelayer relayer), ?_,
      observed_emit _ now rfl, h.same rfl rfl rfl (fun _ => id) rfl⟩
    show setRelayer now sender relayer s = _
    simp only [setRelayer, Result.bind_ok, onlyOwner_ok, exists_const, revertIf_ok, Result.pure_ok]
    exact ⟨hsender, hne, trivial⟩
  | setPeer sender eid peer =>
    obtain ⟨hsender, rfl⟩ := BosphorAdapter.setPeer_ok.mp hstep
    refine ⟨({ s with peers := Function.update s.peers eid peer } : State).emit now (.peerSet eid peer), ?_,
      observed_emit _ now rfl, h.same rfl rfl rfl (fun _ => id) rfl⟩
    show setPeer now sender eid peer s = _
    simp only [setPeer, Result.bind_ok, onlyOwner_ok, exists_const, Result.pure_ok]
    exact ⟨hsender, trivial⟩
  | transferOwnership sender newOwner =>
    obtain ⟨hsender, hne, rfl⟩ := BosphorAdapter.transferOwnership_ok.mp hstep
    refine ⟨({ s with owner := newOwner } : State).emit now (.ownershipTransferred s.owner newOwner), ?_,
      observed_emit _ now rfl, h.same rfl rfl rfl (fun _ => id) rfl⟩
    show transferOwnership now sender newOwner s = _
    simp only [transferOwnership, Result.bind_ok, onlyOwner_ok, exists_const, revertIf_ok, Result.pure_ok]
    exact ⟨hsender, hne, trivial⟩
  | renounceOwnership sender =>
    obtain ⟨hsender, rfl⟩ := BosphorAdapter.renounceOwnership_ok.mp hstep
    refine ⟨({ s with owner := zeroAddress } : State).emit now (.ownershipTransferred s.owner zeroAddress), ?_,
      observed_emit _ now rfl, h.same rfl rfl rfl (fun _ => id) rfl⟩
    show renounceOwnership now sender s = _
    simp only [renounceOwnership, Result.bind_ok, onlyOwner_ok, exists_const, Result.pure_ok]
    exact ⟨hsender, trivial⟩

/-- A run of the plain adapter in which no code of a sender runs is one of the adapter with the escrow. -/
theorem run_lifts (h : Plain s) (bs : List (Nat × BosphorAdapter.Call)) (hbs : ∀ b ∈ bs, b.2.Quiet) :
    ∃ as, (Machine.run step s as).observed = Machine.run BosphorAdapter.step s.observed bs := by
  induction bs generalizing s with
  | nil => exact ⟨[], rfl⟩
  | cons b bs ih =>
    obtain ⟨hb, hbs⟩ := List.forall_mem_cons.mp hbs
    rw [Machine.run_cons]
    obtain ⟨t, hstep, hnext⟩ | ⟨-, hnext⟩ := Machine.next_cases BosphorAdapter.step s.observed b
    · obtain ⟨s', hlift, rfl, h'⟩ := step_lifts h hb hstep
      obtain ⟨as, has⟩ := ih h' hbs
      refine ⟨(b.1, b.2.lift) :: as, ?_⟩
      rw [Machine.run_cons, Machine.next_ok hlift, has, hnext]
    · rw [hnext]
      exact ih h hbs

end

/-- The two adapters, deployed alike. The one with the escrow shows the states that any calls lead to, with whatever
value goes into escrows, is deposited, refunded and withdrawn, and whatever is called meanwhile: they are those that the
plain one shows as long as no code of a sender runs. Where such code does run, the adapter with the escrow still shows
what the plain one does, up to the order of the events. -/
theorem observed_reachable_iff (self endpoint owner trustedRelayer : Address) (tokens : Address → TokenAccount) :
    (∀ t, (∃ as, (Machine.run step (initial self endpoint owner trustedRelayer tokens) as).observed = t) ↔
      ∃ bs : List (Nat × BosphorAdapter.Call), (∀ b ∈ bs, b.2.Quiet) ∧
        Machine.run BosphorAdapter.step (BosphorAdapter.initial endpoint owner trustedRelayer) bs = t) ∧
    ∀ bs : List (Nat × BosphorAdapter.Call), ∃ as, BosphorAdapter.Alike
      (Machine.run BosphorAdapter.step (BosphorAdapter.initial endpoint owner trustedRelayer) bs)
      (Machine.run step (initial self endpoint owner trustedRelayer tokens) as).observed := by
  have hplain : Plain (initial self endpoint owner trustedRelayer tokens) := by
    refine ⟨rfl, fun _ _ => rfl, fun _ hid => ?_, fun _ => rfl, fun asset account => ?_⟩
    · cases hid
    · exact ite_self 0
  refine ⟨fun t => ⟨?_, ?_⟩, fun bs => ?_⟩
  · rintro ⟨as, rfl⟩
    exact run_observed (initial self endpoint owner trustedRelayer tokens) as
  · rintro ⟨bs, hbs, rfl⟩
    exact run_lifts hplain bs hbs
  · obtain ⟨bs', hbs', halike⟩ :=
      BosphorAdapter.run_flattens (.refl (BosphorAdapter.initial endpoint owner trustedRelayer)) bs
    obtain ⟨as, has⟩ := run_lifts hplain bs' hbs'
    refine ⟨as, ?_⟩
    rw [has]
    exact halike

end Bosphor.Evm

import Mathlib.Algebra.Group.Pi.Basic
import Mathlib.Data.Nat.Basic
import Bosphor.Evm.EscrowAdapter
import Bosphor.Lib.Result

/-!
# What a call does

Each function of the adapter, with the conditions under which it returns and
the state it returns, and from these the effects of a whole call:

* `submitIntent_ok`, `lzReceive_ok`, `refundEscrow_ok`: when the three
  functions of an intent's life return, and what they leave;
* `Effect`: everything a piece of a call can do, guards included;
* `call_effects`: a call, with whatever outside code calls while it runs, is a
  sequence of effects.

Between the two halves of a token transfer the token's balance and the books
differ by the amount moved: the second component of the states an effect
relates is what is in flight, token by token.
-/

namespace Bosphor.Evm

open Bytes (toBE)

/-! ## The functions -/

@[simp] theorem revertIf_ok {p : Prop} [Decidable p] {e : Revert} {u : Unit} : revertIf p e = .ok u ↔ ¬ p := by
  by_cases h : p
  · simp only [revertIf, h, if_true, reduceCtorEq, not_true]
  · simp only [revertIf, h, if_false, not_false_eq_true]

@[simp] theorem checkedAdd_ok {a b c : Nat} : checkedAdd a b = .ok c ↔ a + b < uint256Size ∧ a + b = c := by
  by_cases h : a + b < uint256Size
  · simp only [checkedAdd, h, if_true, Except.ok.injEq, true_and]
  · simp only [checkedAdd, h, if_false, reduceCtorEq, false_and]

theorem deploy_ok {self endpoint owner trustedRelayer : Address} {tokens : Address → TokenAccount} {s : State} :
    deploy self endpoint owner trustedRelayer tokens = .ok s ↔
      trustedRelayer ≠ zeroAddress ∧ s = initial self endpoint owner trustedRelayer tokens := by
  simp only [deploy, Result.bind_ok, revertIf_ok, exists_const, Result.pure_ok, ne_eq]

/-- The id of the submission of `c` by `sender` at `nonce`. -/
def submissionId (c : Commitment) (sender : Address) (nonce : Nat) : IntentId :=
  intentIdOf c (toBytes32 sender).val (UInt64.ofNat nonce)

/-- The id `sender` submits `c` under next. -/
def State.nextId (s : State) (sender : Address) (c : Commitment) : IntentId :=
  submissionId c sender (s.nonces sender)

theorem deriveIntentId_submission (c : Commitment) (sender : Address) (nonce : Nat) :
    CommitmentCodec.deriveIntentId c (toBytes32 sender) (UInt64.ofNat nonce) =
      .ok (submissionId c sender nonce) :=
  CommitmentCodec.deriveIntentId_eq c (toBytes32 sender) (UInt64.ofNat nonce)

theorem encodeMessage_eq (intentId : IntentId) (c : Commitment) :
    encodeMessage intentId c = .ok (intentId.val ++ c.wire) := by
  simp only [encodeMessage, CommitmentCodec.encode_eq, bind, Except.bind, pure, Except.pure]

/-- The state a submission leaves. -/
def submitted (now : Nat) (sender : Address) (value nativeFee : Nat) (dstEid : UInt32) (c : Commitment)
    (s : State) : State :=
  let id := s.nextId sender c
  { s with
    nonces := Function.update s.nonces sender (s.nonces sender + 1)
    intents := Function.update s.intents id true
    committedBlobId := Function.update s.committedBlobId id c.blobId
    intentDeadlines := Function.update s.intentDeadlines id c.deadline.toNat
    escrows := Function.update s.escrows id ⟨sender, nativeToken, value - nativeFee, c.deadline, .pending⟩
    balance := s.balance + value - nativeFee
    sent := s.sent ++ [⟨dstEid, s.peers dstEid, id.val ++ c.wire⟩]
    log := s.log ++ [⟨now, .escrowOpened id sender nativeToken (value - nativeFee) c.deadline⟩,
      ⟨now, .intentSubmitted id sender dstEid c (UInt64.ofNat (s.nonces sender))⟩] }

/-- What `submitIntent` requires of its arguments, its caller and the endpoint, but not of the id. -/
structure Submittable (now : Nat) (sender : Address) (value : Nat) (dstEid : UInt32) (c : Commitment)
    (nativeFee : Nat) (s : State) : Prop where
  inTime : now ≤ c.deadline.toNat
  covered : nativeFee ≤ value
  fits : s.balance + value < uint256Size
  nonceFits : s.nonces sender + 1 < uint256Size
  peer : s.peers dstEid ≠ Bytes.zero 32

@[simp] theorem receiveValue_ok {value : Nat} {s s' : State} :
    receiveValue value s = .ok s' ↔
      s.balance + value < uint256Size ∧ s' = { s with balance := s.balance + value } := by
  by_cases h : s.balance + value < uint256Size
  · simp only [receiveValue, h, if_true, Except.ok.injEq, true_and, eq_comm]
  · simp only [receiveValue, h, if_false, reduceCtorEq, false_and]

@[simp] theorem getPeerOrRevert_ok {eid : UInt32} {peer : Bytes 32} {s : State} :
    getPeerOrRevert eid s = .ok peer ↔ s.peers eid ≠ Bytes.zero 32 ∧ peer = s.peers eid := by
  simp only [getPeerOrRevert, Result.bind_ok, revertIf_ok, exists_const, Result.pure_ok, ne_eq]

@[simp] theorem quote_ok {fee : Option Nat} {nativeFee : Nat} : quote fee = .ok nativeFee ↔ fee = some nativeFee := by
  cases fee with
  | none => simp only [quote, reduceCtorEq]
  | some fee => simp only [quote, Except.ok.injEq, Option.some.injEq]

theorem openNativeEscrow_ok {now amount : Nat} {id : IntentId} {payer : Address} {deadline : UInt64}
    {s s' : State} :
    openNativeEscrow now id payer amount deadline s = .ok s' ↔ (s.escrows id).status = .none ∧
      s' = { s with
        escrows := Function.update s.escrows id ⟨payer, nativeToken, amount, deadline, .pending⟩
        log := s.log ++ [⟨now, .escrowOpened id payer nativeToken amount deadline⟩] } := by
  simp only [openNativeEscrow, Result.bind_ok, revertIf_ok, exists_const, Result.pure_ok, ne_eq, not_not,
    State.emit]

theorem lzSend_ok {dstEid : UInt32} {message : List UInt8} {value nativeFee : Nat} {ok : Bool} {s s' : State} :
    lzSend dstEid message value nativeFee ok s = .ok s' ↔ nativeFee ≤ value ∧ s.peers dstEid ≠ Bytes.zero 32 ∧
      ok = true ∧ nativeFee ≤ s.balance ∧
      s' = { s with
        balance := s.balance - nativeFee
        sent := s.sent ++ [⟨dstEid, s.peers dstEid, message⟩] } := by
  simp only [lzSend, payNative, Result.bind_ok, revertIf_ok, exists_const, Result.pure_ok, getPeerOrRevert_ok,
    not_lt, not_not, ne_eq]
  constructor
  · rintro ⟨_, ⟨hv, rfl⟩, _, ⟨hp, rfl⟩, ⟨hok, hb⟩, rfl⟩
    exact ⟨hv, hp, hok, hb, rfl⟩
  · rintro ⟨hv, hp, hok, hb, rfl⟩
    exact ⟨_, ⟨hv, rfl⟩, _, ⟨hp, rfl⟩, ⟨hok, hb⟩, rfl⟩

theorem submitIntent_ok {now value : Nat} {sender : Address} {dstEid : UInt32} {c : Commitment}
    {fee : Option Nat} {sendOk : Bool} {s s' : State} :
    submitIntent now sender value dstEid c fee sendOk s = .ok s' ↔
      ∃ nativeFee, fee = some nativeFee ∧ sendOk = true ∧ Submittable now sender value dstEid c nativeFee s ∧
        s.intents (s.nextId sender c) = false ∧ (s.escrows (s.nextId sender c)).status = .none ∧
        s' = submitted now sender value nativeFee dstEid c s := by
  simp only [submitIntent, escrowAndSend, Result.bind_ok, revertIf_ok, exists_const, Result.pure_ok,
    receiveValue_ok, checkedAdd_ok, deriveIntentId_submission, encodeMessage_eq, getPeerOrRevert_ok, quote_ok,
    openNativeEscrow_ok, lzSend_ok, Except.ok.injEq, gt_iff_lt, not_lt, ne_eq, Bool.not_eq_true]
  constructor
  · rintro ⟨_, ⟨hfit, rfl⟩, htime, _, ⟨hnonce, rfl⟩, _, rfl, hnew, _, ⟨_, rfl, _, ⟨hpeer, -⟩, nativeFee, rfl,
      hfee, _, ⟨hnone, rfl⟩, -, -, hok, -, rfl⟩, rfl⟩
    refine ⟨nativeFee, rfl, hok, ⟨htime, hfee, hfit, hnonce, hpeer⟩, hnew, hnone, ?_⟩
    simp only [submitted, State.nextId, State.emit, List.append_assoc]
    rfl
  · rintro ⟨nativeFee, rfl, hok, ⟨htime, hfee, hfit, hnonce, hpeer⟩, hnew, hnone, rfl⟩
    refine ⟨_, ⟨hfit, rfl⟩, htime, _, ⟨hnonce, rfl⟩, _, rfl, hnew, _, ⟨_, rfl, _, ⟨hpeer, rfl⟩, nativeFee, rfl,
      hfee, _, ⟨hnone, rfl⟩, hfee, hpeer, hok, ?_, rfl⟩, ?_⟩
    · exact hfee.trans (Nat.le_add_left _ _)
    · simp only [submitted, State.nextId, State.emit, List.append_assoc]
      rfl

theorem markExecuted_ok {now : Nat} {id : IntentId} {proof : List UInt8} {s s' : State} :
    markExecuted now id proof s = .ok s' ↔ s.intents id = true ∧ s.executed id = false ∧
      s' = { s with
        executed := Function.update s.executed id true
        log := s.log ++ [⟨now, .intentExecuted id proof⟩] } := by
  simp only [markExecuted, Result.bind_ok, revertIf_ok, exists_const, Result.pure_ok, Bool.not_eq_true,
    Bool.not_eq_false, State.emit]

/-- What `account` may withdraw of `asset`. -/
def State.withdrawableOf (s : State) (asset account : Address) : Nat :=
  if asset = nativeToken then s.withdrawable account else s.withdrawableToken asset account

/-- The ledgers with `amount` of `asset` credited to `recipient`. -/
def State.credited (s : State) (asset recipient : Address) (amount : Nat) : State :=
  let total := s.withdrawableOf asset recipient + amount
  { s with
    withdrawable :=
      if asset = nativeToken then Function.update s.withdrawable recipient total else s.withdrawable
    withdrawableToken :=
      if asset = nativeToken then s.withdrawableToken
      else Function.update s.withdrawableToken asset
        (Function.update (s.withdrawableToken asset) recipient total) }

theorem credit_ok {asset recipient : Address} {amount : Nat} {s s' : State} :
    credit asset recipient amount s = .ok s' ↔ s.withdrawableOf asset recipient + amount < uint256Size ∧
      s' = s.credited asset recipient amount := by
  by_cases h : asset = nativeToken
  · simp only [credit, State.withdrawableOf, State.credited, h, if_true, Result.bind_ok, checkedAdd_ok,
      Result.pure_ok]
    exact ⟨fun ⟨_, ⟨hfit, ht⟩, hs⟩ => ⟨hfit, ht ▸ hs⟩, fun ⟨hfit, hs⟩ => ⟨_, ⟨hfit, rfl⟩, hs⟩⟩
  · simp only [credit, State.withdrawableOf, State.credited, h, if_false, Result.bind_ok, checkedAdd_ok,
      Result.pure_ok]
    exact ⟨fun ⟨_, ⟨hfit, ht⟩, hs⟩ => ⟨hfit, ht ▸ hs⟩, fun ⟨hfit, hs⟩ => ⟨_, ⟨hfit, rfl⟩, hs⟩⟩

/-- The state with an escrow settled: its amount credited, its status changed, the event emitted. -/
def State.settled (s : State) (now : Nat) (id : IntentId) (status : EscrowStatus) (recipient : Address)
    (e : Event) : State :=
  let escrow := s.escrows id
  let s := s.credited escrow.token recipient escrow.amount
  { s with
    escrows := Function.update s.escrows id { escrow with status }
    log := s.log ++ [⟨now, e⟩] }

theorem settled_log (s : State) (now : Nat) (id : IntentId) (status : EscrowStatus) (recipient : Address) (e : Event) :
    (s.settled now id status recipient e).log = s.log ++ [⟨now, e⟩] := rfl

theorem releaseEscrow_ok {now : Nat} {id : IntentId} {recipient : Address} {s s' : State} :
    releaseEscrow now id recipient s = .ok s' ↔ (s.escrows id).status = .pending ∧
      s.withdrawableOf (s.escrows id).token recipient + (s.escrows id).amount < uint256Size ∧
      s' = s.settled now id .released recipient (.escrowReleased id recipient (s.escrows id).amount) := by
  simp only [releaseEscrow, Result.bind_ok, revertIf_ok, exists_const, Result.pure_ok, not_not, ne_eq, credit_ok]
  constructor
  · rintro ⟨hp, _, ⟨hfit, rfl⟩, rfl⟩
    exact ⟨hp, hfit, rfl⟩
  · rintro ⟨hp, hfit, rfl⟩
    exact ⟨hp, _, ⟨hfit, rfl⟩, rfl⟩

theorem refundEscrow_ok {now : Nat} {id : IntentId} {s s' : State} :
    refundEscrow now id s = .ok s' ↔ (s.escrows id).status = .pending ∧
      (s.escrows id).deadline.toNat < now ∧
      s.withdrawableOf (s.escrows id).token (s.escrows id).payer + (s.escrows id).amount < uint256Size ∧
      s' = s.settled now id .refunded (s.escrows id).payer
        (.escrowRefunded id (s.escrows id).payer (s.escrows id).amount) := by
  simp only [refundEscrow, Result.bind_ok, revertIf_ok, exists_const, Result.pure_ok, not_not, ne_eq, credit_ok,
    not_le]
  constructor
  · rintro ⟨hp, hlate, _, ⟨hfit, rfl⟩, rfl⟩
    exact ⟨hp, hlate, hfit, rfl⟩
  · rintro ⟨hp, hlate, hfit, rfl⟩
    exact ⟨hp, hlate, _, ⟨hfit, rfl⟩, rfl⟩

/-- The state an accepted proof leaves: the intent executed and its escrow released. -/
def proven (now value : Nat) (packet : Received) (id : IntentId) (blobId : Bytes 32) (endEpoch : Nat)
    (s : State) : State :=
  let s : State := { s with
    balance := s.balance + value
    executed := Function.update s.executed id true
    log := s.log ++ [⟨now, .intentExecuted id (blobId.val ++ toBE 32 endEpoch)⟩]
    received := s.received ++ [packet] }
  s.settled now id .released s.trustedRelayer (.escrowReleased id s.trustedRelayer (s.escrows id).amount)

/-- What `lzReceive` requires of a proof of `id` that carries `blobId`. -/
structure Provable (value : Nat) (packet : Received) (id : IntentId) (blobId : Bytes 32)
    (s : State) : Prop where
  peer : s.peers packet.srcEid = packet.sender
  peerSet : packet.sender ≠ Bytes.zero 32
  committed : blobId = s.committedBlobId id
  submitted : s.intents id = true
  notExecuted : s.executed id = false
  pending : (s.escrows id).status = .pending
  fits : s.balance + value < uint256Size
  creditFits :
    s.withdrawableOf (s.escrows id).token s.trustedRelayer + (s.escrows id).amount < uint256Size

theorem lzReceive_ok {now value : Nat} {sender : Address} {packet : Received} {s s' : State} :
    lzReceive now sender value packet s = .ok s' ↔ sender = s.endpoint ∧
      ∃ id blobId endEpoch, decodeProofMessage packet.message = .ok (id, blobId, endEpoch) ∧
        Provable value packet id blobId s ∧ s' = proven now value packet id blobId endEpoch s := by
  simp only [lzReceive, lzReceiveMessage, Result.bind_ok, revertIf_ok, exists_const, Result.pure_ok,
    receiveValue_ok, getPeerOrRevert_ok, not_not, ne_eq, markExecuted_ok, releaseEscrow_ok]
  constructor
  · rintro ⟨_, ⟨hfit, rfl⟩, hsender, _, ⟨hset, rfl⟩, hpeer, _, ⟨⟨id, blobId, endEpoch⟩, hdec, hblob, _,
      ⟨hi, hx, rfl⟩, hp, hc, rfl⟩, rfl⟩
    exact ⟨hsender, id, blobId, endEpoch, hdec, ⟨hpeer, hpeer ▸ hset, hblob, hi, hx, hp, hfit, hc⟩, rfl⟩
  · rintro ⟨hsender, id, blobId, endEpoch, hdec, ⟨hpeer, hset, hblob, hi, hx, hp, hfit, hc⟩, rfl⟩
    exact ⟨_, ⟨hfit, rfl⟩, hsender, _, ⟨hpeer ▸ hset, rfl⟩, hpeer, _, ⟨⟨id, blobId, endEpoch⟩, hdec, hblob, _,
      ⟨hi, hx, rfl⟩, hp, hc, rfl⟩, rfl⟩

theorem openTokenEscrow_ok {now amount : Nat} {id : IntentId} {payer token : Address} {deadline : UInt64}
    {s s' : State} :
    openTokenEscrow now id payer token amount deadline s = .ok s' ↔ token ≠ nativeToken ∧
      (s.escrows id).status = .none ∧
      s' = { s with
        escrows := Function.update s.escrows id ⟨payer, token, amount, deadline, .pending⟩
        log := s.log ++ [⟨now, .escrowOpened id payer token amount deadline⟩] } := by
  simp only [openTokenEscrow, Result.bind_ok, revertIf_ok, exists_const, Result.pure_ok, ne_eq, not_not,
    State.emit]

/-- The adapter's balance in a token contract changes. -/
def State.tokenLeft (s : State) (token : Address) (balance : Nat) : State :=
  { s with tokens := Function.update s.tokens token { s.tokens token with balance } }

theorem pullToken_ok {token : Address} {amount left : Nat} {ok : Bool} {s s' : State} :
    pullToken token amount left ok s = .ok s' ↔ ok = true ∧
      s' = s.tokenLeft token (if (s.tokens token).exact then (s.tokens token).balance + amount else left) := by
  simp only [pullToken, Result.bind_ok, revertIf_ok, exists_const, Result.pure_ok, not_not, State.tokenLeft]

theorem payToken_ok {token : Address} {amount left : Nat} {ok : Bool} {s s' : State} :
    payToken token amount left ok s = .ok s' ↔ ok = true ∧
      ((s.tokens token).exact = true → amount ≤ (s.tokens token).balance) ∧
      s' = s.tokenLeft token (if (s.tokens token).exact then (s.tokens token).balance - amount else left) := by
  simp only [payToken, Result.bind_ok, revertIf_ok, exists_const, Result.pure_ok, not_not, State.tokenLeft,
    and_assoc]

/-- The state in which a withdrawal of `sender` has moved the value out. -/
def State.nativeDrawn (s : State) (sender : Address) : State :=
  { s with
    entered := true
    withdrawable := Function.update s.withdrawable sender 0
    drawn := drawMore nativeToken sender (s.withdrawable sender) s
    balance := s.balance - s.withdrawable sender }

/-- The state in which a withdrawal of `sender` is about to call the token. -/
def State.tokenStruck (s : State) (token sender : Address) : State :=
  { s with
    entered := true
    withdrawableToken :=
      Function.update s.withdrawableToken token (Function.update (s.withdrawableToken token) sender 0)
    drawn := drawMore token sender (s.withdrawableToken token sender) s }

theorem beginWithdraw_ok {sender : Address} {ok : Bool} {s s' : State} {amount : Nat} :
    beginWithdraw sender ok s = .ok (s', amount) ↔ s.entered = false ∧ s.withdrawable sender ≠ 0 ∧
      ok = true ∧ s.withdrawable sender ≤ s.balance ∧ amount = s.withdrawable sender ∧
      s' = s.nativeDrawn sender := by
  simp only [beginWithdraw, Result.bind_ok, revertIf_ok, exists_const, Result.pure_ok, not_not, ne_eq,
    Bool.not_eq_true, Prod.mk.injEq, and_assoc]
  constructor
  · rintro ⟨he, hne, hok, hle, rfl, rfl⟩
    exact ⟨he, hne, hok, hle, rfl, rfl⟩
  · rintro ⟨he, hne, hok, hle, rfl, rfl⟩
    exact ⟨he, hne, hok, hle, rfl, rfl⟩

theorem beginWithdrawToken_ok {sender token : Address} {s s' : State} {amount : Nat} :
    beginWithdrawToken sender token s = .ok (s', amount) ↔ s.entered = false ∧
      s.withdrawableToken token sender ≠ 0 ∧ amount = s.withdrawableToken token sender ∧
      s' = s.tokenStruck token sender := by
  simp only [beginWithdrawToken, Result.bind_ok, revertIf_ok, exists_const, Result.pure_ok, ne_eq,
    Bool.not_eq_true, Prod.mk.injEq]
  constructor
  · rintro ⟨he, hne, rfl, rfl⟩
    exact ⟨he, hne, rfl, rfl⟩
  · rintro ⟨he, hne, rfl, rfl⟩
    exact ⟨he, hne, rfl, rfl⟩

theorem onlyOwner_ok {sender : Address} {s : State} {u : Unit} : onlyOwner sender s = .ok u ↔ sender = s.owner := by
  simp only [onlyOwner, revertIf_ok, ne_eq, not_not]

theorem confirmExecution_ok {now : Nat} {sender : Address} {id : IntentId} {proof : List UInt8} {s s' : State} :
    confirmExecution now sender id proof s = .ok s' ↔ sender = s.owner ∧ s.intents id = true ∧
      s.executed id = false ∧ s' = { s with
        executed := Function.update s.executed id true
        log := s.log ++ [⟨now, .intentExecuted id proof⟩] } := by
  simp only [confirmExecution, Result.bind_ok, onlyOwner_ok, exists_const, markExecuted_ok]

/-! ## The effects of a call -/

/-- Everything a piece of a call can do at block time `now`, by an operation of the call. The states
come with what is in flight in each token: moved in by Permit2 and not yet escrowed, or struck from
the books by a withdrawal and not yet moved out. -/
inductive Effect (now : Nat) (allowed : Op → Prop) : State × (Address → Nat) → State × (Address → Nat) → Prop
  | submit {s r sender value nativeFee dstEid c}
      (ha : allowed (.submitIntent sender value dstEid c (some nativeFee) true))
      (h : Submittable now sender value dstEid c nativeFee s) (hnew : s.intents (s.nextId sender c) = false)
      (hnone : (s.escrows (s.nextId sender c)).status = .none) :
      Effect now allowed (s, r) (submitted now sender value nativeFee dstEid c s, r)
  | prove {s r value packet id blobId endEpoch} (ha : allowed (.lzReceive s.endpoint value packet))
      (hdec : decodeProofMessage packet.message = .ok (id, blobId, endEpoch))
      (h : Provable value packet id blobId s) :
      Effect now allowed (s, r) (proven now value packet id blobId endEpoch s, r)
  | refund {s r id} (ha : allowed (.refund id)) (hpending : (s.escrows id).status = .pending)
      (hlate : (s.escrows id).deadline.toNat < now)
      (hfit : s.withdrawableOf (s.escrows id).token (s.escrows id).payer + (s.escrows id).amount <
        uint256Size) :
      Effect now allowed (s, r) (s.settled now id .refunded (s.escrows id).payer
        (.escrowRefunded id (s.escrows id).payer (s.escrows id).amount), r)
  | confirm {s r id proof} (ha : allowed (.confirmExecution s.owner id proof)) (hi : s.intents id = true)
      (hx : s.executed id = false) :
      Effect now allowed (s, r) ({ s with
        executed := Function.update s.executed id true
        log := s.log ++ [⟨now, .intentExecuted id proof⟩] }, r)
  | setRelayer {s r relayer} (ha : allowed (.setRelayer s.owner relayer)) (hne : relayer ≠ zeroAddress) :
      Effect now allowed (s, r) ({ s with
        trustedRelayer := relayer
        log := s.log ++ [⟨now, .relayerUpdated s.trustedRelayer relayer⟩] }, r)
  | setPeer {s r eid peer} (ha : allowed (.setPeer s.owner eid peer)) :
      Effect now allowed (s, r) ({ s with
        peers := Function.update s.peers eid peer
        log := s.log ++ [⟨now, .peerSet eid peer⟩] }, r)
  | setPermit2 {s r permit2} (ha : allowed (.setPermit2 s.owner permit2)) :
      Effect now allowed (s, r) ({ s with permit2 }, r)
  | setOwner {s r owner} :
      Effect now allowed (s, r) ({ s with
        owner
        log := s.log ++ [⟨now, .ownershipTransferred s.owner owner⟩] }, r)
  | receive {s r value} (hfit : s.balance + value < uint256Size) :
      Effect now allowed (s, r) ({ s with balance := s.balance + value }, r)
  | tokenMoves {s r token balance} (h : (s.tokens token).exact = true → (s.tokens token).balance ≤ balance) :
      Effect now allowed (s, r) (s.tokenLeft token balance, r)
  | pull {s r} (token : Address) (amount left : Nat) :
      Effect now allowed (s, r)
        (s.tokenLeft token (if (s.tokens token).exact then (s.tokens token).balance + amount else left),
          r + Pi.single token amount)
  | openToken {s r sender id deadline token amount left}
      (ha : allowed (.depositUsdcWithPermit2 sender id deadline token amount left true))
      (htoken : token ≠ nativeToken) (hnone : (s.escrows id).status = .none) :
      Effect now allowed (s, r + Pi.single token amount) ({ s with
        escrows := Function.update s.escrows id ⟨sender, token, amount, deadline, .pending⟩
        log := s.log ++ [⟨now, .escrowOpened id sender token amount deadline⟩] }, r)
  | withdraw {s r sender} (ha : allowed (.withdraw sender true)) (hentered : s.entered = false)
      (hne : s.withdrawable sender ≠ 0) (hle : s.withdrawable sender ≤ s.balance) :
      Effect now allowed (s, r) (s.nativeDrawn sender, r)
  | debitToken {s r sender token left} (ha : allowed (.withdrawToken sender token left true))
      (hentered : s.entered = false) (hne : s.withdrawableToken token sender ≠ 0) :
      Effect now allowed (s, r)
        (s.tokenStruck token sender, r + Pi.single token (s.withdrawableToken token sender))
  | payToken {s r} (token : Address) (amount left : Nat)
      (h : (s.tokens token).exact = true → amount ≤ (s.tokens token).balance) :
      Effect now allowed (s, r + Pi.single token amount)
        (s.tokenLeft token (if (s.tokens token).exact then (s.tokens token).balance - amount else left), r)
  | withdrawn {s r sender amount} :
      Effect now allowed (s, r) (endWithdraw now sender amount s, r)
  | withdrawnToken {s r sender token amount} :
      Effect now allowed (s, r) (endWithdrawToken now sender token amount s, r)

theorem direct_effect {now : Nat} {allowed : Op → Prop} {op : Op} {s s' : State} {r : Address → Nat}
    (ha : allowed op) (h : direct now op s = .ok s') : Effect now allowed (s, r) (s', r) := by
  cases op with
  | submitIntent sender value dstEid c fee sendOk =>
    obtain ⟨nativeFee, rfl, rfl, hs, hnew, hnone, rfl⟩ := submitIntent_ok.mp h
    exact .submit ha hs hnew hnone
  | lzReceive sender value packet =>
    obtain ⟨rfl, id, blobId, endEpoch, hdec, hp, rfl⟩ := lzReceive_ok.mp h
    exact .prove ha hdec hp
  | depositUsdcWithPermit2 => cases h
  | refund id =>
    obtain ⟨hpending, hlate, hfit, rfl⟩ := refundEscrow_ok.mp h
    exact .refund ha hpending hlate hfit
  | confirmExecution sender id proof =>
    obtain ⟨rfl, hi, hx, rfl⟩ := confirmExecution_ok.mp h
    exact .confirm ha hi hx
  | setRelayer sender relayer =>
    simp only [direct, setRelayer, Result.bind_ok, onlyOwner_ok, exists_const, revertIf_ok, Result.pure_ok] at h
    obtain ⟨rfl, hne, rfl⟩ := h
    exact .setRelayer ha hne
  | setPermit2 sender permit2 =>
    simp only [direct, setPermit2, Result.bind_ok, onlyOwner_ok, exists_const, Result.pure_ok] at h
    obtain ⟨rfl, rfl⟩ := h
    exact .setPermit2 ha
  | setPeer sender eid peer =>
    simp only [direct, setPeer, Result.bind_ok, onlyOwner_ok, exists_const, Result.pure_ok] at h
    obtain ⟨rfl, rfl⟩ := h
    exact .setPeer ha
  | transferOwnership sender newOwner =>
    simp only [direct, transferOwnership, Result.bind_ok, onlyOwner_ok, exists_const, revertIf_ok,
      Result.pure_ok] at h
    obtain ⟨rfl, -, rfl⟩ := h
    exact .setOwner
  | renounceOwnership sender =>
    simp only [direct, renounceOwnership, Result.bind_ok, onlyOwner_ok, exists_const, Result.pure_ok] at h
    obtain ⟨rfl, rfl⟩ := h
    exact .setOwner
  | withdraw => cases h
  | withdrawToken => cases h
  | forceValue value =>
    obtain ⟨hfit, rfl⟩ := receiveValue_ok.mp h
    exact .receive hfit
  | tokenMoves token balance =>
    simp only [direct, Result.bind_ok, revertIf_ok, exists_const, Result.pure_ok, not_and, not_lt] at h
    obtain ⟨hle, rfl⟩ := h
    exact .tokenMoves hle

/-- Any number of effects of a call's operations. -/
abbrev Effects (now : Nat) (allowed : Op → Prop) : State × (Address → Nat) → State × (Address → Nat) → Prop :=
  Relation.ReflTransGen (Effect now allowed)

mutual

/-- The operations of a call, those of the calls made while it runs included. -/
def Call.ops : Call → List Op
  | .mk op before after => op :: (Call.opsList before ++ Call.opsList after)

def Call.opsList : List Call → List Op
  | [] => []
  | c :: cs => c.ops ++ Call.opsList cs

end

mutual

/-- A call is a sequence of effects of its operations, and leaves in flight what was. -/
theorem call_effects {now : Nat} {allowed : Op → Prop} : (c : Call) → (ha : ∀ op ∈ c.ops, allowed op) →
    (s s' : State) → (h : call now c s = .ok s') → (r : Address → Nat) → Effects now allowed (s, r) (s', r)
  | .mk op before after, ha, s, s', h, r => by
    have hop : allowed op := ha op (by rw [Call.ops]; exact List.mem_cons_self)
    have hbefore : ∀ op ∈ Call.opsList before, allowed op := fun op hm =>
      ha op (by rw [Call.ops]; exact List.mem_cons_of_mem _ (List.mem_append_left _ hm))
    have hafter : ∀ op ∈ Call.opsList after, allowed op := fun op hm =>
      ha op (by rw [Call.ops]; exact List.mem_cons_of_mem _ (List.mem_append_right _ hm))
    cases op
    case depositUsdcWithPermit2 sender id deadline token amount left ok =>
      simp only [call, Result.bind_ok, pullToken_ok, openTokenEscrow_ok] at h
      obtain ⟨-, -, _, ⟨rfl, rfl⟩, htoken, hnone, rfl⟩ := h
      refine (reenter_effects before hbefore s r).trans ?_
      refine .head (.pull token amount left) ?_
      refine (reenter_effects after hafter _ _).trans ?_
      exact .single (.openToken hop htoken hnone)
    case withdraw sender ok =>
      simp only [call, Result.bind_ok, Prod.exists, beginWithdraw_ok, Result.pure_ok] at h
      obtain ⟨_, _, ⟨he, hne, rfl, hle, rfl, rfl⟩, rfl⟩ := h
      refine .head (.withdraw hop he hne hle) ?_
      refine (reenter_effects after hafter _ _).trans ?_
      exact .single .withdrawn
    case withdrawToken sender token left ok =>
      simp only [call, Result.bind_ok, Prod.exists, beginWithdrawToken_ok, payToken_ok, Result.pure_ok] at h
      obtain ⟨_, _, ⟨he, hne, rfl, rfl⟩, _, ⟨rfl, hle, rfl⟩, rfl⟩ := h
      refine .head (.debitToken hop he hne) ?_
      refine (reenter_effects before hbefore _ _).trans ?_
      refine .head (.payToken token _ left hle) ?_
      refine (reenter_effects after hafter _ _).trans ?_
      exact .single .withdrawnToken
    all_goals
      exact .single (direct_effect hop h)

/-- What outside code calls is a sequence of effects. -/
theorem reenter_effects {now : Nat} {allowed : Op → Prop} : (cs : List Call) →
    (ha : ∀ op ∈ Call.opsList cs, allowed op) → (s : State) → (r : Address → Nat) →
    Effects now allowed (s, r) (reenter now cs s, r)
  | [], _, s, r => .refl
  | c :: cs, ha, s, r => by
    have hc : ∀ op ∈ c.ops, allowed op := fun op hm => ha op (by
      rw [Call.opsList]; exact List.mem_append_left _ hm)
    have hcs : ∀ op ∈ Call.opsList cs, allowed op := fun op hm => ha op (by
      rw [Call.opsList]; exact List.mem_append_right _ hm)
    rw [reenter]
    refine .trans ?_ (reenter_effects cs hcs _ r)
    cases h : call now c s with
    | ok s' => exact call_effects c hc s s' h r
    | error e => exact .refl

end

end Bosphor.Evm

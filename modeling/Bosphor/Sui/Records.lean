import Bosphor.Lib.Result
import Bosphor.Sui.Modules

/-!
# What the receiver and the executor record

When the transactions of an intent's life return, and what they leave, and from
these what holds in every reachable state:

* `lzReceive_ok`, `sendProof_ok`, `executeStore_ok`: the three transactions;
* `Recorded`: a record is that of a delivered message, an executed intent was
  stored with its committed blob no later than its deadline, and a proof sent
  is of a received intent.
-/

namespace Bosphor.Sui

open Bytes (ofBE)

/-! ## The transactions -/

@[simp] theorem assert_ok {c : Bool} {e : Abort} {u : Unit} : assert c e = .ok u ↔ c = true := by
  cases c with
  | true => simp only [assert, if_true]
  | false => simp only [assert, Bool.false_eq_true, if_false, reduceCtorEq]

/-- The number the receiver and Walrus have for a committed blob id. -/
def blobNumber (blobId : Bytes 32) : U256 := BitVec.ofNat 256 (ofBE blobId.val)

/-- The record of a commitment that a packet brought. -/
def recordOf (packet : Packet) (c : Commitment) : IntentRecord :=
  ⟨blobNumber c.blobId, c.storageEpochs, c.deadline, packet.srcEid, packet.nonce⟩

/-- The state a delivery leaves. -/
def received (now : Nat) (sender : Address) (packet : Packet) (value : Option Nat) (id : Bytes 32)
    (c : Commitment) (s : State) : State :=
  { s with
    receiver := { s.receiver with
      receivedIntents := Function.update s.receiver.receivedIntents id.val (some (recordOf packet c)) }
    delivered := s.delivered ++ [packet]
    log := s.log ++ [⟨now, .intentReceived id.val (blobNumber c.blobId) c.size c.encodingType c.storageEpochs
      c.deadline packet.srcEid packet.nonce packet.guid⟩]
    transferred := match value with
      | some value => s.transferred ++ [.coin value sender]
      | none => s.transferred }

/-- The parts of an intent message. -/
theorem exists_message_parts {message : List UInt8} (h : message.length = 81) :
    ∃ (id : Bytes 32) (c : Commitment), message = id.val ++ c.wire := by
  have hid : (Bytes.slice message 0 32).length = 32 := Bytes.length_slice (by omega)
  have hc : (Bytes.slice message 32 49).length = commitmentLen := Bytes.length_slice (by omega)
  refine ⟨⟨_, hid⟩, Commitment.read _ hc, ?_⟩
  rw [Commitment.wire_read hc, Bytes.slice_append_slice message 0 32 49]
  exact (Bytes.slice_all h).symm

theorem message_length (id : Bytes 32) (c : Commitment) : (id.val ++ c.wire).length = 81 := by
  rw [List.length_append, id.property, c.length_wire]
  rfl

/-- The parts determine the message and are determined by it. -/
theorem message_inj {id id' : Bytes 32} {c c' : Commitment} (h : id.val ++ c.wire = id'.val ++ c'.wire) :
    id = id' ∧ c = c' := by
  obtain ⟨hid, hc⟩ := List.append_inj h (by rw [id.property, id'.property])
  exact ⟨Subtype.ext hid, Commitment.wire_inj hc⟩

theorem CommitmentCodec.decode_wire (c : Commitment) : CommitmentCodec.decode c.wire = .ok (fieldsOf c) := by
  rw [decode_ok c.length_wire, Commitment.read_wire]

theorem slice_message (id : Bytes 32) (c : Commitment) :
    slice (id.val ++ c.wire) 0 32 = .ok id.val ∧ slice (id.val ++ c.wire) 32 49 = .ok c.wire := by
  have hl := message_length id c
  have hid : Bytes.slice (id.val ++ c.wire) 0 32 = id.val := Bytes.slice_mid [] id.val c.wire 0 32 rfl id.property
  have hc : Bytes.slice (id.val ++ c.wire) 32 49 = c.wire :=
    Bytes.slice_end id.val c.wire 32 49 id.property c.length_wire
  rw [slice_ok (by omega), slice_ok (by omega), hid, hc]
  exact ⟨rfl, rfl⟩

theorem oappLzReceive_ok {fromEndpoint : Bool} {packet : Packet} {s : State} {u : Unit} :
    oappLzReceive fromEndpoint packet s = .ok u ↔
      fromEndpoint = true ∧ s.peers packet.srcEid = some packet.sender := by
  rw [oappLzReceive, assert_ok, Bool.and_eq_true, beq_iff_eq]

theorem not_contains_iff {config : LzReceiverConfig} {id : List UInt8} :
    (!config.contains id) = true ↔ config.receivedIntents id = none := by
  rw [LzReceiverConfig.contains, Bool.not_eq_true', Option.isSome_eq_false_iff, Option.isNone_iff_eq_none]

theorem lzReceive_ok {now : Nat} {sender : Address} {fromEndpoint : Bool} {packet : Packet} {value : Option Nat}
    {s s' : State} :
    lzReceive now sender fromEndpoint packet value s = .ok s' ↔ fromEndpoint = true ∧
      s.peers packet.srcEid = some packet.sender ∧ ∃ id c, packet.message = id.val ++ c.wire ∧
        s.receiver.receivedIntents id.val = none ∧ s' = received now sender packet value id c s := by
  simp only [lzReceive, Result.bind_ok, oappLzReceive_ok, exists_const, assert_ok, decide_eq_true_eq, Prod.exists]
  constructor
  · rintro ⟨⟨he, hp⟩, hl, _, hid, _, hc, hnew, _, _, _, _, _, hdec, _, hn, hs⟩
    obtain ⟨id, c, hm⟩ := exists_message_parts hl
    rw [hm, (slice_message id c).1, Except.ok.injEq] at hid
    rw [hm, (slice_message id c).2, Except.ok.injEq] at hc
    subst hid hc
    rw [CommitmentCodec.decode_wire, CommitmentCodec.fieldsOf, Except.ok.injEq, Prod.mk.injEq, Prod.mk.injEq,
      Prod.mk.injEq, Prod.mk.injEq] at hdec
    obtain ⟨rfl, rfl, rfl, rfl, rfl⟩ := hdec
    rw [bytes32ToU256_ok c.blobId.property, Except.ok.injEq] at hn
    subst hn
    refine ⟨he, hp, id, c, hm, not_contains_iff.mp hnew, ?_⟩
    cases value <;> exact (Except.ok.inj hs).symm
  · rintro ⟨he, hp, id, c, hm, hnew, rfl⟩
    refine ⟨⟨he, hp⟩, by rw [hm, message_length], _, hm ▸ (slice_message id c).1, _, hm ▸ (slice_message id c).2,
      not_contains_iff.mpr hnew, _, _, _, _, _, CommitmentCodec.decode_wire c, _,
      bytes32ToU256_ok c.blobId.property, ?_⟩
    cases value <;> rfl

/-- A received intent is refused, when its message comes again from the peer. -/
theorem lzReceive_already {now : Nat} {sender : Address} {fromEndpoint : Bool} {packet : Packet} {value : Option Nat}
    {s : State} :
    lzReceive now sender fromEndpoint packet value s = .error EIntentAlreadyReceived ↔ fromEndpoint = true ∧
      s.peers packet.srcEid = some packet.sender ∧ ∃ (id : Bytes 32) (c : Commitment),
        packet.message = id.val ++ c.wire ∧ ∃ r, s.receiver.receivedIntents id.val = some r := by
  by_cases hauth : fromEndpoint = true ∧ s.peers packet.srcEid = some packet.sender
  · have hoapp : oappLzReceive fromEndpoint packet s = .ok () := oappLzReceive_ok.mpr hauth
    by_cases hl : packet.message.length = 81
    · obtain ⟨id, c, hm⟩ := exists_message_parts hl
      cases hr : s.receiver.receivedIntents id.val with
      | none =>
        have hok := (@lzReceive_ok now sender fromEndpoint packet value s _).mpr
          ⟨hauth.1, hauth.2, id, c, hm, hr, rfl⟩
        rw [hok]
        refine iff_of_false (by simp only [reduceCtorEq, not_false_eq_true]) ?_
        rintro ⟨-, -, id', c', hm', r, hr'⟩
        obtain ⟨rfl, rfl⟩ := message_inj (hm.symm.trans hm')
        rw [hr] at hr'
        cases hr'
      | some r =>
        refine iff_of_true ?_ ⟨hauth.1, hauth.2, id, c, hm, r, hr⟩
        simp only [lzReceive, hoapp, hm, message_length, (slice_message id c).1, (slice_message id c).2,
          LzReceiverConfig.contains, hr, assert, Option.isSome_some, Bool.not_true, decide_true, if_true,
          Bool.false_eq_true, if_false, bind, Except.bind]
    · refine iff_of_false ?_ ?_
      · simp only [lzReceive, hoapp, assert, hl, decide_false, Bool.false_eq_true, if_false, bind, Except.bind,
          Except.error.injEq]
        decide
      · rintro ⟨-, -, id, c, hm, -⟩
        rw [hm, message_length] at hl
        exact hl rfl
  · refine iff_of_false ?_ fun h => hauth ⟨h.1, h.2.1⟩
    have hoapp : oappLzReceive fromEndpoint packet s = .error EOApp := by
      rw [oappLzReceive, assert, if_neg fun h => hauth (oappLzReceive_ok.mp (by rw [oappLzReceive, assert, if_pos h]))]
    simp only [lzReceive, hoapp, bind, Except.bind, Except.error.injEq]
    decide

/-- The state a proof leaves, once sent. -/
def proofSent (now : Nat) (sender : Address) (id blobId : Bytes 32) (endEpoch : UInt64) (dstEid : UInt32)
    (peer : Bytes 32) (receipt : MessagingReceipt) (s : State) : State :=
  { s with
    log := s.log ++ [⟨now, .proofSent id.val blobId.val endEpoch dstEid receipt.nonce receipt.guid⟩]
    sent := s.sent ++ [⟨dstEid, peer, proofWire id blobId endEpoch⟩]
    transferred := if receipt.refund > 0 then s.transferred ++ [.coin receipt.refund sender] else s.transferred }

theorem Codec.encode_ok {intentId blobId m : List UInt8} {endEpoch : UInt64} :
    Codec.encode intentId blobId endEpoch = .ok m ↔
      ∃ id b : Bytes 32, intentId = id.val ∧ blobId = b.val ∧ m = proofWire id b endEpoch := by
  constructor
  · intro h
    have hl : intentId.length = 32 ∧ blobId.length = 32 := by
      simp only [Codec.encode, Result.bind_ok, assert_ok, exists_const, decide_eq_true_eq] at h
      exact ⟨h.1, h.2.1⟩
    refine ⟨⟨intentId, hl.1⟩, ⟨blobId, hl.2⟩, rfl, rfl, ?_⟩
    have he := Codec.encode_eq ⟨intentId, hl.1⟩ ⟨blobId, hl.2⟩ endEpoch
    exact Except.ok.inj (h.symm.trans he)
  · rintro ⟨id, b, rfl, rfl, rfl⟩
    exact Codec.encode_eq id b endEpoch

theorem oappLzSend_ok {dstEid : UInt32} {message : List UInt8} {s : State} {m : Sent} :
    oappLzSend dstEid message s = .ok m ↔ ∃ peer, s.peers dstEid = some peer ∧ m = ⟨dstEid, peer, message⟩ := by
  rw [oappLzSend]
  cases s.peers dstEid with
  | some peer => simp only [Except.ok.injEq, Option.some.injEq, exists_eq_left', eq_comm]
  | none => simp only [reduceCtorEq, false_and, exists_false]

/-- What `confirm_lz_send_proof` reads of the message. -/
theorem slice_proofWire (id b : Bytes 32) (e : UInt64) :
    slice (proofWire id b e) 1 32 = .ok id.val ∧ slice (proofWire id b e) 33 32 = .ok b.val ∧
      decodeU64FromU256 (proofWire id b e) 65 = .ok e := by
  have h := (decode_proofWire id b e).1
  simp only [Codec.decode, Result.bind_ok, assert_ok, exists_const, Result.pure_ok, Prod.mk.injEq] at h
  obtain ⟨-, _, -, -, _, hid, _, hb, _, he, rfl, rfl, rfl⟩ := h
  exact ⟨hid, hb, he⟩

/-- Nothing is asked of a proof but the relayer, a received intent and a peer. -/
theorem sendProof_ok {now : Nat} {sender : Address} {intentId blobId : List UInt8} {endEpoch : UInt64}
    {dstEid : UInt32} {receipt : Option MessagingReceipt} {s s' : State} :
    sendProof now sender intentId blobId endEpoch dstEid receipt s = .ok s' ↔ sender = s.receiver.relayer ∧
      ∃ (id b peer : Bytes 32) (r : MessagingReceipt) (record : IntentRecord), intentId = id.val ∧ blobId = b.val ∧
        receipt = some r ∧ s.receiver.receivedIntents id.val = some record ∧ s.peers dstEid = some peer ∧
        s' = proofSent now sender id b endEpoch dstEid peer r s := by
  simp only [sendProof, lzSendProof, Result.bind_ok, assert_ok, exists_const, decide_eq_true_eq, Codec.encode_ok,
    oappLzSend_ok, LzReceiverConfig.contains, Option.isSome_iff_exists]
  constructor
  · rintro ⟨_, ⟨hs, ⟨record, hr⟩, _, ⟨id, b, rfl, rfl, rfl⟩, peer, hpeer, rfl⟩, h⟩
    cases receipt with
    | none => cases h
    | some r =>
      refine ⟨hs, id, b, peer, r, record, rfl, rfl, rfl, hr, hpeer, ?_⟩
      obtain ⟨h₁, h₂, h₃⟩ := slice_proofWire id b endEpoch
      simp only [confirmLzSendProof, h₁, h₂, h₃, bind, Except.bind, pure, Except.pure, Except.ok.injEq] at h
      rw [← h, proofSent]
      split <;> rfl
  · rintro ⟨hs, id, b, peer, r, record, rfl, rfl, rfl, hr, hpeer, rfl⟩
    refine ⟨_, ⟨hs, ⟨record, hr⟩, _, ⟨id, b, rfl, rfl, rfl⟩, peer, hpeer, rfl⟩, ?_⟩
    obtain ⟨h₁, h₂, h₃⟩ := slice_proofWire id b endEpoch
    simp only [confirmLzSendProof, h₁, h₂, h₃, bind, Except.bind, pure, Except.pure, Except.ok.injEq, proofSent]
    split <;> rfl

/-- The state a store leaves. -/
def stored (now : Nat) (sender : Address) (intentId : List UInt8) (blob : Blob) (originalSender : Address)
    (s : State) : State :=
  { s with
    executor := { s.executor with
      executedIntents := Function.update s.executor.executedIntents intentId (some true) }
    log := s.log ++ [⟨now, .storageExecuted intentId blob.blobId blob.endEpoch sender⟩]
    transferred := s.transferred ++ [.blob blob originalSender] ++
      [.receipt ⟨intentId, blob.blobId, blob.endEpoch, originalSender⟩ originalSender] }

theorem committedField_ok {α : Type} {field : IntentRecord → α} {config : LzReceiverConfig} {intentId : List UInt8}
    {a : α} : committedField field config intentId = .ok a ↔
      ∃ record, config.receivedIntents intentId = some record ∧ a = field record := by
  rw [committedField]
  cases config.receivedIntents intentId with
  | some record => simp only [Except.ok.injEq, Option.some.injEq, exists_eq_left', eq_comm]
  | none => simp only [reduceCtorEq, false_and, exists_false]

theorem executeStore_ok {now : Nat} {sender : Address} {epoch : UInt32} {intentId : List UInt8} {blob : Blob}
    {originalSender : Address} {s s' : State} :
    Executor.executeStore now sender epoch intentId blob originalSender s = .ok s' ↔
      sender = s.executor.relayer ∧ blob.certifiedEpoch.isSome = true ∧
      s.executor.executedIntents intentId = none ∧ ∃ record, s.receiver.receivedIntents intentId = some record ∧
        now ≤ record.committedDeadline.toNat * 1000 ∧ blob.blobId = record.committedBlobId ∧
        epoch.toNat + record.committedStorageEpochs.toNat ≤ blob.endEpoch.toNat ∧
        s' = stored now sender intentId blob originalSender s := by
  simp only [Executor.executeStore, Executor.assertDeadline, Executor.assertReference, Result.bind_ok, assert_ok,
    exists_const, decide_eq_true_eq, Option.isNone_iff_eq_none, committedDeadline, committedBlobId,
    committedStorageEpochs, committedField_ok, blobIdMatches, coversStorageEpochs, beq_iff_eq, ge_iff_le,
    Result.pure_ok]
  constructor
  · rintro ⟨hs, hc, hx, _, ⟨record, hr, rfl⟩, ht, _, ⟨_, hr₁, rfl⟩, _, ⟨_, hr₂, rfl⟩, ⟨hb, he⟩, rfl⟩
    obtain rfl := Option.some.inj (hr.symm.trans hr₁)
    obtain rfl := Option.some.inj (hr.symm.trans hr₂)
    exact ⟨hs, hc, hx, record, hr, ht, hb, he, rfl⟩
  · rintro ⟨hs, hc, hx, record, hr, ht, hb, he, rfl⟩
    exact ⟨hs, hc, hx, _, ⟨record, hr, rfl⟩, ht, _, ⟨record, hr, rfl⟩, _, ⟨record, hr, rfl⟩, ⟨hb, he⟩, rfl⟩

/-! ## The effects -/

/-- Everything a transaction can do at the clock's time `now`. -/
inductive Effect (now : Nat) : Op → State → State → Prop
  | receive {s sender packet value id c} (hpeer : s.peers packet.srcEid = some packet.sender)
      (hm : packet.message = id.val ++ c.wire) (hnew : s.receiver.receivedIntents id.val = none) :
      Effect now (.lzReceive sender true packet value) s (received now sender packet value id c s)
  | prove {s endEpoch dstEid peer receipt record} {id b : Bytes 32}
      (hr : s.receiver.receivedIntents id.val = some record) (hpeer : s.peers dstEid = some peer) :
      Effect now (.sendProof s.receiver.relayer id.val b.val endEpoch dstEid (some receipt)) s
        (proofSent now s.receiver.relayer id b endEpoch dstEid peer receipt s)
  | store {s epoch intentId blob originalSender record} (hc : blob.certifiedEpoch.isSome = true)
      (hx : s.executor.executedIntents intentId = none) (hr : s.receiver.receivedIntents intentId = some record)
      (ht : now ≤ record.committedDeadline.toNat * 1000) (hb : blob.blobId = record.committedBlobId)
      (he : epoch.toNat + record.committedStorageEpochs.toNat ≤ blob.endEpoch.toNat) :
      Effect now (.executeStore s.executor.relayer epoch intentId blob originalSender) s
        (stored now s.executor.relayer intentId blob originalSender s)
  | setRelayer {s relayer} :
      Effect now (.setRelayer true relayer) s { s with receiver := { s.receiver with relayer } }
  | updateRelayer {s relayer} :
      Effect now (.updateRelayer s.executor.relayer relayer) s { s with executor := { s.executor with relayer } }
  | setExecutorRelayer {s relayer} :
      Effect now (.setExecutorRelayer true relayer) s { s with
        executor := { s.executor with relayer }
        log := s.log ++ [⟨now, .relayerChanged s.executor.relayer relayer⟩] }
  | setPeer {s eid peer} :
      Effect now (.setPeer true eid peer) s { s with peers := Function.update s.peers eid (some peer) }

theorem step_effect {now : Nat} {op : Op} {s s' : State} (h : step (now, op) s = .ok s') : Effect now op s s' := by
  cases op with
  | lzReceive sender fromEndpoint packet value =>
    obtain ⟨rfl, hpeer, id, c, hm, hnew, rfl⟩ := lzReceive_ok.mp h
    exact .receive hpeer hm hnew
  | sendProof sender intentId blobId endEpoch dstEid receipt =>
    obtain ⟨rfl, id, b, peer, r, record, rfl, rfl, rfl, hr, hpeer, rfl⟩ := sendProof_ok.mp h
    exact .prove hr hpeer
  | setRelayer isAdmin newRelayer =>
    simp only [step, setRelayer, assertAdmin, Result.bind_ok, assert_ok, exists_const, Result.pure_ok] at h
    obtain ⟨rfl, -, rfl⟩ := h
    exact .setRelayer
  | executeStore sender epoch intentId blob originalSender =>
    obtain ⟨rfl, hc, hx, record, hr, ht, hb, he, rfl⟩ := executeStore_ok.mp h
    exact .store hc hx hr ht hb he
  | updateRelayer sender newRelayer =>
    simp only [step, Executor.updateRelayer, Result.bind_ok, assert_ok, exists_const, Result.pure_ok,
      decide_eq_true_eq] at h
    obtain ⟨rfl, rfl⟩ := h
    exact .updateRelayer
  | setExecutorRelayer isAdmin newRelayer =>
    simp only [step, Executor.setRelayer, assertAdmin, Result.bind_ok, assert_ok, exists_const, Result.pure_ok] at h
    obtain ⟨rfl, -, rfl⟩ := h
    exact .setExecutorRelayer
  | setPeer isAdmin eid peer =>
    simp only [step, assertAdmin, Result.bind_ok, assert_ok, exists_const, Result.pure_ok] at h
    obtain ⟨rfl, rfl⟩ := h
    exact .setPeer

/-- A peer is set by the admin only. -/
theorem Effect.peers {now : Nat} {op : Op} {s s' : State} (h : Effect now op s s') {eid : UInt32} {peer : Bytes 32}
    (hp : s'.peers eid = some peer) : s.peers eid = some peer ∨ op = .setPeer true eid peer := by
  cases h with
  | setPeer =>
    rcases Table.set_some.mp hp with ⟨rfl, rfl⟩ | ⟨-, hp⟩
    · exact Or.inr rfl
    · exact Or.inl hp
  | _ => exact Or.inl hp

/-- A packet is accepted when the endpoint brings it from the peer of its source. -/
theorem Effect.delivered {now : Nat} {op : Op} {s s' : State} (h : Effect now op s s') {p : Packet}
    (hp : p ∈ s'.delivered) : p ∈ s.delivered ∨
      (s.peers p.srcEid = some p.sender ∧ ∃ sender value, op = .lzReceive sender true p value) := by
  cases h with
  | receive hpeer hm hnew =>
    rcases List.mem_append.mp hp with hp | hp
    · exact Or.inl hp
    · obtain rfl := List.mem_singleton.mp hp
      exact Or.inr ⟨hpeer, _, _, rfl⟩
  | _ => exact Or.inl hp

/-- A message is sent by a proof of a received intent. -/
theorem Effect.sent {now : Nat} {op : Op} {s s' : State} (h : Effect now op s s') {m : Sent} (hm : m ∈ s'.sent) :
    m ∈ s.sent ∨ ∃ (sender : Address) (id b : Bytes 32) (endEpoch : UInt64) (dstEid : UInt32)
      (receipt : Option MessagingReceipt), op = .sendProof sender id.val b.val endEpoch dstEid receipt ∧
        m.message = proofWire id b endEpoch ∧ ∃ record, s.receiver.receivedIntents id.val = some record := by
  cases h with
  | prove hr hpeer =>
    rcases List.mem_append.mp hm with hm | hm
    · exact Or.inl hm
    · exact Or.inr ⟨_, _, _, _, _, _, rfl, by rw [List.mem_singleton.mp hm], _, hr⟩
  | _ => exact Or.inl hm

/-! ## The records -/

/-- The record of an id. -/
abbrev State.record (s : State) (intentId : List UInt8) : Option IntentRecord := s.receiver.receivedIntents intentId

/-- An id is in the table of executed intents. -/
def State.Executed (s : State) (intentId : List UInt8) : Prop := s.executor.executedIntents intentId ≠ none

/-- Every table and history only grows. -/
structure Grown (s s' : State) : Prop where
  record : ∀ i r, s.record i = some r → s'.record i = some r
  executed : ∀ i, s.Executed i → s'.Executed i
  log : ∀ x ∈ s.log, x ∈ s'.log
  delivered : ∀ p ∈ s.delivered, p ∈ s'.delivered
  sent : ∀ m ∈ s.sent, m ∈ s'.sent

/-- The tables agree with the history. -/
structure Recorded (s : State) : Prop where
  record : ∀ i r, s.record i = some r →
    ∃ p ∈ s.delivered, ∃ (id : Bytes 32) (c : Commitment), i = id.val ∧ p.message = id.val ++ c.wire ∧
      r = recordOf p c
  delivered : ∀ p ∈ s.delivered, ∃ (id : Bytes 32) (c : Commitment), p.message = id.val ++ c.wire ∧
    s.record id.val = some (recordOf p c)
  executed : ∀ i, s.Executed i → ∃ t b e who, ⟨t, .storageExecuted i b e who⟩ ∈ s.log
  stored : ∀ t i b e who, ⟨t, .storageExecuted i b e who⟩ ∈ s.log → s.Executed i ∧
    ∃ r, s.record i = some r ∧ b = r.committedBlobId ∧ t ≤ r.committedDeadline.toNat * 1000
  sent : ∀ m ∈ s.sent, ∃ id b e r, m.message = proofWire id b e ∧ s.record id.val = some r

theorem Grown.refl (s : State) : Grown s s := ⟨fun _ _ h => h, fun _ h => h, fun _ h => h, fun _ h => h, fun _ h => h⟩

theorem Grown.trans {s t u : State} (h : Grown s t) (h' : Grown t u) : Grown s u where
  record i r hr := h'.record i r (h.record i r hr)
  executed i hx := h'.executed i (h.executed i hx)
  log x hx := h'.log x (h.log x hx)
  delivered p hp := h'.delivered p (h.delivered p hp)
  sent m hm := h'.sent m (h.sent m hm)

/-- Writing a new entry of the table of executed intents keeps the old ones. -/
theorem executed_update {t : List UInt8 → Option Bool} {i j : List UInt8} :
    Function.update t j (some true) i ≠ none ↔ i = j ∨ t i ≠ none := by
  by_cases h : i = j
  · subst h
    rw [Function.update_self]
    exact iff_of_true (Option.some_ne_none _) (Or.inl rfl)
  · rw [Function.update_of_ne h, or_iff_right h]

theorem Effect.grown {now : Nat} {op : Op} {s s' : State} (h : Effect now op s s') : Grown s s' := by
  cases h with
  | @receive s sender packet value id c hpeer hm hnew =>
    refine ⟨fun i r hr => ?_, fun _ h => h, fun _ => List.mem_append_left _, fun _ => List.mem_append_left _,
      fun _ h => h⟩
    have hne : i ≠ id.val := fun he => by
      rw [he, State.record, hnew] at hr
      cases hr
    exact Table.set_some.mpr (Or.inr ⟨hne, hr⟩)
  | prove =>
    exact ⟨fun _ _ h => h, fun _ h => h, fun _ => List.mem_append_left _, fun _ h => h,
      fun _ => List.mem_append_left _⟩
  | store =>
    exact ⟨fun _ _ h => h, fun _ h => executed_update.mpr (Or.inr h), fun _ => List.mem_append_left _,
      fun _ h => h, fun _ h => h⟩
  | setExecutorRelayer =>
    exact ⟨fun _ _ h => h, fun _ h => h, fun _ => List.mem_append_left _, fun _ h => h, fun _ h => h⟩
  | setRelayer | updateRelayer | setPeer =>
    exact ⟨fun _ _ h => h, fun _ h => h, fun _ h => h, fun _ h => h, fun _ h => h⟩

/-- Nothing is received, stored or sent. -/
theorem Recorded.of_same {s s' : State} (h : Recorded s) (hg : Grown s s') (hr : ∀ i, s'.record i = s.record i)
    (hx : ∀ i, s'.Executed i → s.Executed i) (hd : s'.delivered = s.delivered)
    (hl : ∀ t i b e who, ⟨t, .storageExecuted i b e who⟩ ∈ s'.log → ⟨t, .storageExecuted i b e who⟩ ∈ s.log)
    (hs : ∀ m ∈ s'.sent, m ∈ s.sent ∨ ∃ id b e r, m.message = proofWire id b e ∧ s.record id.val = some r) :
    Recorded s' where
  record i r hi := by
    rw [hd]
    rw [hr] at hi
    exact h.record i r hi
  delivered p hp := by
    rw [hd] at hp
    obtain ⟨id, c, hm, hi⟩ := h.delivered p hp
    exact ⟨id, c, hm, (hr _).trans hi⟩
  executed i hi := by
    obtain ⟨t, b, e, who, hm⟩ := h.executed i (hx i hi)
    exact ⟨t, b, e, who, hg.log _ hm⟩
  stored t i b e who hm := by
    obtain ⟨hi, r, hrec, hb, ht⟩ := h.stored t i b e who (hl t i b e who hm)
    exact ⟨hg.executed i hi, r, (hr i).trans hrec, hb, ht⟩
  sent m hm := by
    have hold : ∃ id b e r, m.message = proofWire id b e ∧ s.record id.val = some r := by
      rcases hs m hm with hm | hm
      · exact h.sent m hm
      · exact hm
    obtain ⟨id, b, e, r, hw, hrec⟩ := hold
    exact ⟨id, b, e, r, hw, (hr _).trans hrec⟩

/-- An event among old ones and a new one that is no store is old. -/
theorem stored_old {l : List Entry} {x y : Entry} (hx : x ∈ l ++ [y]) (hne : x.event ≠ y.event) : x ∈ l := by
  rcases List.mem_append.mp hx with hx | hx
  · exact hx
  · exact absurd (congrArg Entry.event (List.mem_singleton.mp hx)) hne

theorem Effect.recorded {now : Nat} {op : Op} {s s' : State} (h : Effect now op s s') (hs : Recorded s) :
    Recorded s' := by
  have hg := h.grown
  cases h with
  | @receive s sender packet value id c hpeer hm hnew =>
    refine ⟨fun i r hr => ?_, fun p hp => ?_, fun i hx => ?_, fun t i b e who hx => ?_, fun m hsent => ?_⟩
    · rcases Table.set_some.mp hr with ⟨rfl, rfl⟩ | ⟨-, hr⟩
      · exact ⟨packet, List.mem_append_right _ (List.mem_singleton_self _), id, c, rfl, hm, rfl⟩
      · obtain ⟨p, hp, hrest⟩ := hs.record i r hr
        exact ⟨p, List.mem_append_left _ hp, hrest⟩
    · rcases List.mem_append.mp hp with hp | hp
      · obtain ⟨id', c', hm', hr⟩ := hs.delivered p hp
        exact ⟨id', c', hm', hg.record _ _ hr⟩
      · obtain rfl := List.mem_singleton.mp hp
        exact ⟨id, c, hm, Function.update_self _ _ _⟩
    · obtain ⟨t, b, e, who, hx⟩ := hs.executed i hx
      exact ⟨t, b, e, who, hg.log _ hx⟩
    · obtain ⟨hi, r, hr, hrest⟩ := hs.stored t i b e who (stored_old hx Event.noConfusion)
      exact ⟨hi, r, hg.record _ _ hr, hrest⟩
    · obtain ⟨id', b, e, r, hw, hr⟩ := hs.sent m hsent
      exact ⟨id', b, e, r, hw, hg.record _ _ hr⟩
  | @prove s endEpoch dstEid peer receipt record id b hr hpeer =>
    refine hs.of_same hg (fun _ => rfl) (fun _ h => h) rfl (fun t i b e who hx => stored_old hx Event.noConfusion)
      fun m hm => ?_
    rcases List.mem_append.mp hm with hm | hm
    · exact Or.inl hm
    · exact Or.inr ⟨id, b, endEpoch, record, by rw [List.mem_singleton.mp hm], hr⟩
  | @store s epoch intentId blob originalSender record hc hx hr ht hb he =>
    refine ⟨hs.record, hs.delivered, fun i hi => ?_, fun t i b e who hm => ?_, hs.sent⟩
    · rcases executed_update.mp hi with rfl | hi
      · exact ⟨now, _, _, _, List.mem_append_right _ (List.mem_singleton_self _)⟩
      · obtain ⟨t, b, e, who, hx⟩ := hs.executed i hi
        exact ⟨t, b, e, who, hg.log _ hx⟩
    · rcases List.mem_append.mp hm with hm | hm
      · obtain ⟨hi, hrest⟩ := hs.stored t i b e who hm
        exact ⟨hg.executed i hi, hrest⟩
      · cases List.mem_singleton.mp hm
        exact ⟨executed_update.mpr (Or.inl rfl), record, hr, hb, ht⟩
  | setExecutorRelayer =>
    exact hs.of_same hg (fun _ => rfl) (fun _ h => h) rfl (fun t i b e who hx => stored_old hx Event.noConfusion)
      fun _ => Or.inl
  | setRelayer | updateRelayer | setPeer =>
    exact hs.of_same hg (fun _ => rfl) (fun _ h => h) rfl (fun _ _ _ _ _ h => h) fun _ => Or.inl

theorem init_recorded (now : Nat) (publisher : Address) : Recorded (init now publisher) where
  record i r h := by cases h
  delivered p h := by cases h
  executed i h := (h rfl).elim
  stored t i b e who h := by cases List.mem_singleton.mp h
  sent m h := by cases h

/-! ## Once -/

/-- Whether the event is that of a blob stored for the id. -/
def Event.storesFor (intentId : List UInt8) : Event → Bool
  | .storageExecuted i _ _ _ => i == intentId
  | _ => false

/-- How often `execute_store` has succeeded for an id. -/
def State.executions (s : State) (intentId : List UInt8) : Nat := s.log.countP (·.event.storesFor intentId)

/-- It has succeeded once for an id that is in the table, and not for any other. -/
def State.Once (s : State) (intentId : List UInt8) : Prop :=
  s.executions intentId = if s.executor.executedIntents intentId = none then 0 else 1

theorem State.Once.le {s : State} {i : List UInt8} (h : s.Once i) : s.executions i ≤ 1 := by
  rw [h]
  split <;> omega

theorem executions_append {log : List Entry} {x : Entry} {i : List UInt8} :
    (log ++ [x]).countP (·.event.storesFor i) =
      log.countP (·.event.storesFor i) + if x.event.storesFor i then 1 else 0 := by
  rw [List.countP_append, List.countP_singleton]

theorem Effect.once {now : Nat} {op : Op} {s s' : State} (h : Effect now op s s') {i : List UInt8} (hs : s.Once i) :
    s'.Once i := by
  cases h with
  | receive | prove | setExecutorRelayer =>
    refine Eq.trans ?_ hs
    exact executions_append
  | @store s epoch intentId blob originalSender record hc hx hr ht hb he =>
    show List.countP _ (s.log ++ [_]) = _
    rw [executions_append]
    by_cases hi : intentId = i
    · subst hi
      have hnone : s.log.countP (·.event.storesFor intentId) = 0 := hs.trans (if_pos hx)
      have hin : (stored now s.executor.relayer intentId blob originalSender s).executor.executedIntents intentId ≠ none :=
        executed_update.mpr (Or.inl rfl)
      rw [hnone, if_neg hin]
      simp [Event.storesFor]
    · have hsame : (stored now s.executor.relayer intentId blob originalSender s).executor.executedIntents i =
          s.executor.executedIntents i := Function.update_of_ne (Ne.symm hi) ..
      rw [hsame, ← hs]
      simp [Event.storesFor, hi, State.executions]
  | setRelayer | updateRelayer | setPeer => exact hs

end Bosphor.Sui

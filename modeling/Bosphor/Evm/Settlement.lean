import Bosphor.Evm.Solvency

/-!
# Escrows are settled once, and to the right party

What the log of events says about each escrow, and what the ledgers of
withdrawals say about the log:

* `Settlement`: an escrow without an event, opened, opened and released, or
  opened and refunded, as its status says, with the parties, amounts and times;
* `State.Reconciled`: what an account may withdraw and has withdrawn of an
  asset is what the log credits it with;
* `escrow_settled_once`: both hold in every reachable state, and a status only
  moves forward.
-/

namespace Bosphor.Evm

open Bytes (toBE)

/-! ## Reading the log -/

/-- The escrow an event is about. -/
def Event.escrowId : Event → Option IntentId
  | .escrowOpened id .. => some id
  | .escrowReleased id .. => some id
  | .escrowRefunded id .. => some id
  | _ => none

/-- The events about the escrow of `id`, oldest first. -/
def State.escrowLog (s : State) (id : IntentId) : List Entry :=
  s.log.filter fun x => x.event.escrowId = some id

/-- The relayer configured after the events of `log`, if it was `relayer` before. -/
def relayerAfter (relayer : Address) (log : List Entry) : Address :=
  log.foldl (fun relayer x =>
    match x.event with
    | .relayerUpdated _ newRelayer => newRelayer
    | _ => relayer) relayer

/-- The amount an event credits somebody with. -/
def Event.creditAmount : Event → Nat
  | .escrowReleased _ _ amount => amount
  | .escrowRefunded _ _ amount => amount
  | _ => 0

/-- The total credited on account of the escrow of `id`. -/
def State.creditedFor (s : State) (id : IntentId) : Nat :=
  ((s.escrowLog id).map fun x => x.event.creditAmount).sum

/-- The intent was submitted and executed, and a proof was received that carries the blob id committed
at its submission. -/
def State.Proven (s : State) (id : IntentId) : Prop :=
  s.intents id = true ∧ s.executed id = true ∧
    ∃ time sender dstEid c nonce, ⟨time, .intentSubmitted id sender dstEid c nonce⟩ ∈ s.log ∧
      ∃ packet ∈ s.received, ∃ endEpoch, decodeProofMessage packet.message = .ok (id, c.blobId, endEpoch)

/-- What the log says about the escrow of `id`. A released escrow went to the relayer configured by the
events before its release; a refunded one to its payer, at a block time past its deadline. -/
def Settlement (relayer : Address) (s : State) (id : IntentId) : Prop :=
  let e := s.escrows id
  match e.status with
  | .none => s.escrowLog id = []
  | .pending => ∃ t, s.escrowLog id = [⟨t, .escrowOpened id e.payer e.token e.amount e.deadline⟩]
  | .released => s.Proven id ∧ ∃ t t' earlier later,
      s.log = earlier ++ ⟨t', .escrowReleased id (relayerAfter relayer earlier) e.amount⟩ :: later ∧
      s.escrowLog id = [⟨t, .escrowOpened id e.payer e.token e.amount e.deadline⟩,
        ⟨t', .escrowReleased id (relayerAfter relayer earlier) e.amount⟩]
  | .refunded => ∃ t t', e.deadline.toNat < t' ∧
      s.escrowLog id = [⟨t, .escrowOpened id e.payer e.token e.amount e.deadline⟩,
        ⟨t', .escrowRefunded id e.payer e.amount⟩]

/-- One step of an escrow. -/
inductive Escrow.Next : Escrow → Escrow → Prop
  | opened {e : Escrow} (payer token : Address) (amount : Nat) (deadline : UInt64) (h : e.status = .none) :
      Next e ⟨payer, token, amount, deadline, .pending⟩
  | released {e : Escrow} (h : e.status = .pending) : Next e { e with status := .released }
  | refunded {e : Escrow} (h : e.status = .pending) : Next e { e with status := .refunded }

/-- What an escrow can become. -/
abbrev Escrow.Path : Escrow → Escrow → Prop := Relation.ReflTransGen Escrow.Next

/-! ## The log grows -/

theorem escrowLog_append {s s' : State} {l : List Entry} (h : s'.log = s.log ++ l) (id : IntentId) :
    s'.escrowLog id = s.escrowLog id ++ l.filter fun x => x.event.escrowId = some id := by
  rw [State.escrowLog, h, List.filter_append]
  rfl

theorem relayerAfter_append (relayer : Address) (l m : List Entry) :
    relayerAfter relayer (l ++ m) = relayerAfter (relayerAfter relayer l) m :=
  List.foldl_append

/-- Nothing happened to the escrow of `id`, and nothing recorded about it was lost. -/
structure Frame (s s' : State) (id : IntentId) : Prop where
  escrow : s'.escrows id = s.escrows id
  log : ∃ l, s'.log = s.log ++ l ∧ ∀ x ∈ l, x.event.escrowId ≠ some id
  intents : s.intents id = true → s'.intents id = true
  executed : s.executed id = true → s'.executed id = true
  received : ∀ p ∈ s.received, p ∈ s'.received

/-- An effect that touches no escrow but that of `id'`. -/
theorem Frame.of_other {s s' : State} {l : List Entry} {id id' : IntentId} {e : Escrow} (hne : id ≠ id')
    (he : s'.escrows = Function.update s.escrows id' e) (hl : s'.log = s.log ++ l)
    (hn : ∀ x ∈ l, x.event.escrowId = none ∨ x.event.escrowId = some id')
    (hi : s.intents id = true → s'.intents id = true) (hx : s.executed id = true → s'.executed id = true)
    (hr : ∀ p ∈ s.received, p ∈ s'.received) : Frame s s' id where
  escrow := by rw [he, Function.update_of_ne hne]
  log := ⟨l, hl, fun x hm hid => by
    rcases hn x hm with h | h
    · rw [h] at hid
      cases hid
    · exact hne (Option.some.inj (hid.symm.trans h))⟩
  intents := hi
  executed := hx
  received := hr

/-- An effect that touches no escrow. -/
theorem Frame.of_neutral {s s' : State} {l : List Entry} (he : s'.escrows = s.escrows)
    (hl : s'.log = s.log ++ l) (hn : ∀ x ∈ l, x.event.escrowId = none) (hi : s'.intents = s.intents)
    (hx : ∀ id, s.executed id = true → s'.executed id = true) (hr : s'.received = s.received)
    (id : IntentId) : Frame s s' id where
  escrow := congrFun he id
  log := ⟨l, hl, fun x hm => by rw [hn x hm]; exact (Option.some_ne_none id).symm⟩
  intents := by rw [hi]; exact fun h => h
  executed := hx id
  received := by rw [hr]; exact fun p h => h

theorem Frame.escrowLog {s s' : State} {id : IntentId} (h : Frame s s' id) : s'.escrowLog id = s.escrowLog id := by
  obtain ⟨l, hl, hn⟩ := h.log
  rw [escrowLog_append hl, List.filter_eq_nil_iff.mpr fun x hx => by simpa using hn x hx, List.append_nil]

theorem Frame.proven {s s' : State} {id : IntentId} (h : Frame s s' id) (hp : s.Proven id) : s'.Proven id := by
  obtain ⟨hi, hx, time, sender, dstEid, c, nonce, hm, packet, hr, endEpoch, hdec⟩ := hp
  obtain ⟨l, hl, -⟩ := h.log
  refine ⟨h.intents hi, h.executed hx, time, sender, dstEid, c, nonce, ?_, packet, h.received _ hr, endEpoch, hdec⟩
  rw [hl]
  exact List.mem_append_left l hm

theorem Frame.settlement {relayer : Address} {s s' : State} {id : IntentId} (h : Frame s s' id)
    (hs : Settlement relayer s id) : Settlement relayer s' id := by
  simp only [Settlement, h.escrow, h.escrowLog] at hs ⊢
  cases hst : (s.escrows id).status with
  | none | pending | refunded =>
    rw [hst] at hs
    exact hs
  | released =>
    rw [hst] at hs
    obtain ⟨hp, t, t', earlier, later, hlog, hesc⟩ := hs
    obtain ⟨l, hl, -⟩ := h.log
    refine ⟨h.proven hp, t, t', earlier, later ++ l, ?_, hesc⟩
    rw [hl, hlog, List.append_assoc]
    rfl

/-! ## Every effect keeps the record -/

/-- What is recorded: the relayer, each escrow, and each commitment. -/
structure Recorded (relayer : Address) (s : State) : Prop where
  relayer_eq : s.trustedRelayer = relayerAfter relayer s.log
  settled : ∀ id, Settlement relayer s id
  submitted : ∀ id, s.intents id = true → ∃ time sender dstEid c nonce,
    ⟨time, .intentSubmitted id sender dstEid c nonce⟩ ∈ s.log ∧ s.committedBlobId id = c.blobId

/-- The log of an escrow that was opened and nothing else, once it is settled. -/
theorem escrowLog_settled {relayer : Address} {s : State} (s' : State) {id : IntentId} {l : List Entry} {x : Entry}
    (hs : Settlement relayer s id) (hp : (s.escrows id).status = .pending) (hl : s'.log = s.log ++ l)
    (hx : (l.filter fun x => x.event.escrowId = some id) = [x]) :
    let e := s.escrows id
    ∃ t, s'.escrowLog id = [⟨t, .escrowOpened id e.payer e.token e.amount e.deadline⟩, x] := by
  simp only [Settlement, hp] at hs
  obtain ⟨t, ht⟩ := hs
  exact ⟨t, by rw [escrowLog_append hl, ht, hx]; rfl⟩

/-- The log of an escrow once it is opened. -/
theorem escrowLog_opened {relayer : Address} {s s' : State} {id : IntentId} {l : List Entry} {x : Entry}
    (hs : Settlement relayer s id) (hn : (s.escrows id).status = .none) (hl : s'.log = s.log ++ l)
    (hx : (l.filter fun x => x.event.escrowId = some id) = [x]) : s'.escrowLog id = [x] := by
  simp only [Settlement, hn] at hs
  rw [escrowLog_append hl, hs, hx]
  rfl

/-- Events that are neither about an escrow nor about the relayer keep the record, when the state
keeps the rest. -/
theorem Recorded.of_neutral {relayer : Address} {s s' : State} {l : List Entry} (h : Recorded relayer s)
    (he : s'.escrows = s.escrows) (hl : s'.log = s.log ++ l) (hn : ∀ x ∈ l, x.event.escrowId = none)
    (hi : s'.intents = s.intents) (hb : s'.committedBlobId = s.committedBlobId)
    (hx : ∀ id, s.executed id = true → s'.executed id = true) (hr : s'.received = s.received)
    (hrel : s'.trustedRelayer = relayerAfter s.trustedRelayer l) : Recorded relayer s' where
  relayer_eq := by rw [hrel, hl, relayerAfter_append, h.relayer_eq]
  settled id := (Frame.of_neutral he hl hn hi hx hr id).settlement (h.settled id)
  submitted id hid := by
    rw [hi] at hid
    obtain ⟨time, sender, dstEid, c, nonce, hm, hc⟩ := h.submitted id hid
    exact ⟨time, sender, dstEid, c, nonce, by rw [hl]; exact List.mem_append_left l hm, by rw [hb]; exact hc⟩

/-- The record of submissions does not shrink. -/
theorem Recorded.submitted_append {relayer : Address} {s : State} (h : Recorded relayer s) {id : IntentId}
    (hid : s.intents id = true) (l : List Entry) : ∃ time sender dstEid c nonce,
    ⟨time, .intentSubmitted id sender dstEid c nonce⟩ ∈ s.log ++ l ∧ s.committedBlobId id = c.blobId := by
  obtain ⟨time, sender, dstEid, c, nonce, hm, hc⟩ := h.submitted id hid
  exact ⟨time, sender, dstEid, c, nonce, List.mem_append_left l hm, hc⟩

theorem Recorded.relayer_append {relayer : Address} {s s' : State} {l : List Entry} (h : Recorded relayer s)
    (hl : s'.log = s.log ++ l) (hr : s'.trustedRelayer = relayerAfter s.trustedRelayer l) :
    s'.trustedRelayer = relayerAfter relayer s'.log := by
  rw [hr, hl, relayerAfter_append, h.relayer_eq]

theorem proven_log (now value : Nat) (packet : Received) (id : IntentId) (blobId : Bytes 32) (endEpoch : Nat)
    (s : State) : (proven now value packet id blobId endEpoch s).log = s.log ++
      [⟨now, .intentExecuted id (blobId.val ++ toBE 32 endEpoch)⟩,
        ⟨now, .escrowReleased id s.trustedRelayer (s.escrows id).amount⟩] :=
  List.append_assoc _ _ _

theorem Effect.recorded {now : Nat} {allowed : Op → Prop} {relayer : Address} {p q : State × (Address → Nat)}
    (h : Effect now allowed p q) (hp : Recorded relayer p.1) : Recorded relayer q.1 := by
  cases h with
  | @submit s r sender value nativeFee dstEid c ha h hnew hnone =>
    refine ⟨hp.relayer_append rfl rfl, fun id => ?_, fun id hid => ?_⟩
    · by_cases he : id = s.nextId sender c
      · subst he
        have hst : ((submitted now sender value nativeFee dstEid c s).escrows (s.nextId sender c)) =
            ⟨sender, nativeToken, value - nativeFee, c.deadline, .pending⟩ := Function.update_self _ _ _
        simp only [Settlement, hst]
        exact ⟨now, escrowLog_opened (hp.settled _) hnone rfl (by simp [Event.escrowId])⟩
      · refine Frame.settlement (Frame.of_other he rfl rfl ?_ ?_ (fun h => h) fun _ h => h) (hp.settled id)
        · simp [Event.escrowId]
        · exact fun hi => (Function.update_of_ne he _ _).trans hi
    · by_cases he : id = s.nextId sender c
      · subst he
        refine ⟨now, sender, dstEid, c, _, List.mem_append_right _ (List.mem_cons_of_mem _ List.mem_cons_self), ?_⟩
        exact Function.update_self _ _ _
      · have hid' : s.intents id = true := (Function.update_of_ne he _ _).symm.trans hid
        obtain ⟨time, sender', dstEid', c', nonce, hm, hc⟩ := hp.submitted_append hid' _
        exact ⟨time, sender', dstEid', c', nonce, hm, (Function.update_of_ne he _ _).trans hc⟩
  | @prove s r value packet id blobId endEpoch ha hdec h =>
    have hlog := proven_log now value packet id blobId endEpoch s
    have hsub : ∀ id', s.intents id' = true → _ := fun id' hid => hlog ▸ hp.submitted_append hid _
    refine ⟨hp.relayer_append hlog rfl, fun id' => ?_, hsub⟩
    by_cases he : id' = id
    · subst he
      obtain ⟨t, ht⟩ := escrowLog_settled _ (hp.settled id') h.pending hlog (x := ⟨now, .escrowReleased id'
        s.trustedRelayer (s.escrows id').amount⟩) (by simp [Event.escrowId])
      obtain ⟨time, sender, dstEid, c, nonce, hm, hc⟩ := hsub id' h.submitted
      have hreleased : (proven now value packet id' blobId endEpoch s).escrows id' =
          { s.escrows id' with status := .released } := Function.update_self _ _ _
      have hrelayer : relayerAfter relayer (s.log ++ [⟨now, .intentExecuted id' (blobId.val ++ toBE 32 endEpoch)⟩]) =
          s.trustedRelayer := by rw [relayerAfter_append, ← hp.relayer_eq]; rfl
      simp only [Settlement, hreleased]
      refine ⟨⟨h.submitted, Function.update_self _ _ _, time, sender, dstEid, c, nonce, hm, packet,
        List.mem_append_right _ (List.mem_singleton_self _), endEpoch, ?_⟩, t, now,
        s.log ++ [⟨now, .intentExecuted id' (blobId.val ++ toBE 32 endEpoch)⟩], [], ?_, ?_⟩
      · rw [hdec, h.committed, hc]
      · rw [hrelayer]
        rfl
      · rw [hrelayer]
        exact ht
    · refine Frame.settlement (s := s) (Frame.of_other he rfl hlog ?_ (fun h => h) ?_ fun _ h =>
        List.mem_append_left _ h) (hp.settled id')
      · simp [Event.escrowId]
      · exact fun hx => (Function.update_of_ne he _ _).trans hx
  | @refund s r id ha hpending hlate hfit =>
    refine ⟨hp.relayer_append rfl rfl, fun id' => ?_, fun id' hid => hp.submitted_append hid _⟩
    by_cases he : id' = id
    · subst he
      obtain ⟨t, ht⟩ := escrowLog_settled (s.settled now id' .refunded (s.escrows id').payer
        (.escrowRefunded id' (s.escrows id').payer (s.escrows id').amount)) (hp.settled id') hpending
        (x := ⟨now, .escrowRefunded id' (s.escrows id').payer (s.escrows id').amount⟩) rfl
        (by simp [Event.escrowId])
      have hrefunded : (s.settled now id' .refunded (s.escrows id').payer
          (.escrowRefunded id' (s.escrows id').payer (s.escrows id').amount)).escrows id' =
          { s.escrows id' with status := .refunded } := Function.update_self _ _ _
      simp only [Settlement, hrefunded]
      exact ⟨t, now, hlate, ht⟩
    · refine Frame.settlement (Frame.of_other he rfl rfl ?_ (fun h => h) (fun h => h) fun _ h => h)
        (hp.settled id')
      simp [Event.escrowId]
  | @openToken s r sender id deadline token amount left ha htoken hnone =>
    refine ⟨hp.relayer_append rfl rfl, fun id' => ?_, fun id' hid => hp.submitted_append hid _⟩
    by_cases he : id' = id
    · subst he
      simp only [Settlement, Function.update_self]
      exact ⟨now, escrowLog_opened (hp.settled id') hnone rfl (by simp [Event.escrowId])⟩
    · refine Frame.settlement (Frame.of_other he rfl rfl ?_ (fun h => h) (fun h => h) fun _ h => h)
        (hp.settled id')
      simp [Event.escrowId]
  | @confirm s r id proof ha hi hx =>
    refine hp.of_neutral rfl rfl (by simp [Event.escrowId]) rfl rfl (fun id' h => ?_) rfl rfl
    by_cases he : id' = id
    · exact he ▸ Function.update_self _ _ _
    · exact (Function.update_of_ne he _ _).trans h
  | @setRelayer s r relayer' ha hne =>
    exact hp.of_neutral rfl rfl (by simp [Event.escrowId]) rfl rfl (fun _ h => h) rfl rfl
  | setPeer | setOwner | withdrawn | withdrawnToken =>
    exact hp.of_neutral rfl rfl (by simp [Event.escrowId]) rfl rfl (fun _ h => h) rfl rfl
  | setPermit2 | receive | tokenMoves | pull | withdraw | debitToken | payToken =>
    exact hp.of_neutral rfl (List.append_nil _).symm (by simp) rfl rfl (fun _ h => h) rfl rfl

/-! ## The ledgers agree with the log -/

/-- What an event credits `account` with in `asset`, when `tokenOf` says what each escrow is in. -/
def Event.credits (tokenOf : IntentId → Address) (asset account : Address) : Event → Nat
  | .escrowReleased id recipient amount => if tokenOf id = asset ∧ recipient = account then amount else 0
  | .escrowRefunded id payer amount => if tokenOf id = asset ∧ payer = account then amount else 0
  | _ => 0

/-- What the events of `log` credit `account` with in `asset`. -/
def creditsOf (tokenOf : IntentId → Address) (asset account : Address) (log : List Entry) : Nat :=
  (log.map fun x => x.event.credits tokenOf asset account).sum

/-- The asset of each escrow. -/
def State.tokenOf (s : State) (id : IntentId) : Address := (s.escrows id).token

/-- What each account may withdraw and has withdrawn of each asset is what the log credits it with; the
native asset has no token ledger. -/
structure Reconciled (s : State) : Prop where
  ledger : ∀ asset account, s.withdrawableOf asset account + s.drawn asset account =
    creditsOf s.tokenOf asset account s.log
  sentinel : ∀ account, s.withdrawableToken nativeToken account = 0

theorem creditsOf_append (tokenOf : IntentId → Address) (asset account : Address) (l m : List Entry) :
    creditsOf tokenOf asset account (l ++ m) =
      creditsOf tokenOf asset account l + creditsOf tokenOf asset account m := by
  rw [creditsOf, List.map_append, List.sum_append]
  rfl

/-- The assets of escrows that the log does not mention do not matter. -/
theorem creditsOf_congr {tokenOf tokenOf' : IntentId → Address} {log : List Entry} (asset account : Address)
    (h : ∀ x ∈ log, ∀ id, x.event.escrowId = some id → tokenOf' id = tokenOf id) :
    creditsOf tokenOf' asset account log = creditsOf tokenOf asset account log := by
  rw [creditsOf, creditsOf]
  congr 1
  refine List.map_congr_left fun x hx => ?_
  have hx := h x hx
  cases he : x.event <;> simp only [he, Event.escrowId, Event.credits, Option.some.injEq, forall_eq'] at hx ⊢
  all_goals rw [hx]

/-- An event that settles no escrow credits nobody. -/
theorem creditsOf_eq_zero {tokenOf : IntentId → Address} {log : List Entry} (asset account : Address)
    (h : ∀ x ∈ log, x.event.creditAmount = 0) : creditsOf tokenOf asset account log = 0 := by
  rw [creditsOf, List.sum_eq_zero]
  intro n hn
  obtain ⟨x, hx, rfl⟩ := List.mem_map.mp hn
  have hx := h x hx
  cases he : x.event <;> simp only [he, Event.creditAmount, Event.credits] at hx ⊢
  all_goals rw [hx, ite_self]

/-- The ledgers after a credit. -/
theorem withdrawableOf_credited (s : State) (asset recipient : Address) (amount : Nat) (other account : Address) :
    (s.credited asset recipient amount).withdrawableOf other account =
      s.withdrawableOf other account + if asset = other ∧ recipient = account then amount else 0 := by
  by_cases ha : other = asset
  · subst ha
    rw [withdrawableOf_credited_self]
    by_cases hr : account = recipient
    · subst hr
      rw [Function.update_self, if_pos ⟨rfl, rfl⟩]
    · rw [Function.update_of_ne hr, if_neg fun h => hr h.2.symm, Nat.add_zero]
  · rw [withdrawableOf_credited_of_ne s recipient amount ha, if_neg fun h => ha h.1.symm, Nat.add_zero]

/-- The history of withdrawals after one. -/
theorem drawMore_apply (s : State) (asset recipient : Address) (amount : Nat) (other account : Address) :
    drawMore asset recipient amount s other account =
      s.drawn other account + if asset = other ∧ recipient = account then amount else 0 := by
  by_cases ha : other = asset
  · subst ha
    rw [drawMore, Function.update_self]
    by_cases hr : account = recipient
    · subst hr
      rw [Function.update_self, if_pos ⟨rfl, rfl⟩]
    · rw [Function.update_of_ne hr, if_neg fun h => hr h.2.symm, Nat.add_zero]
  · rw [drawMore, Function.update_of_ne ha, if_neg fun h => ha h.1.symm, Nat.add_zero]

/-- The ledgers stay, and the log grows by events that settle nothing. -/
theorem Reconciled.of_neutral {s s' : State} {l : List Entry} (h : Reconciled s) (hl : s'.log = s.log ++ l)
    (hn : ∀ x ∈ l, x.event.creditAmount = 0)
    (ht : ∀ x ∈ s.log, ∀ id, x.event.escrowId = some id → s'.tokenOf id = s.tokenOf id)
    (hw : s'.withdrawable = s.withdrawable) (hwt : s'.withdrawableToken = s.withdrawableToken)
    (hd : s'.drawn = s.drawn) : Reconciled s' where
  ledger asset account := by
    rw [hl, creditsOf_append, creditsOf_congr asset account ht, creditsOf_eq_zero asset account hn, hd,
      Nat.add_zero, ← h.ledger, State.withdrawableOf, State.withdrawableOf, hw, hwt]
  sentinel := by rw [hwt]; exact h.sentinel

/-- An escrow's amount is credited, and the event of it is emitted. -/
theorem Reconciled.of_settled {s s' : State} {l : List Entry} (asset recipient : Address) (amount : Nat)
    (h : Reconciled s) (hl : s'.log = s.log ++ l)
    (hn : ∀ other account, creditsOf s.tokenOf other account l =
      if asset = other ∧ recipient = account then amount else 0)
    (ht : s'.tokenOf = s.tokenOf) (hw : s'.withdrawable = (s.credited asset recipient amount).withdrawable)
    (hwt : s'.withdrawableToken = (s.credited asset recipient amount).withdrawableToken)
    (hd : s'.drawn = s.drawn) : Reconciled s' where
  ledger other account := by
    have hcredit : s'.withdrawableOf other account =
        (s.credited asset recipient amount).withdrawableOf other account := by
      rw [State.withdrawableOf, State.withdrawableOf, hw, hwt]
    rw [hl, creditsOf_append, ht, hn, hd, hcredit, withdrawableOf_credited, ← h.ledger]
    omega
  sentinel account := by
    rw [hwt]
    by_cases ha : asset = nativeToken
    · simp only [State.credited, ha, if_true]
      exact h.sentinel account
    · simp only [State.credited, ha, if_false, Function.update_of_ne (Ne.symm ha)]
      exact h.sentinel account

/-- What an account may withdraw is struck, and counted as withdrawn. -/
theorem Reconciled.of_drawn {s s' : State} (asset recipient : Address) (h : Reconciled s)
    (hl : s'.log = s.log) (ht : s'.tokenOf = s.tokenOf)
    (hw : ∀ other account, s'.withdrawableOf other account =
      if asset = other ∧ recipient = account then 0 else s.withdrawableOf other account)
    (hs : ∀ account, s.withdrawableToken nativeToken account = 0 → s'.withdrawableToken nativeToken account = 0)
    (hd : s'.drawn = drawMore asset recipient (s.withdrawableOf asset recipient) s) : Reconciled s' where
  ledger other account := by
    rw [hl, ht, hw, hd, drawMore_apply, ← h.ledger]
    by_cases hx : asset = other ∧ recipient = account
    · rw [if_pos hx, if_pos hx, hx.1, hx.2]
      omega
    · rw [if_neg hx, if_neg hx, Nat.add_zero]
  sentinel account := hs account (h.sentinel account)

/-- The ledgers after striking what an account may withdraw. -/
theorem withdrawableOf_struck (s s' : State) {asset recipient : Address}
    (hself : s'.withdrawableOf asset = Function.update (s.withdrawableOf asset) recipient 0)
    (hother : ∀ other, other ≠ asset → s'.withdrawableOf other = s.withdrawableOf other) (other account : Address) :
    s'.withdrawableOf other account = if asset = other ∧
      recipient = account then 0 else s.withdrawableOf other account := by
  by_cases ha : other = asset
  · subst ha
    rw [hself]
    by_cases hr : account = recipient
    · subst hr
      rw [Function.update_self, if_pos ⟨rfl, rfl⟩]
    · rw [Function.update_of_ne hr, if_neg fun h => hr h.2.symm]
  · rw [hother other ha, if_neg fun h => ha h.1.symm]

theorem Recorded.not_mentioned {relayer : Address} {s : State} {id : IntentId} (h : Recorded relayer s)
    (hn : (s.escrows id).status = .none) : ∀ x ∈ s.log, x.event.escrowId ≠ some id := by
  have hs := h.settled id
  simp only [Settlement, hn] at hs
  intro x hx hid
  have hmem : x ∈ s.escrowLog id := List.mem_filter.mpr ⟨hx, decide_eq_true hid⟩
  rw [hs] at hmem
  exact List.not_mem_nil hmem

/-- Changing an escrow keeps the assets of the escrows the log mentions, if it keeps the asset or the
log does not mention the escrow. -/
theorem tokenOf_update {s s' : State} {id : IntentId} {e : Escrow}
    (he : s'.escrows = Function.update s.escrows id e) {id' : IntentId}
    (h : id' = id → e.token = (s.escrows id).token) : s'.tokenOf id' = s.tokenOf id' := by
  rw [State.tokenOf, State.tokenOf, he]
  by_cases hid : id' = id
  · subst hid
    rw [Function.update_self, h rfl]
  · rw [Function.update_of_ne hid]

theorem tokenOf_settled (s : State) {s' : State} {id : IntentId} {status : EscrowStatus}
    (he : s'.escrows = Function.update s.escrows id { s.escrows id with status }) : s'.tokenOf = s.tokenOf :=
  funext fun _ => tokenOf_update he fun _ => rfl

theorem Effect.reconciled {now : Nat} {allowed : Op → Prop} {relayer : Address} {p q : State × (Address → Nat)}
    (h : Effect now allowed p q) (hrec : Recorded relayer p.1) (hp : Reconciled p.1) : Reconciled q.1 := by
  cases h with
  | @submit s r sender value nativeFee dstEid c ha h hnew hnone =>
    refine hp.of_neutral rfl (by simp [Event.creditAmount])
      (fun x hx id hid => tokenOf_update rfl fun he => ?_) rfl rfl rfl
    exact absurd (he ▸ hid) (hrec.not_mentioned hnone x hx)
  | @openToken s r sender id deadline token amount left ha htoken hnone =>
    refine hp.of_neutral rfl (by simp [Event.creditAmount])
      (fun x hx id' hid => tokenOf_update rfl fun he => ?_) rfl rfl rfl
    exact absurd (he ▸ hid) (hrec.not_mentioned hnone x hx)
  | @prove s r value packet id blobId endEpoch ha hdec h =>
    refine hp.of_settled (s.escrows id).token s.trustedRelayer (s.escrows id).amount
      (proven_log now value packet id blobId endEpoch s) (fun other account => ?_)
      (tokenOf_settled s rfl) rfl rfl rfl
    exact (Nat.zero_add _).trans (Nat.add_zero _)
  | @refund s r id ha hpending hlate hfit =>
    refine hp.of_settled (s.escrows id).token (s.escrows id).payer (s.escrows id).amount rfl
      (fun other account => ?_) (tokenOf_settled s rfl) rfl rfl rfl
    exact Nat.add_zero _
  | @withdraw s r sender ha hentered hne hle =>
    refine hp.of_drawn nativeToken sender rfl rfl (fun other account => ?_) (fun _ h => h) ?_
    · exact withdrawableOf_struck s _ (by
        rw [withdrawableOf_native, withdrawableOf_native]
        rfl) (fun other ho => by
        rw [withdrawableOf_token _ ho, withdrawableOf_token _ ho]
        rfl) other account
    · rw [withdrawableOf_native]
      rfl
  | @debitToken s r sender token left ha hentered hne =>
    have ht : token ≠ nativeToken := fun ht => hne (ht ▸ hp.sentinel sender)
    refine hp.of_drawn token sender rfl rfl (fun other account => ?_) (fun account hz => ?_) ?_
    · refine withdrawableOf_struck s _ ?_ (fun other ho => ?_) other account
      · rw [withdrawableOf_token _ ht, withdrawableOf_token _ ht]
        exact Function.update_self _ _ _
      · by_cases hn : other = nativeToken
        · rw [hn, withdrawableOf_native, withdrawableOf_native]
          rfl
        · rw [withdrawableOf_token _ hn, withdrawableOf_token _ hn]
          exact Function.update_of_ne ho _ _
    · exact (congrFun (Function.update_of_ne ht.symm _ _) account).trans hz
    · rw [withdrawableOf_token _ ht]
      rfl
  | confirm | setRelayer | setPeer | setOwner | withdrawn | withdrawnToken =>
    exact hp.of_neutral rfl (by simp [Event.creditAmount]) (fun _ _ _ _ => rfl) rfl rfl rfl
  | setPermit2 | receive | tokenMoves | pull | payToken =>
    exact hp.of_neutral (List.append_nil _).symm (by simp) (fun _ _ _ _ => rfl) rfl rfl rfl

/-! ## Runs -/

theorem path_of_update {s s' : State} {id id' : IntentId} {e : Escrow}
    (he : s'.escrows = Function.update s.escrows id e) (h : Escrow.Next (s.escrows id) e) :
    Escrow.Path (s.escrows id') (s'.escrows id') := by
  rw [he]
  by_cases hid : id' = id
  · subst hid
    rw [Function.update_self]
    exact .single h
  · rw [Function.update_of_ne hid]

/-- An escrow moves forward, or stays. -/
theorem Effect.escrow_path {now : Nat} {allowed : Op → Prop} {p q : State × (Address → Nat)}
    (h : Effect now allowed p q) (id : IntentId) : Escrow.Path (p.1.escrows id) (q.1.escrows id) := by
  cases h with
  | @submit s r sender value nativeFee dstEid c ha h hnew hnone =>
    exact path_of_update rfl (.opened _ _ _ _ hnone)
  | openToken ha htoken hnone => exact path_of_update rfl (.opened _ _ _ _ hnone)
  | @prove s r value packet id blobId endEpoch ha hdec h => exact path_of_update rfl (.released h.pending)
  | refund ha hpending hlate hfit => exact path_of_update rfl (.refunded hpending)
  | _ => exact .refl

theorem call_escrow_path {now : Nat} {c : Call} {s s' : State} (h : call now c s = .ok s') (id : IntentId) :
    Escrow.Path (s.escrows id) (s'.escrows id) :=
  (call_effects c (fun _ _ => trivial : ∀ op ∈ c.ops, (fun _ => True) op) s s' h 0).keeps
    (P := fun p => Escrow.Path (s.escrows id) (p.1.escrows id)) (fun _ _ h hp => hp.trans (h.escrow_path id)) .refl

theorem run_escrow_path (s : State) (as : List (Nat × Call)) (id : IntentId) :
    Escrow.Path (s.escrows id) ((Machine.run step s as).escrows id) :=
  Machine.run_inv (P := fun t => Escrow.Path (s.escrows id) (t.escrows id)) as
    (fun _ _ _ _ h hp => hp.trans (call_escrow_path h id)) .refl

theorem call_recorded {relayer : Address} {now : Nat} {c : Call} {s s' : State} (h : call now c s = .ok s')
    (hs : Recorded relayer s ∧ Reconciled s) : Recorded relayer s' ∧ Reconciled s' :=
  (call_effects c (fun _ _ => trivial : ∀ op ∈ c.ops, (fun _ => True) op) s s' h 0).keeps
    (P := fun p => Recorded relayer p.1 ∧ Reconciled p.1)
    (fun _ _ h hp => ⟨h.recorded hp.1, h.reconciled hp.1 hp.2⟩) hs

theorem initial_recorded (self endpoint owner trustedRelayer : Address) (tokens : Address → TokenAccount) :
    let s := initial self endpoint owner trustedRelayer tokens
    Recorded trustedRelayer s ∧ Reconciled s := by
  refine ⟨⟨rfl, fun id => rfl, fun id hid => ?_⟩, ⟨fun asset account => ite_self 0, fun _ => rfl⟩⟩
  cases hid

/-- What is recorded in every reachable state. -/
theorem run_recorded {self endpoint owner trustedRelayer : Address} {tokens : Address → TokenAccount} {s₀ : State}
    (h : deploy self endpoint owner trustedRelayer tokens = .ok s₀) (as : List (Nat × Call)) :
    Recorded trustedRelayer (Machine.run step s₀ as) ∧ Reconciled (Machine.run step s₀ as) := by
  obtain ⟨-, rfl⟩ := deploy_ok.mp h
  exact Machine.run_inv (P := fun s => Recorded trustedRelayer s ∧ Reconciled s) as
    (fun _ _ _ _ h hs => call_recorded h hs) (initial_recorded _ _ _ _ _)

/-- The total credited on account of an escrow. -/
theorem Settlement.creditedFor {relayer : Address} {s : State} {id : IntentId} (h : Settlement relayer s id) :
    s.creditedFor id =
      match (s.escrows id).status with
      | .none | .pending => 0
      | .released | .refunded => (s.escrows id).amount := by
  cases hst : (s.escrows id).status <;> simp only [Settlement, hst] at h
  case none => rw [State.creditedFor, h]; rfl
  case pending =>
    obtain ⟨t, ht⟩ := h
    rw [State.creditedFor, ht]
    rfl
  case released =>
    obtain ⟨-, t, t', earlier, later, -, ht⟩ := h
    rw [State.creditedFor, ht]
    exact Nat.zero_add _
  case refunded =>
    obtain ⟨t, t', -, ht⟩ := h
    rw [State.creditedFor, ht]
    exact Nat.zero_add _

/-- In every run, an escrow only moves from none to pending and from there to released or refunded,
and keeps its payer, asset, amount and deadline. In every state reached the log holds the events of
its `Settlement`, the total credited for it is zero or, once it is settled, its amount, the relayer is
the one the log names last, and what an account may withdraw and has withdrawn of an asset is what the
log credits it with in that asset. -/
theorem escrow_settled_once {self endpoint owner trustedRelayer : Address} {tokens : Address → TokenAccount}
    {s₀ : State} (h : deploy self endpoint owner trustedRelayer tokens = .ok s₀) (as : List (Nat × Call)) :
    let s := Machine.run step s₀ as
    (∀ id, Settlement trustedRelayer s id ∧
      s.creditedFor id =
        match (s.escrows id).status with
        | .none | .pending => 0
        | .released | .refunded => (s.escrows id).amount) ∧
    s.trustedRelayer = relayerAfter trustedRelayer s.log ∧
    (∀ asset account, s.withdrawableOf asset account + s.drawn asset account =
      creditsOf s.tokenOf asset account s.log) ∧
    ∀ bs id, (s₀.escrows id).status = .none ∧ Escrow.Path (s₀.escrows id) (s.escrows id) ∧
      Escrow.Path (s.escrows id) ((Machine.run step s bs).escrows id) := by
  intro s
  obtain ⟨hrec, hled⟩ := run_recorded h as
  refine ⟨fun id => ⟨hrec.settled id, (hrec.settled id).creditedFor⟩, hrec.relayer_eq, hled.ledger,
    fun bs id => ⟨?_, run_escrow_path s₀ as id, run_escrow_path s bs id⟩⟩
  obtain ⟨-, rfl⟩ := deploy_ok.mp h
  rfl

/-- A token deposit, refunded after its deadline. -/
theorem escrow_settled_once_refunded :
    let id : IntentId := Bytes.zero 32
    let s := Machine.run step exampleAdapter
      [(1, .mk (.setPermit2 (accountOf 3) (accountOf 8)) [] []),
       (2, .mk (.depositUsdcWithPermit2 (accountOf 5) id 6 (accountOf 9) 100 0 true) [] []),
       (7, .mk (.refund id) [] [])]
    (s.escrows id).status = .refunded ∧ s.creditedFor id = 100 ∧ Settlement (accountOf 4) s id := by
  intro id s
  have hmain := (escrow_settled_once exampleAdapter_deployed
    [(1, .mk (.setPermit2 (accountOf 3) (accountOf 8)) [] []),
     (2, .mk (.depositUsdcWithPermit2 (accountOf 5) id 6 (accountOf 9) 100 0 true) [] []),
     (7, .mk (.refund id) [] [])]).1 id
  have hst : (s.escrows id).status = .refunded ∧ (s.escrows id).amount = 100 := by decide
  refine ⟨hst.1, hmain.2.trans ?_, hmain.1⟩
  change (match (s.escrows id).status with
    | .none | .pending => 0
    | .released | .refunded => (s.escrows id).amount) = 100
  rw [hst.1]
  exact hst.2

end Bosphor.Evm

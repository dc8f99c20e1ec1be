import Bosphor.Codec.Agreement
import Bosphor.Lib.Result
import Bosphor.Solana.Program

/-!
# What an instruction does

Each instruction of the program, with the conditions under which it returns and
the state it returns:

* `submitIntent_effect`, `lzReceive_ok`, `refundEscrow_ok`: the three
  instructions of an intent's life;
* `Effect`, `step_effect`: everything an instruction can do, guards included.
-/

namespace Bosphor.Solana

/-! ## The parts -/

@[simp] theorem require_ok {p : Prop} [Decidable p] {e : Error} {u : Unit} : require p e = .ok u ↔ p := by
  by_cases h : p
  · simp only [require, h, if_true]
  · simp only [require, h, if_false, reduceCtorEq]

theorem systemTransfer_ok {source : Pubkey} {dest : Key} {amount : Nat} {s s' : State} :
    systemTransfer source dest amount s = .ok s' ↔ s.systemOwned source = true ∧
      amount ≤ s.lamports (.wallet source) ∧
      s' = { s with lamports := moveLamports (.wallet source) dest amount s.lamports } := by
  simp only [systemTransfer, Result.bind_ok, require_ok, exists_const, Result.pure_ok]

theorem initAccount_ok {α : Type} {payer : Pubkey} {key : Key} {space : Nat} {account : Option α} {s s' : State} :
    initAccount payer key space account s = .ok s' ↔
      account = none ∧ systemTransfer payer key (s.rent space - s.lamports key) s = .ok s' := by
  simp only [initAccount, Result.bind_ok, require_ok, exists_const, Option.isNone_iff_eq_none]

theorem load_ok {α : Type} {key : Key} {bump : α → UInt8} {account : Option α} {s : State} {a : α} :
    load key bump account s = .ok a ↔ account = some a ∧ bump a = s.bumps key := by
  cases account with
  | none => simp only [load, reduceCtorEq, false_and]
  | some b =>
    simp only [load, Result.bind_ok, require_ok, exists_const, Result.pure_ok, Option.some.injEq]
    constructor
    · rintro ⟨hb, rfl⟩
      exact ⟨rfl, hb⟩
    · rintro ⟨rfl, hb⟩
      exact ⟨hb, rfl⟩

/-- The lamports moved into a vault, or between others, only add to it. -/
theorem moveLamports_escrow (source : Pubkey) (dest : Key) (amount : Nat) (lamports : Key → Nat) (id : IntentId) :
    lamports (.escrow id) ≤ moveLamports (.wallet source) dest amount lamports (.escrow id) := by
  rw [moveLamports]
  by_cases h : Key.escrow id = dest
  · subst h
    rw [Function.update_self, Function.update_of_ne Key.noConfusion]
    exact Nat.le_add_right _ _
  · rw [Function.update_of_ne h, Function.update_of_ne Key.noConfusion]

/-- A vault holds what is moved to it on top of what it held. -/
theorem moveLamports_dest (source : Pubkey) (id : IntentId) (amount : Nat) (lamports : Key → Nat) :
    moveLamports (.wallet source) (.escrow id) amount lamports (.escrow id) =
      lamports (.escrow id) + amount := by
  rw [moveLamports, Function.update_self, Function.update_of_ne Key.noConfusion]

/-- Only wallets pay: other lamports, none of a vault less, and nothing else. -/
def Paid (s s' : State) : Prop :=
  ∃ lamports, s' = { s with lamports } ∧ ∀ id, s.lamports (.escrow id) ≤ lamports (.escrow id)

theorem Paid.refl (s : State) : Paid s s := ⟨s.lamports, rfl, fun _ => Nat.le_refl _⟩

theorem Paid.trans {s t u : State} (h : Paid s t) (h' : Paid t u) : Paid s u := by
  obtain ⟨l, rfl, hl⟩ := h
  obtain ⟨m, rfl, hm⟩ := h'
  exact ⟨m, rfl, fun id => (hl id).trans (hm id)⟩

theorem paid_of_systemTransfer {source : Pubkey} {dest : Key} {amount : Nat} {s s' : State}
    (h : systemTransfer source dest amount s = .ok s') : Paid s s' := by
  obtain ⟨-, -, rfl⟩ := systemTransfer_ok.mp h
  exact ⟨_, rfl, moveLamports_escrow source dest amount s.lamports⟩

theorem initIfNeeded_ok {α : Type} {payer : Pubkey} {key : Key} {space : Nat} {fresh a : α} {account : Option α}
    {s s' : State} (h : initIfNeeded payer key space fresh account s = .ok (s', a)) :
    Paid s s' ∧ a = account.getD fresh := by
  cases account with
  | some b =>
    simp only [initIfNeeded, Result.pure_ok, Prod.mk.injEq] at h
    obtain ⟨rfl, rfl⟩ := h
    exact ⟨.refl _, rfl⟩
  | none =>
    simp only [initIfNeeded, Result.bind_ok, Result.pure_ok, Prod.mk.injEq] at h
    obtain ⟨t, ht, rfl, rfl⟩ := h
    exact ⟨paid_of_systemTransfer ht, rfl⟩

/-! ## Submitting -/

/-- The id of the submission of `c` by `sender` at `nonce`. -/
def submissionId (c : Commitment) (sender : Pubkey) (nonce : UInt64) : IntentId :=
  intentIdOf c sender.val nonce

/-- The nonce `sender` submits at next. -/
def State.nextNonce (s : State) (sender : Pubkey) : UInt64 :=
  ((s.nonces sender).getD ⟨0, 0⟩).nonce

theorem computeIntentId_eq (c : Commitment) (sender : Pubkey) (nonce : UInt64) :
    computeIntentId c sender nonce = .ok (submissionId c sender nonce) := by
  rw [computeIntentId, (deriveIntentId_agree c nonce (Nat.le_of_eq sender.property)).2.2.2]
  rfl

theorem encodeForward_eq (intentId : IntentId) (c : Commitment) :
    encodeForward intentId c = .ok (intentId.val ++ c.wire) := by
  rw [encodeForward, Rust.encode_eq]

/-- The state a submission leaves, apart from the lamports. -/
def submitted (now : Int) (payer : Pubkey) (c : Commitment) (dstEid : UInt32) (escrowAmount : UInt64)
    (store : Store) (peer : Peer) (receipt : MessagingReceipt) (lamports : Key → Nat) (s : State) : State :=
  let nonce := s.nextNonce payer
  let id := submissionId c payer nonce
  { s with
    lamports := lamports
    intents := Function.update s.intents id (some ⟨c.blobId, c.size, c.storageEpochs, c.deadline, payer, nonce,
      false, 0, s.bumps (.intent id)⟩)
    nonces := Function.update s.nonces payer (some ⟨nonce + 1, s.bumps (.nonce payer)⟩)
    escrows := Function.update s.escrows id (some ⟨payer, store.admin, escrowAmount, c.deadline, escrowPending,
      s.bumps (.escrow id)⟩)
    sent := s.sent ++ [⟨dstEid, peer.address, id.val ++ c.wire⟩]
    log := s.log ++ [⟨now, .intentSubmitted id payer nonce c dstEid receipt.guid receipt.nonce⟩] }

theorem nextNonce_ok {nonce next : UInt64} :
    nextNonce nonce = .ok next ↔ nonce.toNat + 1 < 2 ^ 64 ∧ next = nonce + 1 := by
  by_cases h : nonce.toNat + 1 < 2 ^ 64
  · rw [nextNonce, if_pos h, Except.ok.injEq, and_iff_right h, eq_comm]
  · rw [nextNonce, if_neg h]
    exact iff_of_false (fun he => by cases he) fun hn => h hn.1

/-- What `submit_intent` requires, and the lamports it leaves. -/
structure Submittable (payer : Pubkey) (c : Commitment) (dstEid : UInt32) (escrowAmount : UInt64) (store : Store)
    (peer : Peer) (lamports : Key → Nat) (s : State) : Prop where
  hasStore : s.store = some store
  hasPeer : s.peers dstEid = some peer
  newIntent : s.intents (submissionId c payer (s.nextNonce payer)) = none
  newEscrow : s.escrows (submissionId c payer (s.nextNonce payer)) = none
  nonceFits : (s.nextNonce payer).toNat + 1 < 2 ^ 64
  vaults : ∀ id, s.lamports (.escrow id) ≤ lamports (.escrow id)
  funded : escrowAmount.toNat ≤ lamports (.escrow (submissionId c payer (s.nextNonce payer)))

theorem endpointSend_ok {payer : Pubkey} {sent : Sent} {nativeFee : UInt64} {receipt : Option MessagingReceipt}
    {r : MessagingReceipt} {s s' : State} (h : endpointSend payer sent nativeFee receipt s = .ok (s', r)) :
    receipt = some r ∧ ∃ t, Paid s t ∧ s' = { t with sent := t.sent ++ [sent] } := by
  cases receipt with
  | none => cases h
  | some r' =>
    simp only [endpointSend, Result.bind_ok, require_ok, exists_const, Result.pure_ok, Prod.mk.injEq] at h
    obtain ⟨-, t, ht, rfl, rfl⟩ := h
    exact ⟨rfl, t, paid_of_systemTransfer ht, rfl⟩

theorem deposit_ok {payer : Pubkey} {id : IntentId} {amount : UInt64} {s s' : State}
    (h : deposit payer id amount s = .ok s') : ∃ lamports, s' = { s with lamports } ∧
      (∀ id, s.lamports (.escrow id) ≤ lamports (.escrow id)) ∧ amount.toNat ≤ lamports (.escrow id) := by
  rw [deposit] at h
  by_cases ha : amount > 0
  · rw [if_pos ha] at h
    obtain ⟨-, -, rfl⟩ := systemTransfer_ok.mp h
    refine ⟨_, rfl, moveLamports_escrow payer _ _ s.lamports, ?_⟩
    rw [moveLamports_dest]
    exact Nat.le_add_left _ _
  · rw [if_neg ha] at h
    have hz : amount.toNat = 0 := Nat.eq_zero_of_not_pos fun hp => ha (UInt64.lt_iff_toNat_lt.mpr hp)
    refine ⟨s.lamports, (Except.ok.inj h).symm, fun _ => Nat.le_refl _, ?_⟩
    rw [hz]
    exact Nat.zero_le _

theorem submitIntent_effect {now : Int} {payer : Pubkey} {c : Commitment} {dstEid : UInt32}
    {nativeFee escrowAmount : UInt64} {receipt : Option MessagingReceipt} {s s' : State}
    (h : submitIntent now payer c dstEid nativeFee escrowAmount receipt s = .ok s') :
    ∃ store peer r lamports, receipt = some r ∧
      Submittable payer c dstEid escrowAmount store peer lamports s ∧
      s' = submitted now payer c dstEid escrowAmount store peer r lamports s := by
  simp only [submitIntent, Result.bind_ok, Prod.exists, computeIntentId_eq, initAccount_ok, encodeForward_eq,
    Except.ok.injEq, Result.pure_ok, loadStore, loadPeer, load_ok, nextNonce_ok] at h
  obtain ⟨s₁, senderNonce, hnonce, id, rfl, s₂, ⟨hintent, h₂⟩, s₃, ⟨hescrow, h₃⟩, store, ⟨hstore, -⟩, peer,
    ⟨hpeer, -⟩, _, ⟨hfits, rfl⟩, s₄, h₄, _, rfl, s₅, r, h₅, rfl⟩ := h
  obtain ⟨hp₁, rfl⟩ := initIfNeeded_ok hnonce
  have hp₂ := hp₁.trans (paid_of_systemTransfer h₂)
  have hp₃ := hp₂.trans (paid_of_systemTransfer h₃)
  obtain ⟨rfl, t, ht, rfl⟩ := endpointSend_ok h₅
  obtain ⟨l₁, rfl, -⟩ := hp₁
  obtain ⟨l₂, rfl, -⟩ := hp₂
  obtain ⟨l₃, rfl, hv₃⟩ := hp₃
  obtain ⟨l₄, rfl, hv₄, hdeposit⟩ := deposit_ok h₄
  obtain ⟨l₅, rfl, hv₅⟩ := ht
  refine ⟨store, peer, r, l₅, rfl, ⟨hstore, hpeer, hintent, hescrow, hfits, fun id => ?_, ?_⟩, rfl⟩
  · exact ((hv₃ id).trans (hv₄ id)).trans (hv₅ id)
  · exact hdeposit.trans (hv₅ _)

/-! ## Settling -/

/-- The state an accepted proof leaves: the intent executed, the vault paid out and closed. -/
def released (now : Int) (params : LzReceiveParams) (proof : DecodedProof) (intent : IntentState)
    (beneficiary : Pubkey) (s : State) : State :=
  let id := proof.intentId
  { s with
    lamports := moveLamports (.escrow id) (.wallet beneficiary) (s.lamports (.escrow id)) s.lamports
    intents := Function.update s.intents id
      (some { intent with executed := true, endEpoch := proof.endEpoch })
    escrows := Function.update s.escrows id none
    log := s.log ++ [⟨now, .intentExecuted id proof.blobId proof.endEpoch params.srcEid⟩]
    received := s.received ++ [params] }

/-- What `lz_receive` requires. -/
structure Deliverable (params : LzReceiveParams) (beneficiary : Pubkey) (proof : DecodedProof)
    (intent : IntentState) (vault : EscrowVault) (s : State) : Prop where
  hasPeer : ∃ peer, s.peers params.srcEid = some peer ∧ peer.bump = s.bumps (.peer params.srcEid) ∧
    peer.address = params.sender
  hasStore : ∃ store, s.store = some store ∧ store.bump = s.bumps .store
  decoded : decodeProof params.message = .ok proof
  hasIntent : s.intents proof.intentId = some intent
  intentBump : intent.bump = s.bumps (.intent proof.intentId)
  hasVault : s.escrows proof.intentId = some vault
  vaultBump : vault.bump = s.bumps (.escrow proof.intentId)
  systemOwned : s.systemOwned beneficiary = true
  recorded : beneficiary = vault.beneficiary
  notExecuted : intent.executed = false
  committed : proof.blobId = intent.committedBlobId
  pending : vault.status = escrowPending

theorem lzReceive_ok {now : Int} {params : LzReceiveParams} {beneficiary : Pubkey} {ok : Bool} {s s' : State} :
    lzReceive now params beneficiary ok s = .ok s' ↔ ok = true ∧
      ∃ proof intent vault, Deliverable params beneficiary proof intent vault s ∧
        s' = released now params proof intent beneficiary s := by
  cases hproof : decodeProof params.message with
  | error e =>
    simp only [lzReceive, hproof, Result.bind_ok, reduceCtorEq, false_and, and_false, exists_false, false_iff]
    rintro ⟨-, proof, intent, vault, hd, -⟩
    rw [hd.decoded] at hproof
    cases hproof
  | ok proof =>
    have hid : decodeIntentId params.message = proof.intentId := by rw [decodeIntentId, hproof]
    simp only [lzReceive, hproof, hid, Result.bind_ok, Result.pure_ok, require_ok, exists_const, loadPeer,
      loadStore, loadIntent, loadEscrow, load_ok, checkRelease, Except.ok.injEq, Bool.not_eq_true]
    constructor
    · rintro ⟨peer, ⟨hpeer, hpb⟩, haddr, store, hstore, intent, ⟨hi, hib⟩, vault, ⟨hv, hvb⟩, hsys, hben, _, rfl,
        hok, hx, hblob, hst, rfl⟩
      exact ⟨hok, proof, intent, vault, ⟨⟨peer, hpeer, hpb, haddr⟩, ⟨store, hstore⟩, hproof, hi, hib, hv, hvb, hsys,
        hben, hx, hblob, hst⟩, rfl⟩
    · rintro ⟨hok, proof', intent, vault, hd, rfl⟩
      obtain rfl : proof = proof' := Except.ok.inj (hproof.symm.trans hd.decoded)
      obtain ⟨⟨peer, hpeer, hpb, haddr⟩, ⟨store, hstore⟩, -, hi, hib, hv, hvb, hsys, hben, hx, hblob, hst⟩ := hd
      exact ⟨peer, ⟨hpeer, hpb⟩, haddr, store, hstore, intent, ⟨hi, hib⟩, vault, ⟨hv, hvb⟩, hsys, hben, _, rfl, hok,
        hx, hblob, hst, rfl⟩

/-- The state a refund leaves. -/
def refunded (now : Int) (id : IntentId) (vault : EscrowVault) (s : State) : State :=
  { s with
    lamports := moveLamports (.escrow id) (.wallet vault.payer) (s.lamports (.escrow id)) s.lamports
    escrows := Function.update s.escrows id none
    log := s.log ++ [⟨now, .escrowRefunded id vault.payer vault.amount⟩] }

theorem refundEscrow_ok {now : Int} {payer : Pubkey} {id : IntentId} {s s' : State} :
    refundEscrow now payer id s = .ok s' ↔ ∃ vault, s.escrows id = some vault ∧
      vault.bump = s.bumps (.escrow id) ∧ vault.payer = payer ∧ s.systemOwned payer = true ∧
      vault.status = escrowPending ∧ vault.deadline.toNat < now ∧ s' = refunded now id vault s := by
  simp only [refundEscrow, Result.bind_ok, Result.pure_ok, require_ok, exists_const, loadEscrow, load_ok,
    checkRefund, gt_iff_lt]
  constructor
  · rintro ⟨hsys, vault, ⟨hv, hvb⟩, rfl, ⟨hst, hlate⟩, rfl⟩
    exact ⟨vault, hv, hvb, rfl, hsys, hst, hlate, rfl⟩
  · rintro ⟨vault, hv, hvb, rfl, hsys, hst, hlate, rfl⟩
    exact ⟨hsys, vault, ⟨hv, hvb⟩, rfl, ⟨hst, hlate⟩, rfl⟩

/-- The state a confirmation by the admin leaves. -/
def confirmed (now : Int) (id : IntentId) (blobId : Bytes 32) (endEpoch : UInt64) (intent : IntentState)
    (s : State) : State :=
  { s with
    intents := Function.update s.intents id (some { intent with executed := true, endEpoch })
    log := s.log ++ [⟨now, .intentExecuted id blobId endEpoch suiEid⟩] }

theorem confirmExecution_ok {now : Int} {admin : Pubkey} {id : IntentId} {blobId : Bytes 32} {endEpoch : UInt64}
    {s s' : State} :
    confirmExecution now admin id blobId endEpoch s = .ok s' ↔ ∃ store intent, s.store = some store ∧
      store.bump = s.bumps .store ∧ store.admin = admin ∧ s.intents id = some intent ∧
      intent.bump = s.bumps (.intent id) ∧ intent.executed = false ∧ blobId = intent.committedBlobId ∧
      s' = confirmed now id blobId endEpoch intent s := by
  simp only [confirmExecution, Result.bind_ok, Result.pure_ok, require_ok, exists_const, loadStore, loadIntent,
    load_ok, Bool.not_eq_true]
  constructor
  · rintro ⟨store, ⟨hstore, hsb⟩, hadmin, intent, ⟨hi, hib⟩, hx, hblob, rfl⟩
    exact ⟨store, intent, hstore, hsb, hadmin, hi, hib, hx, hblob, rfl⟩
  · rintro ⟨store, intent, hstore, hsb, hadmin, hi, hib, hx, hblob, rfl⟩
    exact ⟨store, ⟨hstore, hsb⟩, hadmin, intent, ⟨hi, hib⟩, hx, hblob, rfl⟩

/-! ## The effects -/

/-- Everything an instruction can do at the clock's time `now`. -/
inductive Effect (now : Int) : Op → State → State → Prop
  | initStore {s payer admin endpointProgram lamports} (hnew : s.store = none)
      (hv : ∀ id, s.lamports (.escrow id) ≤ lamports (.escrow id)) :
      Effect now (.initStore payer admin endpointProgram true) s { s with
        lamports
        store := some ⟨admin, endpointProgram, s.bumps .store⟩
        lzReceiveTypes := some ⟨.store⟩ }
  | setPeer {s store eid address lamports} (hstore : s.store = some store)
      (hv : ∀ id, s.lamports (.escrow id) ≤ lamports (.escrow id)) :
      Effect now (.setPeer store.admin eid address) s { s with
        lamports
        peers := Function.update s.peers eid (some ⟨address, s.bumps (.peer eid)⟩) }
  | submit {s payer c dstEid nativeFee escrowAmount store peer r lamports}
      (h : Submittable payer c dstEid escrowAmount store peer lamports s) :
      Effect now (.submitIntent payer c dstEid nativeFee escrowAmount (some r)) s
        (submitted now payer c dstEid escrowAmount store peer r lamports s)
  | release {s params beneficiary proof intent vault}
      (h : Deliverable params beneficiary proof intent vault s) :
      Effect now (.lzReceive params beneficiary true) s (released now params proof intent beneficiary s)
  | confirm {s store intent id endEpoch} (hstore : s.store = some store) (hi : s.intents id = some intent)
      (hx : intent.executed = false) :
      Effect now (.confirmExecution store.admin id intent.committedBlobId endEpoch) s
        (confirmed now id intent.committedBlobId endEpoch intent s)
  | refund {s vault id} (hv : s.escrows id = some vault) (hst : vault.status = escrowPending)
      (hlate : vault.deadline.toNat < now) :
      Effect now (.refundEscrow vault.payer id) s (refunded now id vault s)
  | transfer {s source dest amount lamports} (hv : ∀ id, s.lamports (.escrow id) ≤ lamports (.escrow id)) :
      Effect now (.transfer source dest amount) s { s with lamports }
  | assign {s key systemOwned} :
      Effect now (.assign key systemOwned) s { s with
        systemOwned := Function.update s.systemOwned key systemOwned }

theorem step_effect {now : Int} {op : Op} {s s' : State} (h : step (now, op) s = .ok s') :
    Effect now op s s' := by
  cases op with
  | initStore payer admin endpointProgram ok =>
    simp only [step, initStore, Result.bind_ok, initAccount_ok, require_ok, exists_const, Result.pure_ok] at h
    obtain ⟨s₁, ⟨hnew, h₁⟩, s₂, ⟨-, h₂⟩, rfl, rfl⟩ := h
    obtain ⟨l, rfl, hl⟩ := (paid_of_systemTransfer h₁).trans (paid_of_systemTransfer h₂)
    exact .initStore hnew hl
  | setPeer admin eid address =>
    simp only [step, setPeer, Result.bind_ok, Prod.exists, loadStore, load_ok, require_ok, exists_const,
      Result.pure_ok] at h
    obtain ⟨s₁, peer, h₁, store, ⟨hstore, -⟩, rfl, rfl⟩ := h
    obtain ⟨⟨l, rfl, hl⟩, -⟩ := initIfNeeded_ok h₁
    exact .setPeer hstore hl
  | submitIntent payer c dstEid nativeFee escrowAmount receipt =>
    obtain ⟨store, peer, r, l, rfl, hs, rfl⟩ := submitIntent_effect h
    exact .submit hs
  | lzReceive params beneficiary ok =>
    obtain ⟨rfl, proof, intent, vault, hd, rfl⟩ := lzReceive_ok.mp h
    exact .release hd
  | confirmExecution admin id blobId endEpoch =>
    obtain ⟨store, intent, hstore, -, rfl, hi, -, hx, rfl, rfl⟩ := confirmExecution_ok.mp h
    exact .confirm hstore hi hx
  | refundEscrow payer id =>
    obtain ⟨vault, hv, -, rfl, -, hst, hlate, rfl⟩ := refundEscrow_ok.mp h
    exact .refund hv hst hlate
  | transfer source dest amount =>
    obtain ⟨l, rfl, hl⟩ := paid_of_systemTransfer h
    exact .transfer hl
  | assign key systemOwned =>
    cases h
    exact .assign

end Bosphor.Solana

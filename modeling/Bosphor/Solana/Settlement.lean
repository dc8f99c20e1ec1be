import Mathlib.Data.List.Nodup
import Bosphor.Solana.Effects

/-!
# Vaults are settled once

What the program's accounts and its history say about each intent, in every
reachable state:

* `Recorded`: the accounts carry their bumps, each intent is that of an accepted
  submission, each open vault is pending, holds its amount and has its intent's
  terms, and each message sent is that of a submission;
* `Settlement`: a vault was never paid out while it is open, and a closed one
  was paid out once, on an accepted proof of the committed blob or past its
  deadline.
-/

namespace Bosphor.Solana

/-! ## The history -/

/-- An accepted submission. -/
structure Submission where
  id : IntentId
  sender : Pubkey
  dstEid : UInt32
  commitment : Commitment
  nonce : UInt64
  deriving DecidableEq

/-- What the id of a submission is the hash of. -/
def Submission.preimage (m : Submission) : List UInt8 := Bosphor.preimage m.commitment m.sender.val m.nonce

/-- The message sent for a submission. -/
def Submission.message (m : Submission) : List UInt8 := m.id.val ++ m.commitment.wire

/-- The submission an event records. -/
def Event.submission : Event → Option Submission
  | .intentSubmitted id sender nonce c dstEid _ _ => some ⟨id, sender, dstEid, c, nonce⟩
  | _ => none

/-- The accepted submissions, oldest first. -/
def State.submissions (s : State) : List Submission := s.log.filterMap fun x => x.event.submission

/-- The refund an event records. -/
def Event.refundOf : Event → Option IntentId
  | .escrowRefunded id _ _ => some id
  | _ => none

/-- The refunds of the vault of `id`. -/
def State.refunds (s : State) (id : IntentId) : List Entry := s.log.filter fun x => x.event.refundOf = some id

/-- The accepted proofs of `id`. -/
def State.releases (s : State) (id : IntentId) : List LzReceiveParams :=
  s.received.filter fun p => decodeIntentId p.message = id

/-- How the vault of `id` was paid out: not, while it is open; once, on a proof or past the deadline. -/
inductive Settlement (s : State) (id : IntentId) : Prop
  | none (hi : s.intents id = none) (hv : s.escrows id = none) (hp : s.releases id = []) (hr : s.refunds id = [])
  | open {vault} (hv : s.escrows id = some vault) (hp : s.releases id = []) (hr : s.refunds id = [])
  | released {intent p proof} (hi : s.intents id = some intent) (hx : intent.executed = true)
      (hv : s.escrows id = .none) (hp : s.releases id = [p]) (hr : s.refunds id = [])
      (hdec : decodeProof p.message = .ok proof) (hblob : proof.blobId = intent.committedBlobId)
  | refunded {intent time amount} (hi : s.intents id = some intent) (hv : s.escrows id = .none)
      (hp : s.releases id = []) (hr : s.refunds id = [⟨time, .escrowRefunded id intent.sender amount⟩])
      (hlate : intent.deadline.toNat < time)

/-- The accounts agree with each other and with the submissions. -/
structure Recorded (s : State) : Prop where
  storeBump : ∀ store, s.store = some store → store.bump = s.bumps .store
  peerBump : ∀ eid peer, s.peers eid = some peer → peer.bump = s.bumps (.peer eid)
  peerStore : ∀ eid peer, s.peers eid = some peer → ∃ store, s.store = some store
  intentBump : ∀ id intent, s.intents id = some intent → intent.bump = s.bumps (.intent id)
  vaultBump : ∀ id vault, s.escrows id = some vault → vault.bump = s.bumps (.escrow id)
  vault : ∀ id vault, s.escrows id = some vault → vault.status = escrowPending ∧
    vault.amount.toNat ≤ s.lamports (.escrow id) ∧ ∃ intent, s.intents id = some intent ∧
      vault.payer = intent.sender ∧ vault.deadline = intent.deadline
  intent : ∀ id intent, s.intents id = some intent → ∃ m ∈ s.submissions, m.id = id ∧
    m.commitment.blobId = intent.committedBlobId ∧ m.commitment.deadline = intent.deadline ∧
    m.sender = intent.sender
  submitted : ∀ m ∈ s.submissions, ∃ intent, s.intents m.id = some intent
  id_eq : ∀ m ∈ s.submissions, m.id = keccak256 m.preimage
  nodup : (s.submissions.map (·.id)).Nodup
  sent_eq : s.sent.map (fun p => (p.dstEid, p.message)) = s.submissions.map fun m => (m.dstEid, m.message)
  settled : ∀ id, Settlement s id

/-! ## Every instruction keeps the records -/

/-- Nothing happened to the vault of `id`. -/
theorem Settlement.of_same {s s' : State} {id : IntentId} (h : Settlement s id) (hi : s'.intents id = s.intents id)
    (hv : s'.escrows id = s.escrows id) (hp : s'.releases id = s.releases id) (hr : s'.refunds id = s.refunds id) :
    Settlement s' id := by
  cases h with
  | none h₁ h₂ h₃ h₄ => exact .none (hi.trans h₁) (hv.trans h₂) (hp.trans h₃) (hr.trans h₄)
  | «open» h₁ h₂ h₃ => exact .open (hv.trans h₁) (hp.trans h₂) (hr.trans h₃)
  | released h₁ hx h₂ h₃ h₄ hdec hblob =>
    exact .released (hi.trans h₁) hx (hv.trans h₂) (hp.trans h₃) (hr.trans h₄) hdec hblob
  | refunded h₁ h₂ h₃ h₄ hlate => exact .refunded (hi.trans h₁) (hv.trans h₂) (hp.trans h₃) (hr.trans h₄) hlate

theorem submissions_append (s s' : State) {x : Entry} (h : s'.log = s.log ++ [x]) :
    s'.submissions = s.submissions ++ x.event.submission.toList := by
  rw [State.submissions, h, List.filterMap_append]
  cases hx : x.event.submission <;> simp only [List.filterMap_cons, List.filterMap_nil, hx, Option.toList] <;> rfl

theorem refunds_append (s s' : State) (id : IntentId) {x : Entry} (h : s'.log = s.log ++ [x]) :
    s'.refunds id = s.refunds id ++ if x.event.refundOf = some id then [x] else [] := by
  rw [State.refunds, h, List.filter_append]
  simp only [List.filter_cons, List.filter_nil, decide_eq_true_eq]
  rfl

theorem releases_append (s s' : State) (id : IntentId) {p : LzReceiveParams} (h : s'.received = s.received ++ [p]) :
    s'.releases id = s.releases id ++ if decodeIntentId p.message = id then [p] else [] := by
  rw [State.releases, h, List.filter_append]
  simp only [List.filter_cons, List.filter_nil, decide_eq_true_eq]
  rfl

/-- The vault of an id is open: it was not paid out. -/
theorem Settlement.of_open {s : State} {id : IntentId} {vault : EscrowVault} (h : Settlement s id)
    (hv : s.escrows id = some vault) : s.releases id = [] ∧ s.refunds id = [] := by
  cases h with
  | «open» _ hp hr => exact ⟨hp, hr⟩
  | none _ hn | released _ _ hn | refunded _ hn =>
    rw [hn] at hv
    cases hv

/-- Nothing happened to an id that was not submitted. -/
theorem Settlement.of_new {s : State} {id : IntentId} (h : Settlement s id) (hi : s.intents id = .none)
    (hv : s.escrows id = .none) : s.releases id = [] ∧ s.refunds id = [] := by
  cases h with
  | none _ _ hp hr => exact ⟨hp, hr⟩
  | «open» hs =>
    rw [hv] at hs
    cases hs
  | released hs | refunded hs =>
    rw [hi] at hs
    cases hs

/-- The same intent, whatever of its execution is recorded. -/
structure SameTerms (i i' : IntentState) : Prop where
  bump : i'.bump = i.bump
  blobId : i'.committedBlobId = i.committedBlobId
  deadline : i'.deadline = i.deadline
  sender : i'.sender = i.sender

theorem SameTerms.refl (i : IntentState) : SameTerms i i := ⟨rfl, rfl, rfl, rfl⟩

/-- The intents are the same, whatever of their execution is recorded. -/
structure SameIntents (s s' : State) : Prop where
  old : ∀ id i', s'.intents id = some i' → ∃ i, s.intents id = some i ∧ SameTerms i i'
  new : ∀ id i, s.intents id = some i → ∃ i', s'.intents id = some i'

theorem SameIntents.of_eq {s s' : State} (h : s'.intents = s.intents) : SameIntents s s' where
  old id i' hi := ⟨i', h ▸ hi, .refl i'⟩
  new id i hi := ⟨i, by rw [h]; exact hi⟩

theorem SameIntents.of_update {s s' : State} {id : IntentId} {intent intent' : IntentState}
    (h : s'.intents = Function.update s.intents id (some intent')) (hi : s.intents id = some intent)
    (hsame : SameTerms intent intent') : SameIntents s s' where
  old id' i' hi' := by
    rw [h] at hi'
    rcases Table.set_some.mp hi' with ⟨rfl, rfl⟩ | ⟨-, hi'⟩
    · exact ⟨intent, hi, hsame⟩
    · exact ⟨i', hi', .refl i'⟩
  new id' i hi' := by
    rw [h]
    by_cases he : id' = id
    · exact ⟨intent', Table.set_some.mpr (Or.inl ⟨he, rfl⟩)⟩
    · exact ⟨i, Table.set_some.mpr (Or.inr ⟨he, hi'⟩)⟩

/-- No vault is opened or loses lamports; some may be closed. -/
def VaultsKept (s s' : State) : Prop :=
  ∀ id vault, s'.escrows id = some vault →
    s.escrows id = some vault ∧ s.lamports (.escrow id) ≤ s'.lamports (.escrow id)

/-- Nothing is submitted, and each vault's settlement is accounted for. -/
theorem Recorded.of_kept {s s' : State} (h : Recorded s) (hb : s'.bumps = s.bumps)
    (hstore : ∀ store, s'.store = some store → store.bump = s.bumps .store)
    (hpeer : ∀ eid peer, s'.peers eid = some peer → peer.bump = s.bumps (.peer eid) ∧ ∃ store, s'.store = some store)
    (hi : SameIntents s s') (hv : VaultsKept s s') (hsub : s'.submissions = s.submissions) (hsent : s'.sent = s.sent)
    (hset : ∀ id, Settlement s' id) : Recorded s' where
  storeBump := by rw [hb]; exact hstore
  peerBump := by rw [hb]; exact fun eid peer hp => (hpeer eid peer hp).1
  peerStore eid peer hp := (hpeer eid peer hp).2
  intentBump id i' hi' := by
    obtain ⟨i, hs, hsame⟩ := hi.old id i' hi'
    rw [hb, hsame.bump, h.intentBump id i hs]
  vaultBump id vault hv' := by
    rw [hb]
    exact h.vaultBump id vault (hv id vault hv').1
  vault id vault hv' := by
    obtain ⟨hvs, hle⟩ := hv id vault hv'
    obtain ⟨hst, hfunded, i, his, hpayer, hlate⟩ := h.vault id vault hvs
    obtain ⟨i', hi'⟩ := hi.new id i his
    obtain ⟨j, hj, hsame⟩ := hi.old id i' hi'
    obtain rfl : i = j := Option.some.inj (his.symm.trans hj)
    exact ⟨hst, hfunded.trans hle, i', hi', by rw [hpayer, hsame.sender], by rw [hlate, hsame.deadline]⟩
  intent id i' hi' := by
    obtain ⟨i, hs, hsame⟩ := hi.old id i' hi'
    rw [hsub, hsame.blobId, hsame.deadline, hsame.sender]
    exact h.intent id i hs
  submitted := by
    rw [hsub]
    intro m hm
    obtain ⟨i, hs⟩ := h.submitted m hm
    exact hi.new m.id i hs
  id_eq := by rw [hsub]; exact h.id_eq
  nodup := by rw [hsub]; exact h.nodup
  sent_eq := by rw [hsub, hsent]; exact h.sent_eq
  settled := hset

/-- Only lamports, wallets, the store and peers change. -/
theorem Recorded.of_config {s s' : State} (h : Recorded s) (hb : s'.bumps = s.bumps)
    (hstore : ∀ store, s'.store = some store → store.bump = s.bumps .store)
    (hpeer : ∀ eid peer, s'.peers eid = some peer → peer.bump = s.bumps (.peer eid) ∧ ∃ store, s'.store = some store)
    (hl : ∀ id, s.lamports (.escrow id) ≤ s'.lamports (.escrow id)) (hi : s'.intents = s.intents)
    (he : s'.escrows = s.escrows) (hlog : s'.log = s.log) (hsent : s'.sent = s.sent)
    (hrec : s'.received = s.received) : Recorded s' := by
  refine h.of_kept hb hstore hpeer (.of_eq hi) (fun id vault hv => ⟨he ▸ hv, hl id⟩) ?_ hsent fun id => ?_
  · rw [State.submissions, hlog]
    rfl
  · refine (h.settled id).of_same (congrFun hi id) (congrFun he id) ?_ ?_
    · rw [State.releases, hrec]
      rfl
    · rw [State.refunds, hlog]
      rfl

/-- Closing a vault keeps the others. -/
theorem VaultsKept.of_close {s s' : State} {id : IntentId} {recipient : Pubkey} {amount : Nat}
    (he : s'.escrows = Function.update s.escrows id none)
    (hl : s'.lamports = moveLamports (.escrow id) (.wallet recipient) amount s.lamports) : VaultsKept s s' := by
  intro id' vault hv
  rw [he] at hv
  obtain ⟨hne, hv⟩ := Table.remove_some.mp hv
  refine ⟨hv, ?_⟩
  rw [hl, moveLamports, Function.update_of_ne Key.noConfusion,
    Function.update_of_ne fun h => hne (Key.escrow.inj h)]

/-- A submission adds itself, its intent and its vault. -/
theorem Recorded.of_submitted {now : Int} {payer : Pubkey} {c : Commitment} {dstEid : UInt32}
    {escrowAmount : UInt64} {store : Store} {peer : Peer} {r : MessagingReceipt} {lamports : Key → Nat} {s : State}
    (hs : Recorded s) (h : Submittable payer c dstEid escrowAmount store peer lamports s) :
    Recorded (Solana.submitted now payer c dstEid escrowAmount store peer r lamports s) := by
  let s' := Solana.submitted now payer c dstEid escrowAmount store peer r lamports s
  let nonce := s.nextNonce payer
  let m : Submission := ⟨submissionId c payer nonce, payer, dstEid, c, nonce⟩
  have hsub : s'.submissions = s.submissions ++ [m] := submissions_append s s' rfl
  have hfresh : ∀ m' ∈ s.submissions, m'.id ≠ m.id := by
    intro m' hm' hid
    obtain ⟨i, hi⟩ := hs.submitted m' hm'
    rw [hid] at hi
    cases h.newIntent.symm.trans hi
  constructor
  case storeBump => exact hs.storeBump
  case peerBump => exact hs.peerBump
  case peerStore => exact hs.peerStore
  case intentBump =>
    intro id i hi
    rcases Table.set_some.mp hi with ⟨rfl, rfl⟩ | ⟨-, hi⟩
    · rfl
    · exact hs.intentBump id i hi
  case vaultBump =>
    intro id v hv
    rcases Table.set_some.mp hv with ⟨rfl, rfl⟩ | ⟨-, hv⟩
    · rfl
    · exact hs.vaultBump id v hv
  case vault =>
    intro id v hv
    rcases Table.set_some.mp hv with ⟨rfl, rfl⟩ | ⟨hne, hv⟩
    · exact ⟨rfl, h.funded, _, Function.update_self _ _ _, rfl, rfl⟩
    · obtain ⟨hst, hfunded, i, hi, hterms⟩ := hs.vault id v hv
      exact ⟨hst, hfunded.trans (h.vaults id), i, (Function.update_of_ne hne _ _).trans hi, hterms⟩
  case intent =>
    intro id i hi
    rw [hsub]
    rcases Table.set_some.mp hi with ⟨rfl, rfl⟩ | ⟨-, hi⟩
    · exact ⟨m, List.mem_append_right _ (List.mem_singleton_self m), rfl, rfl, rfl, rfl⟩
    · obtain ⟨m', hm', hterms⟩ := hs.intent id i hi
      exact ⟨m', List.mem_append_left _ hm', hterms⟩
  case submitted =>
    rw [hsub]
    intro m' hm'
    rcases List.mem_append.mp hm' with hm' | hm'
    · obtain ⟨i, hi⟩ := hs.submitted m' hm'
      exact ⟨i, (Function.update_of_ne (hfresh m' hm') _ _).trans hi⟩
    · rw [List.mem_singleton.mp hm']
      exact ⟨_, Function.update_self _ _ _⟩
  case id_eq =>
    rw [hsub]
    intro m' hm'
    rcases List.mem_append.mp hm' with hm' | hm'
    · exact hs.id_eq m' hm'
    · rw [List.mem_singleton.mp hm']
      rfl
  case nodup =>
    rw [hsub, List.map_append, List.nodup_append]
    refine ⟨hs.nodup, List.nodup_singleton _, fun a ha b hb hab => ?_⟩
    obtain ⟨m', hm', rfl⟩ := List.mem_map.mp ha
    rw [List.mem_singleton.mp hb] at hab
    exact hfresh m' hm' hab
  case sent_eq =>
    rw [hsub, List.map_append, ← hs.sent_eq]
    exact List.map_append
  case settled =>
    intro id
    have hr : s'.refunds id = s.refunds id := (refunds_append s s' id rfl).trans (List.append_nil _)
    by_cases he : id = m.id
    · rw [he] at hr ⊢
      obtain ⟨hp₀, hr₀⟩ := (hs.settled m.id).of_new h.newIntent h.newEscrow
      exact .open (Function.update_self _ _ _) hp₀ (hr.trans hr₀)
    · exact (hs.settled id).of_same (Function.update_of_ne he _ _) (Function.update_of_ne he _ _) rfl hr

theorem Effect.recorded {now : Int} {op : Op} {s s' : State} (h : Effect now op s s') (hs : Recorded s) :
    Recorded s' := by
  have hpeers : ∀ eid peer, s.peers eid = some peer → peer.bump = s.bumps (.peer eid) ∧ ∃ store, s.store = some store :=
    fun eid peer hp => ⟨hs.peerBump eid peer hp, hs.peerStore eid peer hp⟩
  cases h with
  | initStore hnew hv =>
    refine hs.of_config rfl (fun store hst => ?_) (fun eid peer hp => ?_) hv rfl rfl rfl rfl rfl
    · cases hst
      rfl
    · exact ⟨hs.peerBump eid peer hp, _, rfl⟩
  | @setPeer _ store eid address lamports hstore hv =>
    refine hs.of_config rfl hs.storeBump (fun eid' peer hp => ?_) hv rfl rfl rfl rfl rfl
    refine ⟨?_, store, hstore⟩
    rcases Table.set_some.mp hp with ⟨rfl, rfl⟩ | ⟨-, hp⟩
    · rfl
    · exact hs.peerBump eid' peer hp
  | transfer hv => exact hs.of_config rfl hs.storeBump hpeers hv rfl rfl rfl rfl rfl
  | assign => exact hs.of_config rfl hs.storeBump hpeers (fun _ => Nat.le_refl _) rfl rfl rfl rfl rfl
  | @submit _ payer c dstEid nativeFee escrowAmount store peer r lamports h => exact hs.of_submitted h
  | @release _ params beneficiary proof intent vault h =>
    have hopen := (hs.settled proof.intentId).of_open h.hasVault
    have hdec : decodeIntentId params.message = proof.intentId := by rw [decodeIntentId, h.decoded]
    refine hs.of_kept rfl hs.storeBump hpeers (.of_update rfl h.hasIntent ⟨rfl, rfl, rfl, rfl⟩) (.of_close rfl rfl)
      ((submissions_append s _ rfl).trans (List.append_nil _)) rfl fun id => ?_
    have hp := releases_append s (released now params proof intent beneficiary s) id rfl
    have hr : (released now params proof intent beneficiary s).refunds id = s.refunds id :=
      (refunds_append s _ id rfl).trans (List.append_nil _)
    by_cases he : id = proof.intentId
    · subst he
      rw [if_pos hdec, hopen.1] at hp
      rw [hopen.2] at hr
      exact .released (Function.update_self _ _ _) rfl (Function.update_self _ _ _) hp hr h.decoded h.committed
    · rw [if_neg (fun hd => he (hd.symm.trans hdec)), List.append_nil] at hp
      exact (hs.settled id).of_same (Function.update_of_ne he _ _) (Function.update_of_ne he _ _) hp hr
  | @confirm _ store intent id endEpoch hstore hi hx =>
    refine hs.of_kept rfl hs.storeBump hpeers (.of_update rfl hi ⟨rfl, rfl, rfl, rfl⟩)
      (fun id vault hv => ⟨hv, Nat.le_refl _⟩) ((submissions_append s _ rfl).trans (List.append_nil _)) rfl
      fun id' => ?_
    have hr : (confirmed now id intent.committedBlobId endEpoch intent s).refunds id' = s.refunds id' :=
      (refunds_append s _ id' rfl).trans (List.append_nil _)
    by_cases he : id' = id
    · subst he
      have hi' : (confirmed now id' intent.committedBlobId endEpoch intent s).intents id' =
          some { intent with executed := true, endEpoch } := Function.update_self _ _ _
      cases hs.settled id' with
      | none hn =>
        rw [hi] at hn
        cases hn
      | «open» hv hp hrs => exact .open hv hp (hr.trans hrs)
      | released hi₁ hx₁ =>
        obtain rfl := Option.some.inj (hi.symm.trans hi₁)
        rw [hx] at hx₁
        cases hx₁
      | refunded hi₁ hv hp hrs hlate =>
        obtain rfl := Option.some.inj (hi.symm.trans hi₁)
        exact .refunded hi' hv hp (hr.trans hrs) hlate
    · exact (hs.settled id').of_same (Function.update_of_ne he _ _) rfl rfl hr
  | @refund _ vault id hv hst hlate =>
    have hopen := (hs.settled id).of_open hv
    obtain ⟨-, -, intent, hi, hpayer, hdeadline⟩ := hs.vault id vault hv
    refine hs.of_kept rfl hs.storeBump hpeers (.of_eq rfl) (.of_close rfl rfl)
      ((submissions_append s _ rfl).trans (List.append_nil _)) rfl fun id' => ?_
    have hr : (refunded now id vault s).refunds id' = s.refunds id' ++
        if some id = some id' then [⟨now, .escrowRefunded id vault.payer vault.amount⟩] else [] :=
      refunds_append s (refunded now id vault s) id' rfl
    by_cases he : id' = id
    · subst he
      rw [if_pos rfl, hopen.2, hpayer] at hr
      exact .refunded hi (Function.update_self _ _ _) hopen.1 hr (hdeadline ▸ hlate)
    · rw [if_neg (fun h => he (Option.some.inj h).symm), List.append_nil] at hr
      exact (hs.settled id').of_same rfl (Function.update_of_ne he _ _) rfl hr

/-! ## Runs -/

theorem initial_recorded (bumps : Key → UInt8) (rent : Nat → Nat) (systemOwned : Pubkey → Bool)
    (lamports : Key → Nat) : Recorded (initial bumps rent systemOwned lamports) where
  storeBump _ h := by cases h
  peerBump _ _ h := by cases h
  peerStore _ _ h := by cases h
  intentBump _ _ h := by cases h
  vaultBump _ _ h := by cases h
  vault _ _ h := by cases h
  intent _ _ h := by cases h
  submitted _ h := by cases h
  id_eq _ h := by cases h
  nodup := List.nodup_nil
  sent_eq := rfl
  settled _ := .none rfl rfl rfl rfl

/-- What is recorded in every reachable state. -/
theorem run_recorded (bumps : Key → UInt8) (rent : Nat → Nat) (systemOwned : Pubkey → Bool) (lamports : Key → Nat)
    (as : List (Int × Op)) : Recorded (Machine.run step (initial bumps rent systemOwned lamports) as) :=
  Machine.run_inv as (fun _ _ _ _ h hs => (step_effect h).recorded hs) (initial_recorded _ _ _ _)

end Bosphor.Solana

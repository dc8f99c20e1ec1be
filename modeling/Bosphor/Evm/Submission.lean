import Bosphor.Evm.Settlement

/-!
# When a submission goes through

The submissions a deployment has accepted, as its log lists them, and what its
other records have to do with them:

* `Submissions`: the submitted ids, the native escrows and the messages sent
  are those of the log's submissions, and no id is submitted twice;
* `submitIntent_returns_iff`: in every reachable state a submission that is in
  time, paid and sent returns exactly when nobody deposited a token under its
  id and its sender did not make it before at the same 64-bit nonce.
-/

namespace Bosphor.Evm

/-! ## The submissions -/

/-- An accepted submission. -/
structure Submission where
  id : IntentId
  sender : Address
  dstEid : UInt32
  commitment : Commitment
  nonce : UInt64
  deriving DecidableEq

/-- What the id of a submission is the hash of. -/
def Submission.preimage (m : Submission) : List UInt8 :=
  Bosphor.preimage m.commitment (toBytes32 m.sender).val m.nonce

/-- The message sent for a submission. -/
def Submission.message (m : Submission) : List UInt8 := m.id.val ++ m.commitment.wire

/-- The submission an event records. -/
def Event.submission : Event → Option Submission
  | .intentSubmitted id sender dstEid c nonce => some ⟨id, sender, dstEid, c, nonce⟩
  | _ => none

/-- The accepted submissions, oldest first. -/
def State.submissions (s : State) : List Submission := s.log.filterMap fun x => x.event.submission

/-- What the ids derived so far are the hashes of. -/
def State.preimages (s : State) : Set (List UInt8) := {p | ∃ m ∈ s.submissions, p = m.preimage}

/-- The submission of `c` by `sender` at its current nonce. -/
def State.nextSubmission (s : State) (sender : Address) (dstEid : UInt32) (c : Commitment) : Submission :=
  ⟨s.nextId sender c, sender, dstEid, c, UInt64.ofNat (s.nonces sender)⟩

/-- The escrow of `id` was opened by a submission, not by a token deposit. -/
def State.NativeEscrow (s : State) (id : IntentId) : Prop :=
  (s.escrows id).status ≠ .none ∧ (s.escrows id).token = nativeToken

/-- No token was ever deposited under `id`. -/
def State.NoDeposit (s : State) (id : IntentId) : Prop :=
  ∀ x ∈ s.log, ∀ payer token amount deadline, x.event = .escrowOpened id payer token amount deadline →
    token = nativeToken

/-- The records of submissions agree. -/
structure Submissions (s : State) : Prop where
  intents_iff : ∀ id, s.intents id = true ↔ ∃ m ∈ s.submissions, m.id = id
  id_eq : ∀ m ∈ s.submissions, m.id = keccak256 m.preimage
  nodup : (s.submissions.map (·.id)).Nodup
  native_iff : ∀ id, s.intents id = true ↔ s.NativeEscrow id
  committed_eq : ∀ m ∈ s.submissions, s.committedBlobId m.id = m.commitment.blobId
  deadline_eq : ∀ m ∈ s.submissions, (s.escrows m.id).deadline = m.commitment.deadline
  sent_eq : s.sent.map (fun p => (p.dstEid, p.message)) = s.submissions.map fun m => (m.dstEid, m.message)

/-! ## Every effect keeps the records -/

theorem submissions_append (s s' : State) {l : List Entry} (h : s'.log = s.log ++ l) :
    s'.submissions = s.submissions ++ l.filterMap fun x => x.event.submission := by
  rw [State.submissions, h, List.filterMap_append]
  rfl

/-- An escrow stays in its asset, and a native one keeps its deadline. -/
def NativeKept (s s' : State) : Prop :=
  ∀ id, (s'.NativeEscrow id ↔ s.NativeEscrow id) ∧
    (s.NativeEscrow id → (s'.escrows id).deadline = (s.escrows id).deadline)

theorem NativeKept.of_eq {s s' : State} (h : s'.escrows = s.escrows) : NativeKept s s' := fun id => by
  rw [State.NativeEscrow, h]
  exact ⟨Iff.rfl, fun _ => rfl⟩

/-- Writing an escrow over one that is as native, with the deadline of a native one. -/
theorem NativeKept.of_update {s s' : State} {id : IntentId} {e : Escrow}
    (he : s'.escrows = Function.update s.escrows id e)
    (h : (e.status ≠ .none ∧ e.token = nativeToken) ↔ s.NativeEscrow id)
    (hd : s.NativeEscrow id → e.deadline = (s.escrows id).deadline) : NativeKept s s' := by
  intro id'
  by_cases hid : id' = id
  · subst hid
    rw [State.NativeEscrow, he, Function.update_self]
    exact ⟨h, hd⟩
  · rw [State.NativeEscrow, he, Function.update_of_ne hid]
    exact ⟨Iff.rfl, fun _ => rfl⟩

/-- Settling an escrow keeps its asset and deadline. -/
theorem NativeKept.of_settled {s s' : State} {id : IntentId} {status : EscrowStatus}
    (he : s'.escrows = Function.update s.escrows id { s.escrows id with status }) (hs : status ≠ .none)
    (hp : (s.escrows id).status = .pending) : NativeKept s s' := by
  refine .of_update he ?_ fun _ => rfl
  rw [State.NativeEscrow, hp]
  exact and_congr_left fun _ => iff_of_true hs (by decide)

/-- Nothing is submitted, and the escrows of submissions are kept. -/
theorem Submissions.of_neutral {s s' : State} {l : List Entry} (h : Submissions s) (hl : s'.log = s.log ++ l)
    (hn : ∀ x ∈ l, x.event.submission = none) (hi : s'.intents = s.intents) (hs : s'.sent = s.sent)
    (hb : s'.committedBlobId = s.committedBlobId) (he : NativeKept s s') : Submissions s' := by
  have hsub : s'.submissions = s.submissions := by
    rw [submissions_append s s' hl, List.filterMap_eq_nil_iff.mpr hn, List.append_nil]
  have hnative : ∀ m ∈ s.submissions, s.NativeEscrow m.id := fun m hm =>
    (h.native_iff m.id).mp ((h.intents_iff m.id).mpr ⟨m, hm, rfl⟩)
  constructor
  case intents_iff => rw [hi, hsub]; exact h.intents_iff
  case id_eq => rw [hsub]; exact h.id_eq
  case nodup => rw [hsub]; exact h.nodup
  case native_iff => exact fun id => by rw [hi, (he id).1]; exact h.native_iff id
  case committed_eq => rw [hb, hsub]; exact h.committed_eq
  case deadline_eq =>
    rw [hsub]
    exact fun m hm => ((he m.id).2 (hnative m hm)).trans (h.deadline_eq m hm)
  case sent_eq => rw [hs, hsub]; exact h.sent_eq

/-- A submission adds itself. -/
theorem Submissions.submitted {now value nativeFee : Nat} {sender : Address} {dstEid : UInt32} {c : Commitment}
    {s : State} (h : Submissions s) (hnew : s.intents (s.nextId sender c) = false) :
    Submissions (submitted now sender value nativeFee dstEid c s) := by
  let m := s.nextSubmission sender dstEid c
  have hsub : (Evm.submitted now sender value nativeFee dstEid c s).submissions = s.submissions ++ [m] :=
    submissions_append s (Evm.submitted now sender value nativeFee dstEid c s) rfl
  have hmem : m.id ∉ s.submissions.map (·.id) := by
    intro hm
    obtain ⟨m', hm', hid⟩ := List.mem_map.mp hm
    have hold : s.intents m.id = true := (h.intents_iff _).mpr ⟨m', hm', hid⟩
    exact Bool.false_ne_true (hnew.symm.trans hold)
  have hold : ∀ m' ∈ s.submissions, m'.id ≠ m.id := fun m' hm' hid =>
    hmem (hid ▸ List.mem_map_of_mem hm')
  have hescrow : (Evm.submitted now sender value nativeFee dstEid c s).escrows m.id =
      ⟨sender, nativeToken, value - nativeFee, c.deadline, .pending⟩ := Function.update_self _ _ _
  constructor
  case intents_iff =>
    intro id
    rw [hsub]
    by_cases hid : id = m.id
    · rw [hid]
      exact iff_of_true (Function.update_self _ _ _) ⟨m, List.mem_append_right _ (List.mem_singleton_self m), rfl⟩
    · have hkept : (Evm.submitted now sender value nativeFee dstEid c s).intents id = s.intents id :=
        Function.update_of_ne hid _ _
      rw [hkept, h.intents_iff]
      constructor
      · rintro ⟨m', hm', rfl⟩
        exact ⟨m', List.mem_append_left _ hm', rfl⟩
      · rintro ⟨m', hm', rfl⟩
        rcases List.mem_append.mp hm' with hm' | hm'
        · exact ⟨m', hm', rfl⟩
        · exact absurd (congrArg (·.id) (List.mem_singleton.mp hm')) hid
  case id_eq =>
    rw [hsub]
    intro m' hm'
    rcases List.mem_append.mp hm' with hm' | hm'
    · exact h.id_eq m' hm'
    · rw [List.mem_singleton.mp hm']
      rfl
  case nodup =>
    rw [hsub, List.map_append, List.nodup_append]
    refine ⟨h.nodup, List.nodup_singleton _, fun a ha b hb hab => ?_⟩
    rw [List.mem_singleton.mp hb] at hab
    rw [hab] at ha
    exact hmem ha
  case native_iff =>
    intro id
    by_cases hid : id = m.id
    · rw [hid, State.NativeEscrow, hescrow]
      exact iff_of_true (Function.update_self _ _ _) ⟨EscrowStatus.noConfusion, rfl⟩
    · have hkept : (Evm.submitted now sender value nativeFee dstEid c s).intents id = s.intents id :=
        Function.update_of_ne hid _ _
      have hother : (Evm.submitted now sender value nativeFee dstEid c s).escrows id = s.escrows id :=
        Function.update_of_ne hid _ _
      rw [hkept, h.native_iff, State.NativeEscrow, State.NativeEscrow, hother]
  case committed_eq =>
    rw [hsub]
    intro m' hm'
    rcases List.mem_append.mp hm' with hm' | hm'
    · exact (Function.update_of_ne (hold m' hm') _ _).trans (h.committed_eq m' hm')
    · rw [List.mem_singleton.mp hm']
      exact Function.update_self _ _ _
  case deadline_eq =>
    rw [hsub]
    intro m' hm'
    rcases List.mem_append.mp hm' with hm' | hm'
    · exact (congrArg Escrow.deadline (Function.update_of_ne (hold m' hm') _ _)).trans (h.deadline_eq m' hm')
    · rw [List.mem_singleton.mp hm']
      rw [hescrow]
      rfl
  case sent_eq =>
    rw [hsub, List.map_append, ← h.sent_eq]
    exact List.map_append

theorem Effect.submissions {now : Nat} {allowed : Op → Prop} {p q : State × (Address → Nat)}
    (h : Effect now allowed p q) (hp : Submissions p.1) : Submissions q.1 := by
  cases h with
  | @submit s r sender value nativeFee dstEid c ha h hnew hnone => exact hp.submitted hnew
  | @prove s r value packet id blobId endEpoch ha hdec h =>
    exact hp.of_neutral (proven_log now value packet id blobId endEpoch s) (by simp [Event.submission]) rfl rfl rfl
      (.of_settled rfl EscrowStatus.noConfusion h.pending)
  | @refund s r id ha hpending hlate hfit =>
    exact hp.of_neutral rfl (by simp [Event.submission]) rfl rfl rfl
      (.of_settled rfl EscrowStatus.noConfusion hpending)
  | @openToken s r sender id deadline token amount left ha htoken hnone =>
    refine hp.of_neutral rfl (by simp [Event.submission]) rfl rfl rfl (.of_update rfl ?_ ?_)
    · exact iff_of_false (fun h => htoken h.2) fun h => h.1 hnone
    · exact fun h => absurd hnone h.1
  | confirm | setRelayer | setPeer | setOwner | withdrawn | withdrawnToken =>
    exact hp.of_neutral rfl (by simp [Event.submission]) rfl rfl rfl (.of_eq rfl)
  | setPermit2 | receive | tokenMoves | pull | withdraw | debitToken | payToken =>
    exact hp.of_neutral (List.append_nil _).symm (by simp) rfl rfl rfl (.of_eq rfl)

theorem call_submissions {now : Nat} {c : Call} {s s' : State} (h : call now c s = .ok s')
    (hs : Submissions s) : Submissions s' :=
  (call_effects c (fun _ _ => trivial : ∀ op ∈ c.ops, (fun _ => True) op) s s' h 0).keeps
    (P := fun p => Submissions p.1) (fun _ _ h hp => h.submissions hp) hs

theorem initial_submissions (self endpoint owner trustedRelayer : Address) (tokens : Address → TokenAccount) :
    Submissions (initial self endpoint owner trustedRelayer tokens) where
  intents_iff id := ⟨fun h => (by cases h), fun ⟨m, hm, _⟩ => (by cases hm)⟩
  id_eq m hm := by cases hm
  nodup := List.nodup_nil
  native_iff id := iff_of_false (fun h => (by cases h)) fun h => h.1 rfl
  committed_eq m hm := by cases hm
  deadline_eq m hm := by cases hm
  sent_eq := rfl

theorem run_submissions {self endpoint owner trustedRelayer : Address} {tokens : Address → TokenAccount} {s₀ : State}
    (h : deploy self endpoint owner trustedRelayer tokens = .ok s₀) (as : List (Nat × Call)) :
    Submissions (Machine.run step s₀ as) := by
  obtain ⟨-, rfl⟩ := deploy_ok.mp h
  exact Machine.run_inv as (fun _ _ _ _ h hs => call_submissions h hs) (initial_submissions _ _ _ _ _)

/-! ## When a submission returns -/

/-- An escrow was opened in its asset. -/
theorem Settlement.opened {relayer : Address} {s : State} {id : IntentId} (h : Settlement relayer s id)
    (hs : (s.escrows id).status ≠ .none) :
    let e := s.escrows id
    ∃ t, ⟨t, .escrowOpened id e.payer e.token e.amount e.deadline⟩ ∈ s.log := by
  have hmem : ∀ {x l}, s.escrowLog id = x :: l → x ∈ s.log := fun hl =>
    List.mem_of_mem_filter (hl ▸ List.mem_cons_self : _ ∈ s.escrowLog id)
  cases hst : (s.escrows id).status <;> simp only [Settlement, hst] at h
  case none => exact absurd hst hs
  case pending => exact h.imp fun t ht => hmem ht
  case released =>
    obtain ⟨-, t, t', earlier, later, -, ht⟩ := h
    exact ⟨t, hmem ht⟩
  case refunded =>
    obtain ⟨t, t', -, ht⟩ := h
    exact ⟨t, hmem ht⟩

/-- An escrow is in the asset it was opened in. -/
theorem Settlement.token_of_opened {relayer : Address} {s : State} {id : IntentId} {x : Entry}
    (h : Settlement relayer s id) (hx : x ∈ s.log) {payer token : Address} {amount : Nat} {deadline : UInt64}
    (he : x.event = .escrowOpened id payer token amount deadline) :
    (s.escrows id).status ≠ .none ∧ (s.escrows id).token = token := by
  have hmem : x ∈ s.escrowLog id := List.mem_filter.mpr ⟨hx, decide_eq_true (by rw [he]; rfl)⟩
  obtain ⟨time, event⟩ := x
  cases he
  cases hst : (s.escrows id).status <;> simp only [Settlement, hst] at h
  case none =>
    rw [h] at hmem
    cases hmem
  case pending =>
    obtain ⟨t, ht⟩ := h
    rw [ht] at hmem
    simp only [List.mem_singleton, Entry.mk.injEq, Event.escrowOpened.injEq] at hmem
    exact ⟨EscrowStatus.noConfusion, hmem.2.2.2.1.symm⟩
  case released =>
    obtain ⟨-, t, t', earlier, later, -, ht⟩ := h
    rw [ht] at hmem
    simp only [List.mem_cons, List.not_mem_nil, Entry.mk.injEq, Event.escrowOpened.injEq, reduceCtorEq,
      and_false, or_false] at hmem
    exact ⟨EscrowStatus.noConfusion, hmem.2.2.2.1.symm⟩
  case refunded =>
    obtain ⟨t, t', -, ht⟩ := h
    rw [ht] at hmem
    simp only [List.mem_cons, List.not_mem_nil, Entry.mk.injEq, Event.escrowOpened.injEq, reduceCtorEq,
      and_false, or_false] at hmem
    exact ⟨EscrowStatus.noConfusion, hmem.2.2.2.1.symm⟩

/-- No token was deposited under an id if and only if its escrow, if there is one, is native. -/
theorem Settlement.noDeposit_iff {relayer : Address} {s : State} {id : IntentId} (h : Settlement relayer s id) :
    s.NoDeposit id ↔ ((s.escrows id).status ≠ .none → (s.escrows id).token = nativeToken) := by
  constructor
  · intro hno hst
    obtain ⟨t, ht⟩ := h.opened hst
    exact hno _ ht _ _ _ _ rfl
  · intro hnative x hx payer token amount deadline he
    obtain ⟨hst, ht⟩ := h.token_of_opened hx he
    exact ht ▸ hnative hst

/-- An id is submitted only if the submission it is the id of was accepted. -/
theorem Submissions.not_submitted {s : State} (h : Submissions s) (m : Submission) (hid : m.id = keccak256 m.preimage)
    (hinj : Set.InjOn keccak256 (insert m.preimage s.preimages))
    (hm : ∀ m' ∈ s.submissions, ¬ (m'.sender = m.sender ∧ m'.commitment = m.commitment ∧ m'.nonce = m.nonce)) :
    s.intents m.id = false := by
  rw [Bool.eq_false_iff, ne_eq, h.intents_iff]
  intro ⟨m', hm', hsame⟩
  have hpre : m'.preimage = m.preimage := by
    refine hinj (Set.mem_insert_of_mem _ ⟨m', hm', rfl⟩) (Set.mem_insert _ _) ?_
    rw [← h.id_eq m' hm', hsame, hid]
  have hlen : ∀ a : Address, (toBytes32 a).val.length ≤ senderLen := fun a => Nat.le_of_eq (toBytes32 a).property
  obtain ⟨hc, hs, hn⟩ := preimage_inj (hlen _) (hlen _) hpre
  rw [padSender_of_length (toBytes32 _).property, padSender_of_length (toBytes32 _).property] at hs
  exact hm m' hm' ⟨toBytes32_inj (Subtype.ext hs), hc, hn⟩

/-- In every reachable state, a submission that is in time, pays the fee and is sent to a configured
peer returns if and only if no token was deposited under its id, its sender has not submitted the same
commitment at the same 64-bit nonce, and the nonce can be counted up. And an id that has an escrow is
a submitted one if and only if no token was deposited under it. -/
theorem submitIntent_returns_iff {self endpoint owner trustedRelayer : Address} {tokens : Address → TokenAccount}
    {s₀ : State} (h : deploy self endpoint owner trustedRelayer tokens = .ok s₀) (as : List (Nat × Call)) :
    let s := Machine.run step s₀ as
    (∀ (now value nativeFee : Nat) (sender : Address) (dstEid : UInt32) (c : Commitment),
      now ≤ c.deadline.toNat → nativeFee ≤ value → s.balance + value < uint256Size →
      s.peers dstEid ≠ Bytes.zero 32 →
      Set.InjOn keccak256 (insert (s.nextSubmission sender dstEid c).preimage s.preimages) →
      ((∃ s', step (now, .mk (.submitIntent sender value dstEid c (some nativeFee) true) [] []) s = .ok s') ↔
        s.NoDeposit (s.nextId sender c) ∧
        (∀ m ∈ s.submissions,
          ¬ (m.sender = sender ∧ m.commitment = c ∧ m.nonce = UInt64.ofNat (s.nonces sender))) ∧
        s.nonces sender + 1 < uint256Size)) ∧
    ∀ id, ((s.escrows id).status ≠ .none → s.intents id = true) ↔ s.NoDeposit id := by
  intro s
  have hsub : Submissions s := run_submissions h as
  have hrec : ∀ id, Settlement trustedRelayer s id := (run_recorded h as).1.settled
  refine ⟨fun now value nativeFee sender dstEid c htime hfee hfits hpeer hinj => ?_, fun id => ?_⟩
  · have hcall : (∃ s', step (now, .mk (.submitIntent sender value dstEid c (some nativeFee) true) [] []) s = .ok s') ↔
        ∃ s', submitIntent now sender value dstEid c (some nativeFee) true s = .ok s' := Iff.rfl
    rw [hcall]
    constructor
    · rintro ⟨s', hs'⟩
      obtain ⟨_, -, -, hok, hnew, hnone, -⟩ := submitIntent_ok.mp hs'
      refine ⟨(hrec _).noDeposit_iff.mpr fun hst => absurd hnone hst, fun m hm ⟨hsender, hc, hn⟩ => ?_, hok.nonceFits⟩
      have hid : m.id = s.nextId sender c := by
        rw [hsub.id_eq m hm, Submission.preimage, hsender, hc, hn]
        rfl
      exact Bool.false_ne_true (hnew.symm.trans ((hsub.intents_iff _).mpr ⟨m, hm, hid⟩))
    · rintro ⟨hno, hfresh, hnonce⟩
      have hnew : s.intents (s.nextId sender c) = false :=
        hsub.not_submitted (s.nextSubmission sender dstEid c) rfl hinj hfresh
      have hnone : (s.escrows (s.nextId sender c)).status = .none := by
        by_contra hst
        have hnative : s.NativeEscrow (s.nextId sender c) := ⟨hst, (hrec _).noDeposit_iff.mp hno hst⟩
        exact Bool.false_ne_true (hnew.symm.trans ((hsub.native_iff _).mpr hnative))
      exact ⟨_, submitIntent_ok.mpr ⟨nativeFee, rfl, rfl, ⟨htime, hfee, hfits, hnonce, hpeer⟩, hnew, hnone, rfl⟩⟩
  · rw [(hrec id).noDeposit_iff, hsub.native_iff]
    exact imp_congr_right fun hst => and_iff_right hst

/-- A submission by an account that nobody interfered with. -/
theorem submitIntent_returns_first :
    let s := Machine.run step exampleAdapter
      [(1, .mk (.setPeer (accountOf 3) 30 (toBytes32 (accountOf 6))) [] [])]
    ∃ s', step (5, .mk (.submitIntent (accountOf 7) 9 30 exampleCommitment (some 2) true) [] []) s = .ok s' := by
  intro s
  refine ((submitIntent_returns_iff exampleAdapter_deployed
    [(1, .mk (.setPeer (accountOf 3) 30 (toBytes32 (accountOf 6))) [] [])]).1 5 9 2 (accountOf 7) 30
    exampleCommitment (by decide) (by decide) (by decide) (by decide) ?_).mpr ⟨?_, ?_, by decide⟩
  · intro p hp q hq _
    have hnone : ∀ p ∈ s.preimages, False := fun p ⟨m, hm, _⟩ => by cases hm
    rcases hp with rfl | hp
    · rcases hq with rfl | hq
      · rfl
      · exact (hnone q hq).elim
    · exact (hnone p hp).elim
  · intro x hx payer token amount deadline he
    rw [List.mem_singleton.mp hx] at he
    cases he
  · intro m hm
    cases hm

/-- The run in which `accountOf 5` deposits a token of its own under `id`. -/
def depositFirst (id : IntentId) : State :=
  Machine.run step exampleAdapter
    [(1, .mk (.setPeer (accountOf 3) 30 (toBytes32 (accountOf 6))) [] []),
     (1, .mk (.setPermit2 (accountOf 3) (accountOf 8)) [] []),
     (2, .mk (.depositUsdcWithPermit2 (accountOf 5) id 50 (accountOf 9) 1 0 true) [] [])]

/-- Another account deposits a token of its own under the id a submission will get, and the submission
does not return. -/
theorem submitIntent_blocked :
    let s := depositFirst (submissionId exampleCommitment (accountOf 7) 0)
    3 ≤ exampleCommitment.deadline.toNat ∧ s.balance + 9 < uint256Size ∧ s.nonces (accountOf 7) = 0 ∧
    s.peers 30 ≠ Bytes.zero 32 ∧ s.submissions = [] ∧
    ∀ s', step (3, .mk (.submitIntent (accountOf 7) 9 30 exampleCommitment (some 2) true) [] []) s ≠ .ok s' := by
  have hnonce : ∀ id, (depositFirst id).nonces (accountOf 7) = 0 := fun _ => rfl
  have hpending : ∀ id, ((depositFirst id).escrows id).status = .pending := fun id => by
    have hrun : (depositFirst id).escrows = Function.update (fun _ => Escrow.empty) id
        ⟨accountOf 5, accountOf 9, 1, 50, .pending⟩ := rfl
    rw [hrun, Function.update_self]
  refine ⟨by decide, ?_, hnonce _, ?_, rfl, fun s' hs' => ?_⟩
  · have hbalance : ∀ id, (depositFirst id).balance = 0 := fun _ => rfl
    rw [hbalance]
    decide
  · have hpeer : ∀ id, (depositFirst id).peers 30 = toBytes32 (accountOf 6) := fun _ => rfl
    rw [hpeer]
    decide
  · obtain ⟨_, -, -, -, -, hnone, -⟩ := submitIntent_ok.mp hs'
    rw [State.nextId, hnonce, hpending] at hnone
    cases hnone

end Bosphor.Evm

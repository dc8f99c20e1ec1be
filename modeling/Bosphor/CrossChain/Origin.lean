import Bosphor.Evm.Submission
import Bosphor.Solana.Settlement

/-!
# Origins

An origin deployment, on EVM or on Solana, as the rest of the system sees it:
the submissions it accepted, the messages it sent, the proofs it accepted, and
which vaults it released or refunded.

* `Evm.Linked`, `Solana.Linked`: the deployment accepts proofs of one peer
  only, and what the endpoint brings from that peer is genuine;
* `Origin.Sound`: a deployment in a reachable state, and what it says of its
  submissions.
-/

namespace Bosphor

/-- Where a deployment's messages come from: an endpoint id and an account there. -/
structure Peering where
  eid : UInt32
  address : Bytes 32

/-! ## EVM -/

namespace Evm

/-- Calls that set no other peer than `peering`, and bring only genuine messages of it from the endpoint. -/
def OpLinked (endpoint : Address) (peering : Peering) (genuine : List UInt8 → Prop) : Op → Prop
  | .lzReceive sender _ packet =>
    sender = endpoint → packet.srcEid = peering.eid → packet.sender = peering.address → genuine packet.message
  | .setPeer _ eid peer => peer = Bytes.zero 32 ∨ (eid = peering.eid ∧ peer = peering.address)
  | _ => True

/-- The deployment knows no other peer than `peering`, and has accepted only genuine messages of it, all
up to `now`. -/
structure Linked (endpoint : Address) (peering : Peering) (genuine : List UInt8 → Prop) (now : Nat)
    (s : State) : Prop where
  endpoint_eq : s.endpoint = endpoint
  peers : ∀ eid, s.peers eid = Bytes.zero 32 ∨ (eid = peering.eid ∧ s.peers eid = peering.address)
  received : ∀ p ∈ s.received, genuine p.message
  sent : ∀ m ∈ s.sent, m.dstEid = peering.eid ∧ m.receiver = peering.address
  times : ∀ x ∈ s.log, x.time ≤ now

variable {endpoint : Address} {peering : Peering} {genuine : List UInt8 → Prop} {now : Nat}

theorem Linked.mono {genuine' : List UInt8 → Prop} {now' : Nat} {s : State}
    (h : Linked endpoint peering genuine now s) (hg : ∀ m, genuine m → genuine' m) (hn : now ≤ now') :
    Linked endpoint peering genuine' now' s :=
  { h with
    received := fun p hp => hg _ (h.received p hp)
    times := fun x hx => (h.times x hx).trans hn }

/-- The history grows by events of now. -/
theorem Linked.of_append {s s' : State} {l : List Entry} (h : Linked endpoint peering genuine now s)
    (he : s'.endpoint = s.endpoint) (hp : s'.peers = s.peers) (hr : s'.received = s.received)
    (hs : s'.sent = s.sent) (hl : s'.log = s.log ++ l) (ht : ∀ x ∈ l, x.time = now) :
    Linked endpoint peering genuine now s' where
  endpoint_eq := he.trans h.endpoint_eq
  peers := by rw [hp]; exact h.peers
  received := by rw [hr]; exact h.received
  sent := by rw [hs]; exact h.sent
  times x hx := by
    rw [hl] at hx
    rcases List.mem_append.mp hx with hx | hx
    · exact h.times x hx
    · exact Nat.le_of_eq (ht x hx)

theorem Effect.linked {p q : State × (Address → Nat)} (h : Effect now (OpLinked endpoint peering genuine) p q)
    (hp : Linked endpoint peering genuine now p.1) : Linked endpoint peering genuine now q.1 := by
  cases h with
  | @submit s r sender value nativeFee dstEid c ha h hnew hnone =>
    refine ⟨hp.endpoint_eq, hp.peers, hp.received, fun m hm => ?_, fun x hx => ?_⟩
    · rcases List.mem_append.mp hm with hm | hm
      · exact hp.sent m hm
      · rw [List.mem_singleton.mp hm]
        exact (hp.peers dstEid).resolve_left h.peer
    · rcases List.mem_append.mp hx with hx | hx
      · exact hp.times x hx
      · rcases List.mem_pair.mp hx with rfl | rfl <;> exact Nat.le_refl _
  | @prove s r value packet id blobId endEpoch ha hdec h =>
    refine ⟨hp.endpoint_eq, hp.peers, fun p hp' => ?_, hp.sent, fun x hx => ?_⟩
    · rcases List.mem_append.mp hp' with hp' | hp'
      · exact hp.received p hp'
      · obtain rfl := List.mem_singleton.mp hp'
        obtain ⟨heid, haddress⟩ := (hp.peers p.srcEid).resolve_left (h.peer ▸ h.peerSet)
        exact ha hp.endpoint_eq heid (h.peer.symm.trans haddress)
    · rw [proven_log] at hx
      rcases List.mem_append.mp hx with hx | hx
      · exact hp.times x hx
      · rcases List.mem_pair.mp hx with rfl | rfl <;> exact Nat.le_refl _
  | @setPeer s r eid peer ha =>
    refine ⟨hp.endpoint_eq, fun eid' => ?_, hp.received, hp.sent, fun x hx => ?_⟩
    · change Function.update s.peers eid peer eid' = _ ∨ _ ∧ Function.update s.peers eid peer eid' = _
      by_cases he : eid' = eid
      · subst he
        rw [Function.update_self]
        exact ha
      · rw [Function.update_of_ne he]
        exact hp.peers eid'
    · rcases List.mem_append.mp hx with hx | hx
      · exact hp.times x hx
      · rw [List.mem_singleton.mp hx]
  | refund | openToken | confirm | setRelayer | setOwner | withdrawn | withdrawnToken =>
    exact hp.of_append rfl rfl rfl rfl rfl fun x hx => by rw [List.mem_singleton.mp hx]
  | setPermit2 | receive | tokenMoves | pull | withdraw | debitToken | payToken =>
    exact hp.of_append rfl rfl rfl rfl (List.append_nil _).symm (by simp)

theorem call_linked {c : Call} {s s' : State} (ha : ∀ op ∈ c.ops, OpLinked endpoint peering genuine op)
    (h : call now c s = .ok s') (hs : Linked endpoint peering genuine now s) :
    Linked endpoint peering genuine now s' :=
  (call_effects c ha s s' h 0).keeps (P := fun p => Linked endpoint peering genuine now p.1)
    (fun _ _ h hp => h.linked hp) hs

/-- What was sent stays sent. -/
theorem call_sent {c : Call} {s s' : State} (h : call now c s = .ok s') : ∀ m ∈ s.sent, m ∈ s'.sent :=
  (call_effects c (fun _ _ => trivial : ∀ op ∈ c.ops, (fun _ => True) op) s s' h 0).keeps
    (P := fun p => ∀ m ∈ s.sent, m ∈ p.1.sent) (fun _ _ h hp m hm => by
      have hm := hp m hm
      cases h with
      | submit => exact List.mem_append_left _ hm
      | _ => exact hm) fun _ hm => hm

/-- A released escrow stays released. -/
theorem call_released {c : Call} {s s' : State} (h : call now c s = .ok s') {id : IntentId}
    (hr : (s.escrows id).status = .released) : (s'.escrows id).status = .released := by
  refine (call_escrow_path h id).keeps (P := fun e => e.status = .released) (fun a b hab ha => ?_) hr
  cases hab with
  | opened _ _ _ _ hn | released hn | refunded hn => cases ha.symm.trans hn

theorem initial_linked (self owner trustedRelayer : Address) (tokens : Address → TokenAccount) :
    Linked endpoint peering genuine now (initial self endpoint owner trustedRelayer tokens) where
  endpoint_eq := rfl
  peers _ := Or.inl rfl
  received p h := by cases h
  sent m h := by cases h
  times x h := by cases h

end Evm

/-! ## Solana -/

namespace Solana

/-- Instructions that set no other peer than `peering`, and bring only genuine messages of it from the
endpoint. -/
def OpLinked (peering : Peering) (genuine : List UInt8 → Prop) : Op → Prop
  | .lzReceive params _ ok =>
    ok = true → params.srcEid = peering.eid → params.sender = peering.address → genuine params.message
  | .setPeer _ eid address => eid = peering.eid ∧ address = peering.address
  | _ => True

/-- The program knows no other peer than `peering`, and has accepted only genuine messages of it, all up
to `now`. -/
structure Linked (peering : Peering) (genuine : List UInt8 → Prop) (now : Int) (s : State) : Prop where
  peers : ∀ eid peer, s.peers eid = some peer → eid = peering.eid ∧ peer.address = peering.address
  received : ∀ p ∈ s.received, genuine p.message
  sent : ∀ m ∈ s.sent, m.dstEid = peering.eid ∧ m.receiver = peering.address
  times : ∀ x ∈ s.log, x.time ≤ now

variable {peering : Peering} {genuine : List UInt8 → Prop} {now : Int}

theorem Linked.mono {genuine' : List UInt8 → Prop} {now' : Int} {s : State} (h : Linked peering genuine now s)
    (hg : ∀ m, genuine m → genuine' m) (hn : now ≤ now') : Linked peering genuine' now' s :=
  { h with
    received := fun p hp => hg _ (h.received p hp)
    times := fun x hx => (h.times x hx).trans hn }

/-- The times stay up to now when an event of now is added. -/
theorem times_append {s : State} (h : ∀ x ∈ s.log, x.time ≤ now) (e : Event) :
    ∀ x ∈ s.log ++ [⟨now, e⟩], x.time ≤ now := fun x hx => by
  rcases List.mem_append.mp hx with hx | hx
  · exact h x hx
  · rw [List.mem_singleton.mp hx]

theorem Effect.linked {op : Op} {s s' : State} (h : Effect now op s s') (ha : OpLinked peering genuine op)
    (hs : Linked peering genuine now s) : Linked peering genuine now s' := by
  cases h with
  | initStore | transfer | assign => exact ⟨hs.peers, hs.received, hs.sent, hs.times⟩
  | @setPeer s store eid address lamports hstore hv =>
    refine ⟨fun eid' peer hp => ?_, hs.received, hs.sent, hs.times⟩
    rcases Table.set_some.mp hp with ⟨rfl, rfl⟩ | ⟨-, hp⟩
    · exact ha
    · exact hs.peers eid' peer hp
  | @submit s payer c dstEid nativeFee escrowAmount store peer r lamports h =>
    refine ⟨hs.peers, hs.received, fun m hm => ?_, times_append hs.times _⟩
    rcases List.mem_append.mp hm with hm | hm
    · exact hs.sent m hm
    · rw [List.mem_singleton.mp hm]
      exact hs.peers dstEid peer h.hasPeer
  | @release s params beneficiary proof intent vault h =>
    refine ⟨hs.peers, fun p hp => ?_, hs.sent, times_append hs.times _⟩
    rcases List.mem_append.mp hp with hp | hp
    · exact hs.received p hp
    · obtain rfl := List.mem_singleton.mp hp
      obtain ⟨peer, hpeer, -, haddress⟩ := h.hasPeer
      obtain ⟨heid, hpeering⟩ := hs.peers p.srcEid peer hpeer
      exact ha rfl heid (haddress.symm.trans hpeering)
  | confirm | refund => exact ⟨hs.peers, hs.received, hs.sent, times_append hs.times _⟩

/-- What was sent stays sent, and what was accepted stays accepted. -/
theorem Effect.kept {op : Op} {s s' : State} (h : Effect now op s s') :
    (∀ m ∈ s.sent, m ∈ s'.sent) ∧ ∀ p ∈ s.received, p ∈ s'.received := by
  cases h with
  | submit => exact ⟨fun _ => List.mem_append_left _, fun _ h => h⟩
  | release => exact ⟨fun _ h => h, fun _ => List.mem_append_left _⟩
  | _ => exact ⟨fun _ h => h, fun _ h => h⟩

theorem initial_linked (bumps : Key → UInt8) (rent : Nat → Nat) (systemOwned : Pubkey → Bool)
    (lamports : Key → Nat) : Linked peering genuine now (initial bumps rent systemOwned lamports) where
  peers eid peer h := by cases h
  received p h := by cases h
  sent m h := by cases h
  times x h := by cases h

end Solana

/-! ## What the system sees -/

namespace CrossChain

/-- An accepted submission, with its sender as 32 bytes. -/
structure Submission where
  id : Bytes 32
  sender : Bytes 32
  dstEid : UInt32
  commitment : Commitment
  nonce : UInt64
  deriving DecidableEq

/-- What the id of a submission is the hash of. -/
def Submission.preimage (m : Submission) : List UInt8 := Bosphor.preimage m.commitment m.sender.val m.nonce

/-- The message sent for a submission. -/
def Submission.message (m : Submission) : List UInt8 := m.id.val ++ m.commitment.wire

/-- A deployment. -/
inductive Origin where
  | evm (s : Evm.State)
  | solana (s : Solana.State)

namespace Origin

/-- The accepted submissions, oldest first. -/
def submissions : Origin → List Submission
  | .evm s => s.submissions.map fun m => ⟨m.id, Evm.toBytes32 m.sender, m.dstEid, m.commitment, m.nonce⟩
  | .solana s => s.submissions.map fun m => ⟨m.id, m.sender, m.dstEid, m.commitment, m.nonce⟩

/-- A message was handed to the endpoint. -/
def Sends (o : Origin) (dstEid : UInt32) (receiver : Bytes 32) (message : List UInt8) : Prop :=
  match o with
  | .evm s => ⟨dstEid, receiver, message⟩ ∈ s.sent
  | .solana s => ⟨dstEid, receiver, message⟩ ∈ s.sent

/-- The escrow of `id` was released by a proof. -/
def Released (o : Origin) (id : Bytes 32) : Prop :=
  match o with
  | .evm s => (s.escrows id).status = .released
  | .solana s => s.releases id ≠ []

/-- The escrow of `id` was refunded. -/
def Refunded (o : Origin) (id : Bytes 32) : Prop :=
  match o with
  | .evm s => (s.escrows id).status = .refunded
  | .solana s => s.refunds id ≠ []

/-- The escrow of `id` was refunded at block time `t`. -/
def RefundedAt (o : Origin) (id : Bytes 32) (t : Int) : Prop :=
  match o with
  | .evm s => ∃ (n : Nat) (payer : Evm.Address) (amount : Nat), (n : Int) = t ∧
    ⟨n, .escrowRefunded id payer amount⟩ ∈ s.log
  | .solana s => ∃ payer amount, ⟨t, .escrowRefunded id payer amount⟩ ∈ s.log

/-- The deployment's records agree, and it knows one peer only. -/
def Sound (endpoint : Evm.Address) (peering : Peering) (genuine : List UInt8 → Prop) (now : Nat)
    (o : Origin) : Prop :=
  match o with
  | .evm s => (∃ relayer, Evm.Recorded relayer s ∧ Evm.Reconciled s) ∧ Evm.Submissions s ∧
    Evm.Linked endpoint peering genuine now s
  | .solana s => Solana.Recorded s ∧ Solana.Linked peering genuine now s

variable {endpoint : Evm.Address} {peering : Peering} {genuine : List UInt8 → Prop} {now : Nat} {o : Origin}

theorem Sound.mono {genuine' : List UInt8 → Prop} {now' : Nat} (h : o.Sound endpoint peering genuine now)
    (hg : ∀ m, genuine m → genuine' m) (hn : now ≤ now') : o.Sound endpoint peering genuine' now' := by
  cases o with
  | evm s => exact ⟨h.1, h.2.1, h.2.2.mono hg hn⟩
  | solana s => exact ⟨h.1, h.2.mono hg (Int.ofNat_le.mpr hn)⟩

theorem Sound.id_eq (h : o.Sound endpoint peering genuine now) : ∀ m ∈ o.submissions, m.id = keccak256 m.preimage := by
  intro m hm
  cases o with
  | evm s =>
    obtain ⟨n, hn, rfl⟩ := List.mem_map.mp hm
    exact h.2.1.id_eq n hn
  | solana s =>
    obtain ⟨n, hn, rfl⟩ := List.mem_map.mp hm
    exact h.1.id_eq n hn

/-- No id is submitted twice to one deployment. -/
theorem Sound.nodup (h : o.Sound endpoint peering genuine now) : (o.submissions.map (·.id)).Nodup := by
  cases o with
  | evm s =>
    rw [submissions, List.map_map]
    exact h.2.1.nodup
  | solana s =>
    rw [submissions, List.map_map]
    exact h.1.nodup

theorem Sound.unique (h : o.Sound endpoint peering genuine now) {m m' : Submission} (hm : m ∈ o.submissions)
    (hm' : m' ∈ o.submissions) (hid : m.id = m'.id) : m = m' :=
  List.inj_on_of_nodup_map h.nodup hm hm' hid

/-- What is sent is sent to the peer, for a submission. -/
theorem Sound.sends (h : o.Sound endpoint peering genuine now) {dstEid : UInt32} {receiver : Bytes 32}
    {message : List UInt8} (hs : o.Sends dstEid receiver message) :
    dstEid = peering.eid ∧ receiver = peering.address ∧ ∃ m ∈ o.submissions, message = m.message := by
  cases o with
  | evm s =>
    obtain ⟨hd, hr⟩ := h.2.2.sent _ hs
    have hmem := List.mem_map_of_mem (f := fun p : Evm.Sent => (p.dstEid, p.message)) hs
    rw [h.2.1.sent_eq] at hmem
    obtain ⟨m, hm, he⟩ := List.mem_map.mp hmem
    exact ⟨hd, hr, _, List.mem_map_of_mem hm, (congrArg Prod.snd he).symm⟩
  | solana s =>
    obtain ⟨hd, hr⟩ := h.2.sent _ hs
    have hmem := List.mem_map_of_mem (f := fun p : Solana.Sent => (p.dstEid, p.message)) hs
    rw [h.1.sent_eq] at hmem
    obtain ⟨m, hm, he⟩ := List.mem_map.mp hmem
    exact ⟨hd, hr, _, List.mem_map_of_mem hm, (congrArg Prod.snd he).symm⟩

/-- A refund of a submission comes after its deadline, and no later than now. -/
theorem Sound.refunded (h : o.Sound endpoint peering genuine now) {m : Submission} (hm : m ∈ o.submissions)
    (hr : o.Refunded m.id) : ∃ t, o.RefundedAt m.id t ∧ (m.commitment.deadline.toNat : Int) < t ∧ t ≤ now := by
  cases o with
  | evm s =>
    obtain ⟨n, hn, rfl⟩ := List.mem_map.mp hm
    obtain ⟨⟨relayer, hrec, -⟩, hsub, hlink⟩ := h
    have hst := hrec.settled n.id
    have hr' : (s.escrows n.id).status = .refunded := hr
    simp only [Evm.Settlement, hr'] at hst
    obtain ⟨t, t', hlate, hlog⟩ := hst
    rw [hsub.deadline_eq n hn] at hlate
    have hmem : ⟨t', .escrowRefunded n.id (s.escrows n.id).payer (s.escrows n.id).amount⟩ ∈ s.log :=
      List.mem_of_mem_filter (hlog ▸ List.mem_cons_of_mem _ List.mem_cons_self : _ ∈ s.escrowLog n.id)
    exact ⟨t', ⟨t', _, _, rfl, hmem⟩, Int.ofNat_lt.mpr hlate, Int.ofNat_le.mpr (hlink.times _ hmem)⟩
  | solana s =>
    obtain ⟨n, hn, rfl⟩ := List.mem_map.mp hm
    obtain ⟨hrec, hlink⟩ := h
    cases hrec.settled n.id with
    | none _ _ _ hno | «open» _ _ hno | released _ _ _ _ hno => exact absurd hno hr
    | @refunded intent t amount hi hv hp hrs hlate =>
      obtain ⟨m', hm', hid, -, hdeadline, -⟩ := hrec.intent n.id intent hi
      obtain rfl := List.inj_on_of_nodup_map hrec.nodup hm' hn hid
      have hmem : ⟨t, .escrowRefunded m'.id intent.sender amount⟩ ∈ s.log :=
        List.mem_of_mem_filter (hrs ▸ List.mem_cons_self : _ ∈ s.refunds m'.id)
      exact ⟨t, ⟨_, _, hmem⟩, by rw [hdeadline]; exact hlate, hlink.times _ hmem⟩

/-- A release was made on a genuine proof of a submission, which carries the blob id it committed to. -/
theorem Sound.released (h : o.Sound endpoint peering genuine now) {id : Bytes 32} (hr : o.Released id) :
    ∃ m ∈ o.submissions, m.id = id ∧ ∃ message endEpoch, genuine message ∧
      Evm.decodeProofMessage message = .ok (id, m.commitment.blobId, endEpoch) := by
  cases o with
  | evm s =>
    obtain ⟨⟨relayer, hrec, -⟩, hsub, hlink⟩ := h
    have hst := hrec.settled id
    have hr' : (s.escrows id).status = .released := hr
    simp only [Evm.Settlement, hr'] at hst
    obtain ⟨⟨-, -, time, sender, dstEid, c, nonce, hm, packet, hp, endEpoch, hdec⟩, -⟩ := hst
    have hmem : (⟨id, sender, dstEid, c, nonce⟩ : Evm.Submission) ∈ s.submissions :=
      List.mem_filterMap.mpr ⟨_, hm, rfl⟩
    exact ⟨_, List.mem_map_of_mem hmem, rfl, packet.message, endEpoch, hlink.received packet hp, hdec⟩
  | solana s =>
    obtain ⟨hrec, hlink⟩ := h
    cases hrec.settled id with
    | none _ _ hn | «open» _ hn | refunded _ _ hn => exact absurd hn hr
    | @released intent p proof hi hx hv hp hrs hdec hblob =>
      obtain ⟨m, hm, hid, hcommitted, -⟩ := hrec.intent id intent hi
      have hmem : p ∈ s.releases id := hp ▸ List.mem_singleton_self p
      obtain ⟨hreceived, hpid⟩ := List.mem_filter.mp hmem
      have hproof : proof.intentId = id := by
        rw [decide_eq_true_eq, Solana.decodeIntentId, hdec] at hpid
        exact hpid
      have hevm := Evm.decodeProofMessage_of_decodeProof hdec
      rw [hproof, hblob, ← hcommitted] at hevm
      exact ⟨_, List.mem_map_of_mem hm, hid, p.message, _, hlink.received p hreceived, hevm⟩

theorem Sound.not_both (h : o.Sound endpoint peering genuine now) {id : Bytes 32} (hr : o.Released id) :
    ¬ o.Refunded id := by
  intro hf
  cases o with
  | evm s => cases (hr : (s.escrows id).status = .released).symm.trans hf
  | solana s =>
    cases h.1.settled id with
    | none _ _ _ hn | «open» _ _ hn | released _ _ _ _ hn => exact hf hn
    | refunded _ _ hn => exact hr hn

/-- What a deployment sent and released stays so. -/
structure Grown (o o' : Origin) : Prop where
  sends : ∀ dstEid receiver message, o.Sends dstEid receiver message → o'.Sends dstEid receiver message
  released : ∀ id, o.Released id → o'.Released id

theorem Grown.refl (o : Origin) : Grown o o := ⟨fun _ _ _ h => h, fun _ h => h⟩

theorem Grown.trans {o o' o'' : Origin} (h : Grown o o') (h' : Grown o' o'') : Grown o o'' :=
  ⟨fun d r m hs => h'.sends d r m (h.sends d r m hs), fun id hr => h'.released id (h.released id hr)⟩

theorem Grown.of_call {now : Nat} {c : Evm.Call} {s s' : Evm.State} (h : Evm.call now c s = .ok s') :
    Grown (.evm s) (.evm s') :=
  ⟨fun _ _ _ hs => Evm.call_sent h _ hs, fun _ hr => Evm.call_released h hr⟩

theorem Grown.of_step {now : Int} {op : Solana.Op} {s s' : Solana.State} (h : Solana.step (now, op) s = .ok s') :
    Grown (.solana s) (.solana s') := by
  obtain ⟨hsent, hreceived⟩ := (Solana.step_effect h).kept
  refine ⟨fun _ _ _ hs => hsent _ hs, fun id hr => ?_⟩
  obtain ⟨p, hp⟩ := List.exists_mem_of_ne_nil _ hr
  obtain ⟨hp, hid⟩ := List.mem_filter.mp hp
  exact List.ne_nil_of_mem (List.mem_filter.mpr ⟨hreceived p hp, hid⟩)

theorem Sound.of_call {c : Evm.Call} {s s' : Evm.State} (h : Sound endpoint peering genuine now (.evm s))
    (ha : ∀ op ∈ c.ops, Evm.OpLinked endpoint peering genuine op) (hc : Evm.call now c s = .ok s') :
    Sound endpoint peering genuine now (.evm s') := by
  obtain ⟨⟨relayer, hrec⟩, hsub, hlink⟩ := h
  exact ⟨⟨relayer, Evm.call_recorded hc hrec⟩, Evm.call_submissions hc hsub, Evm.call_linked ha hc hlink⟩

theorem Sound.of_step {op : Solana.Op} {s s' : Solana.State} (h : Sound endpoint peering genuine now (.solana s))
    (ha : Solana.OpLinked peering genuine op) (hs : Solana.step ((now : Int), op) s = .ok s') :
    Sound endpoint peering genuine now (.solana s') :=
  ⟨(Solana.step_effect hs).recorded h.1, (Solana.step_effect hs).linked ha h.2⟩

end Origin

end CrossChain

end Bosphor

import Bosphor.Evm.Submission
import Bosphor.Solana.Settlement

/-!
# A proof settles the intent it is for

On both origins, a proof of the committed blob that comes from the configured
peer is accepted and pays the escrow to the relayer, as long as the intent is
not marked executed (`proof_settles`). The admin's confirmation marks an intent
executed without paying its escrow; a proof delivered afterwards is refused
(`proof_refused_after_confirmation`).
-/

namespace Bosphor

/-! ## EVM -/

namespace Evm

/-- What an account may withdraw and what a pending escrow holds fit together. -/
theorem Solvent.creditFits {s : State} (h : Solvent (s, 0)) {id : IntentId} (account : Address)
    (hp : (s.escrows id).status = .pending) (ht : (s.escrows id).token = nativeToken) :
    s.withdrawableOf (s.escrows id).token account + (s.escrows id).amount < uint256Size := by
  have hcov : Covers s.balance 0 (s.owed nativeToken) := h.covers nativeToken (Or.inl rfl)
  have hsum := hcov {.inl id, .inr account}
  have hescrow : s.owed nativeToken (.inl id) = (s.escrows id).amount := by
    rw [State.owed, Sum.elim_inl, ← ht]
    exact Escrow.pendingAmount_self hp
  have haccount : s.owed nativeToken (.inr account) = s.withdrawableOf (s.escrows id).token account := by
    rw [State.owed, Sum.elim_inr, ht]
  rw [Finset.sum_pair Sum.inl_ne_inr, hescrow, haccount] at hsum
  have hfits : s.balance < uint256Size := h.fits
  omega

/-- A genuine proof is accepted, and its escrow is credited to the relayer. -/
theorem lzReceive_settles {s : State} (hsolv : Solvent (s, 0)) (hsub : Submissions s) {m : Submission}
    (hm : m ∈ s.submissions) (hp : (s.escrows m.id).status = .pending) (hx : s.executed m.id = false)
    {now value endEpoch : Nat} {packet : Received} (hfits : s.balance + value < uint256Size)
    (hpeer : s.peers packet.srcEid = packet.sender) (hset : packet.sender ≠ Bytes.zero 32)
    (hdec : decodeProofMessage packet.message = .ok (m.id, m.commitment.blobId, endEpoch)) :
    ∃ s', step (now, .mk (.lzReceive s.endpoint value packet) [] []) s = .ok s' ∧
      s'.escrows = Function.update s.escrows m.id { s.escrows m.id with status := .released } ∧
      s'.withdrawable = Function.update s.withdrawable s.trustedRelayer
        (s.withdrawable s.trustedRelayer + (s.escrows m.id).amount) ∧
      s'.withdrawableToken = s.withdrawableToken := by
  have hi : s.intents m.id = true := (hsub.intents_iff m.id).mpr ⟨m, hm, rfl⟩
  have ht : (s.escrows m.id).token = nativeToken := ((hsub.native_iff m.id).mp hi).2
  have hprovable : Provable value packet m.id m.commitment.blobId s :=
    ⟨hpeer, hset, (hsub.committed_eq m hm).symm, hi, hx, hp, hfits, hsolv.creditFits _ hp ht⟩
  refine ⟨_, lzReceive_ok.mpr ⟨rfl, m.id, _, endEpoch, hdec, hprovable, rfl⟩, rfl, ?_, ?_⟩
  · simp only [proven, State.settled, State.credited, ht, if_true, State.withdrawableOf]
  · simp only [proven, State.settled, State.credited, ht, if_true]

end Evm

/-! ## Solana -/

namespace Solana

/-- A genuine proof is accepted, and the vault is paid out to its beneficiary and closed. -/
theorem lzReceive_settles {s : State} (hs : Recorded s) {params : LzReceiveParams} {proof : DecodedProof}
    {intent : IntentState} {vault : EscrowVault} (hdec : decodeProof params.message = .ok proof)
    (hi : s.intents proof.intentId = some intent) (hv : s.escrows proof.intentId = some vault)
    (hx : intent.executed = false) (hblob : proof.blobId = intent.committedBlobId) {peer : Peer}
    (hpeer : s.peers params.srcEid = some peer) (hsender : peer.address = params.sender)
    (hsys : s.systemOwned vault.beneficiary = true) (now : Int) :
    ∃ s', step (now, .lzReceive params vault.beneficiary true) s = .ok s' ∧
      s'.escrows = Function.update s.escrows proof.intentId none ∧
      s'.lamports (.wallet vault.beneficiary) =
        s.lamports (.wallet vault.beneficiary) + s.lamports (.escrow proof.intentId) ∧
      vault.amount.toNat ≤ s.lamports (.escrow proof.intentId) ∧ s'.lamports (.escrow proof.intentId) = 0 := by
  obtain ⟨store, hstore⟩ := hs.peerStore _ peer hpeer
  have hd : Deliverable params vault.beneficiary proof intent vault s :=
    ⟨⟨peer, hpeer, hs.peerBump _ peer hpeer, hsender⟩, ⟨store, hstore, hs.storeBump store hstore⟩, hdec, hi,
      hs.intentBump _ intent hi, hv, hs.vaultBump _ vault hv, hsys, rfl, hx, hblob, (hs.vault _ vault hv).1⟩
  refine ⟨_, lzReceive_ok.mpr ⟨rfl, proof, intent, vault, hd, rfl⟩, rfl, ?_, (hs.vault _ vault hv).2.1, ?_⟩
  · have hne : Key.wallet vault.beneficiary ≠ .escrow proof.intentId := Key.noConfusion
    simp only [released, moveLamports, Function.update_self, Function.update_of_ne hne]
  · have hne : Key.escrow proof.intentId ≠ .wallet vault.beneficiary := Key.noConfusion
    simp only [released, moveLamports, Function.update_self, Function.update_of_ne hne, Nat.sub_self]

end Solana

/-! ## Both -/

/-- In every reachable state of the adapter, a proof of a submitted intent that carries the committed
blob and is delivered by the configured peer is accepted while the escrow is pending and the intent not
marked executed: the escrow is released, and the relayer is credited its amount and nobody else
anything. In every reachable state of the Solana program, such a proof is accepted while the vault is
open and the intent not marked executed: the vault is closed and all it holds, at least the amount,
goes to its beneficiary. -/
theorem proof_settles :
    (∀ (self endpoint owner trustedRelayer : Evm.Address) (tokens : Evm.Address → Evm.TokenAccount)
        (s₀ : Evm.State) (as : List (Nat × Evm.Call)),
      Evm.deploy self endpoint owner trustedRelayer tokens = .ok s₀ →
      let s := Machine.run Evm.step s₀ as
      ∀ m ∈ s.submissions, (s.escrows m.id).status = .pending → s.executed m.id = false →
      ∀ (now value endEpoch : Nat) (packet : Evm.Received), s.balance + value < Evm.uint256Size →
        s.peers packet.srcEid = packet.sender → packet.sender ≠ Bytes.zero 32 →
        Evm.decodeProofMessage packet.message = .ok (m.id, m.commitment.blobId, endEpoch) →
        ∃ s', Evm.step (now, .mk (.lzReceive s.endpoint value packet) [] []) s = .ok s' ∧
          s'.escrows = Function.update s.escrows m.id { s.escrows m.id with status := .released } ∧
          s'.withdrawable = Function.update s.withdrawable s.trustedRelayer
            (s.withdrawable s.trustedRelayer + (s.escrows m.id).amount) ∧
          s'.withdrawableToken = s.withdrawableToken) ∧
    (∀ (bumps : Solana.Key → UInt8) (rent : Nat → Nat) (systemOwned : Solana.Pubkey → Bool)
        (lamports : Solana.Key → Nat) (as : List (Int × Solana.Op)),
      let s := Machine.run Solana.step (Solana.initial bumps rent systemOwned lamports) as
      ∀ (params : Solana.LzReceiveParams) (proof : Solana.DecodedProof) (intent : Solana.IntentState)
        (vault : Solana.EscrowVault) (peer : Solana.Peer), Solana.decodeProof params.message = .ok proof →
        s.intents proof.intentId = some intent → s.escrows proof.intentId = some vault →
        intent.executed = false → proof.blobId = intent.committedBlobId →
        s.peers params.srcEid = some peer → peer.address = params.sender →
        s.systemOwned vault.beneficiary = true →
        ∀ now, ∃ s', Solana.step (now, .lzReceive params vault.beneficiary true) s = .ok s' ∧
          s'.escrows = Function.update s.escrows proof.intentId none ∧
          s'.lamports (.wallet vault.beneficiary) =
            s.lamports (.wallet vault.beneficiary) + s.lamports (.escrow proof.intentId) ∧
          vault.amount.toNat ≤ s.lamports (.escrow proof.intentId) ∧
          s'.lamports (.escrow proof.intentId) = 0) := by
  refine ⟨fun self endpoint owner trustedRelayer tokens s₀ as h => ?_, fun bumps rent systemOwned lamports as => ?_⟩
  · intro s m hm hp hx now value endEpoch packet hfits hpeer hset hdec
    have hsolv : Evm.Solvent (s, 0) := by
      obtain ⟨-, rfl⟩ := Evm.deploy_ok.mp h
      exact (Evm.initial_solvent _ _ _ _ _).run as
    exact Evm.lzReceive_settles hsolv (Evm.run_submissions h as) hm hp hx hfits hpeer hset hdec
  · intro s params proof intent vault peer hdec hi hv hx hblob hpeer hsender hsys now
    exact Solana.lzReceive_settles (Solana.run_recorded bumps rent systemOwned lamports as) hdec hi hv hx hblob hpeer
      hsender hsys now

/-! ## Examples -/

namespace Evm

/-- The adapter with a peer. -/
def peered : State :=
  Machine.run step exampleAdapter [(1, .mk (.setPeer (accountOf 3) 30 (toBytes32 (accountOf 6))) [] [])]

/-- An intent submitted to it. -/
def oneSubmission : State :=
  Machine.run step peered
    [(5, .mk (.submitIntent (accountOf 7) 9 30 exampleCommitment (some 2) true) [] [])]

/-- The submission. -/
def theSubmission : Submission :=
  ⟨submissionId exampleCommitment (accountOf 7) 0, accountOf 7, 30, exampleCommitment, 0⟩

/-- The proof of it. -/
def theProof : Received := ⟨30, toBytes32 (accountOf 6), proofWire theSubmission.id exampleCommitment.blobId 3⟩

theorem oneSubmission_eq : oneSubmission = submitted 5 (accountOf 7) 9 2 30 exampleCommitment peered := by
  have h : submitIntent 5 (accountOf 7) 9 30 exampleCommitment (some 2) true peered =
      .ok (submitted 5 (accountOf 7) 9 2 30 exampleCommitment peered) :=
    submitIntent_ok.mpr ⟨2, rfl, rfl, ⟨by decide, by decide, by decide, by decide, by decide⟩, rfl, rfl, rfl⟩
  exact Machine.run_singleton h

theorem oneSubmission_pending : theSubmission ∈ oneSubmission.submissions ∧
    oneSubmission.intents theSubmission.id = true ∧ oneSubmission.executed theSubmission.id = false ∧
    oneSubmission.escrows theSubmission.id =
      ⟨accountOf 7, nativeToken, 7, exampleCommitment.deadline, .pending⟩ := by
  rw [oneSubmission_eq]
  exact ⟨List.mem_singleton_self theSubmission, Function.update_self _ _ _, rfl, Function.update_self _ _ _⟩

theorem oneSubmission_reached : ∃ as, Machine.run step exampleAdapter as = oneSubmission :=
  ⟨_, Machine.run_append exampleAdapter [_] [_]⟩

theorem theProof_decodes :
    decodeProofMessage theProof.message = .ok (theSubmission.id, exampleCommitment.blobId, 3) :=
  (decode_proofWire _ _ _).2.2

/-- The admin confirms the execution of the intent. -/
def confirmedFirst : State :=
  Machine.run step oneSubmission [(6, .mk (.confirmExecution (accountOf 3) theSubmission.id []) [] [])]

theorem confirmedFirst_eq : confirmedFirst = { oneSubmission with
    executed := Function.update oneSubmission.executed theSubmission.id true
    log := oneSubmission.log ++ [⟨6, .intentExecuted theSubmission.id []⟩] } := by
  have howner : accountOf 3 = oneSubmission.owner := by
    rw [oneSubmission_eq]
    rfl
  have h := (@confirmExecution_ok 6 (accountOf 3) theSubmission.id [] oneSubmission _).mpr
    ⟨howner, oneSubmission_pending.2.1, oneSubmission_pending.2.2.1, rfl⟩
  exact Machine.run_singleton h

end Evm

namespace Solana

/-- The program with a peer. -/
def peered : State :=
  Machine.run step exampleProgram
    [(1, .initStore (walletOf 4) (walletOf 4) (walletOf 2) true), (1, .setPeer (walletOf 4) 30 (walletOf 6))]

/-- An intent submitted to it. -/
def oneSubmission : State :=
  Machine.run step peered
    [(5, .submitIntent (walletOf 7) exampleCommitment 30 2 9 (some ⟨walletOf 0, 1, 2, walletOf 9⟩))]

/-- Its id. -/
def theId : IntentId := submissionId exampleCommitment (walletOf 7) 0

/-- The proof of it. -/
def theProof : LzReceiveParams := ⟨30, walletOf 6, 1, walletOf 0, proofWire theId exampleCommitment.blobId 3⟩

theorem peered_submits : ∃ s', submitIntent 5 (walletOf 7) exampleCommitment 30 2 9
    (some ⟨walletOf 0, 1, 2, walletOf 9⟩) peered = .ok s' := by
  simp only [submitIntent, initIfNeeded, computeIntentId_eq, encodeForward_eq]
  exact ⟨_, rfl⟩

theorem oneSubmission_eq : ∃ lamports, oneSubmission =
    submitted 5 (walletOf 7) exampleCommitment 30 9 ⟨walletOf 4, walletOf 2, 255⟩ ⟨walletOf 6, 255⟩
      ⟨walletOf 0, 1, 2, walletOf 9⟩ lamports peered := by
  obtain ⟨s', hs⟩ := peered_submits
  obtain ⟨store, peer, r, lamports, hr, hsub, rfl⟩ := submitIntent_effect hs
  cases hr
  cases hsub.hasStore
  cases hsub.hasPeer
  exact ⟨lamports, Machine.run_singleton hs⟩

/-- The vault is open, and the intent not executed. -/
theorem oneSubmission_open : oneSubmission.store = some ⟨walletOf 4, walletOf 2, 255⟩ ∧
    oneSubmission.peers 30 = some ⟨walletOf 6, 255⟩ ∧ oneSubmission.systemOwned = (fun _ => true) ∧
    oneSubmission.bumps = (fun _ => 255) ∧
    oneSubmission.intents theId = some ⟨exampleCommitment.blobId, exampleCommitment.size,
      exampleCommitment.storageEpochs, exampleCommitment.deadline, walletOf 7, 0, false, 0, 255⟩ ∧
    oneSubmission.escrows theId =
      some ⟨walletOf 7, walletOf 4, 9, exampleCommitment.deadline, escrowPending, 255⟩ := by
  obtain ⟨lamports, h⟩ := oneSubmission_eq
  rw [h]
  exact ⟨rfl, rfl, rfl, rfl, Function.update_self _ _ _, Function.update_self _ _ _⟩

theorem oneSubmission_reached : ∃ as, Machine.run step exampleProgram as = oneSubmission :=
  ⟨_, Machine.run_append exampleProgram [_, _] [_]⟩

theorem theProof_decodes : decodeProof theProof.message = .ok ⟨theId, exampleCommitment.blobId, 3⟩ :=
  (decode_proofWire _ _ _).2.1

/-- The admin confirms the execution of the intent. -/
def confirmedFirst : State :=
  Machine.run step oneSubmission [(6, .confirmExecution (walletOf 4) theId exampleCommitment.blobId 3)]

theorem confirmedFirst_eq : confirmedFirst = confirmed 6 theId exampleCommitment.blobId 3
    ⟨exampleCommitment.blobId, exampleCommitment.size, exampleCommitment.storageEpochs, exampleCommitment.deadline,
      walletOf 7, 0, false, 0, 255⟩ oneSubmission := by
  obtain ⟨hstore, -, -, hbumps, hi, -⟩ := oneSubmission_open
  have h := (@confirmExecution_ok 6 (walletOf 4) theId exampleCommitment.blobId 3 oneSubmission _).mpr
    ⟨_, _, hstore, by rw [hbumps], rfl, hi, by rw [hbumps], rfl, rfl, rfl⟩
  exact Machine.run_singleton h

end Solana

/-- The proof of the one submission settles it. -/
theorem proof_settles_once :
    (∃ s', Evm.step (7, .mk (.lzReceive Evm.oneSubmission.endpoint 0 Evm.theProof) [] []) Evm.oneSubmission = .ok s' ∧
      (s'.escrows Evm.theSubmission.id).status = .released) ∧
    (∃ s', Solana.step (7, .lzReceive Solana.theProof (Solana.walletOf 4) true) Solana.oneSubmission = .ok s' ∧
      s'.escrows Solana.theId = none) := by
  constructor
  · obtain ⟨hm, -, hx, he⟩ := Evm.oneSubmission_pending
    have hp : (Evm.oneSubmission.escrows Evm.theSubmission.id).status = .pending := by rw [he]
    have hfits : Evm.oneSubmission.balance + 0 < Evm.uint256Size := by
      rw [Evm.oneSubmission_eq]
      decide
    have hpeer : Evm.oneSubmission.peers Evm.theProof.srcEid = Evm.theProof.sender := by
      rw [Evm.oneSubmission_eq]
      rfl
    obtain ⟨as, has⟩ := Evm.oneSubmission_reached
    have hsettles := proof_settles.1 _ _ _ _ _ _ as Evm.exampleAdapter_deployed
    rw [has] at hsettles
    obtain ⟨s', hs, hescrows, -⟩ := hsettles _ hm hp hx 7 0 3 Evm.theProof hfits hpeer (by decide)
      Evm.theProof_decodes
    refine ⟨s', hs, ?_⟩
    rw [hescrows, Function.update_self]
  · obtain ⟨-, hpeer, hsys, -, hi, hv⟩ := Solana.oneSubmission_open
    obtain ⟨as, has⟩ := Solana.oneSubmission_reached
    have hsettles := proof_settles.2 (fun _ => 255) (fun size => size) (fun _ => true) Solana.exampleLamports as
    rw [← Solana.exampleProgram, has] at hsettles
    obtain ⟨s', hs, hescrows, -⟩ := hsettles Solana.theProof _ _ _ _ Solana.theProof_decodes hi hv rfl rfl hpeer rfl
      (congrFun hsys _) 7
    refine ⟨s', hs, ?_⟩
    rw [hescrows]
    exact Function.update_self _ _ _

/-- The proof of the committed blob, from the configured peer, for a pending escrow, after the admin
confirmed the execution: it is refused on both origins. -/
theorem proof_refused_after_confirmation :
    (Evm.theSubmission ∈ Evm.confirmedFirst.submissions ∧
      (Evm.confirmedFirst.escrows Evm.theSubmission.id).status = .pending ∧
      Evm.confirmedFirst.peers Evm.theProof.srcEid = Evm.theProof.sender ∧ Evm.theProof.sender ≠ Bytes.zero 32 ∧
      Evm.decodeProofMessage Evm.theProof.message = .ok (Evm.theSubmission.id, exampleCommitment.blobId, 3) ∧
      ∀ s', Evm.step (7, .mk (.lzReceive Evm.confirmedFirst.endpoint 0 Evm.theProof) [] []) Evm.confirmedFirst ≠
        .ok s') ∧
    ((∃ vault, Solana.confirmedFirst.escrows Solana.theId = some vault ∧ vault.beneficiary = Solana.walletOf 4) ∧
      Solana.confirmedFirst.peers Solana.theProof.srcEid = some ⟨Solana.theProof.sender, 255⟩ ∧
      Solana.decodeProof Solana.theProof.message = .ok ⟨Solana.theId, exampleCommitment.blobId, 3⟩ ∧
      ∀ s', Solana.step (7, .lzReceive Solana.theProof (Solana.walletOf 4) true) Solana.confirmedFirst ≠ .ok s') := by
  constructor
  · obtain ⟨hm, -, -, he⟩ := Evm.oneSubmission_pending
    have hpeer : Evm.oneSubmission.peers Evm.theProof.srcEid = Evm.theProof.sender := by
      rw [Evm.oneSubmission_eq]
      rfl
    rw [Evm.confirmedFirst_eq]
    refine ⟨?_, congrArg Evm.Escrow.status he, hpeer, by decide, Evm.theProof_decodes, fun s' hs' => ?_⟩
    · rw [Evm.submissions_append Evm.oneSubmission _ rfl]
      exact List.mem_append_left _ hm
    · obtain ⟨-, id, blobId, endEpoch, hdec, hp, -⟩ := Evm.lzReceive_ok.mp hs'
      have hid : Evm.theSubmission.id = id := congrArg Prod.fst (Except.ok.inj (Evm.theProof_decodes.symm.trans hdec))
      have hx : Function.update Evm.oneSubmission.executed Evm.theSubmission.id true id = false := hp.notExecuted
      rw [← hid, Function.update_self] at hx
      cases hx
  · obtain ⟨-, hpeer, -, -, -, hv⟩ := Solana.oneSubmission_open
    rw [Solana.confirmedFirst_eq]
    refine ⟨⟨_, hv, rfl⟩, hpeer, Solana.theProof_decodes, fun s' hs' => ?_⟩
    obtain ⟨-, proof, intent, vault, hd, -⟩ := Solana.lzReceive_ok.mp hs'
    have hid : Solana.theId = proof.intentId :=
      congrArg Solana.DecodedProof.intentId (Except.ok.inj (Solana.theProof_decodes.symm.trans hd.decoded))
    have hi : Function.update Solana.oneSubmission.intents Solana.theId _ proof.intentId = some intent := hd.hasIntent
    rw [← hid, Function.update_self, Option.some.injEq] at hi
    have hx := hd.notExecuted
    rw [← hi] at hx
    cases hx

end Bosphor

import Bosphor.CrossChain.System

/-!
# Released and stored

Whether an intent whose escrow was released was stored on Sui. The modules let
the relayer send a proof of any received intent, stored or not, and the origin
releases the escrow on a proof of the committed blob id. So it was if the
relayer sends proofs of committed blob ids for executed intents only
(`released_stored`), and not otherwise.
-/

namespace Bosphor.CrossChain

variable {κ : Type}

/-- A proof of the committed blob id is sent for an executed intent only. -/
def provesExecuted : System κ → Action κ → Prop
  | σ, .sui (.sendProof _ intentId blobId _ _ _) => ∀ (r : Sui.IntentRecord) (b : Bytes 32),
    σ.sui.record intentId = some r → blobId = b.val → r.committedBlobId = Sui.blobNumber b → σ.sui.Executed intentId
  | _, _ => True

/-- The proofs of committed blob ids that were sent are of executed intents. -/
def System.Honest (σ : System κ) : Prop :=
  ∀ m ∈ σ.sui.sent, ∀ (id b : Bytes 32) (e : UInt64) (r : Sui.IntentRecord), m.message = proofWire id b e →
    σ.sui.record id.val = some r → r.committedBlobId = Sui.blobNumber b → σ.sui.Executed id.val

variable {net : Network κ} {σ σ' : System κ} {a : Action κ}

variable [DecidableEq κ]

theorem Step.honest (h : Step net a σ σ') (hs : Sound net σ) (hp : provesExecuted σ a) (hh : σ.Honest) :
    σ'.Honest := by
  have hgrown := h.grown
  cases h with
  | tick | evm | solana => exact hh
  | @sui _ op s' hlinked h =>
    intro m hm id b e r hw hr hb
    rcases (Sui.step_effect h).sent hm with hm | ⟨sender, id', b', e', dstEid, receipt, rfl, hw', record, hr'⟩
    · obtain ⟨id', b', e', r', hw', hr'⟩ := hs.recorded.sent m hm
      obtain ⟨rfl, rfl, rfl⟩ := proofWire_inj (hw.symm.trans hw')
      obtain rfl := Option.some.inj ((hgrown.sui.record _ _ hr').symm.trans hr)
      exact hgrown.sui.executed _ (hh m hm id b e r' hw hr' hb)
    · obtain ⟨rfl, rfl, rfl⟩ := proofWire_inj (hw.symm.trans hw')
      obtain rfl := Option.some.inj ((hgrown.sui.record _ _ hr').symm.trans hr)
      exact hgrown.sui.executed _ (hp record b hr' rfl hb)

theorem Run.honest (h : Run net provesExecuted σ σ') (hs : Sound net σ) (hh : σ.Honest) : Sound net σ' ∧ σ'.Honest :=
  h.keeps (P := fun σ => Sound net σ ∧ σ.Honest)
    (fun _ _ ⟨_, hp, h⟩ hs => ⟨h.sound hs.1, h.honest hs.1 hp hs.2⟩) ⟨hs, hh⟩

/-- In every run that sends proofs of committed blob ids for executed intents only, and in which no two
submissions' ids collide: an intent whose escrow is released was stored on Sui, with the blob id it committed
to. -/
theorem released_stored (h : Reachable net provesExecuted σ) (hinj : Set.InjOn keccak256 σ.preimages) {k : κ}
    {id : Bytes 32} (hr : (σ.origins k).Released id) :
    ∃ m ∈ (σ.origins k).submissions, m.id = id ∧ σ.sui.Executed id.val ∧ ∃ t endEpoch executor,
      ⟨t, .storageExecuted id.val (Sui.blobNumber m.commitment.blobId) endEpoch executor⟩ ∈ σ.sui.log := by
  obtain ⟨σ₀, hstart, hrun⟩ := h
  have hfirst : σ₀.Honest := by
    obtain ⟨publisher, hsui⟩ := hstart.sui
    intro m hm
    rw [hsui] at hm
    cases hm
  obtain ⟨hs, hh⟩ := Run.honest hrun hstart.sound hfirst
  obtain ⟨m, hm, rfl, message, n, hsent, hdec⟩ := (hs.origin k).released hr
  obtain ⟨id, b, e, r, rfl, hrecord⟩ := hs.recorded.sent _ hsent
  obtain ⟨rfl, rfl, -⟩ : id = m.id ∧ b = m.commitment.blobId ∧ e.toNat = n := by
    simpa using (decode_proofWire id b e).2.2.symm.trans hdec
  obtain ⟨j, m', hm', p, -, -, -, -, hid, rfl⟩ := hs.origin_of_record hrecord
  obtain ⟨hc, -⟩ := hs.same_commitment hinj hm' hm (Subtype.ext hid.symm)
  have hcommitted : (Sui.recordOf p m'.commitment).committedBlobId = Sui.blobNumber m.commitment.blobId := by
    rw [hc]
    rfl
  have hx := hh _ hsent m.id m.commitment.blobId e _ rfl hrecord hcommitted
  obtain ⟨t, blobId, endEpoch, executor, hlog⟩ := hs.recorded.executed _ hx
  obtain ⟨-, r, hr, hblob, -⟩ := hs.recorded.stored t _ _ _ _ hlog
  obtain rfl := Option.some.inj (hrecord.symm.trans hr)
  rw [hblob, hcommitted] at hlog
  exact ⟨m, hm, rfl, hx, t, endEpoch, executor, hlog⟩

/-! ## A proof without a store, and one with it -/

/-- The relayer's proof of the intent, in the state `t` of Sui. -/
def exampleProved (t : Sui.State) : Sui.State :=
  Sui.proofSent 5000 t.receiver.relayer Evm.theSubmission.id exampleCommitment.blobId 3 40
    (Evm.toBytes32 (Evm.accountOf 1)) ⟨Bytes.zero 32, 1, 0⟩ t

/-- The first deployment, when it has accepted the proof. -/
def exampleReleased : Evm.State :=
  Evm.proven 5 0 Evm.theProof Evm.theSubmission.id exampleCommitment.blobId 3 Evm.oneSubmission

/-- The intent is received on Sui as `t` has it, and a proof of it is sent and accepted. -/
def exampleSettled (t : Sui.State) : System Bool :=
  ⟨5000, exampleOrigins exampleReleased Evm.peered, exampleProved t⟩

theorem exampleReleased_step :
    Evm.step (5, .mk (.lzReceive (Evm.accountOf 2) 0 Evm.theProof) [] []) Evm.oneSubmission = .ok exampleReleased := by
  obtain ⟨-, hi, hx, he⟩ := Evm.oneSubmission_pending
  have hsender : Evm.accountOf 2 = Evm.oneSubmission.endpoint := by
    rw [Evm.oneSubmission_eq]
    rfl
  have hpeer : Evm.oneSubmission.peers 30 = Evm.toBytes32 (Evm.accountOf 6) := by
    rw [Evm.oneSubmission_eq]
    rfl
  have hcommitted : exampleCommitment.blobId = Evm.oneSubmission.committedBlobId Evm.theSubmission.id := by
    rw [Evm.oneSubmission_eq]
    have hupdate : (Evm.submitted 5 (Evm.accountOf 7) 9 2 30 exampleCommitment Evm.peered).committedBlobId
        Evm.theSubmission.id = exampleCommitment.blobId := Function.update_self _ _ _
    exact hupdate.symm
  have hbalance : Evm.oneSubmission.balance + 0 < Evm.uint256Size := by
    rw [Evm.oneSubmission_eq]
    decide
  have hcredit : Evm.oneSubmission.withdrawableOf (Evm.oneSubmission.escrows Evm.theSubmission.id).token
      Evm.oneSubmission.trustedRelayer + (Evm.oneSubmission.escrows Evm.theSubmission.id).amount <
        Evm.uint256Size := by
    rw [he, Evm.oneSubmission_eq]
    decide
  exact Evm.lzReceive_ok.mpr ⟨hsender, _, _, _, Evm.theProof_decodes,
    ⟨hpeer, by decide, hcommitted, hi, hx, by rw [he], hbalance, hcredit⟩, rfl⟩

/-- From a state in which Sui has received the intent, it can be proved and its escrow released. -/
theorem exampleSettled_run {p : System Bool → Action Bool → Prop} {σ₀ : System Bool} {t : Sui.State}
    (h : Run exampleNetwork p σ₀ ⟨5000, exampleOrigins Evm.oneSubmission Evm.peered, t⟩)
    (hrecord : t.record Evm.theSubmission.id.val = some (Sui.recordOf examplePacket exampleCommitment))
    (hpeer : t.peers 40 = some (Evm.toBytes32 (Evm.accountOf 1)))
    (hprove : p ⟨5000, exampleOrigins Evm.oneSubmission Evm.peered, t⟩
      (.sui (.sendProof t.receiver.relayer Evm.theSubmission.id.val exampleCommitment.blobId.val 3 40
        (some ⟨Bytes.zero 32, 1, 0⟩))))
    (hdeliver : ∀ σ call, p σ (.evm false call)) : Run exampleNetwork p σ₀ (exampleSettled t) := by
  have hsend : Step exampleNetwork
      (.sui (.sendProof t.receiver.relayer Evm.theSubmission.id.val exampleCommitment.blobId.val 3 40
        (some ⟨Bytes.zero 32, 1, 0⟩)))
      ⟨5000, exampleOrigins Evm.oneSubmission Evm.peered, t⟩
      ⟨5000, exampleOrigins Evm.oneSubmission Evm.peered, exampleProved t⟩ := by
    refine .sui trivial ?_
    rw [Sui.step, exampleProved]
    exact Sui.sendProof_ok.mpr ⟨rfl, _, _, _, _, _, rfl, rfl, rfl, hrecord, hpeer, rfl⟩
  have hsettle : Step exampleNetwork (.evm false (.mk (.lzReceive (Evm.accountOf 2) 0 Evm.theProof) [] []))
      ⟨5000, exampleOrigins Evm.oneSubmission Evm.peered, exampleProved t⟩ (exampleSettled t) :=
    step_first (fun _ _ _ => List.mem_append_right _ (List.mem_singleton_self _)) exampleReleased_step
  exact (h.tail ⟨_, hprove, hsend⟩).tail ⟨_, hdeliver _ _, hsettle⟩

theorem exampleReleased_released (t : Sui.State) :
    ((exampleSettled t).origins false).Released Evm.theSubmission.id := by
  have he : exampleReleased.escrows Evm.theSubmission.id =
      { Evm.oneSubmission.escrows Evm.theSubmission.id with status := .released } := Function.update_self _ _ _
  exact congrArg Evm.Escrow.status he

/-- An escrow can be released without a store. -/
theorem released_unstored :
    ¬ ∀ σ, Reachable exampleNetwork anyAction σ → ∀ k id, (σ.origins k).Released id → σ.sui.Executed id.val := by
  intro h
  have hrun : Run exampleNetwork anyAction exampleStart exampleSystem := exampleSystem_run.mono fun _ _ _ => trivial
  have hrecord : exampleReceived.record Evm.theSubmission.id.val =
      some (Sui.recordOf examplePacket exampleCommitment) :=
    Function.update_self _ _ _
  have hsettled := exampleSettled_run hrun hrecord rfl trivial fun _ _ => trivial
  exact h _ ⟨exampleStart, exampleStart_start, hsettled⟩ false _ (exampleReleased_released exampleReceived) rfl

theorem exampleSettled_preimages (t : Sui.State) : (exampleSettled t).preimages ⊆ {exampleSubmission.preimage} := by
  have hsub : exampleReleased.submissions = [Evm.theSubmission] := by
    rw [Evm.submissions_append Evm.oneSubmission exampleReleased (Evm.proven_log _ _ _ _ _ _ _), Evm.oneSubmission_eq]
    rfl
  rintro p ⟨k, m, hm, rfl⟩
  cases k with
  | true => cases hm
  | false =>
    have hm : m ∈ (Origin.evm exampleReleased).submissions := hm
    rw [Origin.submissions, hsub] at hm
    obtain ⟨n, hn, rfl⟩ := List.mem_map.mp hm
    rw [List.mem_singleton.mp hn]
    rfl

/-- An intent that is stored, proved and released. -/
theorem released_stored_once : ∃ t endEpoch executor,
    ⟨t, .storageExecuted Evm.theSubmission.id.val (Sui.blobNumber exampleCommitment.blobId) endEpoch executor⟩ ∈
      (exampleSettled exampleStored).sui.log := by
  have hreceived : Run exampleNetwork provesExecuted exampleStart exampleSystem := by
    refine exampleSystem_run.mono fun σ a ha => ?_
    cases a with
    | sui op =>
      cases op with
      | sendProof => exact ha.elim
      | _ => exact trivial
    | _ => exact trivial
  have hstored := hreceived.tail ⟨_, by exact trivial, exampleStored_step⟩
  have hrecord : exampleStored.record Evm.theSubmission.id.val =
      some (Sui.recordOf examplePacket exampleCommitment) := Function.update_self _ _ _
  have hsettled := exampleSettled_run hstored hrecord rfl
    (fun _ _ _ _ _ => Sui.executed_update.mpr (Or.inl rfl)) fun _ _ => trivial
  have hsubset := exampleSettled_preimages exampleStored
  obtain ⟨m, hm, hid, -, hlog⟩ := released_stored ⟨exampleStart, exampleStart_start, hsettled⟩
    ((Set.injOn_singleton _ _).mono hsubset) (exampleReleased_released exampleStored)
  have hpre : m.preimage = exampleSubmission.preimage := hsubset ⟨false, m, hm, rfl⟩
  have hlen : ∀ a : Bytes 32, a.val.length ≤ senderLen := fun a => Nat.le_of_eq a.property
  rwa [(preimage_inj (hlen _) (hlen _) hpre).1] at hlog

end Bosphor.CrossChain

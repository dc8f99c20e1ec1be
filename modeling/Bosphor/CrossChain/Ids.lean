import Bosphor.CrossChain.System

/-!
# Intent ids across origins

An id is the hash of the commitment, the padded sender and the nonce, of
neither the chain nor the deployment. One deployment never accepts two
submissions of one id; two deployments do exactly when one sender makes one
commitment at one nonce on both (`ids_differ`), and then Sui takes only the
first message.
-/

namespace Bosphor.CrossChain

variable {κ : Type}

/-- No two deployments accepted one commitment of one sender at one nonce. -/
def System.Disjoint (σ : System κ) : Prop :=
  ∀ j k, ∀ m ∈ (σ.origins j).submissions, ∀ n ∈ (σ.origins k).submissions,
    m.commitment = n.commitment → m.sender = n.sender → m.nonce = n.nonce → j = k

/-- Sui has not accepted the packet's message of the packet's sender. -/
def System.FirstDelivery (σ : System κ) (packet : Sui.Packet) : Prop :=
  ∀ q ∈ σ.sui.delivered, q.srcEid = packet.srcEid → q.sender = packet.sender → q.message ≠ packet.message

variable {net : Network κ} {σ : System κ}

/-- A message that comes for the first time is refused as received only if it has the id of another
deployment's submission. -/
theorem Sound.not_already (h : Sound net σ) (hinj : Set.InjOn keccak256 σ.preimages) (hdisjoint : σ.Disjoint)
    {sender : Sui.Address} {fromEndpoint : Bool} {packet : Sui.Packet} {value : Option Nat}
    (hlinked : SuiLinked net σ (.lzReceive sender fromEndpoint packet value)) (hfirst : σ.FirstDelivery packet) :
    Sui.step (σ.now, .lzReceive sender fromEndpoint packet value) σ.sui ≠ .error Sui.EIntentAlreadyReceived := by
  intro hstep
  obtain ⟨rfl, hpeer, id, c, hm, r, hr⟩ := Sui.lzReceive_already.mp hstep
  obtain ⟨k, heid, haddress⟩ := h.peers _ _ hpeer
  obtain ⟨-, -, m, hmem, hmessage⟩ := (h.origin k).sends (hlinked rfl k heid haddress)
  obtain ⟨rfl, rfl⟩ := Sui.message_inj (hm.symm.trans hmessage)
  obtain ⟨j, n, hn, q, hq, hqeid, hqsender, hqmessage, hid, -⟩ := h.origin_of_record hr
  have hid : m.id = n.id := Subtype.ext hid
  obtain ⟨hc, hs, hnonce⟩ := h.same_commitment hinj hmem hn hid
  obtain rfl := hdisjoint k j m hmem n hn hc hs hnonce
  obtain rfl := (h.origin k).unique hmem hn hid
  exact hfirst q hq (hqeid.trans heid.symm) (hqsender.trans haddress.symm) (hqmessage.trans hmessage.symm)

variable [DecidableEq κ]

/-- In every reachable state, the submissions one deployment accepted have different ids. If `keccak256` is
injective on what was hashed, two submissions on any deployments have one id if and only if they are one
commitment of one sender at one nonce; and if no two deployments accepted such a pair, Sui refuses no message
as received that it has not accepted before. -/
theorem ids_differ (h : Reachable net anyAction σ) :
    (∀ k, ((σ.origins k).submissions.map (·.id)).Nodup) ∧
    (Set.InjOn keccak256 σ.preimages →
      (∀ j k, ∀ m ∈ (σ.origins j).submissions, ∀ n ∈ (σ.origins k).submissions,
        m.id = n.id ↔ m.commitment = n.commitment ∧ m.sender = n.sender ∧ m.nonce = n.nonce) ∧
      (σ.Disjoint → ∀ sender fromEndpoint packet value,
        SuiLinked net σ (.lzReceive sender fromEndpoint packet value) → σ.FirstDelivery packet →
        Sui.step (σ.now, .lzReceive sender fromEndpoint packet value) σ.sui ≠
          .error Sui.EIntentAlreadyReceived)) := by
  have hs := h.sound
  refine ⟨fun k => (hs.origin k).nodup, fun hinj => ⟨fun j k m hm n hn => ⟨hs.same_commitment hinj hm hn, ?_⟩, ?_⟩⟩
  · intro ⟨hc, hsender, hnonce⟩
    rw [(hs.origin j).id_eq m hm, (hs.origin k).id_eq n hn, Submission.preimage, Submission.preimage, hc, hsender,
      hnonce]
  · exact fun hdisjoint _ _ _ _ hlinked hfirst => hs.not_already hinj hdisjoint hlinked hfirst

/-! ## One commitment on two chains -/

theorem oneSubmission_submissions : (Origin.evm Evm.oneSubmission).submissions = [exampleSubmission] := by
  have hsub : Evm.oneSubmission.submissions = [Evm.theSubmission] := by
    rw [Evm.oneSubmission_eq]
    rfl
  rw [Origin.submissions, hsub]
  rfl

/-- The same commitment of another sender, on the second deployment. -/
def otherSubmission : Submission :=
  ⟨Evm.submissionId exampleCommitment (Evm.accountOf 8) 0, Evm.toBytes32 (Evm.accountOf 8), 30, exampleCommitment, 0⟩

/-- The deployment once it has accepted that. -/
def otherSubmitted : Evm.State := Evm.submitted 5 (Evm.accountOf 8) 9 2 30 exampleCommitment Evm.peered

/-- Each deployment accepted a submission, and Sui the first one's message. -/
def bothSubmitted : System Bool := ⟨5000, exampleOrigins Evm.oneSubmission otherSubmitted, exampleReceived⟩

/-- The packet that brings the second one's. -/
def otherPacket : Sui.Packet :=
  { examplePacket with srcEid := 41, message := otherSubmission.id.val ++ exampleCommitment.wire }

theorem otherSubmitted_submissions : (Origin.evm otherSubmitted).submissions = [otherSubmission] := by
  have hsub : otherSubmitted.submissions =
      [⟨otherSubmission.id, Evm.accountOf 8, 30, exampleCommitment, 0⟩] := rfl
  rw [Origin.submissions, hsub]
  rfl

theorem bothSubmitted_run : Run exampleNetwork anyAction exampleStart bothSubmitted := by
  have hrun : Run exampleNetwork anyAction exampleStart exampleSystem := exampleSystem_run.mono fun _ _ _ => trivial
  have hstep : Evm.step (5, .mk (.submitIntent (Evm.accountOf 8) 9 30 exampleCommitment (some 2) true) [] [])
      Evm.peered = .ok otherSubmitted :=
    Evm.submitIntent_ok.mpr ⟨2, rfl, rfl, ⟨by decide, by decide, by decide, by decide, by decide⟩, rfl, rfl, rfl⟩
  have hsecond : Step exampleNetwork
      (.evm true (.mk (.submitIntent (Evm.accountOf 8) 9 30 exampleCommitment (some 2) true) [] []))
      exampleSystem bothSubmitted :=
    step_second trivial hstep
  exact hrun.tail ⟨_, trivial, hsecond⟩

theorem otherPacket_linked : SuiLinked exampleNetwork bothSubmitted
    (.lzReceive (Bytes.zero 32) true otherPacket none) := by
  intro _ k heid _
  cases k with
  | false => exact absurd heid (by decide)
  | true =>
    change _ ∈ otherSubmitted.sent
    exact List.mem_singleton_self _

/-- Two senders make one commitment at one nonce on two deployments: the ids differ, and Sui, which has the first
one's message, does not refuse the other's as received. -/
theorem ids_differ_two : exampleSubmission.id ≠ otherSubmission.id ∧
    Sui.step (5000, .lzReceive (Bytes.zero 32) true otherPacket none) exampleReceived ≠
      .error Sui.EIntentAlreadyReceived := by
  have honly : ∀ k, ∀ m ∈ (bothSubmitted.origins k).submissions,
      k = false ∧ m = exampleSubmission ∨ k = true ∧ m = otherSubmission := by
    intro k m hm
    cases k with
    | false => exact Or.inl ⟨rfl, List.mem_singleton.mp (oneSubmission_submissions ▸ hm)⟩
    | true => exact Or.inr ⟨rfl, List.mem_singleton.mp (otherSubmitted_submissions ▸ hm)⟩
  have hfirst : exampleSubmission ∈ (bothSubmitted.origins false).submissions :=
    oneSubmission_submissions ▸ List.mem_singleton_self exampleSubmission
  have hother : otherSubmission ∈ (bothSubmitted.origins true).submissions :=
    otherSubmitted_submissions ▸ List.mem_singleton_self otherSubmission
  have hsenders : exampleSubmission.sender ≠ otherSubmission.sender := by decide
  have hinj : Set.InjOn keccak256 bothSubmitted.preimages := by
    have hhash : keccak256 exampleSubmission.preimage ≠ keccak256 otherSubmission.preimage := by decide +kernel
    rintro _ ⟨j, m, hm, rfl⟩ _ ⟨k, n, hn, rfl⟩ hsame
    obtain ⟨-, rfl⟩ | ⟨-, rfl⟩ := honly j m hm <;> obtain ⟨-, rfl⟩ | ⟨-, rfl⟩ := honly k n hn
    · rfl
    · exact absurd hsame hhash
    · exact absurd hsame hhash.symm
    · rfl
  have hdisjoint : bothSubmitted.Disjoint := by
    intro j k m hm n hn _ hsender _
    obtain ⟨rfl, rfl⟩ | ⟨rfl, rfl⟩ := honly j m hm <;> obtain ⟨rfl, rfl⟩ | ⟨rfl, rfl⟩ := honly k n hn
    · rfl
    · exact absurd hsender hsenders
    · exact absurd hsender hsenders.symm
    · rfl
  obtain ⟨hids, hdelivers⟩ := (ids_differ ⟨exampleStart, exampleStart_start, bothSubmitted_run⟩).2 hinj
  refine ⟨fun hid => hsenders ((hids _ _ _ hfirst _ hother).mp hid).2.1,
    hdelivers hdisjoint _ _ _ _ otherPacket_linked fun q hq heid => ?_⟩
  rw [List.mem_singleton.mp hq] at heid
  exact absurd heid (by decide)

/-- Both deployments accept the submission, and Sui the first one's message. -/
def submittedTwice : System Bool := ⟨5000, exampleOrigins Evm.oneSubmission Evm.oneSubmission, exampleReceived⟩

/-- The packet that brings the second deployment's submission. -/
def secondPacket : Sui.Packet := { examplePacket with srcEid := 41 }

/-- Two deployments accept one commitment of one sender at one nonce: the ids are equal, of one preimage, and
Sui refuses the second message, though it comes for the first time. -/
theorem ids_collide :
    ∃ σ, Reachable exampleNetwork anyAction σ ∧ Set.InjOn keccak256 σ.preimages ∧
      (∃ m ∈ (σ.origins false).submissions, ∃ n ∈ (σ.origins true).submissions, m.id = n.id) ∧
      SuiLinked exampleNetwork σ (.lzReceive (Bytes.zero 32) true secondPacket none) ∧
      σ.FirstDelivery secondPacket ∧
      Sui.step (σ.now, .lzReceive (Bytes.zero 32) true secondPacket none) σ.sui =
        .error Sui.EIntentAlreadyReceived := by
  have hmem : exampleSubmission ∈ (Origin.evm Evm.oneSubmission).submissions := by
    rw [oneSubmission_submissions]
    exact List.mem_singleton_self _
  refine ⟨submittedTwice, ⟨exampleStart, exampleStart_start, ?_⟩, ?_,
    ⟨exampleSubmission, hmem, exampleSubmission, hmem, rfl⟩, ?_, ?_, ?_⟩
  · have hrun : Run exampleNetwork anyAction exampleStart exampleSystem := exampleSystem_run.mono fun _ _ _ => trivial
    have hsecond : Step exampleNetwork
        (.evm true (.mk (.submitIntent (Evm.accountOf 7) 9 30 exampleCommitment (some 2) true) [] []))
        exampleSystem submittedTwice :=
      step_second trivial oneSubmission_step
    exact hrun.tail ⟨_, trivial, hsecond⟩
  · have honly : ∀ k, ∀ m ∈ (submittedTwice.origins k).submissions, m = exampleSubmission := by
      intro k m hm
      cases k <;> exact List.mem_singleton.mp (oneSubmission_submissions ▸ hm)
    rintro _ ⟨j, m, hm, rfl⟩ _ ⟨k, n, hn, rfl⟩ -
    rw [honly j m hm, honly k n hn]
  · intro _ k heid _
    cases k with
    | false => exact absurd heid (by decide)
    | true =>
      change _ ∈ Evm.oneSubmission.sent
      rw [Evm.oneSubmission_eq]
      exact List.mem_singleton_self _
  · intro q hq heid
    rw [List.mem_singleton.mp hq] at heid
    exact absurd heid (by decide)
  · have hrecord : exampleReceived.receiver.receivedIntents Evm.theSubmission.id.val =
        some (Sui.recordOf examplePacket exampleCommitment) := Function.update_self _ _ _
    rw [Sui.step]
    exact Sui.lzReceive_already.mpr ⟨rfl, rfl, Evm.theSubmission.id, exampleCommitment, rfl, _, hrecord⟩

end Bosphor.CrossChain

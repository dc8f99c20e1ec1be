import Bosphor.CrossChain.Origin
import Bosphor.Delivery
import Bosphor.Sui.Records

/-!
# The whole system

Any number of origin deployments and the modules on Sui, one clock, and the
LayerZero messages between them, which arrive in any order, any time later, or
never.

* `Step`: one action of one party, or the clock moving on;
* `Reachable.sound`: in every reachable state each party's records agree, and
  what a party accepted the other had sent.

What is assumed of LayerZero: an endpoint brings as a message of a peer only
what that peer sent to its receiver. It may bring it more than once. What is
assumed of the operators: they make each other their only peers.
-/

namespace Bosphor.CrossChain

/-- The accounts of the parties: of the modules on Sui, and of each deployment, with its endpoint. -/
structure Network (κ : Type) where
  sui : Peering
  peering : κ → Peering
  endpoint : κ → Evm.Address
  injective : Function.Injective peering

/-- The state of all parties, with the clock in milliseconds. -/
structure System (κ : Type) where
  now : Nat
  origins : κ → Origin
  sui : Sui.State

/-- What can happen next. -/
inductive Action (κ : Type) where
  | tick (ms : Nat)
  | evm (k : κ) (call : Evm.Call)
  | solana (k : κ) (op : Solana.Op)
  | sui (op : Sui.Op)

variable {κ : Type}

/-- The block time, in seconds. -/
def System.seconds (σ : System κ) : Nat := σ.now / 1000

/-- Sui sent a message to the deployment `k`. -/
def System.SentTo (net : Network κ) (σ : System κ) (k : κ) (message : List UInt8) : Prop :=
  ⟨(net.peering k).eid, (net.peering k).address, message⟩ ∈ σ.sui.sent

/-- The deployment `k` sent a message to Sui. -/
def System.SentFrom (net : Network κ) (σ : System κ) (k : κ) (message : List UInt8) : Prop :=
  (σ.origins k).Sends net.sui.eid net.sui.address message

/-- Transactions on Sui that set no other peers than deployments, and bring only genuine messages of these
from the endpoint. -/
def SuiLinked (net : Network κ) (σ : System κ) : Sui.Op → Prop
  | .lzReceive _ fromEndpoint packet _ => fromEndpoint = true →
    ∀ k, packet.srcEid = (net.peering k).eid → packet.sender = (net.peering k).address →
      σ.SentFrom net k packet.message
  | .setPeer isAdmin eid peer =>
    isAdmin = true → ∃ k, eid = (net.peering k).eid ∧ peer = (net.peering k).address
  | _ => True

/-- A deployment at an account, right after its deployment. -/
inductive Origin.Deployed (endpoint : Evm.Address) (address : Bytes 32) : Origin → Prop
  | evm {self owner trustedRelayer : Evm.Address} {tokens : Evm.Address → Evm.TokenAccount} {s : Evm.State}
      (h : Evm.deploy self endpoint owner trustedRelayer tokens = .ok s) (ha : Evm.toBytes32 self = address) :
      Deployed endpoint address (.evm s)
  | solana (bumps : Solana.Key → UInt8) (rent : Nat → Nat) (systemOwned : Solana.Pubkey → Bool)
      (lamports : Solana.Key → Nat) : Deployed endpoint address
        (.solana (Solana.initial bumps rent systemOwned lamports))

/-- Everything deployed, and nothing done. -/
structure Start (net : Network κ) (σ : System κ) : Prop where
  origin : ∀ k, (σ.origins k).Deployed (net.endpoint k) (net.peering k).address
  sui : ∃ publisher, σ.sui = Sui.init σ.now publisher

/-! ## What holds of a system -/

/-- What the ids of all accepted submissions are the hashes of. -/
def System.preimages (σ : System κ) : Set (List UInt8) := {p | ∃ k, ∃ m ∈ (σ.origins k).submissions, p = m.preimage}

/-- Each party's records agree, and what a party accepted the other had sent. -/
structure Sound (net : Network κ) (σ : System κ) : Prop where
  origin : ∀ k, (σ.origins k).Sound (net.endpoint k) net.sui (σ.SentTo net k) σ.seconds
  recorded : Sui.Recorded σ.sui
  peers : ∀ eid peer, σ.sui.peers eid = some peer → ∃ k, eid = (net.peering k).eid ∧ peer = (net.peering k).address
  delivered : ∀ p ∈ σ.sui.delivered, ∃ k, p.srcEid = (net.peering k).eid ∧ p.sender = (net.peering k).address ∧
    σ.SentFrom net k p.message

/-- What happened stays so. -/
structure Grown (σ σ' : System κ) : Prop where
  now : σ.now ≤ σ'.now
  origin : ∀ k, (σ.origins k).Grown (σ'.origins k)
  sui : Sui.Grown σ.sui σ'.sui

variable {net : Network κ} {σ σ' : System κ}

theorem Grown.refl (σ : System κ) : Grown σ σ := ⟨Nat.le_refl _, fun _ => .refl _, .refl _⟩

theorem Grown.trans {σ'' : System κ} (h : Grown σ σ') (h' : Grown σ' σ'') : Grown σ σ'' :=
  ⟨h.now.trans h'.now, fun k => (h.origin k).trans (h'.origin k), h.sui.trans h'.sui⟩

theorem Grown.sentTo (h : Grown σ σ') {k : κ} {message : List UInt8} (hs : σ.SentTo net k message) :
    σ'.SentTo net k message :=
  h.sui.sent _ hs

theorem Grown.sentFrom (h : Grown σ σ') {k : κ} {message : List UInt8} (hs : σ.SentFrom net k message) :
    σ'.SentFrom net k message :=
  (h.origin k).sends _ _ _ hs

theorem Start.sound (h : Start net σ) : Sound net σ := by
  obtain ⟨publisher, hsui⟩ := h.sui
  refine ⟨fun k => ?_, hsui ▸ Sui.init_recorded _ _, fun eid peer hp => ?_, fun p hp => ?_⟩
  · have hd := h.origin k
    generalize σ.origins k = o at hd ⊢
    cases hd with
    | evm hd ha =>
      obtain ⟨-, rfl⟩ := Evm.deploy_ok.mp hd
      exact ⟨⟨_, Evm.initial_recorded _ _ _ _ _⟩, Evm.initial_submissions _ _ _ _ _, Evm.initial_linked _ _ _ _⟩
    | solana => exact ⟨Solana.initial_recorded _ _ _ _, Solana.initial_linked _ _ _ _⟩
  · rw [hsui] at hp
    cases hp
  · rw [hsui] at hp
    cases hp

/-- The submission a record on Sui is of. -/
theorem Sound.origin_of_record {i : List UInt8} {r : Sui.IntentRecord} (h : Sound net σ)
    (hr : σ.sui.record i = some r) :
    ∃ k, ∃ m ∈ (σ.origins k).submissions, ∃ p ∈ σ.sui.delivered, p.srcEid = (net.peering k).eid ∧
      p.sender = (net.peering k).address ∧ p.message = m.message ∧ i = m.id.val ∧ r = Sui.recordOf p m.commitment := by
  obtain ⟨p, hp, id, c, rfl, hm, rfl⟩ := h.recorded.record i r hr
  obtain ⟨k, heid, haddress, hsent⟩ := h.delivered p hp
  obtain ⟨-, -, m, hmem, hmessage⟩ := (h.origin k).sends hsent
  obtain ⟨rfl, rfl⟩ := Sui.message_inj (hm.symm.trans hmessage)
  exact ⟨k, m, hmem, p, hp, heid, haddress, hmessage, rfl, rfl⟩

/-- Submissions of one id are one commitment of one sender at one nonce. -/
theorem Sound.same_commitment (h : Sound net σ) (hinj : Set.InjOn keccak256 σ.preimages) {j k : κ}
    {m n : Submission} (hm : m ∈ (σ.origins j).submissions) (hn : n ∈ (σ.origins k).submissions) (hid : m.id = n.id) :
    m.commitment = n.commitment ∧ m.sender = n.sender ∧ m.nonce = n.nonce := by
  have hpre : m.preimage = n.preimage := by
    refine hinj ⟨j, m, hm, rfl⟩ ⟨k, n, hn, rfl⟩ ?_
    rw [← (h.origin j).id_eq m hm, ← (h.origin k).id_eq n hn, hid]
  have hlen : ∀ a : Bytes 32, a.val.length ≤ senderLen := fun a => Nat.le_of_eq a.property
  obtain ⟨hc, hs, hnonce⟩ := preimage_inj (hlen _) (hlen _) hpre
  rw [padSender_of_length m.sender.property, padSender_of_length n.sender.property] at hs
  exact ⟨hc, Subtype.ext hs, hnonce⟩

/-! ## Actions -/

variable [DecidableEq κ]

/-- One action. -/
inductive Step (net : Network κ) : Action κ → System κ → System κ → Prop
  | tick (σ : System κ) (ms : Nat) : Step net (.tick ms) σ { σ with now := σ.now + ms }
  | evm {σ : System κ} {k : κ} {call : Evm.Call} {s s' : Evm.State} (hk : σ.origins k = .evm s)
      (hlinked : ∀ op ∈ call.ops, Evm.OpLinked (net.endpoint k) net.sui (σ.SentTo net k) op)
      (h : Evm.step (σ.seconds, call) s = .ok s') :
      Step net (.evm k call) σ { σ with origins := Function.update σ.origins k (.evm s') }
  | solana {σ : System κ} {k : κ} {op : Solana.Op} {s s' : Solana.State} (hk : σ.origins k = .solana s)
      (hlinked : Solana.OpLinked net.sui (σ.SentTo net k) op)
      (h : Solana.step ((σ.seconds : Int), op) s = .ok s') :
      Step net (.solana k op) σ { σ with origins := Function.update σ.origins k (.solana s') }
  | sui {σ : System κ} {op : Sui.Op} {s' : Sui.State} (hlinked : SuiLinked net σ op)
      (h : Sui.step (σ.now, op) σ.sui = .ok s') : Step net (.sui op) σ { σ with sui := s' }

/-- Any number of actions, each of which meets `p` in the state it is taken in. -/
abbrev Run (net : Network κ) (p : System κ → Action κ → Prop) : System κ → System κ → Prop :=
  Relation.ReflTransGen fun σ σ' => ∃ a, p σ a ∧ Step net a σ σ'

/-- The states that runs of such actions reach. -/
def Reachable (net : Network κ) (p : System κ → Action κ → Prop) (σ : System κ) : Prop :=
  ∃ σ₀, Start net σ₀ ∧ Run net p σ₀ σ

/-- All actions. -/
abbrev anyAction : System κ → Action κ → Prop := fun _ _ => True

/-! ## What every action keeps -/

variable {a : Action κ}

/-- Changing one deployment. -/
theorem grown_update {k : κ} {o o' : Origin} (hk : σ.origins k = o) (h : o.Grown o') :
    Grown σ { σ with origins := Function.update σ.origins k o' } := by
  refine ⟨Nat.le_refl _, fun j => ?_, .refl _⟩
  change (σ.origins j).Grown (Function.update σ.origins k o' j)
  by_cases hj : j = k
  · subst hj
    rw [Function.update_self, hk]
    exact h
  · rw [Function.update_of_ne hj]
    exact .refl _

theorem Step.grown (h : Step net a σ σ') : Grown σ σ' := by
  cases h with
  | tick ms => exact ⟨Nat.le_add_right _ _, fun _ => .refl _, .refl _⟩
  | evm hk hlinked h => exact grown_update hk (.of_call h)
  | solana hk hlinked h => exact grown_update hk (.of_step h)
  | sui hlinked h => exact ⟨Nat.le_refl _, fun _ => .refl _, (Sui.step_effect h).grown⟩

/-- A deployment changed soundly leaves the system sound. -/
theorem Sound.of_update {k : κ} {o o' : Origin} (hs : Sound net σ) (hk : σ.origins k = o) (hg : o.Grown o')
    (ho : o'.Sound (net.endpoint k) net.sui (σ.SentTo net k) σ.seconds) :
    Sound net { σ with origins := Function.update σ.origins k o' } := by
  have hgrown := grown_update hk hg
  refine ⟨fun j => ?_, hs.recorded, hs.peers, fun p hp => ?_⟩
  · change (Function.update σ.origins k o' j).Sound _ _ _ _
    by_cases hj : j = k
    · subst hj
      rw [Function.update_self]
      exact ho
    · rw [Function.update_of_ne hj]
      exact hs.origin j
  · obtain ⟨j, heid, haddress, hsent⟩ := hs.delivered p hp
    exact ⟨j, heid, haddress, hgrown.sentFrom hsent⟩

theorem Step.sound (h : Step net a σ σ') (hs : Sound net σ) : Sound net σ' := by
  have hgrown := h.grown
  cases h with
  | tick ms =>
    refine ⟨fun k => (hs.origin k).mono (fun _ h => h) ?_, hs.recorded, hs.peers, hs.delivered⟩
    exact Nat.div_le_div_right (Nat.le_add_right _ _)
  | @evm _ k call s s' hk hlinked h =>
    have hsound := hs.origin k
    rw [hk] at hsound
    exact hs.of_update hk (.of_call h) (hsound.of_call hlinked h)
  | @solana _ k op s s' hk hlinked h =>
    have hsound := hs.origin k
    rw [hk] at hsound
    exact hs.of_update hk (.of_step h) (hsound.of_step hlinked h)
  | @sui _ op s' hlinked h =>
    have heffect := Sui.step_effect h
    refine ⟨fun k => (hs.origin k).mono (fun _ => hgrown.sentTo) (Nat.le_refl _), heffect.recorded hs.recorded, ?_, ?_⟩
    · intro eid peer hp
      rcases heffect.peers hp with hp | rfl
      · exact hs.peers eid peer hp
      · exact hlinked rfl
    · intro p hp
      rcases heffect.delivered hp with hp | ⟨hpeer, sender, value, rfl⟩
      · obtain ⟨k, heid, haddress, hsent⟩ := hs.delivered p hp
        exact ⟨k, heid, haddress, hgrown.sentFrom hsent⟩
      · obtain ⟨k, heid, haddress⟩ := hs.peers _ _ hpeer
        exact ⟨k, heid, haddress, hlinked rfl k heid haddress⟩

theorem Run.sound {p : System κ → Action κ → Prop} (h : Run net p σ σ') (hs : Sound net σ) : Sound net σ' :=
  h.keeps (fun _ _ ⟨_, _, h⟩ => h.sound) hs

theorem Run.grown {p : System κ → Action κ → Prop} (h : Run net p σ σ') : Grown σ σ' :=
  h.keeps (P := Grown σ) (fun _ _ ⟨_, _, h⟩ hs => hs.trans h.grown) (.refl σ)

theorem Reachable.sound {p : System κ → Action κ → Prop} (h : Reachable net p σ) : Sound net σ := by
  obtain ⟨σ₀, hstart, hrun⟩ := h
  exact Run.sound hrun hstart.sound

theorem Run.mono {p q : System κ → Action κ → Prop} (hpq : ∀ σ a, p σ a → q σ a) (h : Run net p σ σ') :
    Run net q σ σ' :=
  Relation.ReflTransGen.mono (fun _ _ ⟨a, hp, hs⟩ => ⟨a, hpq _ a hp, hs⟩) _ _ h

/-! ## An example -/

/-- Two EVM deployments at one address of two chains, and Sui. -/
def exampleNetwork : Network Bool where
  sui := ⟨30, Evm.toBytes32 (Evm.accountOf 6)⟩
  peering second := ⟨if second then 41 else 40, Evm.toBytes32 (Evm.accountOf 1)⟩
  endpoint _ := Evm.accountOf 2
  injective j k h := by
    have heid : (if j then 41 else 40 : UInt32) = if k then 41 else 40 := congrArg Peering.eid h
    cases j <;> cases k <;> first | rfl | exact absurd heid (by decide)

/-- The deployments in the states given. -/
def exampleOrigins (first second : Evm.State) : Bool → Origin
  | false => .evm first
  | true => .evm second

theorem exampleOrigins_first (s s' t : Evm.State) :
    Function.update (exampleOrigins s t) false (.evm s') = exampleOrigins s' t := by
  funext k
  cases k <;> rfl

theorem exampleOrigins_second (s t t' : Evm.State) :
    Function.update (exampleOrigins s t) true (.evm t') = exampleOrigins s t' := by
  funext k
  cases k <;> rfl

/-- Everything deployed. -/
def exampleStart : System Bool :=
  ⟨0, exampleOrigins Evm.exampleAdapter Evm.exampleAdapter, Sui.init 0 (Bytes.zero 32)⟩

theorem exampleStart_start : Start exampleNetwork exampleStart where
  origin k := by
    cases k <;> exact .evm Evm.exampleAdapter_deployed rfl
  sui := ⟨_, rfl⟩

/-- No proof is sent. -/
def sendsNoProof {κ : Type} : System κ → Action κ → Prop
  | _, .sui (.sendProof ..) => False
  | _, _ => True

/-- The packet that brings the first deployment's submission. -/
def examplePacket : Sui.Packet :=
  ⟨40, Evm.toBytes32 (Evm.accountOf 1), 1, Bytes.zero 32,
    Evm.theSubmission.id.val ++ exampleCommitment.wire⟩

/-- Sui, with both deployments as its peers. -/
def examplePeered : Sui.State :=
  { Sui.init 0 (Bytes.zero 32) with
    peers := Function.update (Function.update (fun _ => none) 40 (some (Evm.toBytes32 (Evm.accountOf 1)))) 41
      (some (Evm.toBytes32 (Evm.accountOf 1))) }

/-- Sui, when it has accepted the packet. -/
def exampleReceived : Sui.State :=
  Sui.received 5000 (Bytes.zero 32) examplePacket none Evm.theSubmission.id exampleCommitment examplePeered

/-- The first deployment accepted a submission; the second has Sui as its peer. -/
def exampleSubmitted : System Bool := ⟨5000, exampleOrigins Evm.oneSubmission Evm.peered, examplePeered⟩

/-- Sui accepted its message. -/
def exampleSystem : System Bool := ⟨5000, exampleOrigins Evm.oneSubmission Evm.peered, exampleReceived⟩

/-- A call of the first deployment that calls nothing. -/
theorem step_first {now : Nat} {op : Evm.Op} {s s' t : Evm.State} {sui : Sui.State}
    (hlinked : Evm.OpLinked (exampleNetwork.endpoint false) exampleNetwork.sui
      (System.SentTo exampleNetwork ⟨now, exampleOrigins s t, sui⟩ false) op)
    (h : Evm.step (now / 1000, .mk op [] []) s = .ok s') :
    Step exampleNetwork (.evm false (.mk op [] [])) ⟨now, exampleOrigins s t, sui⟩
      ⟨now, exampleOrigins s' t, sui⟩ := by
  rw [← exampleOrigins_first s s' t]
  refine .evm rfl (fun op' hop => ?_) h
  simp only [Evm.Call.ops, Evm.Call.opsList, List.append_nil, List.mem_singleton] at hop
  exact hop ▸ hlinked

/-- A call of the second deployment that calls nothing. -/
theorem step_second {now : Nat} {op : Evm.Op} {s t t' : Evm.State} {sui : Sui.State}
    (hlinked : Evm.OpLinked (exampleNetwork.endpoint true) exampleNetwork.sui
      (System.SentTo exampleNetwork ⟨now, exampleOrigins s t, sui⟩ true) op)
    (h : Evm.step (now / 1000, .mk op [] []) t = .ok t') :
    Step exampleNetwork (.evm true (.mk op [] [])) ⟨now, exampleOrigins s t, sui⟩
      ⟨now, exampleOrigins s t', sui⟩ := by
  rw [← exampleOrigins_second s t t']
  refine .evm rfl (fun op' hop => ?_) h
  simp only [Evm.Call.ops, Evm.Call.opsList, List.append_nil, List.mem_singleton] at hop
  exact hop ▸ hlinked

theorem oneSubmission_step : Evm.step (5, .mk
    (.submitIntent (Evm.accountOf 7) 9 30 exampleCommitment (some 2) true) [] [])
    Evm.peered = .ok Evm.oneSubmission := by
  rw [Evm.oneSubmission_eq]
  exact Evm.submitIntent_ok.mpr ⟨2, rfl, rfl, ⟨by decide, by decide, by decide, by decide, by decide⟩, rfl, rfl, rfl⟩

/-- The endpoint brings the first deployment's message. -/
theorem exampleReceived_step : Sui.step (5000, .lzReceive (Bytes.zero 32) true examplePacket none) examplePeered =
    .ok exampleReceived := by
  have hmessage : examplePacket.message = Evm.theSubmission.id.val ++ exampleCommitment.wire := rfl
  have hnew : examplePeered.receiver.receivedIntents Evm.theSubmission.id.val = none := rfl
  have hpeer : examplePeered.peers examplePacket.srcEid = some examplePacket.sender := rfl
  rw [Sui.step, exampleReceived]
  exact Sui.lzReceive_ok.mpr ⟨rfl, hpeer, _, _, hmessage, hnew, rfl⟩

theorem exampleSubmitted_run : Run exampleNetwork sendsNoProof exampleStart exampleSubmitted := by
  let started : System Bool := { exampleStart with now := 1000 }
  let peered (first second : Evm.State) (sui : Sui.State) : System Bool := ⟨1000, exampleOrigins first second, sui⟩
  have hfirst : Step exampleNetwork
      (.evm false (.mk (.setPeer (Evm.accountOf 3) 30 (Evm.toBytes32 (Evm.accountOf 6))) [] [])) started
      (peered Evm.peered Evm.exampleAdapter exampleStart.sui) :=
    step_first (Or.inr ⟨rfl, rfl⟩) rfl
  have hsecond : Step exampleNetwork
      (.evm true (.mk (.setPeer (Evm.accountOf 3) 30 (Evm.toBytes32 (Evm.accountOf 6))) [] []))
      (peered Evm.peered Evm.exampleAdapter exampleStart.sui) (peered Evm.peered Evm.peered exampleStart.sui) :=
    step_second (Or.inr ⟨rfl, rfl⟩) rfl
  have hsui : Step exampleNetwork (.sui (.setPeer true 40 (Evm.toBytes32 (Evm.accountOf 1))))
      (peered Evm.peered Evm.peered exampleStart.sui) (peered Evm.peered Evm.peered { exampleStart.sui with
        peers := Function.update (fun _ => none) 40 (some (Evm.toBytes32 (Evm.accountOf 1))) }) :=
    .sui (fun _ => ⟨false, rfl, rfl⟩) rfl
  have hsui' : Step exampleNetwork (.sui (.setPeer true 41 (Evm.toBytes32 (Evm.accountOf 1))))
      (peered Evm.peered Evm.peered { exampleStart.sui with
        peers := Function.update (fun _ => none) 40 (some (Evm.toBytes32 (Evm.accountOf 1))) })
      (peered Evm.peered Evm.peered examplePeered) :=
    .sui (fun _ => ⟨true, rfl, rfl⟩) rfl
  have hsubmit : Step exampleNetwork
      (.evm false (.mk (.submitIntent (Evm.accountOf 7) 9 30 exampleCommitment (some 2) true) [] []))
      { peered Evm.peered Evm.peered examplePeered with now := 5000 } exampleSubmitted :=
    step_first trivial oneSubmission_step
  have h₁ : Run exampleNetwork sendsNoProof exampleStart started :=
    .single ⟨.tick 1000, trivial, .tick exampleStart 1000⟩
  have h₂ := ((h₁.tail ⟨_, by exact trivial, hfirst⟩).tail ⟨_, by exact trivial, hsecond⟩).tail
    ⟨_, by exact trivial, hsui⟩
  have h₃ : Run exampleNetwork sendsNoProof exampleStart
      { peered Evm.peered Evm.peered examplePeered with now := 5000 } :=
    (h₂.tail ⟨_, by exact trivial, hsui'⟩).tail ⟨.tick 4000, trivial, .tick _ 4000⟩
  exact h₃.tail ⟨_, by exact trivial, hsubmit⟩

/-- The packet is what the first deployment sent. -/
theorem examplePacket_linked {t : Evm.State} {sui : Sui.State} :
    SuiLinked exampleNetwork ⟨5000, exampleOrigins Evm.oneSubmission t, sui⟩
      (.lzReceive (Bytes.zero 32) true examplePacket none) := by
  intro _ k heid _
  cases k with
  | true => exact absurd heid (by decide)
  | false =>
    change _ ∈ Evm.oneSubmission.sent
    rw [Evm.oneSubmission_eq]
    exact List.mem_singleton_self _

theorem exampleSystem_run : Run exampleNetwork sendsNoProof exampleStart exampleSystem :=
  exampleSubmitted_run.tail ⟨_, by exact trivial, .sui examplePacket_linked exampleReceived_step⟩

/-- A blob of the committed id, certified, that lasts long enough. -/
def exampleBlob : Sui.Blob := ⟨Sui.blobNumber exampleCommitment.blobId, some 1, 10⟩

/-- Sui, when the intent is stored. -/
def exampleStored : Sui.State :=
  Sui.stored 5000 (Bytes.zero 32) Evm.theSubmission.id.val exampleBlob (Bytes.zero 32) exampleReceived

/-- The relayer stores the intent in time. -/
theorem exampleStored_step :
    Step exampleNetwork (.sui (.executeStore (Bytes.zero 32) 1 Evm.theSubmission.id.val exampleBlob (Bytes.zero 32)))
      exampleSystem { exampleSystem with sui := exampleStored } := by
  refine .sui trivial ?_
  have hrecord : exampleReceived.receiver.receivedIntents Evm.theSubmission.id.val =
      some (Sui.recordOf examplePacket exampleCommitment) := Function.update_self _ _ _
  rw [Sui.step, exampleStored]
  exact Sui.executeStore_ok.mpr ⟨rfl, rfl, rfl, _, hrecord, by decide, rfl, by decide, rfl⟩

/-- The first deployment's submission. -/
def exampleSubmission : Submission :=
  ⟨Evm.theSubmission.id, Evm.toBytes32 (Evm.accountOf 7), 30, exampleCommitment, 0⟩

theorem exampleSubmission_mem {s : Evm.State} (t : Evm.State) (h : Evm.theSubmission ∈ s.submissions) :
    exampleSubmission ∈ (exampleOrigins s t false).submissions :=
  List.mem_map.mpr ⟨_, h, rfl⟩

end Bosphor.CrossChain

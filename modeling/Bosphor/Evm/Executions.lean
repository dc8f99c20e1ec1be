import Bosphor.Evm.Submission

/-!
# The proofs of executed intents

An intent becomes executed by a proof received from Sui, whose blob id is
checked, or by a `confirmExecution` of the owner, whose proof bytes are not. Its
`IntentExecuted` event carries the proof, which consumers decode:

* `confirmations`: the confirmations that a call makes, those of the calls made
  while it runs included;
* `Accounted`: every execution has one event, whose proof is that of a received
  message or of an accepted confirmation;
* `run_proofsCommitted_iff`: the proofs carry the committed blob ids as long as
  those of the accepted confirmations do, and only then.
-/

namespace Bosphor.Evm

open Bytes (ofBE toBE)

namespace BosphorProof

inductive Error where
  | invalidProofLength
  deriving DecidableEq

/-- `decode(proof)`. -/
def decode (proof : List UInt8) : Except Error (Bytes 32 × Nat) :=
  if h : proof.length = 64 then
    .ok (⟨Bytes.slice proof 0 32, Bytes.length_slice (by omega)⟩, ofBE (Bytes.slice proof 32 32))
  else .error .invalidProofLength

theorem decode_ok_iff {proof : List UInt8} {blobId : Bytes 32} {endEpoch : Nat} :
    decode proof = .ok (blobId, endEpoch) ↔
      proof.length = 64 ∧ Bytes.slice proof 0 32 = blobId.val ∧ endEpoch = ofBE (Bytes.slice proof 32 32) := by
  by_cases h : proof.length = 64
  · simp only [decode, h, dif_pos, true_and, Except.ok.injEq, Prod.mk.injEq, Subtype.ext_iff]
    exact and_congr_right fun _ => eq_comm
  · simp only [decode, h, dif_neg, not_false_eq_true, reduceCtorEq, false_and]

/-- What is decoded of the bytes that the adapter encodes for a received proof. -/
theorem decode_encode (blobId : Bytes 32) (endEpoch : Nat) :
    decode (blobId.val ++ toBE 32 endEpoch) = .ok (blobId, ofBE (toBE 32 endEpoch)) := by
  have hfirst := Bytes.slice_mid [] blobId.val (toBE 32 endEpoch) 0 32 rfl blobId.property
  have hlast := Bytes.slice_end blobId.val (toBE 32 endEpoch) 32 32 blobId.property (Bytes.length_toBE 32 endEpoch)
  refine decode_ok_iff.mpr ⟨?_, hfirst, by rw [hlast]⟩
  rw [List.length_append, blobId.property, Bytes.length_toBE]

end BosphorProof

/-! ## The events -/

/-- The proof of an execution of `id`. -/
def Event.proofOf (id : IntentId) : Event → Option (List UInt8)
  | .intentExecuted id' proof => if id' = id then some proof else none
  | _ => none

/-- The proofs of the `IntentExecuted` events of `id`, oldest first. -/
def State.executions (s : State) (id : IntentId) : List (List UInt8) := s.log.filterMap fun x => x.event.proofOf id

theorem executions_append {s s' : State} {l : List Entry} (h : s'.log = s.log ++ l) (id : IntentId) :
    s'.executions id = s.executions id ++ l.filterMap fun x => x.event.proofOf id := by
  rw [State.executions, h, List.filterMap_append]
  rfl

/-- Events that execute nothing. -/
theorem executions_same {s s' : State} {l : List Entry} (h : s'.log = s.log ++ l)
    (hn : ∀ x ∈ l, ∀ id, x.event.proofOf id = none) (id : IntentId) : s'.executions id = s.executions id := by
  rw [executions_append h, List.filterMap_eq_nil_iff.mpr fun x hx => hn x hx id, List.append_nil]

/-! ## The confirmations -/

/-- An accepted `confirmExecution`, and the blob id that is committed for its intent. -/
structure Confirmation where
  intentId : IntentId
  proof : List UInt8
  committedBlobId : Bytes 32
  deriving DecidableEq

/-- The proof is two words, the first of which is the committed blob id. -/
def Confirmation.Carries (x : Confirmation) : Prop :=
  x.proof.length = 64 ∧ Bytes.slice x.proof 0 32 = x.committedBlobId.val

instance (x : Confirmation) : Decidable x.Carries := inferInstanceAs (Decidable (_ ∧ _))

mutual

/-- The confirmations that a call makes, those of the calls made while it runs included. A call that reverts makes
none. -/
def confirmations (now : Nat) : Call → State → Except Revert (List Confirmation)
  | .mk op before after, s => do
    let _ ← call now (.mk op before after) s
    match op with
    | .confirmExecution _ intentId proof => return [⟨intentId, proof, s.committedBlobId intentId⟩]
    | .depositUsdcWithPermit2 _ _ _ token amount left ok => do
      let t ← pullToken token amount left ok (reenter now before s)
      return reentered now before s ++ reentered now after t
    | .withdraw sender ok => do
      let (t, _) ← beginWithdraw sender ok s
      return reentered now after t
    | .withdrawToken sender token left ok => do
      let (t, amount) ← beginWithdrawToken sender token s
      let u ← payToken token amount left ok (reenter now before t)
      return reentered now before t ++ reentered now after u
    | _ => return []

/-- The confirmations of the calls that outside code makes. -/
def reentered (now : Nat) : List Call → State → List Confirmation
  | [], _ => []
  | c :: cs, s => (confirmations now c s).toOption.getD [] ++ reentered now cs (reenter now [c] s)

end

/-- The confirmations of a run. -/
def confirmationsOf (s : State) : List (Nat × Call) → List Confirmation
  | [] => []
  | a :: as => (confirmations a.1 a.2 s).toOption.getD [] ++ confirmationsOf (Machine.next step s a) as

/-- An operation other than a confirmation. -/
def Op.Unconfirming (op : Op) : Prop := ∀ sender id proof, op ≠ .confirmExecution sender id proof

/-- Such an operation makes no confirmation, if nothing is called while it runs. -/
theorem confirmations_none (now : Nat) {op : Op} (h : op.Unconfirming) (s : State) :
    (confirmations now (.mk op [] []) s).toOption.getD [] = [] := by
  cases hc : confirmations now (.mk op [] []) s with
  | error e => rfl
  | ok ys =>
    show ys = []
    cases op <;> simp only [confirmations, reentered, Result.bind_ok, Result.pure_ok] at hc
    case confirmExecution sender id proof => exact absurd rfl (h sender id proof)
    all_goals grind

/-! ## Every execution is accounted for -/

/-- An execution of `id` that carries `proof` comes from a confirmation or from a received message. -/
def Sourced (xs : List Confirmation) (s : State) (id : IntentId) (proof : List UInt8) : Prop :=
  (∃ x ∈ xs, x.intentId = id ∧ x.proof = proof) ∨ ∃ endEpoch, proof = (s.committedBlobId id).val ++ toBE 32 endEpoch

/-- The events of executions, after the confirmations `xs`. -/
structure Accounted (xs : List Confirmation) (s : State) : Prop where
  once : ∀ id, (s.executions id).length = (s.executed id).toNat
  sourced : ∀ id, ∀ proof ∈ s.executions id, s.intents id = true ∧ Sourced xs s id proof
  confirmed : ∀ x ∈ xs, s.intents x.intentId = true ∧ s.committedBlobId x.intentId = x.committedBlobId ∧
    x.proof ∈ s.executions x.intentId

namespace Accounted

variable {xs : List Confirmation} {s s' : State} {id : IntentId}

/-- Nothing is executed, and the commitments stay. -/
theorem of_neutral {l : List Entry} (h : Accounted xs s) (hl : s'.log = s.log ++ l)
    (hn : ∀ x ∈ l, ∀ id, x.event.proofOf id = none) (hx : s'.executed = s.executed) (hi : s'.intents = s.intents)
    (hb : s'.committedBlobId = s.committedBlobId) : Accounted xs s' where
  once id := by rw [executions_same hl hn, hx, h.once]
  sourced id proof hp := by
    rw [executions_same hl hn] at hp
    rw [hi, Sourced, hb]
    exact h.sourced id proof hp
  confirmed x hm := by
    rw [executions_same hl hn, hi, hb]
    exact h.confirmed x hm

/-- A submission commits to the blob of an id that was not submitted. -/
theorem submitted {now value nativeFee : Nat} {sender : Address} {dstEid : UInt32} {c : Commitment}
    (h : Accounted xs s) (hnew : s.intents (s.nextId sender c) = false) :
    Accounted xs (submitted now sender value nativeFee dstEid c s) := by
  have hsame : ∀ id, (Evm.submitted now sender value nativeFee dstEid c s).executions id = s.executions id :=
    executions_same rfl (by simp [Event.proofOf])
  have hother : ∀ id, s.intents id = true → id ≠ s.nextId sender c := by
    rintro id hi rfl
    rw [hi] at hnew
    cases hnew
  have hintents : ∀ id, s.intents id = true → (Evm.submitted now sender value nativeFee dstEid c s).intents id = true :=
    fun id hi => (Function.update_of_ne (hother id hi) _ _).trans hi
  have hblob : ∀ id, s.intents id = true →
      (Evm.submitted now sender value nativeFee dstEid c s).committedBlobId id = s.committedBlobId id :=
    fun id hi => Function.update_of_ne (hother id hi) _ _
  refine ⟨fun id => ?_, fun id proof hp => ?_, fun x hm => ?_⟩
  · rw [hsame]
    exact h.once id
  · rw [hsame] at hp
    obtain ⟨hi, hs⟩ := h.sourced id proof hp
    rw [Sourced, hblob id hi]
    exact ⟨hintents id hi, hs⟩
  · obtain ⟨hi, hb, hp⟩ := h.confirmed x hm
    rw [hsame, hblob _ hi]
    exact ⟨hintents _ hi, hb, hp⟩

/-- An execution of a submitted intent, which was not executed. -/
theorem executed {ys : List Confirmation} {proof : List UInt8} {l : List Entry} (h : Accounted xs s)
    (hl : s'.log = s.log ++ l)
    (hproof : ∀ id', l.filterMap (fun x => x.event.proofOf id') = if id = id' then [proof] else [])
    (hx : s'.executed = Function.update s.executed id true) (hi : s'.intents = s.intents)
    (hb : s'.committedBlobId = s.committedBlobId) (hsubmitted : s.intents id = true) (hnew : s.executed id = false)
    (hsource : Sourced ys s id proof)
    (hys : ∀ y ∈ ys, y.intentId = id ∧ y.proof = proof ∧ s.committedBlobId id = y.committedBlobId) :
    Accounted (xs ++ ys) s' := by
  have hlog : ∀ id', s'.executions id' = s.executions id' ++ if id = id' then [proof] else [] :=
    fun id' => (executions_append hl id').trans (by rw [hproof])
  refine ⟨fun id' => ?_, fun id' p hp => ?_, fun y hy => ?_⟩
  · by_cases he : id = id'
    · subst he
      rw [hlog, if_pos rfl, hx, Function.update_self, List.length_append, h.once, hnew]
      rfl
    · rw [hlog, if_neg he, hx, Function.update_of_ne (Ne.symm he), List.append_nil, h.once]
  · rw [hlog] at hp
    rw [hi, Sourced, hb]
    rcases List.mem_append.mp hp with hp | hp
    · obtain ⟨hi, hs⟩ := h.sourced id' p hp
      exact ⟨hi, hs.imp_left fun ⟨x, hm, hx⟩ => ⟨x, List.mem_append_left _ hm, hx⟩⟩
    · by_cases he : id = id'
      · subst he
        rw [if_pos rfl] at hp
        rw [List.mem_singleton.mp hp]
        exact ⟨hsubmitted, hsource.imp_left fun ⟨y, hm, hy⟩ => ⟨y, List.mem_append_right _ hm, hy⟩⟩
      · rw [if_neg he] at hp
        cases hp
  · rw [hi, hb, hlog]
    rcases List.mem_append.mp hy with hy | hy
    · obtain ⟨hi, hb, hp⟩ := h.confirmed y hy
      exact ⟨hi, hb, List.mem_append_left _ hp⟩
    · obtain ⟨rfl, rfl, hb⟩ := hys y hy
      refine ⟨hsubmitted, hb, List.mem_append_right _ ?_⟩
      rw [if_pos rfl]
      exact List.mem_singleton_self _

/-- What holds of the confirmations made so far holds when they are counted in another way. -/
theorem of_nil (h : Accounted (xs ++ []) s) : Accounted xs s := by
  rwa [List.append_nil] at h

end Accounted

/-- The effects of other operations than a confirmation. -/
theorem effect_accounted {now : Nat} {xs : List Confirmation} {p q : State × (Address → Nat)}
    (h : Effect now Op.Unconfirming p q) (hp : Accounted xs p.1) : Accounted xs q.1 := by
  cases h with
  | submit ha h hnew hnone => exact hp.submitted hnew
  | @prove s r value packet id blobId endEpoch ha hdec h =>
    have hnone (proof : List UInt8) : ∀ y ∈ ([] : List Confirmation),
        y.intentId = id ∧ y.proof = proof ∧ s.committedBlobId id = y.committedBlobId := by simp
    refine .of_nil (hp.executed (proven_log now value packet id blobId endEpoch s) (fun id' => ?_) rfl rfl rfl
      h.submitted h.notExecuted (Or.inr ⟨endEpoch, congrArg (·.val ++ _) h.committed⟩) (hnone _))
    by_cases he : id = id'
    · simp [Event.proofOf, he]
    · simp [Event.proofOf, he]
  | confirm ha hi hx => exact absurd rfl (ha _ _ _)
  | refund | setRelayer | setPeer | setOwner | openToken | withdrawn | withdrawnToken =>
    exact hp.of_neutral rfl (by simp [Event.proofOf]) rfl rfl rfl
  | setPermit2 | receive | tokenMoves | pull | withdraw | debitToken | payToken =>
    exact hp.of_neutral (List.append_nil _).symm (by simp) rfl rfl rfl

/-- A confirmation accounts for its own execution. -/
theorem confirmExecution_accounted {now : Nat} {sender : Address} {id : IntentId} {proof : List UInt8}
    {xs : List Confirmation} {s s' : State} (h : confirmExecution now sender id proof s = .ok s')
    (hs : Accounted xs s) : Accounted (xs ++ [⟨id, proof, s.committedBlobId id⟩]) s' := by
  obtain ⟨-, hi, hx, rfl⟩ := confirmExecution_ok.mp h
  refine hs.executed (l := [⟨now, .intentExecuted id proof⟩]) rfl (fun id' => ?_) rfl rfl rfl hi hx
    (Or.inl ⟨_, List.mem_singleton_self _, rfl, rfl⟩) (fun y hy => ?_)
  · by_cases he : id = id'
    · simp [Event.proofOf, he]
    · simp [Event.proofOf, he]
  · rw [List.mem_singleton.mp hy]
    exact ⟨rfl, rfl, rfl⟩

mutual

/-- A call accounts for the executions of its confirmations. -/
theorem call_accounted (now : Nat) : (c : Call) → (xs : List Confirmation) → (s s' : State) →
    (h : call now c s = .ok s') → Accounted xs s →
    ∃ ys, confirmations now c s = .ok ys ∧ Accounted (xs ++ ys) s'
  | .mk op before after, xs, s, s', h, hs => by
    have hcall := h
    have hdirect (hop : op.Unconfirming) (h : direct now op s = .ok s') : Accounted (xs ++ []) s' := by
      rw [List.append_nil]
      exact effect_accounted (direct_effect (r := 0) hop h) hs
    cases op
    case depositUsdcWithPermit2 sender id deadline token amount left ok =>
      simp only [call, Result.bind_ok, pullToken_ok, openTokenEscrow_ok] at h
      obtain ⟨-, -, t, ⟨rfl, ht⟩, htoken, hnone, rfl⟩ := h
      have hop : Op.Unconfirming (.depositUsdcWithPermit2 sender id deadline token amount left true) :=
        fun _ _ _ h => by cases h
      have hpull : Accounted (xs ++ reentered now before s) t := by
        rw [ht]
        exact @effect_accounted now _ (_, 0) _ (.pull token amount left) (reenter_accounted now before xs s hs)
      have hopen := @effect_accounted now _ (_, 0 + Pi.single token amount) _ (.openToken hop htoken hnone)
        (reenter_accounted now after _ t hpull)
      refine ⟨reentered now before s ++ reentered now after t, ?_, ?_⟩
      · simp only [confirmations, Result.bind_ok, Result.pure_ok, pullToken_ok]
        exact ⟨_, hcall, t, ⟨trivial, ht⟩, rfl⟩
      · rw [← List.append_assoc]
        exact hopen
    case withdraw sender ok =>
      simp only [call, Result.bind_ok, Prod.exists, beginWithdraw_ok, Result.pure_ok] at h
      obtain ⟨_, _, ⟨he, hne, rfl, hle, rfl, rfl⟩, rfl⟩ := h
      have hop : Op.Unconfirming (.withdraw sender true) := fun _ _ _ h => by cases h
      have hdraw := @effect_accounted now _ (_, 0) _ (.withdraw hop he hne hle) hs
      refine ⟨reentered now after _, ?_,
        @effect_accounted now _ (_, 0) (_, 0) .withdrawn (reenter_accounted now after _ _ hdraw)⟩
      simp only [confirmations, Result.bind_ok, Prod.exists, Result.pure_ok, beginWithdraw_ok]
      exact ⟨_, hcall, _, _, ⟨he, hne, trivial, hle, rfl, rfl⟩, rfl⟩
    case withdrawToken sender token left ok =>
      simp only [call, Result.bind_ok, Prod.exists, beginWithdrawToken_ok, payToken_ok, Result.pure_ok] at h
      obtain ⟨t, amount, ⟨he, hne, rfl, rfl⟩, u, ⟨rfl, hle, hu⟩, rfl⟩ := h
      have hop : Op.Unconfirming (.withdrawToken sender token left true) := fun _ _ _ h => by cases h
      have hdebit := @effect_accounted now _ (_, 0) _ (.debitToken hop he hne) hs
      have hpay : Accounted (xs ++ reentered now before (s.tokenStruck token sender)) u := by
        rw [hu]
        exact @effect_accounted now _ (_, 0 + Pi.single token (s.withdrawableToken token sender)) _
          (.payToken token _ left hle) (reenter_accounted now before _ _ hdebit)
      refine ⟨reentered now before (s.tokenStruck token sender) ++ reentered now after u, ?_, ?_⟩
      · simp only [confirmations, Result.bind_ok, Prod.exists, Result.pure_ok, beginWithdrawToken_ok, payToken_ok]
        exact ⟨_, hcall, _, _, ⟨he, hne, rfl, rfl⟩, u, ⟨trivial, hle, hu⟩, rfl⟩
      · rw [← List.append_assoc]
        exact @effect_accounted now _ (_, 0) (_, 0) .withdrawnToken (reenter_accounted now after _ u hpay)
    case confirmExecution sender id proof =>
      refine ⟨_, ?_, confirmExecution_accounted h hs⟩
      simp only [confirmations, Result.bind_ok, Result.pure_ok]
      exact ⟨_, hcall, trivial⟩
    all_goals
      refine ⟨[], ?_, hdirect (fun _ _ _ h => by cases h) h⟩
      simp only [confirmations, Result.bind_ok, Result.pure_ok]
      exact ⟨_, hcall, trivial⟩

/-- What outside code calls accounts for the executions of its confirmations. -/
theorem reenter_accounted (now : Nat) : (cs : List Call) → (xs : List Confirmation) → (s : State) →
    Accounted xs s → Accounted (xs ++ reentered now cs s) (reenter now cs s)
  | [], xs, s, hs => by
    rw [reentered, reenter, List.append_nil]
    exact hs
  | c :: cs, xs, s, hs => by
    rw [reentered, reenter, ← List.append_assoc]
    refine reenter_accounted now cs _ _ ?_
    cases h : call now c s with
    | ok s' =>
      obtain ⟨ys, hys, hacc⟩ := call_accounted now c xs s s' h hs
      rw [hys]
      exact hacc
    | error e =>
      obtain ⟨op, before, after⟩ := c
      have hnone : confirmations now (.mk op before after) s = .error e := by
        simp only [confirmations, h, bind, Except.bind]
      rw [hnone]
      exact (List.append_nil xs).symm ▸ hs

end

/-! ## Runs -/

theorem run_accounted {xs : List Confirmation} (as : List (Nat × Call)) {s : State} (h : Accounted xs s) :
    Accounted (xs ++ confirmationsOf s as) (Machine.run step s as) := by
  induction as generalizing xs s with
  | nil =>
    rw [confirmationsOf, List.append_nil]
    exact h
  | cons a as ih =>
    rw [confirmationsOf, ← List.append_assoc, Machine.run_cons]
    refine ih ?_
    have hreenter : reenter a.1 [a.2] s = Machine.next step s a := by
      rcases Machine.next_cases step s a with ⟨s', hs, hn⟩ | ⟨⟨e, he⟩, hn⟩
      · rw [reenter, reenter, hn, show call a.1 a.2 s = .ok s' from hs]
      · rw [reenter, reenter, hn, show call a.1 a.2 s = .error e from he]
    have hacc := reenter_accounted a.1 [a.2] xs s h
    rw [hreenter, reentered, reentered, List.append_nil] at hacc
    exact hacc

theorem initial_accounted (self endpoint owner trustedRelayer : Address) (tokens : Address → TokenAccount) :
    Accounted [] (initial self endpoint owner trustedRelayer tokens) :=
  ⟨fun _ => rfl, fun _ _ hp => (by cases hp), fun _ hx => (by cases hx)⟩

theorem Accounted.executed_once {xs : List Confirmation} {s : State} {id : IntentId} (h : Accounted xs s)
    (hx : s.executed id = true) : ∃ proof, s.executions id = [proof] := by
  have hlength := h.once id
  rw [hx] at hlength
  exact List.length_eq_one_iff.mp hlength

theorem Accounted.executed_iff {xs : List Confirmation} {s : State} (h : Accounted xs s) (id : IntentId) :
    s.executed id = true ↔ ∃ proof, proof ∈ s.executions id := by
  have hlength := h.once id
  cases hx : s.executed id with
  | true =>
    rw [hx] at hlength
    exact iff_of_true rfl (List.exists_mem_of_length_pos (by rw [hlength]; decide))
  | false =>
    rw [hx] at hlength
    refine iff_of_false Bool.false_ne_true fun ⟨proof, hp⟩ => ?_
    rw [List.length_eq_zero_iff.mp hlength] at hp
    cases hp

/-- Every executed intent has one event, whose proof decodes to the blob id of its submission. -/
def State.ProofsCommitted (s : State) : Prop :=
  ∀ id, s.executed id = true → ∃ proof, s.executions id = [proof] ∧
    ∃ m ∈ s.submissions, m.id = id ∧ ∃ endEpoch, BosphorProof.decode proof = .ok (m.commitment.blobId, endEpoch)

theorem Accounted.proofsCommitted_iff {xs : List Confirmation} {s : State} (h : Accounted xs s) (hs : Submissions s) :
    s.ProofsCommitted ↔ ∀ x ∈ xs, x.Carries := by
  constructor
  · intro hcommitted x hm
    obtain ⟨-, hblob, hp⟩ := h.confirmed x hm
    have hx : s.executed x.intentId = true := (h.executed_iff _).mpr ⟨_, hp⟩
    obtain ⟨proof, hproof, m, hsub, hid, endEpoch, hdec⟩ := hcommitted x.intentId hx
    rw [hproof, List.mem_singleton] at hp
    obtain ⟨hlength, hfirst, -⟩ := BosphorProof.decode_ok_iff.mp hdec
    rw [Confirmation.Carries, hp, ← hblob, ← hid, hs.committed_eq m hsub]
    exact ⟨hlength, hfirst⟩
  · intro hcarries id hx
    obtain ⟨proof, hproof⟩ := h.executed_once hx
    obtain ⟨hi, hsource⟩ := h.sourced id proof (hproof ▸ List.mem_singleton_self proof)
    obtain ⟨m, hsub, rfl⟩ := (hs.intents_iff id).mp hi
    refine ⟨proof, hproof, m, hsub, rfl, ?_⟩
    rw [← hs.committed_eq m hsub]
    rcases hsource with ⟨x, hm, hid, rfl⟩ | ⟨endEpoch, rfl⟩
    · obtain ⟨-, hblob, -⟩ := h.confirmed x hm
      obtain ⟨hlength, hfirst⟩ := hcarries x hm
      rw [← hid, hblob]
      exact ⟨_, BosphorProof.decode_ok_iff.mpr ⟨hlength, hfirst, rfl⟩⟩
    · exact ⟨_, BosphorProof.decode_encode _ _⟩

/-- What accounts for the executions of a run. -/
theorem run_executions {self endpoint owner trustedRelayer : Address} {tokens : Address → TokenAccount} {s₀ : State}
    (h : deploy self endpoint owner trustedRelayer tokens = .ok s₀) (as : List (Nat × Call)) :
    Accounted (confirmationsOf s₀ as) (Machine.run step s₀ as) := by
  obtain ⟨-, rfl⟩ := deploy_ok.mp h
  exact run_accounted as (initial_accounted _ _ _ _ _)

/-- An execution is of a submitted intent. -/
theorem Accounted.submission {xs : List Confirmation} {s : State} {id : IntentId} (h : Accounted xs s)
    (hx : s.executed id = true) : s.intents id = true := by
  obtain ⟨proof, hproof⟩ := h.executed_once hx
  exact (h.sourced id proof (hproof ▸ List.mem_singleton_self proof)).1

/-- In every run, the proofs of the executed intents carry the committed blob ids exactly when those of the accepted
confirmations do. -/
theorem run_proofsCommitted_iff {self endpoint owner trustedRelayer : Address} {tokens : Address → TokenAccount}
    {s₀ : State} (h : deploy self endpoint owner trustedRelayer tokens = .ok s₀) (as : List (Nat × Call)) :
    (Machine.run step s₀ as).ProofsCommitted ↔ ∀ x ∈ confirmationsOf s₀ as, x.Carries :=
  (run_executions h as).proofsCommitted_iff (run_submissions h as)

/-! ## Nothing is taken back -/

theorem Effect.log_grows {now : Nat} {allowed : Op → Prop} {p q : State × (Address → Nat)}
    (h : Effect now allowed p q) : p.1.log <+: q.1.log := by
  cases h with
  | @prove s r value packet id blobId endEpoch ha hdec h =>
    rw [proven_log]
    exact List.prefix_append _ _
  | submit | refund | confirm | setRelayer | setPeer | setOwner | openToken | withdrawn | withdrawnToken =>
    exact List.prefix_append _ _
  | setPermit2 | receive | tokenMoves | pull | withdraw | debitToken | payToken => exact List.prefix_rfl

theorem step_log_grows {a : Nat × Call} {s s' : State} (h : step a s = .ok s') : s.log <+: s'.log :=
  (call_effects a.2 (fun _ _ => trivial : ∀ op ∈ a.2.ops, (fun _ => True) op) s s' h 0).keeps
    (P := fun p => s.log <+: p.1.log) (fun _ _ h hp => hp.trans h.log_grows) List.prefix_rfl

/-- No event is lost. -/
theorem run_log_grows (s : State) (as : List (Nat × Call)) : s.log <+: (Machine.run step s as).log :=
  Machine.run_inv (P := fun t => s.log <+: t.log) as (fun _ _ _ _ h hp => hp.trans (step_log_grows h)) List.prefix_rfl

/-- An intent stays submitted, and its commitment stays. -/
theorem Submissions.committed_grows {s s' : State} (h : Submissions s) (h' : Submissions s') (hl : s.log <+: s'.log)
    {id : IntentId} (hi : s.intents id = true) :
    s'.intents id = true ∧ s'.committedBlobId id = s.committedBlobId id := by
  obtain ⟨m, hm, rfl⟩ := (h.intents_iff id).mp hi
  have hm' : m ∈ s'.submissions := (hl.filterMap _).subset hm
  exact ⟨(h'.intents_iff _).mpr ⟨m, hm', rfl⟩, by rw [h'.committed_eq m hm', h.committed_eq m hm]⟩

theorem executions_grow {s s' : State} (hl : s.log <+: s'.log) (id : IntentId) : s.executions id <+: s'.executions id :=
  hl.filterMap _

/-- An intent stays executed. -/
theorem Accounted.executed_grows {xs xs' : List Confirmation} {s s' : State} (h : Accounted xs s)
    (h' : Accounted xs' s')
    (hl : s.log <+: s'.log) {id : IntentId} (hx : s.executed id = true) : s'.executed id = true := by
  obtain ⟨proof, hp⟩ := (h.executed_iff id).mp hx
  exact (h'.executed_iff id).mpr ⟨proof, (executions_grow hl id).subset hp⟩

end Bosphor.Evm

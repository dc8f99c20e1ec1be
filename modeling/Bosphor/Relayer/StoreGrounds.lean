import Bosphor.Relayer.StoreDecisions

/-!
# What the pipeline stands on

What the pipeline has been told by the time it makes a call (`store_grounded`):
it uploads the bytes that it fetched, and not after an upload was persisted; it
works on with the upload of its row or with the one it persisted; it sends a
return once Sui has said that the intent is executed; it marks the row done
last. A completion is booked for the decision that the guard came to
(`Decided`), and there is one (`Decided.unique`).
-/

namespace Bosphor.Relayer

open StagedIntentStore Async

variable {fl : Rounding} {cfg : Config} {row : StagedIntentRow} {h : Told} {α β : Type}

/-- No call was made to mark the row done. -/
def Unsettled (told : Told) : Prop := ∀ id r, ⟨.markDone id, r⟩ ∉ told

/-- No call was made to persist an upload. -/
def Unpersisted (told : Told) : Prop := ∀ id up r, ⟨.persistUpload id up, r⟩ ∉ told

/-- The upload that the pipeline works with: the row's, or the one it persisted. -/
def InHand (row : StagedIntentRow) (told : Told) (up : UploadResult) : Prop :=
  row.walrusObjectId = some up.walrusObjectId ∧ up.walrusBlobId = row.walrusBlobId.getD "" ∧
      up.endEpoch = row.endEpoch.getD 0 ∨
    row.walrusObjectId = none ∧ ⟨.persistUpload row.intentId up, .ok ()⟩ ∈ told

/-- Sui answered a record of the intent, or said that there is one. -/
def SaidExecuted (id : IntentId) (told : Told) : Prop :=
  ∃ sender objectId deadlineMs a, ⟨.executeStore id sender objectId deadlineMs, a⟩ ∈ told ∧
    ∀ err, a = .error err → alreadyExecuted err.text = true

/-- The intent is known to be executed, from the row or from Sui. -/
def Recorded (row : StagedIntentRow) (told : Told) : Prop :=
  row.storeDigest ≠ none ∨ SaidExecuted row.intentId told

/-- What a call stands on, given what was told before. -/
def Grounds (row : StagedIntentRow) (told : Told) : Call → Prop
  | .writeBlob id bytes _ => Unpersisted told ∧ ⟨.fetchBytes id, .ok (some bytes)⟩ ∈ told
  | .persistUpload _ _ => Unpersisted told
  | .executeStore _ _ objectId _ => ∃ up, InHand row told up ∧ objectId = up.walrusObjectId
  | .persistStore _ _ => SaidExecuted row.intentId told
  | .lzSendProof _ walrusBlobId endEpoch _ _ =>
    Recorded row told ∧ ∃ up, InHand row told up ∧ walrusBlobId = up.walrusBlobId ∧ endEpoch = up.endEpoch
  | .evmConfirmExecution _ proof =>
    Recorded row told ∧ ∃ up field, InHand row told up ∧ walrusBlobIdToField up.walrusBlobId = .ok field ∧
      proof = field ++ Bytes.toBE 32 up.endEpoch
  | .solanaConfirmExecution _ blobId endEpoch =>
    Recorded row told ∧ ∃ up, InHand row told up ∧ walrusBlobIdToField up.walrusBlobId = .ok blobId ∧
      endEpoch = up.endEpoch
  | .markDone _ => ∃ up, InHand row told up
  | _ => True

/-- A call that stands on what was told, before the row is marked done. -/
def Grounded (row : StagedIntentRow) (told : Told) (c : Call) : Prop := Unsettled told ∧ Grounds row told c

/-- The guard came to a decision, or was not applied. -/
def Decided (fl : Rounding) (cfg : Config) (row : StagedIntentRow) (told : Told)
    (decision : Option BreakEvenDecision) : Prop :=
  ∃ t₁ t₂ t₃ epochs, told = t₁ ++ t₂ ++ t₃ ∧ Async.Leads (storeEpochs cfg row) t₁ (.done (.ok epochs)) ∧
    Async.Leads (breakEvenGuard fl cfg row epochs) t₂ (.done (.ok decision))

/-- What is booked for a row that was stored under a decision. -/
def Booking.of (decision : Option BreakEvenDecision) : Booking :=
  decision.elim .nothing fun d => .completion d.escrowUsd d.costUsd

/-- How the pipeline ends: with the booking of its decision, unless the row was not to be stored; and if it fails,
then without an answer that the row is marked done. -/
def Ended (fl : Rounding) (cfg : Config) (row : StagedIntentRow) (told : Told) : Except Failure Booking → Prop
  | .ok b => Unsettled told ∨ ∃ decision, Decided fl cfg row told decision ∧ b = .of decision
  | .error _ => ∀ id, ⟨.markDone id, .ok ()⟩ ∉ told

/-! ## What is told is not forgotten -/

theorem InHand.append {up : UploadResult} (hup : InHand row h up) (h' : Told) : InHand row (h ++ h') up :=
  hup.imp_right fun hpersisted => ⟨hpersisted.1, List.mem_append_left _ hpersisted.2⟩

theorem Recorded.append (hrecorded : Recorded row h) (h' : Told) : Recorded row (h ++ h') := by
  obtain hdigest | ⟨sender, objectId, deadlineMs, a, hmem, hsaid⟩ := hrecorded
  · exact Or.inl hdigest
  · exact Or.inr ⟨sender, objectId, deadlineMs, a, List.mem_append_left _ hmem, hsaid⟩

theorem Decided.append {decision : Option BreakEvenDecision} (hdecided : Decided fl cfg row h decision) (h' : Told) :
    Decided fl cfg row (h ++ h') decision := by
  obtain ⟨t₁, t₂, t₃, epochs, rfl, hepochs, hguard⟩ := hdecided
  exact ⟨t₁, t₂, t₃ ++ h', epochs, by simp only [List.append_assoc], hepochs, hguard⟩

/-- The guard comes to one decision. -/
theorem Decided.unique {decision decision' : Option BreakEvenDecision} (hdecided : Decided fl cfg row h decision)
    (hdecided' : Decided fl cfg row h decision') : decision = decision' := by
  obtain ⟨t₁, t₂, t₃, epochs, rfl, hepochs, hguard⟩ := hdecided
  obtain ⟨s₁, s₂, s₃, epochs', hsame, hepochs', hguard'⟩ := hdecided'
  rw [List.append_assoc, List.append_assoc] at hsame
  obtain ⟨rfl, hsame₁⟩ := hepochs.end_unique hepochs' hsame
  cases hsame₁
  obtain ⟨-, hsame₂⟩ := hguard.end_unique hguard' (List.append_cancel_left hsame)
  cases hsame₂
  rfl

/-- The call is none of those that settle or that stand on something. -/
def Call.Plain : Call → Prop
  | .writeBlob .. | .persistUpload .. | .executeStore .. | .persistStore .. | .lzSendProof .. | .evmConfirmExecution .. |
    .solanaConfirmExecution .. | .markDone _ => False
  | _ => True

theorem Call.Plain.grounded {c : Call} (hc : c.Plain) (hopen : Unsettled h) : Grounded row h c := by
  refine ⟨hopen, ?_⟩
  cases c <;> first | exact hc.elim | trivial

theorem Unsettled.append (hopen : Unsettled h) {c : Call} (hc : ∀ id, c ≠ .markDone id) (r : Except Failure c.Answer) :
    Unsettled (h ++ [⟨c, r⟩]) := by
  intro id r' hmem
  obtain hold | hnew := List.mem_append.mp hmem
  · exact hopen id r' hold
  · rw [List.mem_singleton, Sigma.mk.injEq] at hnew
    exact hc id hnew.1.symm

theorem Unpersisted.append (hfresh : Unpersisted h) {c : Call} (hc : ∀ id up, c ≠ .persistUpload id up)
    (r : Except Failure c.Answer) : Unpersisted (h ++ [⟨c, r⟩]) := by
  intro id up r' hmem
  obtain hold | hnew := List.mem_append.mp hmem
  · exact hfresh id up r' hold
  · rw [List.mem_singleton, Sigma.mk.injEq] at hnew
    exact hc id up hnew.1.symm

theorem Call.Plain.unsettled {c : Call} (hc : c.Plain) (hopen : Unsettled h) (r : Except Failure c.Answer) :
    Unsettled (h ++ [⟨c, r⟩]) := by
  refine hopen.append (fun id hdone => ?_) r
  rw [hdone] at hc
  exact hc

theorem Call.Plain.unpersisted {c : Call} (hc : c.Plain) (hfresh : Unpersisted h) (r : Except Failure c.Answer) :
    Unpersisted (h ++ [⟨c, r⟩]) := by
  refine hfresh.append (fun id up hpersist => ?_) r
  rw [hpersist] at hc
  exact hc

/-! ## The steps -/

theorem EpochsCall.plain {c : Call} (hc : EpochsCall row c) : c.Plain := by
  cases c <;> first | exact hc.elim | trivial

theorem GuardCall.plain {c : Call} (hc : GuardCall row c) : c.Plain := by
  cases c <;> first | exact hc.elim | trivial

theorem trackHop_plain (id : IntentId) (hop : IntentHop) (details : HopDetails) :
    Calls Call.Plain (trackHop id hop details) :=
  Calls.tryCatch (calls_call trivial) fun _ => trivial

theorem ledgerStep_plain (entry : CompletedStore) : Calls Call.Plain (ledgerStep cfg row entry) := by
  unfold ledgerStep
  split
  · exact Calls.tryCatch (Calls.bind (calls_call trivial) fun _ => calls_call trivial) fun _ => trivial
  · trivial

/-- A plain step before the rest of a program, through which `I` is kept. -/
theorem wp_plain_bind {I : Told → Prop} {Q : Told → Except Failure β → Prop}
    (hI : ∀ h c (r : Except Failure c.Answer), Call.Plain c → I h → I (h ++ [⟨c, r⟩]))
    (hopen : ∀ h, I h → Unsettled h) {p : Program α} {rest : α → Program β} (hp : Calls Call.Plain p) (h₀ : I h)
    (hrest : ∀ h a, I h → wp (Grounded row) Q h (rest a)) (hfail : ∀ h e, I h → Q h (.error e)) :
    wp (Grounded row) Q h (p >>= rest) := by
  rw [wp_bind]
  refine wp_frame hI (fun h c hh hc => hc.grounded (hopen h hh)) (fun h r hr => ?_) hp h₀
  cases r with
  | ok a => exact hrest h a hr
  | error err => exact hfail h err hr

/-- What holds once the bytes are at hand. -/
theorem upload_grounded (hopen : Unsettled h) (hfresh : Unpersisted h) {bytes : List UInt8} {epochs : Nat}
    (hbytes : ⟨.fetchBytes row.intentId, .ok (some bytes)⟩ ∈ h) :
    wp (Grounded row) (fun h _ => Unsettled h ∧ Unpersisted h) h (upload row.intentId bytes epochs) := by
  -- whether the metrics are read or not, the result is that of the upload
  have hmetrics : ∀ (h : Told) info, Unsettled h → Unpersisted h →
      wp (Grounded row) (fun h _ => Unsettled h ∧ Unpersisted h) h
        (tryCatch (do let _ ← call .systemState; return ()) (fun _ => return ()) >>= fun _ =>
          (pure info : Program WalrusBlob)) := by
    intro h info hopen hfresh
    refine wp_plain_bind (I := fun h => Unsettled h ∧ Unpersisted h)
      (fun h c r hc hI => ⟨hc.unsettled hI.1 r, hc.unpersisted hI.2 r⟩) (fun h hI => hI.1) ?_ ⟨hopen, hfresh⟩
      (fun h a hI => hI) fun h e hI => hI
    exact Calls.tryCatch (Calls.bind (calls_call trivial) fun _ => trivial) fun _ => trivial
  have hopen' : ∀ r, Unsettled (h ++ [⟨.writeBlob row.intentId bytes epochs, r⟩]) :=
    fun r => hopen.append (fun _ => Call.noConfusion) r
  have hfresh' : ∀ r, Unpersisted (h ++ [⟨.writeBlob row.intentId bytes epochs, r⟩]) :=
    fun r => hfresh.append (fun _ _ => Call.noConfusion) r
  unfold upload
  split
  · exact ⟨hopen, hfresh⟩
  · simp only
    rw [wp_bind, wp_tryCatch, wp_call]
    refine ⟨⟨hopen, hfresh, hbytes⟩, fun r => ?_⟩
    cases r with
    | ok info => exact hmetrics _ info (hopen' _) (hfresh' _)
    | error err =>
      rw [orElse_error]
      split
      · rw [wp_call]
        refine ⟨⟨hopen' _, hfresh' _, List.mem_append_left _ hbytes⟩, fun r => ?_⟩
        have hopen'' := (hopen' (.error err)).append (c := .writeBlob row.intentId bytes epochs)
            (fun _ => Call.noConfusion) r
        have hfresh'' := (hfresh' (.error err)).append (c := .writeBlob row.intentId bytes epochs)
            (fun _ _ => Call.noConfusion) r
        cases r with
        | ok info => exact hmetrics _ info hopen'' hfresh''
        | error err' => exact ⟨hopen'', hfresh''⟩
      · exact ⟨hopen' _, hfresh' _⟩

theorem uploadStep_grounded (hopen : Unsettled h) (hfresh : Unpersisted h) (epochs : Nat) :
    wp (Grounded row) (fun h r => Unsettled h ∧ ∀ up, r = .ok up → InHand row h up) h (uploadStep row epochs) := by
  unfold uploadStep
  cases hrow : row.walrusObjectId with
  | some objectId =>
    refine ⟨hopen, fun up hup => ?_⟩
    cases hup
    exact Or.inl ⟨hrow, rfl, rfl⟩
  | none =>
    have hopen' : ∀ r, Unsettled (h ++ [⟨.fetchBytes row.intentId, r⟩]) :=
      fun r => hopen.append (fun _ => Call.noConfusion) r
    simp only
    rw [wp_bind, wp_call]
    refine ⟨⟨hopen, trivial⟩, fun r => ?_⟩
    cases r with
    | error err => exact ⟨hopen' _, fun up hup => by cases hup⟩
    | ok found =>
      rw [andThen_ok]
      cases found with
      | none => exact ⟨hopen' _, fun up hup => by cases hup⟩
      | some bytes =>
        simp only
        rw [wp_bind]
        refine wp_mono (upload_grounded (hopen' _) (hfresh.append (fun _ _ => Call.noConfusion) _) (by simp))
          (fun _ _ => id) fun h r hr => ?_
        obtain ⟨hopen, hfresh⟩ := hr
        cases r with
        | error err => exact ⟨hopen, fun up hup => by cases hup⟩
        | ok info =>
          rw [andThen_ok, wp_bind]
          refine (wp_call _).mpr ⟨⟨hopen, hfresh⟩, fun r => ?_⟩
          have hopen'' := hopen.append (c := .persistUpload row.intentId ⟨info.objectId, info.blobId, info.endEpoch⟩)
            (fun _ => Call.noConfusion) r
          cases r with
          | error err => exact ⟨hopen'', fun up hup => by cases hup⟩
          | ok _ =>
            refine ⟨hopen'', fun up hup => ?_⟩
            cases hup
            exact Or.inr ⟨hrow, by simp⟩

theorem recordStep_grounded (sender : String) (commitment : Option IntentCommitment) {up : UploadResult}
    (hopen : Unsettled h) (hup : InHand row h up) :
    wp (Grounded row) (fun h r => Unsettled h ∧ InHand row h up ∧ ∀ digest, r = .ok digest → Recorded row h) h
      (recordStep row sender commitment up.walrusObjectId) := by
  unfold recordStep
  cases hrow : row.storeDigest with
  | some digest => exact ⟨hopen, hup, fun _ _ => Or.inl (by simp [hrow])⟩
  | none =>
    simp only
    rw [wp_bind, wp_tryCatch, wp_bind, wp_call]
    refine ⟨⟨hopen, up, hup, rfl⟩, fun r => ?_⟩
    have hpersist : ∀ (h : Told) (digest : String), Unsettled h → InHand row h up → SaidExecuted row.intentId h →
        wp (Grounded row) (fun h r => Unsettled h ∧ InHand row h up ∧ ∀ digest, r = .ok digest → Recorded row h) h
          (call (.persistStore row.intentId digest) >>= fun _ => (pure digest : Program String)) := by
      intro h digest hopen hup hsaid
      rw [wp_bind]
      refine (wp_call _).mpr ⟨⟨hopen, hsaid⟩, fun r => ?_⟩
      have hkept : Unsettled (h ++ [⟨.persistStore row.intentId digest, r⟩]) :=
        hopen.append (fun _ => Call.noConfusion) r
      have hstill : Recorded row (h ++ [⟨.persistStore row.intentId digest, r⟩]) := Recorded.append (Or.inr hsaid) _
      cases r with
      | error err => exact ⟨hkept, hup.append _, fun _ _ => hstill⟩
      | ok _ => exact ⟨hkept, hup.append _, fun _ _ => hstill⟩
    have hcaught : ∀ (h : Told) (err : Failure), Unsettled h → InHand row h up →
        (alreadyExecuted err.text = true → SaidExecuted row.intentId h) →
        wp (Grounded row)
          (andThen (Grounded row) (fun h r => Unsettled h ∧ InHand row h up ∧ ∀ digest, r = .ok digest → Recorded row h)
            fun digest => call (.persistStore row.intentId digest) >>= fun _ => (pure digest : Program String)) h
          (if alreadyExecuted err.text then pure ALREADY_RECORDED else throw err) := by
      intro h err hopen hup hsaid
      split
      · rename_i halready
        exact hpersist h ALREADY_RECORDED hopen hup (hsaid halready)
      · exact ⟨hopen, hup, fun _ hdigest => by cases hdigest⟩
    have hopen' := hopen.append
      (c := .executeStore row.intentId sender up.walrusObjectId
      (row.deadline.getD ((commitment.map (·.deadline)).getD 0))) (fun _ => Call.noConfusion) r
    cases r with
    | error err =>
      refine hcaught _ err hopen' (hup.append _) fun halready =>
        ⟨_, _, _, _, List.mem_append_right _ (List.mem_singleton_self _),
        fun err' herr => ?_⟩
      cases herr
      exact halready
    | ok digest =>
      have hsaid : ∀ h' : Told, SaidExecuted row.intentId (h ++ [⟨.executeStore row.intentId sender up.walrusObjectId
          (row.deadline.getD ((commitment.map (·.deadline)).getD 0)), .ok digest⟩] ++ h') :=
        fun h' => ⟨_, _, _, .ok digest, by simp, fun err herr => by cases herr⟩
      rw [andThen_ok, wp_bind]
      refine (wp_call _).mpr ⟨⟨hopen', trivial⟩, fun r => ?_⟩
      have hopen'' := hopen'.append (c := .waitForTransaction digest) (fun _ => Call.noConfusion) r
      cases r with
      | error err => exact hcaught _ err hopen'' ((hup.append _).append _) fun _ => hsaid _
      | ok _ => exact hpersist _ digest hopen'' ((hup.append _).append _) (hsaid _)

/-- The upload is in hand and recorded, and the row is still to be marked done. -/
structure Returnable (row : StagedIntentRow) (up : UploadResult) (told : Told) : Prop where
  unsettled : Unsettled told
  inHand : InHand row told up
  recorded : Recorded row told

theorem Returnable.append {up : UploadResult} (hr : Returnable row up h) {c : Call} (hc : ∀ id, c ≠ .markDone id)
    (r : Except Failure c.Answer) : Returnable row up (h ++ [⟨c, r⟩]) :=
  ⟨hr.unsettled.append hc r, hr.inHand.append _, hr.recorded.append _⟩

theorem Returnable.plain {up : UploadResult} (hr : Returnable row up h) {c : Call} (hc : c.Plain)
    (r : Except Failure c.Answer) : Returnable row up (h ++ [⟨c, r⟩]) :=
  ⟨hc.unsettled hr.unsettled r, hr.inHand.append _, hr.recorded.append _⟩

/-- Plain calls are made while the upload is to be returned. -/
theorem Returnable.frame {up : UploadResult} (hr : Returnable row up h) {p : Program α} (hp : Calls Call.Plain p) :
    wp (Grounded row) (fun h _ => Returnable row up h) h p :=
  wp_frame (fun _ _ r hc hI => hI.plain hc r) (fun _ _ hI hc => hc.grounded hI.unsettled) (fun _ _ hI => hI) hp hr

/-- The send that both return legs try first. -/
theorem lzReturn_grounded {up : UploadResult} (hr : Returnable row up h) (dstEid : Nat) :
    wp (Grounded row) (fun h _ => Returnable row up h) h
      (lzReturn row.intentId up.walrusBlobId up.endEpoch dstEid) := by
  unfold lzReturn
  rw [wp_bind, wp_call]
  refine ⟨⟨hr.unsettled, trivial⟩, fun a => ?_⟩
  have hquoted := hr.append (c := .quoteLzFee row.intentId up.walrusBlobId up.endEpoch dstEid)
      (fun _ => Call.noConfusion) a
  cases a with
  | error err => exact hquoted
  | ok fee =>
    rw [andThen_ok, wp_bind, wp_call]
    refine ⟨⟨hquoted.unsettled, hquoted.recorded, up, hquoted.inHand, rfl, rfl⟩, fun a => ?_⟩
    have hsent := hquoted.append (c := .lzSendProof row.intentId up.walrusBlobId up.endEpoch dstEid (fee * 11 / 10))
      (fun _ => Call.noConfusion) a
    cases a with
    | error err => exact hsent
    | ok digest => exact hsent.frame (trackHop_plain _ _ _)

/-- The field of the upload, before the fallback's proof. -/
theorem canonicalBlobId_bind {up : UploadResult} {rest : List UInt8 → Program Unit} (hr : Returnable row up h)
    (hrest : ∀ field, walrusBlobIdToField up.walrusBlobId = .ok field →
      wp (Grounded row) (fun h _ => Returnable row up h) h (rest field)) :
    wp (Grounded row) (fun h _ => Returnable row up h) h (canonicalBlobId up.walrusBlobId >>= rest) := by
  unfold canonicalBlobId
  cases hfield : walrusBlobIdToField up.walrusBlobId with
  | error message => exact hr
  | ok field => exact hrest field hfield

theorem returnToEvm_grounded {up : UploadResult} (hr : Returnable row up h) :
    wp (Grounded row) (fun h _ => Returnable row up h) h
      (returnToEvm cfg row.intentId up.walrusBlobId up.endEpoch) := by
  unfold returnToEvm
  rw [wp_tryCatch]
  refine wp_mono (lzReturn_grounded hr _) (fun _ _ => id) fun h r hr => ?_
  cases r with
  | ok _ => exact hr
  | error err =>
    rw [orElse_error]
    refine canonicalBlobId_bind hr fun field hfield => ?_
    rw [wp_bind, wp_call]
    refine ⟨⟨hr.unsettled, hr.recorded, up, field, hr.inHand, hfield, rfl⟩, fun a => ?_⟩
    have hsent := hr.append (c := .evmConfirmExecution row.intentId (field ++ Bytes.toBE 32 up.endEpoch))
      (fun _ => Call.noConfusion) a
    cases a with
    | error err => exact hsent
    | ok digest => exact hsent.frame (trackHop_plain _ _ _)

theorem returnToSolana_grounded {up : UploadResult} (hr : Returnable row up h) :
    wp (Grounded row) (fun h _ => Returnable row up h) h
      (returnToSolana cfg row.intentId up.walrusBlobId up.endEpoch) := by
  unfold returnToSolana
  rw [wp_tryCatch]
  refine wp_mono (lzReturn_grounded hr _) (fun _ _ => id) fun h r hr => ?_
  cases r with
  | ok _ => exact hr
  | error err =>
    rw [orElse_error]
    have hconfirm : wp (Grounded row) (fun h _ => Returnable row up h) h
        (canonicalBlobId up.walrusBlobId >>= fun field => do
        let sig ← call (.solanaConfirmExecution row.intentId field up.endEpoch)
        trackHop row.intentId .proofSent { txHash := some sig }
        trackHop row.intentId .confirmed { txHash := some sig }) := by
      refine canonicalBlobId_bind hr fun field hfield => ?_
      rw [wp_bind, wp_call]
      refine ⟨⟨hr.unsettled, hr.recorded, up, hr.inHand, hfield, rfl⟩, fun a => ?_⟩
      have hsent := hr.append (c := .solanaConfirmExecution row.intentId field up.endEpoch)
          (fun _ => Call.noConfusion) a
      cases a with
      | error err => exact hsent
      | ok sig => exact hsent.frame (Calls.bind (trackHop_plain _ _ _) fun _ => trackHop_plain _ _ _)
    split
    · exact hr
    · exact hconfirm

theorem returnStep_grounded {up : UploadResult} (hr : Returnable row up h) :
    wp (Grounded row) (fun h _ => Returnable row up h) h (returnStep cfg row up) := by
  have hleg : wp (Grounded row) (fun h _ => Returnable row up h) h
      (if row.srcEid = some cfg.solanaSrcEid then returnToSolana cfg row.intentId up.walrusBlobId up.endEpoch
        else returnToEvm cfg row.intentId up.walrusBlobId up.endEpoch) := by
    split
    · exact returnToSolana_grounded hr
    · exact returnToEvm_grounded hr
  unfold returnStep
  split
  · rw [wp_bind, wp_tryCatch]
    refine wp_mono hleg (fun _ _ => id) fun h r hr => ?_
    cases r with
    | error err => exact hr
    | ok _ => exact hr.frame (calls_call trivial)
  · exact hr

/-! ## The whole -/

/-- A failure is not that of an answer that the row is marked done. -/
def FailsOpen (told : Told) (r : Except Failure α) : Prop :=
  ∀ err, r = .error err → ∀ id, ⟨.markDone id, .ok ()⟩ ∉ told

theorem Unsettled.failsOpen (hopen : Unsettled h) (r : Except Failure α) : FailsOpen h r :=
  fun _ _ id => hopen id _

theorem fulfil_grounded (sender : String) (commitment : Option IntentCommitment) (epochs : Nat) (hopen : Unsettled h)
    (hfresh : Unpersisted h) : wp (Grounded row) FailsOpen h (fulfil cfg row sender commitment epochs) := by
  have hstart : ∀ h c (r : Except Failure c.Answer), Call.Plain c → Unsettled h ∧ Unpersisted h →
      Unsettled (h ++ [⟨c, r⟩]) ∧ Unpersisted (h ++ [⟨c, r⟩]) :=
    fun h c r hc hI => ⟨hc.unsettled hI.1 r, hc.unpersisted hI.2 r⟩
  unfold fulfil
  refine wp_plain_bind hstart (fun _ => And.left) (calls_call trivial) ⟨hopen, hfresh⟩ (fun h _ hI => ?_)
    fun h e hI => hI.1.failsOpen _
  refine wp_plain_bind hstart (fun _ => And.left) (trackHop_plain _ _ _) hI (fun h _ hI => ?_)
    fun h e hI => hI.1.failsOpen _
  rw [wp_bind]
  refine wp_mono (uploadStep_grounded hI.1 hI.2 epochs) (fun _ _ => id) fun h r hr => ?_
  cases r with
  | error err => exact hr.1.failsOpen _
  | ok up =>
    rw [andThen_ok]
    have hheld : ∀ h c (r : Except Failure c.Answer), Call.Plain c → Unsettled h ∧ InHand row h up →
        Unsettled (h ++ [⟨c, r⟩]) ∧ InHand row (h ++ [⟨c, r⟩]) up :=
      fun h c r hc hI => ⟨hc.unsettled hI.1 r, hI.2.append _⟩
    refine wp_plain_bind hheld (fun _ => And.left) (trackHop_plain _ _ _) ⟨hr.1, hr.2 up rfl⟩ (fun h _ hI => ?_)
      fun h e hI => hI.1.failsOpen _
    rw [wp_bind]
    refine wp_mono (recordStep_grounded sender commitment hI.1 hI.2) (fun _ _ => id) fun h r hr => ?_
    obtain ⟨hopen, hup, hrecorded⟩ := hr
    cases r with
    | error err => exact hopen.failsOpen _
    | ok digest =>
      rw [andThen_ok]
      have hplain : ∀ h c (r : Except Failure c.Answer), Call.Plain c → Returnable row up h →
          Returnable row up (h ++ [⟨c, r⟩]) := fun h c r hc hI => hI.plain hc r
      refine wp_plain_bind hplain (fun _ => Returnable.unsettled) (trackHop_plain _ _ _)
        ⟨hopen, hup, hrecorded digest rfl⟩
        (fun h _ hI => ?_) fun h e hI => hI.unsettled.failsOpen _
      refine wp_plain_bind hplain (fun _ => Returnable.unsettled) (ledgerStep_plain _) hI (fun h _ hI => ?_)
        fun h e hI => hI.unsettled.failsOpen _
      refine wp_plain_bind hplain (fun _ => Returnable.unsettled) (calls_call trivial) hI (fun h _ hI => ?_)
        fun h e hI => hI.unsettled.failsOpen _
      rw [wp_bind]
      refine wp_mono (returnStep_grounded hI) (fun _ _ => id) fun h r hr => ?_
      cases r with
      | error err => exact hr.unsettled.failsOpen _
      | ok _ =>
        rw [andThen_ok]
        refine (wp_call _).mpr ⟨⟨hr.unsettled, up, hr.inHand⟩, fun r err herr id hmem => ?_⟩
        obtain hold | hnew := List.mem_append.mp hmem
        · exact hr.unsettled id _ hold
        · rw [List.mem_singleton, Sigma.mk.injEq] at hnew
          subst herr
          obtain ⟨hcall, hanswer⟩ := hnew
          cases hcall
          cases hanswer

/-- A call that stands on what was told; an upload is persisted under a decision. -/
def Founded (fl : Rounding) (cfg : Config) (row : StagedIntentRow) (told : Told) (c : Call) : Prop :=
  Grounded row told c ∧ ((∃ id up, c = .persistUpload id up) → ∃ decision, Decided fl cfg row told decision)

theorem Call.Plain.founded {c : Call} (hc : c.Plain) (hopen : Unsettled h) : Founded fl cfg row h c := by
  refine ⟨hc.grounded hopen, fun hpersist => ?_⟩
  obtain ⟨id, up, rfl⟩ := hpersist
  exact hc.elim

variable (fl cfg row) in
/-- What the calls of the pipeline stand on, and how it ends. -/
theorem store_grounded (sender : String) (commitment : Option IntentCommitment) :
    wp (Founded fl cfg row) (Ended fl cfg row) [] (store fl cfg row sender commitment) := by
  have hnone : Unsettled [] ∧ Unpersisted [] := ⟨fun _ _ => List.not_mem_nil, fun _ _ _ => List.not_mem_nil⟩
  have hplain : ∀ h c (r : Except Failure c.Answer), Call.Plain c → Unsettled h ∧ Unpersisted h →
      Unsettled (h ++ [⟨c, r⟩]) ∧ Unpersisted (h ++ [⟨c, r⟩]) :=
    fun h c r hc hI => ⟨hc.unsettled hI.1 r, hc.unpersisted hI.2 r⟩
  have hdead : ∀ (h : Told) (text : String) (b : Booking), Unsettled h → wp (Founded fl cfg row) (Ended fl cfg row) h
      (call (.markDead row.intentId text) >>= fun _ => (pure b : Program Booking)) := by
    intro h text b hopen
    rw [wp_bind]
    refine (wp_call _).mpr ⟨Call.Plain.founded trivial hopen, fun r => ?_⟩
    have hopen' := hopen.append (c := .markDead row.intentId text) (fun _ => Call.noConfusion) r
    cases r with
    | error err => exact fun id => hopen' id _
    | ok _ => exact Or.inl hopen'
  unfold store
  dsimp only
  split
  · exact hdead [] _ _ hnone.1
  · rw [wp_bind]
    have hepochs : wp (Founded fl cfg row) (fun h _ => Unsettled h ∧ Unpersisted h) [] (storeEpochs cfg row) :=
      wp_frame hplain (fun h c hI hc => hc.founded hI.1) (fun h r hI => hI)
        (storeEpochs_calls.mono fun _ => EpochsCall.plain)
        hnone
    refine wp_mono (wp_and hepochs (wp_ends (storeEpochs cfg row))) (fun _ _ => And.left) fun t₁ r hr => ?_
    obtain ⟨⟨hopen, hfresh⟩, _, rfl, hlead₁⟩ := hr
    cases r with
    | error err => exact fun id => hopen id _
    | ok resolution =>
      rw [andThen_ok]
      cases resolution with
      | error reason => exact hdead _ _ _ hopen
      | ok epochs =>
        simp only
        rw [wp_bind]
        have hguard : wp (Founded fl cfg row) (fun h _ => Unsettled h ∧ Unpersisted h) t₁
            (breakEvenGuard fl cfg row epochs) :=
          wp_frame hplain (fun h c hI hc => hc.founded hI.1) (fun h r hI => hI)
            ((breakEvenGuard_calls epochs).mono fun _ => GuardCall.plain) ⟨hopen, hfresh⟩
        refine wp_mono (wp_and hguard (wp_ends (breakEvenGuard fl cfg row epochs))) (fun _ _ => And.left)
          fun h r hr => ?_
        obtain ⟨⟨hopen, hfresh⟩, t₂, rfl, hlead₂⟩ := hr
        cases r with
        | error err => exact fun id => hopen id _
        | ok verdict =>
          rw [andThen_ok]
          cases verdict with
          | error reason => exact hdead _ _ _ hopen
          | ok decision =>
            have hdecided : Decided fl cfg row (t₁ ++ t₂) decision := ⟨t₁, t₂, [], epochs, by simp, hlead₁, hlead₂⟩
            simp only
            rw [wp_bind]
            refine wp_mono (wp_along (I := fun h => Decided fl cfg row h decision) (fun h x hI => hI.append [x])
              (fulfil_grounded sender commitment epochs hopen hfresh) hdecided)
                (fun h c hc => ⟨hc.1, fun _ => ⟨decision, hc.2⟩⟩)
              fun h r hr => ?_
            cases r with
            | error err => exact hr.1 err rfl
            | ok _ => exact Or.inr ⟨decision, hr.2, rfl⟩

/-! ## What a statement and a call leave of a row -/

/-- A statement that persists no upload of the intent. -/
theorem StagedIntentStore.Op.run_upload {op : Op} {id : IntentId} (hop : ∀ up now, op ≠ .persistUpload id up now)
    {rows : Rows} (row' : Row) (hrow' : op.run rows id = some row') :
    (rows id = none ∧ row'.walrusObjectId = none) ∨ ∃ row, rows id = some row ∧ SameUpload row row' := by
  obtain hsame | hwrite := op.run_cases rows id
  · rw [hsame] at hrow'
    exact Or.inr ⟨row', hrow', rfl, rfl, rfl⟩
  · rw [hrow'] at hwrite
    refine Op.write_upload (fun k up now hpersist => ?_) hwrite
    subst hpersist
    obtain ⟨rfl, -⟩ := updateRow_some.mp hwrite
    exact hop up now rfl

/-- A statement that persists no record. -/
theorem StagedIntentStore.Op.run_digest {op : Op} {id : IntentId}
    (hop : ∀ digest now, op ≠ .persistStore id digest now) {rows : Rows} {row' : Row}
    (hrow' : op.run rows id = some row') (hdigest : row'.storeDigest ≠ none) :
    ∃ row, rows id = some row ∧ row.storeDigest ≠ none := by
  obtain hsame | hwrite := op.run_cases rows id
  · rw [hsame] at hrow'
    exact ⟨row', hrow', hdigest⟩
  · rw [hrow'] at hwrite
    obtain ⟨-, hfresh⟩ | ⟨row, hrow, hw⟩ := Op.write_row hwrite
    · exact absurd hfresh.storeDigest hdigest
    · obtain hsame | ⟨-, digest, now, hpersist⟩ := hw.digest
      · exact ⟨row, hrow, hsame ▸ hdigest⟩
      · exact absurd hpersist (hop digest now)

/-- The statement of a call, and what it leaves. -/
theorem Call.run_cases (c : Call) (now : Nat) (rows : Rows) :
    (c.op now = none ∧ c.run now rows = rows) ∨ ∃ op, c.op now = some op ∧ c.run now rows = op.run rows := by
  unfold Call.run
  cases c.op now with
  | none => exact Or.inl ⟨rfl, rfl⟩
  | some op => exact Or.inr ⟨op, rfl, rfl⟩

theorem Call.run_upload {c : Call} {rows : Rows} {id : IntentId} (hc : ∀ k up, c ≠ .persistUpload k up) {now : Nat}
    (row' : Row) (hrow' : c.run now rows id = some row') :
    (rows id = none ∧ row'.walrusObjectId = none) ∨ ∃ row, rows id = some row ∧ SameUpload row row' := by
  obtain ⟨-, hrun⟩ | ⟨op, hop, hrun⟩ := c.run_cases now rows
  · rw [hrun] at hrow'
    exact Or.inr ⟨row', hrow', rfl, rfl, rfl⟩
  · rw [hrun] at hrow'
    refine Op.run_upload (fun up t hpersist => ?_) row' hrow'
    subst hpersist
    cases c with
    | persistUpload k up => exact hc k up rfl
    | _ => cases hop

theorem Call.run_digest {c : Call} {rows : Rows} {id : IntentId} (hc : ∀ k digest, c ≠ .persistStore k digest)
    {now : Nat} {row' : Row} (hrow' : c.run now rows id = some row') (hdigest : row'.storeDigest ≠ none) :
    ∃ row, rows id = some row ∧ row.storeDigest ≠ none := by
  obtain ⟨-, hrun⟩ | ⟨op, hop, hrun⟩ := c.run_cases now rows
  · rw [hrun] at hrow'
    exact ⟨row', hrow', hdigest⟩
  · rw [hrun] at hrow'
    refine Op.run_digest (fun digest t hpersist => ?_) hrow' hdigest
    subst hpersist
    cases c with
    | persistStore k digest => exact hc k digest rfl
    | _ => cases hop

/-- No call of the pipeline deletes a row. -/
theorem Call.run_there {c : Call} {now : Nat} {rows : Rows} {id : IntentId} (h : rows id ≠ none) :
    c.run now rows id ≠ none := by
  obtain ⟨-, hrun⟩ | ⟨op, hop, hrun⟩ := c.run_cases now rows
  · rwa [hrun]
  · rw [hrun]
    obtain hsame | hwrite := op.run_cases rows id
    · rwa [hsame]
    · intro hnone
      rw [hnone] at hwrite
      obtain ⟨cutoff, rfl⟩ := Op.write_deletes hwrite
      cases c <;> cases hop

/-! ## Attempts -/

/-- An attempt under way: the row it found, what it was told, and what is left of it. -/
structure Attempt where
  row : StagedIntentRow
  sender : String
  commitment : Option IntentCommitment
  told : Told := []
  rest : Program Booking

/-- The attempt that starts on a row. -/
def Attempt.start (fl : Rounding) (cfg : Config) (row : StagedIntentRow) (sender : String)
    (commitment : Option IntentCommitment) : Attempt :=
  ⟨row, sender, commitment, [], store fl cfg row sender commitment⟩

end Bosphor.Relayer

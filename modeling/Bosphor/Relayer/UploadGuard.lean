import Bosphor.Relayer.OneIntent
import Bosphor.Relayer.StoreDecisions

/-!
# The guard before an upload

With the break-even guard on, an upload is bought only for an intent whose
escrow was read as pending and native and covers the recomputed cost with its
margin, or shows nothing to guard by: a read of the EVM adapter that fails, no
escrow, one that is settled, in a token, or empty. Of two escrows that are
shown, the smaller is refused if the larger is (`upload_guarded`). A read that
reverts lets the upload through (`upload_unguarded`).
-/

namespace Bosphor.Relayer

open StagedIntentStore Async

/-- How the calls of an attempt are answered. -/
abbrev Replies := ∀ c : Call, Except Failure c.Answer

variable {fl : Rounding} {cfg : Config} {row : StagedIntentRow} {o o' : Replies} {σ τ : Queue}

/-- What the escrow reader makes of the answers. -/
def shownEscrow (cfg : Config) (row : StagedIntentRow) (o : Replies) : Option EscrowInfo :=
  if row.srcEid = some cfg.solanaSrcEid then
    if cfg.solanaConfigured then solanaEscrow (o (.getAccountInfo row.intentId)) else none
  else evmEscrow (o (.evmGetEscrow row.intentId))

/-- The guard refuses the intent. -/
def Refused (fl : Rounding) (cfg : Config) (row : StagedIntentRow) (o : Replies) : Prop :=
  ∃ epochs reason, result o (storeEpochs cfg row) = .ok (.ok epochs) ∧
    result o (breakEvenGuard fl cfg row epochs) = .ok (.error reason)

theorem result_getEscrow : result o (getEscrow cfg row.intentId row.srcEid) = .ok (shownEscrow cfg row o) := by
  obtain ⟨h, ho, e, hr, hread, -⟩ := wp_result (getEscrow_read .exact cfg row []) o
  rw [hr, Except.ok.injEq]
  unfold EscrowRead at hread
  unfold shownEscrow
  split
  · rename_i hsol
    rw [if_pos hsol] at hread
    split
    · rename_i hconf
      rw [if_pos hconf] at hread
      obtain ⟨a, ha, rfl⟩ := hread
      rw [← show a = o (.getAccountInfo row.intentId) from ho _ ha]
    · rename_i hconf
      rwa [if_neg hconf] at hread
  · rename_i hevm
    rw [if_neg hevm] at hread
    obtain ⟨a, ha, rfl⟩ := hread
    rw [← show a = o (.evmGetEscrow row.intentId) from ho _ ha]

theorem result_estimateWalCostFrost {sizeBytes epochs cost : Nat} :
    result o (estimateWalCostFrost sizeBytes epochs) = .ok cost ↔
      ∃ state, o .systemState = .ok state ∧ computeWalCost sizeBytes epochs state = .ok cost := by
  unfold estimateWalCostFrost
  simp only [result_bind, result_call]
  cases hstate : o .systemState with
  | error err => simp [bind, Except.bind]
  | ok state =>
    cases hcost : computeWalCost sizeBytes epochs state with
    | error message => simp [hcost, bind, Except.bind]
    | ok cost' => simp [hcost, bind, Except.bind]

/-- What a check of the guard comes to. -/
theorem result_breakEvenCheck {e : EscrowInfo} {sizeBytes epochs : Nat} {d : BreakEvenDecision} :
    result o (breakEvenCheck fl cfg e sizeBytes epochs) = .ok d ↔ ∃ prices state cost, o .getPrices = .ok prices ∧
      o .systemState = .ok state ∧ computeWalCost sizeBytes epochs state = .ok cost ∧
      evaluateBreakEven fl (guardInputs cfg e cost prices) = .ok d := by
  unfold breakEvenCheck
  simp only [result_bind, result_call]
  cases hprices : o .getPrices with
  | error err => simp [bind, Except.bind]
  | ok prices =>
    cases hestimate : result o (estimateWalCostFrost sizeBytes epochs) with
    | error err =>
      have hnone : ∀ state cost, o .systemState = .ok state → computeWalCost sizeBytes epochs state ≠ .ok cost := by
        intro state cost hstate hcost
        rw [result_estimateWalCostFrost.mpr ⟨state, hstate, hcost⟩] at hestimate
        cases hestimate
      simpa [bind, Except.bind] using fun state hstate cost hcost => absurd hcost (hnone state cost hstate)
    | ok cost =>
      obtain ⟨state, hstate, hcost⟩ := result_estimateWalCostFrost.mp hestimate
      simp only [bind, Except.bind]
      constructor
      · intro hd
        refine ⟨prices, state, cost, rfl, hstate, hcost, ?_⟩
        split at hd
        · rename_i heval
          cases hd
          exact heval
        · cases hd
      · intro ⟨prices', state', cost', hprices', hstate', hcost', heval⟩
        cases hprices'
        rw [hstate, Except.ok.injEq] at hstate'
        subst hstate'
        rw [hcost, Except.ok.injEq] at hcost'
        subst hcost'
        split
        · rename_i decision hdecision
          cases hdecision.symm.trans heval
          rfl
        · rename_i message hfailed
          cases hfailed.symm.trans heval

/-- A check of a smaller escrow in the same token, when the larger one is refused. -/
theorem breakEvenCheck_refuses (ho : ∀ c : Call, ¬c.ReadsEscrow → o' c = o c) {e e' : EscrowInfo}
    (htoken : e'.originToken = e.originToken) (hle : e'.escrowNative ≤ e.escrowNative) {sizeBytes epochs : Nat}
    {d : BreakEvenDecision} (hd : result o (breakEvenCheck fl cfg e sizeBytes epochs) = .ok d)
    (hrefused : d.proceed = false) :
    ∃ d', result o' (breakEvenCheck fl cfg e' sizeBytes epochs) = .ok d' ∧ d'.proceed = false := by
  obtain ⟨prices, state, cost, hprices, hstate, hcost, heval⟩ := result_breakEvenCheck.mp hd
  obtain ⟨d', heval', hrefused'⟩ := evaluateBreakEven_refuses hle heval hrefused
  have hinputs : guardInputs cfg e' cost prices =
      { guardInputs cfg e cost prices with escrowNative := e'.escrowNative } := by
    simp only [guardInputs, htoken]
  refine ⟨d', result_breakEvenCheck.mpr ⟨prices, state, cost, ?_, ?_, hcost, ?_⟩, hrefused'⟩
  · exact (ho .getPrices id).trans hprices
  · exact (ho .systemState id).trans hstate
  · rw [hinputs]
    exact heval'

theorem breakEvenGuard_refused (hon : (cfg.breakEvenEnabled && cfg.guarded && row.walrusObjectId.isNone) = true)
    {e : EscrowInfo} (hshown : shownEscrow cfg row o = some e) {epochs : Nat} {d : BreakEvenDecision}
    (hd : result o (breakEvenCheck fl cfg e (row.size.getD 0) epochs) = .ok d) (hrefused : d.proceed = false) :
    result o (breakEvenGuard fl cfg row epochs) = .ok (.error d.reason) := by
  unfold breakEvenGuard
  rw [if_pos hon, result_bind, result_getEscrow, hshown]
  show result o (breakEvenCheck fl cfg e (row.size.getD 0) epochs >>= fun d =>
    if (!d.proceed) = true then pure (.error d.reason) else
      (pure (.ok (some d)) : Program (Except String (Option BreakEvenDecision)))) = _
  rw [result_bind, hd]
  show result o (if (!d.proceed) = true then pure (.error d.reason) else
      (pure (.ok (some d)) : Program (Except String (Option BreakEvenDecision)))) = _
  rw [hrefused]
  rfl

/-- The guard of an attempt whose escrow is no larger than one that it refuses. -/
theorem breakEvenGuard_refuses (ho : ∀ c : Call, ¬c.ReadsEscrow → o' c = o c) {e e' : EscrowInfo}
    (hshown : shownEscrow cfg row o = some e) (hshown' : shownEscrow cfg row o' = some e')
    (htoken : e'.originToken = e.originToken) (hle : e'.escrowNative ≤ e.escrowNative) {epochs : Nat} {reason : String}
    (hrefused : result o (breakEvenGuard fl cfg row epochs) = .ok (.error reason)) :
    ∃ reason', result o' (breakEvenGuard fl cfg row epochs) = .ok (.error reason') := by
  unfold breakEvenGuard at hrefused
  split at hrefused
  · rename_i hon
    rw [result_bind, result_getEscrow, hshown] at hrefused
    have hcheck : (result o (breakEvenCheck fl cfg e (row.size.getD 0) epochs) >>= fun d =>
        result o (if (!d.proceed) = true then pure (.error d.reason) else
          (pure (.ok (some d)) : Program (Except String (Option BreakEvenDecision))))) = .ok (.error reason) := by
      rw [← result_bind]
      exact hrefused
    cases hd : result o (breakEvenCheck fl cfg e (row.size.getD 0) epochs) with
    | error err =>
      rw [hd] at hcheck
      cases hcheck
    | ok d =>
      rw [hd] at hcheck
      replace hcheck : result o (if (!d.proceed) = true then pure (.error d.reason) else
        (pure (.ok (some d)) : Program (Except String (Option BreakEvenDecision)))) = .ok (.error reason) := hcheck
      cases hproceed : d.proceed with
      | true =>
        rw [hproceed] at hcheck
        cases hcheck
      | false =>
        obtain ⟨d', hd', hproceed'⟩ := breakEvenCheck_refuses ho htoken hle hd hproceed
        exact ⟨d'.reason, breakEvenGuard_refused hon hshown' hd' hproceed'⟩
  · cases hrefused

/-- The call uploads nothing. -/
def Call.NoUpload (c : Call) : Prop := ∀ id bytes epochs, c ≠ .writeBlob id bytes epochs

theorem storeEpochs_noUpload : Calls Call.NoUpload (storeEpochs cfg row) := by
  refine storeEpochs_calls.mono fun c hc => ?_
  cases c <;> first | exact fun _ _ _ => Call.noConfusion | exact hc.elim

theorem breakEvenGuard_noUpload (epochs : Nat) : Calls Call.NoUpload (breakEvenGuard fl cfg row epochs) := by
  refine (breakEvenGuard_calls epochs).mono fun c hc => ?_
  cases c <;> first | exact fun _ _ _ => Call.noConfusion | exact hc.elim

theorem markDead_noUpload (text : String) (b : Booking) :
    Calls Call.NoUpload (call (.markDead row.intentId text) >>= fun _ => (pure b : Program Booking)) :=
  Calls.bind (calls_call fun _ _ _ => Call.noConfusion) fun _ => trivial

/-- An attempt whose escrow is no larger than one that the guard refuses buys no upload. -/
theorem store_refuses (ho : ∀ c : Call, ¬c.ReadsEscrow → o' c = o c) {e e' : EscrowInfo}
    (hshown : shownEscrow cfg row o = some e) (hshown' : shownEscrow cfg row o' = some e')
    (htoken : e'.originToken = e.originToken) (hle : e'.escrowNative ≤ e.escrowNative) (hrefused : Refused fl cfg row o)
    (sender : String) (commitment : Option IntentCommitment) :
    ∀ c ∈ trace o' (store fl cfg row sender commitment), ∀ id bytes epochs, c ≠ .writeBlob id bytes epochs := by
  obtain ⟨epochs, reason, hepochs, hguard⟩ := hrefused
  obtain ⟨reason', hguard'⟩ := breakEvenGuard_refuses ho hshown hshown' htoken hle hguard
  have hsame : result o' (storeEpochs cfg row) = .ok (.ok epochs) := by
    rw [storeEpochs_calls.result_congr fun c hc => ho c ?_, hepochs]
    cases c <;> first | exact hc.elim | exact id
  unfold store
  dsimp only
  split
  · exact (markDead_noUpload _ _).trace
  · refine trace_bind storeEpochs_noUpload.trace fun resolution hresolution => ?_
    rw [hsame, Except.ok.injEq] at hresolution
    subst hresolution
    refine trace_bind (breakEvenGuard_noUpload epochs).trace fun verdict hverdict => ?_
    rw [hguard', Except.ok.injEq] at hverdict
    subst hverdict
    exact (markDead_noUpload _ _).trace

/-- The read of the Solana vault failed. -/
def VaultUnread (cfg : Config) (row : StagedIntentRow) (h : Told) : Prop :=
  row.srcEid = some cfg.solanaSrcEid ∧ ∃ err, ⟨.getAccountInfo row.intentId, .error err⟩ ∈ h

/-- With the guard on, an upload is bought only for an escrow that covers it, or when none is shown, unless the Solana
vault could not be read; and no attempt buys one whose escrow is no larger than one that is refused at the same
answers. -/
theorem upload_guarded (henabled : cfg.breakEvenEnabled = true) (hprovided : cfg.guarded = true) :
    (∀ σ τ p r id bytes epochs, Queue.Leads fl cfg (fun _ _ => True) .empty σ →
      QueueStep fl cfg σ (.call p r (.writeBlob id bytes epochs)) τ → ∃ proc run, σ.processes p = some proc ∧
        proc.runs r = some run ∧ run.row.intentId = id ∧
        (∃ h, Async.Leads (store fl cfg run.row run.sender run.commitment) h run.work.program) ∧
        ∀ h, Async.Leads (store fl cfg run.row run.sender run.commitment) h run.work.program →
          ¬VaultUnread cfg run.row h → EscrowRead cfg run.row h none ∨
            ∃ e, EscrowRead cfg run.row h (some e) ∧ Covers fl cfg run.row h epochs e) ∧
    ∀ (row : StagedIntentRow) (o o' : Replies) (e e' : EscrowInfo) sender commitment,
      (∀ c : Call, ¬c.ReadsEscrow → o' c = o c) → shownEscrow cfg row o = some e → shownEscrow cfg row o' = some e' →
      e'.originToken = e.originToken → e'.escrowNative ≤ e.escrowNative → Refused fl cfg row o →
      ∀ c ∈ trace o' (store fl cfg row sender commitment), ∀ id bytes epochs, c ≠ .writeBlob id bytes epochs := by
  refine ⟨fun σ τ p r id bytes epochs hrun hstep => ?_, fun row o o' e e' sender commitment ho hshown hshown' htoken hle
    hrefused => store_refuses ho hshown hshown' htoken hle hrefused sender commitment⟩
  cases hstep with
  | own hp hown =>
    cases hown with
    | @call _ run _ next a landed hr hwork hanswer hlanded =>
      have hprogram : run.work.program = .await (.writeBlob id bytes epochs) next := by
        rw [hwork]
        rfl
      obtain ⟨h, hlead, hid, -⟩ := (hrun.follows hp r run hr).rests hwork
      refine ⟨_, run, hp, hr, hid.symm, ⟨h, hprogram ▸ hlead⟩, fun h hlead _ => ?_⟩
      rw [hprogram] at hlead
      obtain ⟨-, -, hvetted⟩ := (wp_leads (store_rests fl cfg run.row run.sender run.commitment) hlead).1
      exact hvetted henabled hprovided

/-! ## A read that fails -/

/-- A relayer with the guard on. -/
def exampleGuarded : Config := { exampleConfig with breakEvenEnabled := true }

/-- The run that its first tick starts. -/
def exampleGuardedRun : Run :=
  startedRun .exact exampleGuarded 0 (claimedRow "a" 0 600000 exampleRow "0x01") "0xab" exampleCommitment

/-- The upload of that run, as soon as the run awaits it. -/
theorem exampleGuarded_uploads {next : Except Failure WalrusBlob → Program Booking}
    (hserved : Served (fun _ => True) 0 (store .exact exampleGuarded exampleGuardedRun.row "0xab"
      (some exampleCommitment))
      (Rows.one "0x01" exampleHeld) {} (.await (.writeBlob "0x01" [7] 1) next) (Rows.one "0x01" exampleHeld) {}) :
    ∃ σ τ proc, Queue.Leads .exact exampleGuarded (fun _ _ => True) .empty σ ∧ σ.processes "a" = some proc ∧
      proc.runs 0 = some { exampleGuardedRun with work := .awaiting (.writeBlob "0x01" [7] 1) next } ∧
      QueueStep .exact exampleGuarded σ (.call "a" 0 (.writeBlob "0x01" [7] 1)) τ := by
  have hp : exampleAlone.processes "a" = some { drainedAt := 0 } := rfl
  obtain ⟨proc, htick, hruns, -⟩ := Queue.tick_one exampleGuarded .exact (k := 0) (r := 0)
    (c := exampleCommitment) hp rfl rfl rfl rfl rfl rfl (by decide) (by decide) (by decide) (by decide) rfl (by decide)
  let started : Queue :=
    { exampleAlone with
      rows := Rows.one "0x01" exampleHeld
      processes := Function.update exampleAlone.processes "a" (some proc) }
  have hstarted : Queue.Leads .exact exampleGuarded (fun _ _ => True) .empty started :=
    (exampleAlone_leads exampleGuarded .exact (fun _ => trivial) (fun _ _ => trivial) fun _ _ => trivial).trans
      (htick.mono fun _ _ _ => trivial)
  have hr : proc.runs 0 = some exampleGuardedRun := by
    rw [hruns]
    rfl
  have hpa : started.processes "a" = some proc := rfl
  let uploading : Run := { exampleGuardedRun with work := .answered (.await (.writeBlob "0x01" [7] 1) next) }
  let ready : Queue :=
    { started with processes := Function.update started.processes "a" (some (proc.setRun 0 uploading)) }
  have hready : ready.processes "a" = some (proc.setRun 0 uploading) := rfl
  have hrun : Queue.Leads .exact exampleGuarded (fun _ _ => True) .empty ready :=
    hstarted.trans (Queue.serves exampleGuarded .exact hpa hr rfl hserved (fun _ => trivial) fun _ _ _ => trivial)
  obtain ⟨hresume, hcall⟩ := Queue.serve exampleGuarded .exact hready (proc.setRun_self 0 uploading) rfl
    (.ok ⟨exampleBlobId, "0xb10b", 9⟩) trivial
  exact ⟨_, _, _, hrun.step hresume trivial, rfl, (proc.setRun 0 uploading).setRun_self 0 _, hcall⟩

/-- No escrow is shown. -/
def Unshown (cfg : Config) (row : StagedIntentRow) (h : Told) : Prop := ∀ e, ¬EscrowRead cfg row h (some e)

theorem Unshown.append {h : Told} (hnone : Unshown cfg row h) {c : Call} (hc : ¬c.ReadsEscrow)
    (r : Except Failure c.Answer) : Unshown cfg row (h ++ [⟨c, r⟩]) := by
  intro e hread
  apply hnone e
  unfold EscrowRead at hread ⊢
  split
  · rename_i hsol
    rw [if_pos hsol] at hread
    split
    · rename_i hconf
      rw [if_pos hconf] at hread
      obtain ⟨a, ha, he⟩ := hread
      obtain hold | hnew := List.mem_append.mp ha
      · exact ⟨a, hold, he⟩
      · cases List.mem_singleton.mp hnew
        exact absurd trivial hc
    · rename_i hconf
      rwa [if_neg hconf] at hread
  · rename_i hevm
    rw [if_neg hevm] at hread
    obtain ⟨a, ha, he⟩ := hread
    obtain hold | hnew := List.mem_append.mp ha
    · exact ⟨a, hold, he⟩
    · cases List.mem_singleton.mp hnew
      exact absurd trivial hc

theorem unshown_nil : Unshown cfg row [] := by
  intro e hread
  unfold EscrowRead at hread
  split at hread
  · split at hread
    · obtain ⟨a, ha, -⟩ := hread
      cases ha
    · cases hread
  · obtain ⟨a, ha, -⟩ := hread
    cases ha

/-- What no read of an escrow is part of shows none. -/
theorem Unshown.frame {α : Type} {p : Program α} (hp : Calls (fun c => ¬c.ReadsEscrow) p) {h : Told}
    (hnone : Unshown cfg row h) : wp (fun _ _ => True) (fun h _ => Unshown cfg row h) h p :=
  wp_frame (I := Unshown cfg row) (fun _ _ r hc hI => hI.append hc r) (fun _ _ _ _ => trivial) (fun _ _ => id) hp hnone

/-- The guard that comes to no decision was shown no escrow. -/
theorem breakEvenGuard_unshown (epochs : Nat) {h : Told} (hnone : Unshown cfg row h) :
    wp (fun _ _ => True) (fun h r => r = .ok (.ok none) → Unshown cfg row h) h (breakEvenGuard fl cfg row epochs) := by
  unfold breakEvenGuard
  split
  · rw [wp_bind]
    refine wp_mono (getEscrow_read fl cfg row h) (fun _ _ _ => trivial) fun h' r hr => ?_
    obtain ⟨found, rfl, -, hshown⟩ := hr
    rw [andThen_ok]
    cases found with
    | none =>
      intro _ e hread
      obtain hold | hnew := hshown _ hread
      · exact hnone e hold
      · cases hnew
    | some e =>
      rw [wp_bind]
      refine wp_mono (wp_ends _) (fun _ _ _ => trivial) fun h r _ => ?_
      cases r with
      | error err => nofun
      | ok d =>
        rw [andThen_ok]
        split
        · nofun
        · nofun
  · exact fun _ => hnone

/-- An attempt that books nothing was shown no escrow. -/
theorem store_unshown (sender : String) (commitment : Option IntentCommitment) :
    wp (fun _ _ => True) (fun h r => r = .ok .nothing → Unshown cfg row h) []
      (store fl cfg row sender commitment) := by
  have skipped : ∀ (h : Told) (text reason : String),
      wp (fun _ _ => True) (fun h r => r = .ok .nothing → Unshown cfg row h) h
        (call (.markDead row.intentId text) >>= fun _ => (pure (.skip reason) : Program Booking)) := by
    intro h text reason
    rw [wp_bind]
    refine (wp_call _).mpr ⟨trivial, fun r => ?_⟩
    cases r <;> nofun
  unfold store
  dsimp only
  split
  · refine wp_mono (Unshown.frame ?_ unshown_nil) (fun _ _ => id) fun _ _ hnone _ => hnone
    exact Calls.bind (calls_call id) fun _ => trivial
  · rw [wp_bind]
    have hcalls : Calls (fun c => ¬c.ReadsEscrow) (storeEpochs cfg row) := by
      refine storeEpochs_calls.mono fun c hc => ?_
      cases c <;> first | exact hc.elim | exact id
    have hnil : Unshown cfg row [] := unshown_nil
    refine wp_mono (hnil.frame hcalls) (fun _ _ => id) fun h r hnone => ?_
    cases r with
    | error err => nofun
    | ok resolution =>
      rw [andThen_ok]
      cases resolution with
      | error reason =>
        exact skipped _ _ _
      | ok epochs =>
        simp only
        rw [wp_bind]
        refine wp_mono (breakEvenGuard_unshown epochs hnone) (fun _ _ => id) fun h r hr => ?_
        cases r with
        | error err => nofun
        | ok verdict =>
          rw [andThen_ok]
          cases verdict with
          | error reason =>
            exact skipped _ _ _
          | ok decision =>
            simp only
            rw [wp_bind]
            cases decision with
            | none =>
              refine wp_mono (Unshown.frame ((fulfil_calls _ _ _).mono fun _ => And.right) (hr rfl)) (fun _ _ => id)
                fun h r hnone => ?_
              cases r with
              | error err => nofun
              | ok _ => exact fun _ => hnone
            | some d =>
              refine wp_mono (wp_ends _) (fun _ _ _ => trivial) fun h r _ => ?_
              cases r <;> nofun

/-- A history whose answers lead on to an end that books nothing shows no escrow. -/
theorem Unshown.of_result {sender : String} {commitment : Option IntentCommitment} {h : Told} {p : Program Booking}
    (hlead : Async.Leads (store fl cfg row sender commitment) h p) (hend : result o p = .ok .nothing) :
    Unshown cfg row h := by
  obtain ⟨h', -, hnone⟩ := wp_result (wp_leads (store_unshown sender commitment) hlead) o
  exact fun e hread => hnone hend e (hread.append h')

/-- Answers under which the read of the escrow reverts, and all else succeeds. -/
def exampleReverting : Replies
  | .systemState => .ok ⟨1000, 1, 1, 53⟩
  | .evmGetEscrow _ => .error (.error "execution reverted")
  | .ensureWal => .ok ()
  | .recordHop .. => .ok ()
  | .fetchBytes _ => .ok (some [7])
  | .writeBlob .. => .ok ⟨exampleBlobId, "0xb10b", 9⟩
  | .persistUpload .. => .ok ()
  | .executeStore .. => .ok "0xd16e57"
  | .waitForTransaction _ => .ok ()
  | .persistStore .. => .ok ()
  | .recordLedger .. => .ok true
  | .markLedgered _ => .ok ()
  | .freeBytes _ => .ok ()
  | .quoteLzFee .. => .ok 1
  | .lzSendProof .. => .ok "0x5e4d"
  | .markReturned _ => .ok ()
  | .markDone _ => .ok ()
  | _ => .error (.error "no reply")

/-- What a run is told then, up to its upload. -/
def exampleTold : Told := [⟨.systemState, .ok ⟨1000, 1, 1, 53⟩⟩,
  ⟨.evmGetEscrow "0x01", .error (.error "execution reverted")⟩, ⟨.ensureWal, .ok ()⟩,
    ⟨.recordHop "0x01" .received { sender := some "0xab" }, .ok ()⟩, ⟨.fetchBytes "0x01", .ok (some [7])⟩]

theorem exampleGuarded_served : ∃ next,
    Async.Leads (store .exact exampleGuarded exampleGuardedRun.row "0xab" (some exampleCommitment)) exampleTold
      (.await (.writeBlob "0x01" [7] 1) next) ∧
    Served (fun _ => True) 0 (store .exact exampleGuarded exampleGuardedRun.row "0xab" (some exampleCommitment))
      (Rows.one "0x01" exampleHeld) {} (.await (.writeBlob "0x01" [7] 1) next) (Rows.one "0x01" exampleHeld) {} := by
  have h0 : Async.Leads
      (store .exact exampleGuarded exampleGuardedRun.row "0xab" (some exampleCommitment)) [] _ := .start
  have h1 := Async.Leads.answer (c := Call.systemState) h0 (.ok ⟨1000, 1, 1, 53⟩)
  have h2 := Async.Leads.answer (c := Call.evmGetEscrow "0x01") h1 (.error (.error "execution reverted"))
  have h3 := Async.Leads.answer (c := Call.ensureWal) h2 (.ok ())
  have h4 := Async.Leads.answer (c := Call.recordHop "0x01" .received { sender := some "0xab" }) h3 (.ok ())
  have h5 := Async.Leads.answer (c := Call.fetchBytes "0x01") h4 (.ok (some [7]))
  have s0 : Served (fun _ => True) 0 (store .exact exampleGuarded exampleGuardedRun.row "0xab" (some exampleCommitment))
      (Rows.one "0x01" exampleHeld) {} _ (Rows.one "0x01" exampleHeld) {} := .start
  have s1 := s0.read (c := .systemState) (.ok ⟨1000, 1, 1, 53⟩) trivial trivial rfl rfl rfl
  have s2 := s1.read (c := .evmGetEscrow "0x01") (.error (.error "execution reverted")) trivial trivial rfl rfl rfl
  have s3 := s2.read (c := .ensureWal) (.ok ()) trivial trivial rfl rfl rfl
  have s4 := s3.read (c := .recordHop "0x01" .received { sender := some "0xab" }) (.ok ()) trivial trivial rfl rfl rfl
  have s5 := s4.read (c := .fetchBytes "0x01") (.ok (some [7])) trivial rfl rfl rfl rfl
  exact ⟨_, h5, s5⟩

/-- A read of the escrow that reverts, and the upload that follows it: whatever the attempt was told by then, it shows
no escrow. -/
theorem upload_unguarded :
    ∃ σ τ proc run, Queue.Leads .exact exampleGuarded (fun _ _ => True) .empty σ ∧
      QueueStep .exact exampleGuarded σ (.call "a" 0 (.writeBlob "0x01" [7] 1)) τ ∧ σ.processes "a" = some proc ∧
      proc.runs 0 = some run ∧
      (∃ h, Async.Leads (store .exact exampleGuarded run.row run.sender run.commitment) h run.work.program) ∧
      ∀ h, Async.Leads (store .exact exampleGuarded run.row run.sender run.commitment) h run.work.program →
        ∀ e, ¬EscrowRead exampleGuarded run.row h (some e) := by
  obtain ⟨next, hlead, hserved⟩ := exampleGuarded_served
  obtain ⟨σ, τ, proc, hrun, hp, hr, hstep⟩ := exampleGuarded_uploads hserved
  refine ⟨σ, τ, proc, _, hrun, hstep, hp, hr, ⟨exampleTold, hlead⟩, fun h hother => ?_⟩
  have hanswers : ∀ x ∈ exampleTold, x.2 = exampleReverting x.1 := by
    intro x hx
    simp only [exampleTold, List.mem_cons, List.not_mem_nil, or_false] at hx
    obtain rfl | rfl | rfl | rfl | rfl := hx <;> rfl
  -- the attempt goes on to its end, and books nothing
  have hend : result exampleReverting
      (store .exact exampleGuarded exampleGuardedRun.row "0xab" (some exampleCommitment)) = .ok .nothing := rfl
  exact Unshown.of_result hother ((hlead.result hanswers).symm.trans hend)

/-- Answers that show a pending escrow of an amount, at a dollar for every token. -/
def exampleReplies (amount : Nat) : Replies
  | .systemState => .ok ⟨1000, 1, 1, 53⟩
  | .evmGetEscrow _ => .ok ⟨ZERO_ADDRESS, amount, EVM_ESCROW_PENDING⟩
  | .getPrices => .ok fun _ => 1
  | _ => .error (.error "no reply")

theorem exampleReplies_shown {amount : Nat} (hpos : 0 < amount) :
    shownEscrow exampleGuarded exampleGuardedRun.row (exampleReplies amount) = some ⟨amount, .ETH⟩ := by
  have hzero : ZERO_ADDRESS.toLower = ZERO_ADDRESS := by decide +kernel
  have hpending : EVM_ESCROW_PENDING = EVM_ESCROW_PENDING ∧ 0 < amount ∧ ZERO_ADDRESS.toLower = ZERO_ADDRESS :=
    ⟨rfl, hpos, hzero⟩
  exact if_pos hpending

/-- An escrow of two wei is refused. -/
theorem exampleReplies_refused : Refused .exact exampleGuarded exampleGuardedRun.row (exampleReplies 2) := by
  let inputs := guardInputs exampleGuarded ⟨2, .ETH⟩ 126 fun _ => 1
  obtain ⟨d, hd⟩ : ∃ d, evaluateBreakEven .exact inputs = .ok d := by
    unfold evaluateBreakEven requirePrice
    exact ⟨_, rfl⟩
  have hcost : computeWalCost 1 1 ⟨1000, 1, 1, 53⟩ = .ok 126 := by decide
  have hcheck : result (exampleReplies 2) (breakEvenCheck .exact exampleGuarded ⟨2, .ETH⟩ 1 1) = .ok d :=
    result_breakEvenCheck.mpr ⟨fun _ => 1, _, 126, rfl, rfl, hcost, hd⟩
  have hshort : ¬requiredUsd .exact inputs ≤ escrowUsd .exact inputs := by
    show ¬Rounding.mul .exact _ _ ≤ amountToUsd .exact 2 18 1
    norm_num [inputs, guardInputs, costUsd, amountToUsd, toUnits, Rounding.mul, Rounding.div,
      Rounding.add, Rounding.ofNat,
      Rounding.exact, FROST_DECIMALS, MIST_DECIMALS, exampleGuarded, exampleConfig]
  have hrefused : d.proceed = false := by
    rw [← Bool.not_eq_true, (evaluateBreakEven_ok hd).2.2.2.2]
    exact hshort
  have hshown := exampleReplies_shown (show 0 < 2 by omega)
  exact ⟨1, d.reason, rfl, breakEvenGuard_refused rfl hshown hcheck hrefused⟩

/-- An upload of an intent whose escrow is not read, and the smaller of two escrows that are too small. -/
theorem upload_guarded_small : (∃ σ τ, QueueStep .exact exampleGuarded σ (.call "a" 0 (.writeBlob "0x01" [7] 1)) τ ∧
    ∃ proc run, σ.processes "a" = some proc ∧ proc.runs 0 = some run ∧ run.row.intentId = "0x01" ∧
      (∃ h, Async.Leads (store .exact exampleGuarded run.row run.sender run.commitment) h run.work.program) ∧
      ∀ h, Async.Leads (store .exact exampleGuarded run.row run.sender run.commitment) h run.work.program →
        ¬VaultUnread exampleGuarded run.row h → EscrowRead exampleGuarded run.row h none ∨
          ∃ e, EscrowRead exampleGuarded run.row h (some e) ∧ Covers .exact exampleGuarded run.row h 1 e) ∧
    ∀ c ∈ trace (exampleReplies 1) (store .exact exampleGuarded exampleGuardedRun.row "0xab" none),
      ∀ id bytes epochs, c ≠ .writeBlob id bytes epochs := by
  obtain ⟨next, -, hserved⟩ := exampleGuarded_served
  obtain ⟨σ, τ, proc, hrun, -, -, hstep⟩ := exampleGuarded_uploads hserved
  refine ⟨⟨σ, τ, hstep, (upload_guarded rfl rfl).1 σ τ "a" 0 "0x01" [7] 1 hrun hstep⟩, ?_⟩
  refine (upload_guarded rfl rfl).2 exampleGuardedRun.row (exampleReplies 2) (exampleReplies 1) ⟨2, .ETH⟩
    ⟨1, .ETH⟩ "0xab"
    none (fun c hc => ?_) (exampleReplies_shown (by omega)) (exampleReplies_shown (by omega)) rfl
      (by decide) exampleReplies_refused
  cases c <;> first | rfl | exact absurd trivial hc

end Bosphor.Relayer

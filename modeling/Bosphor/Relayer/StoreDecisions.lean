import Bosphor.Relayer.StoreEffects

/-!
# What the pipeline decides by

By the time it spends, the pipeline has been told what it decides by: an upload
is for the epochs that were resolved and passed the guard, and the object that
is persisted or recorded is one that Walrus answered, or that the row had
(`store_rests`).
-/

namespace Bosphor.Relayer

open StagedIntentStore Async

/-- The calls a run has made, with their answers. -/
abbrev Told := History Call Call.Answer Failure

/-- The committed epochs that the pipeline knows of: from its row, or read from Sui. -/
def knownEpochs (row : StagedIntentRow) (h : Told) : Option Nat :=
  row.storageEpochs.orElse fun _ => h.findSome? fun
    | ⟨.readCommittedStorageEpochs _, .ok epochs⟩ => some epochs
    | _ => none

/-- The store is for the committed epochs, if they are known. -/
def Resolved (row : StagedIntentRow) (h : Told) (epochs : Nat) : Prop :=
  ∀ committed, knownEpochs row h = some committed → epochs = max committed 1

/-- The pending native escrow that a read of the EVM adapter shows, if it shows one. -/
def evmEscrow : Except Failure EvmEscrow → Option EscrowInfo
  | .ok e =>
    if e.status = EVM_ESCROW_PENDING ∧ 0 < e.amount ∧ e.token.toLower = ZERO_ADDRESS then
      some ⟨e.amount, .ETH⟩
    else none
  | .error _ => none

/-- The pending escrow that a read of the Solana vault shows, if it shows one. -/
def solanaEscrow : Except Failure (Option (List UInt8)) → Option EscrowInfo
  | .ok acc =>
    match acc.bind decodeVault with
    | some (amount, status) => if status = SOLANA_ESCROW_PENDING ∧ 0 < amount then some ⟨amount, .SOL⟩ else none
    | none => none
  | .error _ => none

/-- The escrow was read, and `e` is what the read shows. -/
def EscrowRead (cfg : Config) (row : StagedIntentRow) (h : Told) (e : Option EscrowInfo) : Prop :=
  if row.srcEid = some cfg.solanaSrcEid then
    if cfg.solanaConfigured then ∃ a, ⟨.getAccountInfo row.intentId, a⟩ ∈ h ∧ solanaEscrow a = e else e = none
  else ∃ a, ⟨.evmGetEscrow row.intentId, a⟩ ∈ h ∧ evmEscrow a = e

/-- What the guard weighs an escrow by. -/
def guardInputs (cfg : Config) (e : EscrowInfo) (cost : Nat) (prices : PriceSet) : BreakEvenInputs :=
  ⟨e.escrowNative, e.originToken, cost, cfg.guardReturnLzFeeMist, cfg.guardSuiGasMist, cfg.minMarginRatio, prices⟩

/-- The escrow covers the recomputed cost with its margin, at the prices that were read. -/
def Covers (fl : Rounding) (cfg : Config) (row : StagedIntentRow) (h : Told) (epochs : Nat) (e : EscrowInfo) : Prop :=
  ∃ (prices : PriceSet) (state : WalrusSystemState) (cost : Nat),
    ⟨.getPrices, .ok prices⟩ ∈ h ∧ ⟨.systemState, .ok state⟩ ∈ h ∧
    computeWalCost (row.size.getD 0) epochs state = .ok cost ∧
    requiredUsd fl (guardInputs cfg e cost prices) ≤ escrowUsd fl (guardInputs cfg e cost prices)

/-- The guard was passed: no escrow was shown, or one that covers the cost. -/
def Vetted (fl : Rounding) (cfg : Config) (row : StagedIntentRow) (h : Told) (epochs : Nat) : Prop :=
  cfg.breakEvenEnabled = true → cfg.guarded = true → EscrowRead cfg row h none ∨
    ∃ e, EscrowRead cfg row h (some e) ∧ Covers fl cfg row h epochs e

/-- Walrus answered an upload of the intent with the object. -/
def Bought (row : StagedIntentRow) (h : Told) (objectId : String) : Prop :=
  ∃ bytes epochs info, ⟨.writeBlob row.intentId bytes epochs, .ok info⟩ ∈ h ∧ info.objectId = objectId

/-- What a call of the pipeline rests on, given what it was told before. -/
def Rests (fl : Rounding) (cfg : Config) (row : StagedIntentRow) (h : Told) : Call → Prop
  | .writeBlob id _ epochs => id = row.intentId ∧ Resolved row h epochs ∧ Vetted fl cfg row h epochs
  | .persistUpload id up => id = row.intentId ∧ Bought row h up.walrusObjectId
  | .executeStore id _ objectId _ => id = row.intentId ∧ (row.walrusObjectId = some objectId ∨ Bought row h objectId)
  | _ => True

variable {fl : Rounding} {cfg : Config} {row : StagedIntentRow} {h : Told} {epochs : Nat} {α : Type}

/-! ## What is told is not forgotten -/

theorem EscrowRead.append {e : Option EscrowInfo} (hread : EscrowRead cfg row h e) (h' : Told) :
    EscrowRead cfg row (h ++ h') e := by
  unfold EscrowRead at hread ⊢
  split
  · rename_i hsol
    rw [if_pos hsol] at hread
    split
    · rename_i hconf
      rw [if_pos hconf] at hread
      obtain ⟨a, ha, he⟩ := hread
      exact ⟨a, List.mem_append_left _ ha, he⟩
    · rename_i hconf
      rwa [if_neg hconf] at hread
  · rename_i hevm
    rw [if_neg hevm] at hread
    obtain ⟨a, ha, he⟩ := hread
    exact ⟨a, List.mem_append_left _ ha, he⟩

/-- What a read of the Solana vault adds to what was shown. -/
theorem escrowRead_vault (hsol : row.srcEid = some cfg.solanaSrcEid) (hconf : cfg.solanaConfigured = true)
    (a : Except Failure (Option (List UInt8))) (e : Option EscrowInfo) :
    EscrowRead cfg row (h ++ [⟨.getAccountInfo row.intentId, a⟩]) e ↔ EscrowRead cfg row h e ∨ solanaEscrow a = e := by
  unfold EscrowRead
  simp only [if_pos hsol, if_pos hconf, List.mem_append, List.mem_singleton, Sigma.mk.injEq, heq_eq_eq, true_and,
    or_and_right, exists_or, exists_eq_left]

/-- What a read of the EVM adapter adds to what was shown. -/
theorem escrowRead_adapter (hevm : row.srcEid ≠ some cfg.solanaSrcEid) (a : Except Failure EvmEscrow)
    (e : Option EscrowInfo) :
    EscrowRead cfg row (h ++ [⟨.evmGetEscrow row.intentId, a⟩]) e ↔ EscrowRead cfg row h e ∨ evmEscrow a = e := by
  unfold EscrowRead
  simp only [if_neg hevm, List.mem_append, List.mem_singleton, Sigma.mk.injEq, heq_eq_eq, true_and, or_and_right,
    exists_or, exists_eq_left]

theorem Covers.append {e : EscrowInfo} (hcovers : Covers fl cfg row h epochs e) (h' : Told) :
    Covers fl cfg row (h ++ h') epochs e := by
  obtain ⟨prices, state, cost, hprices, hstate, hrest⟩ := hcovers
  exact ⟨prices, state, cost, List.mem_append_left _ hprices, List.mem_append_left _ hstate, hrest⟩

theorem Vetted.append (hvetted : Vetted fl cfg row h epochs) (h' : Told) : Vetted fl cfg row (h ++ h') epochs := by
  intro henabled hprovided
  obtain hnone | ⟨e, hread, hcovers⟩ := hvetted henabled hprovided
  · exact Or.inl (hnone.append h')
  · exact Or.inr ⟨e, hread.append h', hcovers.append h'⟩

theorem Bought.append {objectId : String} (hbought : Bought row h objectId) (h' : Told) :
    Bought row (h ++ h') objectId := by
  obtain ⟨bytes, epochs, info, hmem, hobject⟩ := hbought
  exact ⟨bytes, epochs, info, List.mem_append_left _ hmem, hobject⟩

/-- The call is no read of the committed epochs. -/
def Call.KeepsEpochs : Call → Prop
  | .readCommittedStorageEpochs _ => False
  | _ => True

theorem knownEpochs_append {c : Call} (hc : c.KeepsEpochs) (r : Except Failure c.Answer) :
    knownEpochs row (h ++ [⟨c, r⟩]) = knownEpochs row h := by
  unfold knownEpochs
  rw [List.findSome?_append]
  cases c <;> first | exact hc.elim | simp

theorem Resolved.append (hresolved : Resolved row h epochs) {c : Call} (hc : c.KeepsEpochs)
    (r : Except Failure c.Answer) : Resolved row (h ++ [⟨c, r⟩]) epochs := by
  intro committed hknown
  rw [knownEpochs_append hc] at hknown
  exact hresolved committed hknown

/-! ## The steps -/

theorem GuardCall.rests {c : Call} (hc : GuardCall row c) : Rests fl cfg row h c := by
  cases c <;> first | exact hc.elim | trivial

theorem GuardCall.keepsEpochs {c : Call} (hc : GuardCall row c) : c.KeepsEpochs := by
  cases c <;> first | exact hc.elim | trivial

theorem Call.Quiet.rests {c : Call} (hc : c.Quiet) : Rests fl cfg row h c := by
  cases c <;> first | exact hc.elim | trivial

theorem Call.Quiet.keepsEpochs {c : Call} (hc : c.Quiet) : c.KeepsEpochs := by
  cases c <;> first | exact hc.elim | trivial

/-- A quiet step before the rest of a program. -/
theorem wp_quiet_bind {I : Told → Prop} (hI : ∀ h c (r : Except Failure c.Answer), Call.Quiet c → I h →
    I (h ++ [⟨c, r⟩]))
    {p : Program Unit} {rest : Program α} (hp : Calls (QuietCall row) p) (h₀ : I h)
    (hrest : ∀ h, I h → wp (Rests fl cfg row) (fun _ _ => True) h rest) :
    wp (Rests fl cfg row) (fun _ _ => True) h (p >>= fun _ => rest) := by
  rw [wp_bind]
  refine wp_frame (fun h c r hc => hI h c r hc.2) (fun h c _ hc => hc.2.rests) (fun h r hr => ?_) hp h₀
  cases r with
  | ok _ => exact hrest h hr
  | error err => trivial

theorem committedEpochs_known :
    wp (Rests fl cfg row) (fun h r => ∀ committed, r = .ok committed → knownEpochs row h = committed) []
      (committedEpochs row) := by
  unfold committedEpochs
  cases hrow : row.storageEpochs with
  | some epochs =>
    intro committed hcommitted
    cases hcommitted
    simp [knownEpochs, hrow]
  | none =>
    rw [wp_tryCatch, wp_bind, wp_call]
    refine ⟨trivial, fun r => ?_⟩
    cases r with
    | ok epochs =>
      intro committed hcommitted
      cases hcommitted
      simp [knownEpochs, hrow]
    | error e =>
      intro committed hcommitted
      cases hcommitted
      simp [knownEpochs, hrow]

theorem walrusResolveStoreEpochs_resolved {committed : Option Nat} (hknown : knownEpochs row h = committed) :
    wp (Rests fl cfg row) (fun h r => ∀ epochs source, r = .ok (.accepted epochs source) → Resolved row h epochs) h
      (walrusResolveStoreEpochs cfg committed) := by
  unfold walrusResolveStoreEpochs
  split
  · intro epochs source hr
    cases hr
  · rw [wp_bind, wp_call]
    refine ⟨trivial, fun r => ?_⟩
    have hstill : knownEpochs row (h ++ [⟨.systemState, r⟩]) = committed :=
      (knownEpochs_append (c := .systemState) trivial r).trans hknown
    cases r with
    | error e =>
      intro epochs source hr
      cases hr
    | ok sys =>
      show wp _ _ _ (if sys.maxEpochsAhead < 1 then _ else _)
      split
      · intro epochs source hr
        cases hr
      · intro epochs source hr k hk
        rw [hstill] at hk
        subst hk
        rw [Except.ok.injEq] at hr
        exact (resolveStoreEpochs_committed hr).1

theorem storeEpochs_resolved :
    wp (Rests fl cfg row) (fun h r => ∀ epochs, r = .ok (.ok epochs) → row.walrusObjectId = none →
      Resolved row h epochs) []
      (storeEpochs cfg row) := by
  unfold storeEpochs
  rw [wp_bind]
  refine wp_mono committedEpochs_known (fun _ _ => id) fun h r hr => ?_
  cases r with
  | error e =>
    intro epochs he
    cases he
  | ok committed =>
    show wp _ _ h (walrusResolveStoreEpochs cfg committed >>= _)
    rw [wp_bind]
    refine wp_mono (walrusResolveStoreEpochs_resolved (hr committed rfl)) (fun _ _ => id) fun h r hr => ?_
    cases r with
    | error e =>
      intro epochs he
      cases he
    | ok resolution =>
      cases resolution with
      | accepted epochs source =>
        intro epochs' he _
        cases he
        exact hr epochs source rfl
      | rejected reason =>
        show wp _ _ h (if row.walrusObjectId.isSome then _ else _)
        split
        · rename_i hsome
          intro epochs he hnone
          rw [hnone] at hsome
          cases hsome
        · intro epochs he
          cases he

/-- The reader answers with what its read of the vault shows. -/
theorem getEscrow_vault (hsol : row.srcEid = some cfg.solanaSrcEid) (hconf : cfg.solanaConfigured = true) :
    wp (fun _ c => c = .getAccountInfo row.intentId) (fun h' r => ∃ a, h' = h ++ [⟨.getAccountInfo row.intentId, a⟩] ∧
        r = .ok (solanaEscrow a)) h
      (getEscrow cfg row.intentId row.srcEid) := by
  unfold getEscrow
  rw [if_pos hsol, wp_bind, solanaGetEscrow, if_pos hconf, wp_tryCatch, wp_bind, wp_call]
  refine ⟨rfl, fun a => ?_⟩
  cases a with
  | error err => exact ⟨_, rfl, rfl⟩
  | ok acc =>
    simp only [andThen_ok, wp_pure, orElse_ok]
    cases hvault : acc.bind decodeVault with
    | none => exact ⟨.ok acc, rfl, by simp only [solanaEscrow, hvault]⟩
    | some vault =>
      obtain ⟨amount, status⟩ := vault
      by_cases hpending : status = SOLANA_ESCROW_PENDING ∧ 0 < amount
      · have hyes : ¬(status ≠ SOLANA_ESCROW_PENDING ∨ amount = 0) := by omega
        simp only [if_neg hyes]
        exact ⟨.ok acc, rfl, by simp only [solanaEscrow, hvault, if_pos hpending]⟩
      · have hno : status ≠ SOLANA_ESCROW_PENDING ∨ amount = 0 := by omega
        simp only [if_pos hno]
        exact ⟨.ok acc, rfl, by simp only [solanaEscrow, hvault, if_neg hpending]⟩

/-- The reader answers with what its read of the adapter shows. -/
theorem getEscrow_adapter (hevm : row.srcEid ≠ some cfg.solanaSrcEid) :
    wp (fun _ c => c = .evmGetEscrow row.intentId) (fun h' r => ∃ a, h' = h ++ [⟨.evmGetEscrow row.intentId, a⟩] ∧
        r = .ok (evmEscrow a)) h
      (getEscrow cfg row.intentId row.srcEid) := by
  unfold getEscrow
  rw [if_neg hevm, wp_bind, evmGetEscrow, wp_tryCatch, wp_bind, wp_call]
  refine ⟨rfl, fun a => ?_⟩
  cases a with
  | error err => exact ⟨_, rfl, rfl⟩
  | ok found =>
    simp only [andThen_ok, wp_pure, orElse_ok]
    by_cases hpending : found.status = EVM_ESCROW_PENDING ∧ 0 < found.amount ∧ found.token.toLower = ZERO_ADDRESS
    · have hsome : found.status ≠ 0 := by
        rw [hpending.1]
        decide
      have hyes : ¬(found.status ≠ EVM_ESCROW_PENDING ∨ found.amount = 0) := by omega
      simp only [if_neg hsome, if_neg hyes, if_neg (not_not.mpr hpending.2.2)]
      exact ⟨.ok found, rfl, by simp only [evmEscrow, if_pos hpending]⟩
    · have hshown : evmEscrow (.ok found) = none := by simp only [evmEscrow, if_neg hpending]
      by_cases hstatus : found.status = 0
      · simp only [if_pos hstatus]
        exact ⟨.ok found, rfl, congrArg Except.ok hshown.symm⟩
      · simp only [if_neg hstatus]
        split
        · exact ⟨.ok found, rfl, congrArg Except.ok hshown.symm⟩
        · have htoken : found.token.toLower ≠ ZERO_ADDRESS := fun heq => hpending ⟨by omega, by omega, heq⟩
          rw [if_pos htoken]
          exact ⟨.ok found, rfl, congrArg Except.ok hshown.symm⟩

/-- What a read shows is shown, and nothing else that was not shown before. -/
theorem escrowRead_shown {h' : Told} {shown : Option EscrowInfo}
    (hread : ∀ e, EscrowRead cfg row h' e ↔ EscrowRead cfg row h e ∨ shown = e) :
    EscrowRead cfg row h' shown ∧ ∀ e', EscrowRead cfg row h' e' → EscrowRead cfg row h e' ∨ e' = shown :=
  ⟨(hread shown).mpr (Or.inr rfl), fun e' he' => ((hread e').mp he').imp_right Eq.symm⟩

variable (fl cfg row h) in
/-- The reader answers with what its read shows, and nothing else is shown by it. -/
theorem getEscrow_read :
    wp (Rests fl cfg row) (fun h' r => ∃ e, r = .ok e ∧ EscrowRead cfg row h' e ∧
        ∀ e', EscrowRead cfg row h' e' → EscrowRead cfg row h e' ∨ e' = e) h
      (getEscrow cfg row.intentId row.srcEid) := by
  by_cases hsol : row.srcEid = some cfg.solanaSrcEid
  · by_cases hconf : cfg.solanaConfigured = true
    · refine wp_mono (getEscrow_vault hsol hconf) (fun _ _ hc => hc ▸ trivial) ?_
      rintro _ _ ⟨a, rfl, rfl⟩
      exact ⟨solanaEscrow a, rfl, escrowRead_shown (escrowRead_vault hsol hconf a)⟩
    · unfold getEscrow
      rw [if_pos hsol, wp_bind, solanaGetEscrow, if_neg hconf]
      refine ⟨none, rfl, ?_, fun e' he' => Or.inl he'⟩
      rw [EscrowRead, if_pos hsol, if_neg hconf]
  · refine wp_mono (getEscrow_adapter hsol) (fun _ _ hc => hc ▸ trivial) ?_
    rintro _ _ ⟨a, rfl, rfl⟩
    exact ⟨evmEscrow a, rfl, escrowRead_shown (escrowRead_adapter hsol a)⟩

theorem breakEvenCheck_covers (e : EscrowInfo) (epochs : Nat) :
    wp (Rests fl cfg row) (fun h r => ∀ d, r = .ok d → d.proceed = true → Covers fl cfg row h epochs e) h
      (breakEvenCheck fl cfg e (row.size.getD 0) epochs) := by
  unfold breakEvenCheck estimateWalCostFrost
  rw [wp_bind, wp_call]
  refine ⟨trivial, fun r => ?_⟩
  cases r with
  | error err =>
    intro d hd
    cases hd
  | ok prices =>
    rw [andThen_ok, wp_bind, wp_bind, wp_call]
    refine ⟨trivial, fun r => ?_⟩
    cases r with
    | error err =>
      intro d hd
      cases hd
    | ok state =>
      rw [andThen_ok]
      cases hcost : computeWalCost (row.size.getD 0) epochs state with
      | error message =>
        intro d hd
        cases hd
      | ok cost =>
        simp only [wp_pure, andThen_ok]
        split
        · rename_i decision hdecision
          intro d hd hproceed
          have hpaid := (evaluateBreakEven_ok hdecision).2.2.2.2
          cases hd
          exact ⟨prices, state, cost, by simp, by simp, hcost, hpaid.mp hproceed⟩
        · intro d hd
          cases hd

theorem breakEvenGuard_vetted (hnone : row.walrusObjectId = none) (epochs : Nat) :
    wp (Rests fl cfg row) (fun h r => ∀ d, r = .ok (.ok d) → Vetted fl cfg row h epochs) h
      (breakEvenGuard fl cfg row epochs) := by
  unfold breakEvenGuard
  split
  · rename_i hon
    rw [wp_bind]
    refine wp_mono (getEscrow_read fl cfg row _) (fun _ _ => id) fun h r hr => ?_
    obtain ⟨found, rfl, hread, -⟩ := hr
    · rw [andThen_ok]
      cases found with
      | none => exact fun d hd henabled hprovided => Or.inl hread
      | some e =>
        simp only
        rw [wp_bind]
        -- the read of the escrow is still there when the prices have been read
        have hcalls : Calls (GuardCall row) (breakEvenCheck fl cfg e (row.size.getD 0) epochs) :=
          breakEvenCheck_calls _ _ _
        refine wp_mono (wp_keep (I := fun h => EscrowRead cfg row h (some e)) (fun h c r _ hI => hI.append _)
          (breakEvenCheck_covers e epochs) hcalls hread) (fun _ _ => id) fun h r hr => ?_
        cases r with
        | error err =>
          intro d hd
          cases hd
        | ok decision =>
          simp only [andThen_ok]
          split
          · intro d hd
            cases hd
          · rename_i hproceed
            have hpass : decision.proceed = true := by simpa using hproceed
            exact fun d hd henabled hprovided => Or.inr ⟨e, hr.2, hr.1 decision rfl hpass⟩
  · rename_i hoff
    intro d hd henabled hprovided
    rw [henabled, hprovided, hnone] at hoff
    exact absurd rfl hoff

theorem upload_bought (hresolved : Resolved row h epochs) (hvetted : Vetted fl cfg row h epochs) (bytes : List UInt8) :
    wp (Rests fl cfg row) (fun h r => ∀ info, r = .ok info → Bought row h info.objectId) h
      (upload row.intentId bytes epochs) := by
  have hbought : ∀ (h : Told) info, Bought row
      (h ++ [⟨.writeBlob row.intentId bytes epochs, .ok info⟩]) info.objectId :=
    fun h info => ⟨bytes, epochs, info, by simp, rfl⟩
  -- after the upload the system state is read for the metrics
  have hmetrics : ∀ (h : Told) info, Bought row h info.objectId →
      wp (Rests fl cfg row) (fun h r => ∀ info, r = .ok info → Bought row h info.objectId) h
        (tryCatch (do let _ ← call .systemState; return ()) (fun _ => return ()) >>= fun _ =>
          (pure info : Program WalrusBlob)) := by
    intro h info hbuy
    rw [wp_bind, wp_tryCatch, wp_bind, wp_call]
    refine ⟨trivial, fun r => ?_⟩
    cases r with
    | ok state =>
      intro info' hinfo
      cases hinfo
      exact hbuy.append _
    | error err =>
      intro info' hinfo
      cases hinfo
      exact hbuy.append _
  unfold upload
  split
  · intro info hinfo
    cases hinfo
  · simp only
    rw [wp_bind, wp_tryCatch, wp_call]
    refine ⟨⟨rfl, hresolved, hvetted⟩, fun r => ?_⟩
    cases r with
    | ok info => exact hmetrics _ info (hbought h info)
    | error err =>
      rw [orElse_error]
      split
      · rw [wp_call]
        refine ⟨⟨rfl, hresolved.append (c := .writeBlob row.intentId bytes epochs) trivial _, hvetted.append _⟩,
          fun r => ?_⟩
        cases r with
        | ok info => exact hmetrics _ info (hbought _ info)
        | error err' =>
          intro info hinfo
          cases hinfo
      · intro info hinfo
        cases hinfo

theorem uploadStep_bought
    (hdecided : row.walrusObjectId = none → Resolved row h epochs ∧ Vetted fl cfg row h epochs) :
    wp (Rests fl cfg row)
      (fun h r => ∀ up, r = .ok up → row.walrusObjectId = some up.walrusObjectId ∨ Bought row h up.walrusObjectId) h
      (uploadStep row epochs) := by
  unfold uploadStep
  cases hrow : row.walrusObjectId with
  | some objectId =>
    intro up hup
    cases hup
    exact Or.inl rfl
  | none =>
    obtain ⟨hresolved, hvetted⟩ := hdecided hrow
    simp only
    rw [wp_bind, wp_call]
    refine ⟨trivial, fun r => ?_⟩
    cases r with
    | error err =>
      intro up hup
      cases hup
    | ok found =>
      rw [andThen_ok]
      cases found with
      | none =>
        intro up hup
        cases hup
      | some bytes =>
        simp only
        rw [wp_bind]
        refine wp_mono (upload_bought (hresolved.append (c := .fetchBytes row.intentId) trivial _)
          (hvetted.append _) bytes) (fun _ _ => id) fun h r hr => ?_
        cases r with
        | error err =>
          intro up hup
          cases hup
        | ok info =>
          rw [andThen_ok, wp_bind]
          refine (wp_call _).mpr ⟨⟨rfl, hr info rfl⟩, fun r => ?_⟩
          cases r with
          | error err =>
            intro up hup
            cases hup
          | ok _ =>
            intro up hup
            cases hup
            exact Or.inr ((hr info rfl).append _)

theorem recordStep_rests (sender : String) (commitment : Option IntentCommitment) {objectId : String}
    (hobject : row.walrusObjectId = some objectId ∨ Bought row h objectId) :
    wp (Rests fl cfg row) (fun _ _ => True) h (recordStep row sender commitment objectId) := by
  unfold recordStep
  cases row.storeDigest with
  | some digest => trivial
  | none =>
    simp only
    rw [wp_bind, wp_tryCatch, wp_bind, wp_call]
    refine ⟨⟨rfl, hobject⟩, fun r => ?_⟩
    have hpersist : ∀ (h : Told) (digest : String), wp (Rests fl cfg row) (fun _ _ => True) h
        (call (.persistStore row.intentId digest) >>= fun _ => (pure digest : Program String)) := by
      intro h digest
      rw [wp_bind]
      exact (wp_call _).mpr ⟨trivial, fun r => by cases r <;> trivial⟩
    have hcaught : ∀ (h : Told) (err : Failure), wp (Rests fl cfg row)
        (andThen (Rests fl cfg row) (fun _ _ => True)
          fun digest => call (.persistStore row.intentId digest) >>= fun _ => (pure digest : Program String)) h
        (if alreadyExecuted err.text then pure ALREADY_RECORDED else throw err) := by
      intro h err
      split
      · exact hpersist h ALREADY_RECORDED
      · trivial
    cases r with
    | error err => exact hcaught _ err
    | ok digest =>
      rw [andThen_ok, wp_bind]
      refine (wp_call _).mpr ⟨trivial, fun r => ?_⟩
      cases r with
      | error err => exact hcaught _ err
      | ok _ => exact hpersist _ digest

theorem fulfil_rests (sender : String) (commitment : Option IntentCommitment)
    (hdecided : row.walrusObjectId = none → Resolved row h epochs ∧ Vetted fl cfg row h epochs) :
    wp (Rests fl cfg row) (fun _ _ => True) h (fulfil cfg row sender commitment epochs) := by
  have hkeep : ∀ (h : Told) (c : Call) (r : Except Failure c.Answer), c.Quiet →
      (row.walrusObjectId = none → Resolved row h epochs ∧ Vetted fl cfg row h epochs) →
      (row.walrusObjectId = none → Resolved row (h ++ [⟨c, r⟩]) epochs ∧ Vetted fl cfg row (h ++ [⟨c, r⟩]) epochs) :=
    fun h c r hc hd hnone => ⟨(hd hnone).1.append hc.keepsEpochs r, (hd hnone).2.append _⟩
  unfold fulfil
  refine wp_quiet_bind hkeep (calls_call ⟨trivial, trivial⟩) hdecided fun h hdecided => ?_
  refine wp_quiet_bind hkeep (trackHop_calls _ _) hdecided fun h hdecided => ?_
  rw [wp_bind]
  refine wp_mono (uploadStep_bought hdecided) (fun _ _ => id) fun h r hr => ?_
  cases r with
  | error err => trivial
  | ok up =>
    rw [andThen_ok]
    have hstill : ∀ (h : Told) (c : Call) (r : Except Failure c.Answer), c.Quiet →
        (row.walrusObjectId = some up.walrusObjectId ∨ Bought row h up.walrusObjectId) →
        (row.walrusObjectId = some up.walrusObjectId ∨ Bought row (h ++ [⟨c, r⟩]) up.walrusObjectId) :=
      fun h c r _ hobject => hobject.imp_right fun hbought => hbought.append _
    refine wp_quiet_bind hstill (trackHop_calls _ _) (hr up rfl) fun h hobject => ?_
    rw [wp_bind]
    refine wp_mono (recordStep_rests sender commitment hobject) (fun _ _ => id) fun h r _ => ?_
    cases r with
    | error err => trivial
    | ok digest =>
      rw [andThen_ok]
      -- what comes after the record rests on nothing
      have hnothing : ∀ (h : Told) (c : Call) (r : Except Failure c.Answer), c.Quiet → True → True :=
        fun _ _ _ _ _ => trivial
      refine wp_quiet_bind hnothing (trackHop_calls _ _) trivial fun h _ => ?_
      refine wp_quiet_bind hnothing (ledgerStep_calls _) trivial fun h _ => ?_
      refine wp_quiet_bind hnothing (calls_call ⟨rfl, trivial⟩) trivial fun h _ => ?_
      refine wp_quiet_bind hnothing (returnStep_calls _) trivial fun h _ => ?_
      exact (wp_call _).mpr ⟨trivial, fun _ => trivial⟩

variable (fl cfg row) in
/-- The calls of the pipeline rest on what it was told. -/
theorem store_rests (sender : String) (commitment : Option IntentCommitment) :
    wp (Rests fl cfg row) (fun _ _ => True) [] (store fl cfg row sender commitment) := by
  have hdead : ∀ (h : Told) (text : String) (b : Booking),
      wp (Rests fl cfg row) (fun _ _ => True) h
        (call (.markDead row.intentId text) >>= fun _ => (pure b : Program Booking)) := by
    intro h text b
    rw [wp_bind]
    exact (wp_call _).mpr ⟨trivial, fun r => by cases r <;> trivial⟩
  unfold store
  dsimp only
  split
  · exact hdead [] _ _
  · rw [wp_bind]
    refine wp_mono storeEpochs_resolved (fun _ _ => id) fun h r hr => ?_
    cases r with
    | error err => trivial
    | ok resolution =>
      rw [andThen_ok]
      cases resolution with
      | error reason => exact hdead h _ _
      | ok epochs =>
        simp only
        rw [wp_bind]
        have hresolved := hr epochs rfl
        have hguard : wp (Rests fl cfg row) (fun h r => ∀ d, r = .ok (.ok d) → row.walrusObjectId = none →
            Resolved row h epochs ∧ Vetted fl cfg row h epochs) h (breakEvenGuard fl cfg row epochs) := by
          by_cases hnone : row.walrusObjectId = none
          · refine wp_mono (wp_keep (I := fun h => Resolved row h epochs)
              (fun h c r hc hI => hI.append hc.keepsEpochs r)
              (breakEvenGuard_vetted hnone epochs) (breakEvenGuard_calls epochs) (hresolved hnone)) (fun _ _ => id)
              fun h r hr d hd _ => ⟨hr.2, hr.1 d hd⟩
          · exact wp_frame (I := fun _ => True) (fun _ _ _ _ _ => trivial) (fun h c _ hc => hc.rests)
              (fun h r _ d _ hnone' => absurd hnone' hnone) (breakEvenGuard_calls epochs) trivial
        refine wp_mono hguard (fun _ _ => id) fun h r hr => ?_
        cases r with
        | error err => trivial
        | ok verdict =>
          rw [andThen_ok]
          cases verdict with
          | error reason => exact hdead h _ _
          | ok decision =>
            simp only
            rw [wp_bind]
            refine wp_mono (fulfil_rests sender commitment (hr decision rfl)) (fun _ _ => id) fun h r _ => ?_
            cases r <;> trivial

/-- What the call that a run awaits rests on. -/
theorem Run.Follows.rests {run : Run} (hfollows : run.Follows fl cfg) {c : Call}
    {next : Except Failure c.Answer → Program Booking} (hwork : run.work = .awaiting c next) :
    ∃ h, Async.Leads (store fl cfg run.row run.sender run.commitment) h (.await c next) ∧ Rests fl cfg run.row h c := by
  obtain ⟨h, hlead⟩ := hfollows
  rw [hwork] at hlead
  have hrests := wp_leads (store_rests fl cfg run.row run.sender run.commitment) hlead
  exact ⟨h, hlead, hrests.1⟩

end Bosphor.Relayer

import Bosphor.Codec.TypeScript
import Bosphor.Relayer.QuoteEngine
import Bosphor.Relayer.UploadGuard

/-!
# Durations of quotes and stores

A quote is priced for a number of epochs, and the store that follows resolves
the committed number again: the quote under the configured cap alone, the store
under that cap and Walrus's own. They agree exactly where the smaller cap does
not bind what the quote lets through (`durations_agree_iff`); a number between
the two caps is quoted and paid for, and not stored (`quoted_unstorable`).
What is stored is in any case what was priced, and covers what was committed.
-/

namespace Bosphor.Relayer

open Async
open Ts (JsNumber)

/-! ## Any number -/

/-- The number that passes `Number.isInteger(n)` and is not negative. -/
def toCount : JsNumber → Option Nat
  | .finite q => if q.den = 1 ∧ 0 ≤ q.num then some q.num.toNat else none
  | _ => none

theorem toCount_natCast (n : Nat) : toCount (.finite n) = some n := by
  simp only [toCount, Rat.den_natCast, Rat.num_natCast, Int.natCast_nonneg, and_self, if_true, Int.toNat_natCast]

-- how a number is written into a message
variable (text : JsNumber → String)

/-- The first half of `quote(req)`: the epochs that a request is priced for. -/
def QuoteService.pricedEpochs (service : QuoteService) (epochs : Option JsNumber) : Except String Nat :=
  match epochs with
  | none => .ok service.storeEpochs
  | some x =>
    match toCount x with
    | none => .error s!"epochs must be an integer between 0 and {service.maxStoreEpochs} (got {text x})"
    | some n =>
      if n > service.maxStoreEpochs then
        .error s!"epochs must be an integer between 0 and {service.maxStoreEpochs} (got {n})"
      else .ok (max n WALRUS_MIN_EPOCHS)

/-- `quote({ ...req, epochs })`, whatever number the epochs are. -/
def QuoteService.quoteFor (fl : Rounding) (service : QuoteService) (market : Market) (epochs : Option JsNumber)
    (req : QuoteRequest) : Except String Quote := do
  let epochs ← service.pricedEpochs text epochs
  let prices ← market.prices
  let walCostFrost ← computeWalCost req.sizeBytes epochs (← market.systemState)
  service.engineConfig.quote fl {
    originToken := req.originToken
    walCostFrost
    returnLzFeeMist := service.returnLzFeeMist
    suiGasMist := service.suiGasMist
    forwardLzFeeNative := req.forwardLzFeeNative.getD 0
    originGasNative := req.originGasNative.getD 0 } prices

/-- `resolveStoreEpochs(committed, policy)`, whatever number is committed. -/
def resolveStoreEpochsOf (committed : Option JsNumber) (policy : StoreEpochsPolicy) : StoreEpochsResolution :=
  match committed with
  | none => resolveStoreEpochs none policy
  | some x =>
    match toCount x with
    | none => .rejected s!"invalid committed storage epochs {text x}"
    | some n => resolveStoreEpochs (some n) policy

/-- `WalrusService.resolveStoreEpochs(committed)`. -/
def walrusResolveStoreEpochsOf (cfg : Config) (committed : Option JsNumber) : Program StoreEpochsResolution :=
  match resolveStoreEpochsOf text committed ⟨cfg.storeEpochs, cfg.maxEpochs⟩ with
  | .rejected reason => return .rejected reason
  | .accepted .. => do
    let sys ← call .systemState
    if sys.maxEpochsAhead < 1 then
      throw (.error s!"Walrus system state has no valid max_epochs_ahead ({sys.maxEpochsAhead})")
    return resolveStoreEpochsOf text committed ⟨cfg.storeEpochs, min cfg.maxEpochs sys.maxEpochsAhead⟩

/-- The number of a row or a request that holds a natural one. -/
def ofCount (n : Nat) : JsNumber := .finite n

theorem quoteFor_count (fl : Rounding) (service : QuoteService) (market : Market) (req : QuoteRequest) :
    service.quoteFor text fl market (req.epochs.map ofCount) req = service.quote fl market req := by
  cases hepochs : req.epochs with
  | none => simp only [QuoteService.quoteFor, QuoteService.quote, QuoteService.pricedEpochs, badRequestIf, hepochs,
      Option.map_none, Option.any_none, Bool.false_eq_true, if_false, Result.ok_bind, Option.getD_none]
  | some n =>
    simp only [QuoteService.quoteFor, QuoteService.quote, QuoteService.pricedEpochs, badRequestIf, hepochs,
      Option.map_some, Option.any_some, ofCount, toCount_natCast, decide_eq_true_eq, Option.getD_some]
    by_cases hmax : n > service.maxStoreEpochs
    · simp only [if_pos hmax, Result.error_bind]
    · simp only [if_neg hmax, Result.ok_bind]

theorem resolveStoreEpochsOf_count (committed : Option Nat) (policy : StoreEpochsPolicy) :
    resolveStoreEpochsOf text (committed.map ofCount) policy = resolveStoreEpochs committed policy := by
  cases committed with
  | none => rfl
  | some n => simp only [resolveStoreEpochsOf, Option.map_some, ofCount, toCount_natCast]

theorem walrusResolveStoreEpochsOf_count (cfg : Config) (committed : Option Nat) :
    walrusResolveStoreEpochsOf text cfg (committed.map ofCount) = walrusResolveStoreEpochs cfg committed := by
  unfold walrusResolveStoreEpochsOf walrusResolveStoreEpochs
  cases hresolved : resolveStoreEpochs committed ⟨cfg.storeEpochs, cfg.maxEpochs⟩ with
  | accepted epochs source => simp only [resolveStoreEpochsOf_count, hresolved]
  | rejected reason => simp only [resolveStoreEpochsOf_count, hresolved]

/-! ## Acceptance -/

variable {text}

theorem pricedEpochs_ok {service : QuoteService} {n : Nat} {epochs : Option JsNumber} :
    service.pricedEpochs text epochs = .ok n ↔ (epochs = none ∧ n = service.storeEpochs) ∨
      ∃ x k, epochs = some x ∧ toCount x = some k ∧ k ≤ service.maxStoreEpochs ∧ n = max k 1 := by
  cases epochs with
  | none => simp [QuoteService.pricedEpochs, eq_comm]
  | some x =>
    cases hcount : toCount x with
    | none => simp [QuoteService.pricedEpochs, hcount]
    | some k =>
      by_cases hmax : k > service.maxStoreEpochs
      · simp [QuoteService.pricedEpochs, hcount, hmax]
      · simp [QuoteService.pricedEpochs, hcount, hmax, WALRUS_MIN_EPOCHS, eq_comm]
        omega

theorem resolveStoreEpochsOf_accepted {policy : StoreEpochsPolicy} {n : Nat} {source : EpochsSource}
    {committed : Option JsNumber} :
    resolveStoreEpochsOf text committed policy = .accepted n source ↔
      (committed = none ∧ policy.defaultEpochs ≤ policy.maxEpochs ∧ n = policy.defaultEpochs ∧
        source = .legacyDefault) ∨
      ∃ x k, committed = some x ∧ toCount x = some k ∧ k ≤ policy.maxEpochs ∧ n = max k 1 ∧ source = .committed := by
  cases committed with
  | none =>
    by_cases hmax : policy.defaultEpochs > policy.maxEpochs
    · simp [resolveStoreEpochsOf, resolveStoreEpochs, hmax]
    · simp [resolveStoreEpochsOf, resolveStoreEpochs, hmax, eq_comm]
      omega
  | some x =>
    cases hcount : toCount x with
    | none => simp [resolveStoreEpochsOf, hcount]
    | some k =>
      by_cases hmax : k > policy.maxEpochs
      · simp [resolveStoreEpochsOf, resolveStoreEpochs, hcount, hmax]
      · simp [resolveStoreEpochsOf, resolveStoreEpochs, hcount, hmax, WALRUS_MIN_EPOCHS, eq_comm]
        omega

/-- A larger cap accepts what a smaller one does. -/
theorem resolveStoreEpochsOf_mono {defaultEpochs cap cap' n : Nat} {source : EpochsSource} {committed : Option JsNumber}
    (hcap : cap ≤ cap') (h : resolveStoreEpochsOf text committed ⟨defaultEpochs, cap⟩ = .accepted n source) :
    resolveStoreEpochsOf text committed ⟨defaultEpochs, cap'⟩ = .accepted n source := by
  rw [resolveStoreEpochsOf_accepted] at h ⊢
  rcases h with ⟨hnone, hle, hn, hsource⟩ | ⟨x, k, hx, hk, hle, hn, hsource⟩
  · exact Or.inl ⟨hnone, hle.trans hcap, hn, hsource⟩
  · exact Or.inr ⟨x, k, hx, hk, hle.trans hcap, hn, hsource⟩

variable {fl : Rounding} {cfg : Config} {row : StagedIntentRow} {o : Replies} {sys : WalrusSystemState}

/-- The two caps, one after the other, are one cap at the smaller of them. -/
theorem result_walrusResolve (hlive : o .systemState = .ok sys) {committed : Option JsNumber} {n : Nat}
    {source : EpochsSource} :
    result o (walrusResolveStoreEpochsOf text cfg committed) = .ok (.accepted n source) ↔ 1 ≤ sys.maxEpochsAhead ∧
      resolveStoreEpochsOf text committed ⟨cfg.storeEpochs, min cfg.maxEpochs sys.maxEpochsAhead⟩ =
        .accepted n source := by
  have hsmaller : min cfg.maxEpochs sys.maxEpochsAhead ≤ cfg.maxEpochs := Nat.min_le_left ..
  unfold walrusResolveStoreEpochsOf
  cases hfirst : resolveStoreEpochsOf text committed ⟨cfg.storeEpochs, cfg.maxEpochs⟩ with
  | rejected reason =>
    rw [result_pure, Except.ok.injEq]
    constructor
    · intro h
      cases h
    · rintro ⟨-, h⟩
      rw [resolveStoreEpochsOf_mono hsmaller h] at hfirst
      cases hfirst
  | accepted m source' =>
    simp only [result_bind, result_call, hlive, Result.ok_bind]
    by_cases hvalid : sys.maxEpochsAhead < 1
    · rw [if_pos hvalid]
      constructor
      · intro h
        cases h
      · intro h
        exact absurd h.1 (by omega)
    · rw [if_neg hvalid, result_pure, Except.ok.injEq]
      exact ⟨fun h => ⟨by omega, h⟩, And.right⟩

/-! ## What is bought -/

/-- If the call buys storage, then for that many epochs. -/
def Call.BuysFor (epochs : Nat) (c : Call) : Prop := ∀ id blob k, c = .writeBlob id blob k → k = epochs

theorem QuietCall.buysFor {epochs : Nat} {c : Call} (h : QuietCall row c) : c.BuysFor epochs := by
  rintro id blob k rfl
  exact h.2.elim

theorem uploadStep_buysFor (epochs : Nat) : Calls (Call.BuysFor epochs) (uploadStep row epochs) := by
  have hwrite : ∀ bytes, Call.BuysFor epochs (.writeBlob row.intentId bytes epochs) := by
    intro bytes id blob k h
    cases h
    rfl
  unfold uploadStep
  cases row.walrusObjectId with
  | some objectId => trivial
  | none =>
    refine Calls.bind (calls_call fun _ _ _ => Call.noConfusion) fun found => ?_
    split
    · refine Calls.bind ?_ fun info => Calls.bind (calls_call fun _ _ _ => Call.noConfusion) fun _ => trivial
      unfold upload
      split
      · trivial
      · refine Calls.bind (Calls.tryCatch (calls_call (hwrite _)) fun err => ?_) fun result => ?_
        · split
          · exact calls_call (hwrite _)
          · trivial
        · have hsys : Call.BuysFor epochs .systemState := fun _ _ _ => Call.noConfusion
          exact Calls.bind (Calls.tryCatch (Calls.bind (calls_call hsys) fun _ => trivial) fun _ => trivial)
            fun _ => trivial
    · trivial

theorem recordStep_buysFor (sender : String) (commitment : Option IntentCommitment) (walrusObjectId : String)
    (epochs : Nat) : Calls (Call.BuysFor epochs) (recordStep row sender commitment walrusObjectId) := by
  unfold recordStep
  cases row.storeDigest with
  | some digest => trivial
  | none =>
    refine Calls.bind (Calls.tryCatch ?_ fun err => ?_) fun digest => ?_
    · refine Calls.bind (calls_call fun _ _ _ => Call.noConfusion) fun digest => ?_
      exact Calls.bind (calls_call fun _ _ _ => Call.noConfusion) fun _ => trivial
    · split <;> trivial
    · exact Calls.bind (calls_call fun _ _ _ => Call.noConfusion) fun _ => trivial

theorem fulfil_buysFor (sender : String) (commitment : Option IntentCommitment) (epochs : Nat) :
    Calls (Call.BuysFor epochs) (fulfil cfg row sender commitment epochs) := by
  have hquiet : ∀ {p : Program Unit}, Calls (QuietCall row) p → Calls (Call.BuysFor epochs) p :=
    fun hp => hp.mono fun _ => QuietCall.buysFor
  unfold fulfil
  refine Calls.bind (calls_call fun _ _ _ => Call.noConfusion) fun _ => ?_
  refine Calls.bind (hquiet (trackHop_calls _ _)) fun _ => ?_
  refine Calls.bind (uploadStep_buysFor epochs) fun up => ?_
  refine Calls.bind (hquiet (trackHop_calls _ _)) fun _ => ?_
  refine Calls.bind (recordStep_buysFor _ _ _ _) fun digest => ?_
  refine Calls.bind (hquiet (trackHop_calls _ _)) fun _ => ?_
  refine Calls.bind (hquiet (ledgerStep_calls _)) fun _ => ?_
  refine Calls.bind (calls_call fun _ _ _ => Call.noConfusion) fun _ => ?_
  exact Calls.bind (hquiet (returnStep_calls _)) fun _ => calls_call fun _ _ _ => Call.noConfusion

/-- What the pipeline buys, it buys for the epochs that it resolved. -/
theorem store_buysFor {sender : String} {commitment : Option IntentCommitment} {c : Call}
    (hc : c ∈ trace o (store fl cfg row sender commitment)) {id : IntentId} {blob : List UInt8} {k : Nat}
    (hwrite : c = .writeBlob id blob k) : result o (storeEpochs cfg row) = .ok (.ok k) := by
  have hnone : ∀ {α : Type} {p : Program α}, Calls Call.NoUpload p → ∀ c ∈ trace o p, ∀ id blob k,
      c = .writeBlob id blob k → result o (storeEpochs cfg row) = .ok (.ok k) :=
    fun hp c hc id blob k hwrite => absurd hwrite (hp.trace c hc id blob k)
  suffices hall : ∀ c ∈ trace o (store fl cfg row sender commitment), ∀ id blob k, c = .writeBlob id blob k →
      result o (storeEpochs cfg row) = .ok (.ok k) from hall c hc id blob k hwrite
  unfold store
  dsimp only
  split
  · exact hnone (markDead_noUpload _ _)
  · refine trace_bind (hnone storeEpochs_noUpload) fun resolution hresolution => ?_
    cases resolution with
    | error reason => exact hnone (markDead_noUpload _ _)
    | ok epochs =>
      refine trace_bind (hnone (breakEvenGuard_noUpload epochs)) fun verdict hverdict => ?_
      cases verdict with
      | error reason => exact hnone (markDead_noUpload _ _)
      | ok decision =>
        have hfulfil : Calls (Call.BuysFor epochs) (fulfil cfg row sender commitment epochs >>= fun _ =>
            (pure (decision.elim .nothing fun d => .completion d.escrowUsd d.costUsd) : Program Booking)) :=
          Calls.bind (fulfil_buysFor sender commitment epochs) fun _ => calls_pure _
        intro c hc id blob k hwrite
        rw [hfulfil.trace c hc id blob k hwrite]
        exact hresolution

/-- A row without an upload is stored for as long as its committed number resolves to. -/
theorem storeEpochs_resolves {committed : Option Nat} {k : Nat} (hnone : row.walrusObjectId = none)
    (hcommitted : result o (committedEpochs row) = .ok committed) (h : result o (storeEpochs cfg row) = .ok (.ok k)) :
    ∃ source, result o (walrusResolveStoreEpochs cfg committed) = .ok (.accepted k source) := by
  unfold storeEpochs at h
  rw [result_next hcommitted, result_bind] at h
  obtain ⟨resolution, hresolution, h⟩ := Result.bind_ok.mp h
  cases resolution with
  | accepted epochs source =>
    cases h
    exact ⟨source, hresolution⟩
  | rejected reason =>
    simp only [hnone, Option.isSome_none, Bool.false_eq_true, if_false] at h
    cases h

/-- An upload is for a row without one. -/
theorem store_writes_none {sender : String} {commitment : Option IntentCommitment} {id : IntentId} {blob : List UInt8}
    {k : Nat} (hc : Call.writeBlob id blob k ∈ trace o (store fl cfg row sender commitment)) :
    row.walrusObjectId = none := by
  rcases (store_stores fl cfg row sender commitment).calls.trace _ hc with h | ⟨reason, h⟩
  · exact h.2
  · cases h

/-! ## The two paths -/

/-- The quote service of a relayer: its limits are those of the `WalrusService`. -/
def Config.quoteService (cfg : Config) (engineConfig : QuoteConfig) (returnLzFeeMist suiGasMist : Int) : QuoteService :=
  ⟨engineConfig, returnLzFeeMist, suiGasMist, cfg.maxEpochs, cfg.storeEpochs⟩

/-- A quote for some epochs, or for none, and a store of the same committed number agree. -/
structure DurationsAgree (text : JsNumber → String) (cfg : Config) (service : QuoteService) (o : Replies)
    (sys : WalrusSystemState) (epochs : Option JsNumber) : Prop where
  accepted : (∃ n, service.pricedEpochs text epochs = .ok n) ↔
    ∃ n source, result o (walrusResolveStoreEpochsOf text cfg epochs) = .ok (.accepted n source)
  same : ∀ n m source, service.pricedEpochs text epochs = .ok n →
    result o (walrusResolveStoreEpochsOf text cfg epochs) = .ok (.accepted m source) → m = n
  covers : ∀ x k n, epochs = some x → toCount x = some k → service.pricedEpochs text epochs = .ok n → k ≤ n
  bought : ∀ fl row sender commitment committed id blob k, result o (committedEpochs row) = .ok committed →
    epochs = committed.map ofCount → .writeBlob id blob k ∈ trace o (store fl cfg row sender commitment) →
    service.pricedEpochs text epochs = .ok k
  oneCap : 1 ≤ sys.maxEpochsAhead → ∀ n source,
    result o (walrusResolveStoreEpochsOf text cfg epochs) = .ok (.accepted n source) ↔
    resolveStoreEpochsOf text epochs ⟨cfg.storeEpochs, min cfg.maxEpochs sys.maxEpochsAhead⟩ = .accepted n source

/-- Walrus sells storage for as long as the quote is given, and the default is under the configured cap. -/
def Storable (cfg : Config) (walrusMax : Nat) : Option JsNumber → Prop
  | none => cfg.storeEpochs ≤ cfg.maxEpochs ∧ max cfg.storeEpochs 1 ≤ walrusMax
  | some x => ∀ n, toCount x = some n → n ≤ cfg.maxEpochs → max n 1 ≤ walrusMax

section

variable {engineConfig : QuoteConfig} {returnLzFeeMist suiGasMist : Int} {epochs : Option JsNumber} {n m : Nat}
  {source : EpochsSource}

/-- What the store resolves, the quote has been priced for. -/
theorem pricedEpochs_of_resolved (hlive : o .systemState = .ok sys)
    (h : result o (walrusResolveStoreEpochsOf text cfg epochs) = .ok (.accepted m source)) :
    (cfg.quoteService engineConfig returnLzFeeMist suiGasMist).pricedEpochs text epochs = .ok m := by
  obtain ⟨-, h⟩ := (result_walrusResolve hlive).mp h
  rw [resolveStoreEpochsOf_accepted] at h
  rw [pricedEpochs_ok]
  rcases h with ⟨hnone, -, hm, -⟩ | ⟨x, k, hx, hk, hle, hm, -⟩
  · exact Or.inl ⟨hnone, hm⟩
  · exact Or.inr ⟨x, k, hx, hk, hle.trans (Nat.min_le_left ..), hm⟩

/-- What the quote has been priced for, the store resolves if it can be stored. -/
theorem resolved_of_pricedEpochs (hlive : o .systemState = .ok sys) (hstorable : Storable cfg sys.maxEpochsAhead epochs)
    (h : (cfg.quoteService engineConfig returnLzFeeMist suiGasMist).pricedEpochs text epochs = .ok n) :
    ∃ source, result o (walrusResolveStoreEpochsOf text cfg epochs) = .ok (.accepted n source) := by
  rcases pricedEpochs_ok.mp h with ⟨rfl, hn⟩ | ⟨x, k, rfl, hk, hle, hn⟩
  · obtain ⟨hdefault, hlimit⟩ := hstorable
    refine ⟨.legacyDefault, (result_walrusResolve hlive).mpr ⟨by omega, ?_⟩⟩
    exact resolveStoreEpochsOf_accepted.mpr (Or.inl ⟨rfl, le_min hdefault (Nat.max_le.mp hlimit).1, hn, rfl⟩)
  · have hlimit : max k 1 ≤ sys.maxEpochsAhead := hstorable k hk hle
    refine ⟨.committed, (result_walrusResolve hlive).mpr ⟨by omega, ?_⟩⟩
    exact resolveStoreEpochsOf_accepted.mpr (Or.inr ⟨x, k, rfl, hk, le_min hle (by omega), hn, rfl⟩)

/-- What the quote lets through is stored only if it can be. -/
theorem storable_of_accepted (hlive : o .systemState = .ok sys)
    (h : (∃ n, (cfg.quoteService engineConfig returnLzFeeMist suiGasMist).pricedEpochs text epochs = .ok n) →
      ∃ n source, result o (walrusResolveStoreEpochsOf text cfg epochs) = .ok (.accepted n source)) :
    Storable cfg sys.maxEpochsAhead epochs := by
  cases epochs with
  | none =>
    obtain ⟨n, source, hresolved⟩ := h ⟨cfg.storeEpochs, pricedEpochs_ok.mpr (Or.inl ⟨rfl, rfl⟩)⟩
    obtain ⟨hvalid, hresolved⟩ := (result_walrusResolve hlive).mp hresolved
    rcases resolveStoreEpochsOf_accepted.mp hresolved with ⟨-, hle, -, -⟩ | ⟨x, k, hx, -⟩
    · have hcaps := Nat.le_min.mp hle
      exact ⟨hcaps.1, Nat.max_le.mpr ⟨hcaps.2, hvalid⟩⟩
    · cases hx
  | some x =>
    intro k hk hle
    obtain ⟨n, source, hresolved⟩ := h ⟨max k 1, pricedEpochs_ok.mpr (Or.inr ⟨x, k, rfl, hk, hle, rfl⟩)⟩
    obtain ⟨hvalid, hresolved⟩ := (result_walrusResolve hlive).mp hresolved
    rcases resolveStoreEpochsOf_accepted.mp hresolved with ⟨hnone, -⟩ | ⟨x', k', hx, hk', hle', -⟩
    · cases hnone
    · cases hx
      rw [hk, Option.some.injEq] at hk'
      subst hk'
      exact Nat.max_le.mpr ⟨(Nat.le_min.mp hle').2, hvalid⟩

end

/-- Quote and store agree on a duration exactly where Walrus sells for as long as the quote is given. -/
theorem durations_agree_iff (text : JsNumber → String) (cfg : Config) (engineConfig : QuoteConfig)
    (returnLzFeeMist suiGasMist : Int) (epochs : Option JsNumber) (hlive : o .systemState = .ok sys) :
    DurationsAgree text cfg (cfg.quoteService engineConfig returnLzFeeMist suiGasMist) o sys epochs ↔
      Storable cfg sys.maxEpochsAhead epochs := by
  refine ⟨fun h => storable_of_accepted hlive h.accepted.mp, fun hstorable => ?_⟩
  refine ⟨⟨?_, ?_⟩, fun n m source hn hm => ?_, ?_, ?_, fun hvalid n source => ?_⟩
  · rintro ⟨n, hn⟩
    exact ⟨n, resolved_of_pricedEpochs hlive hstorable hn⟩
  · rintro ⟨n, source, hn⟩
    exact ⟨n, pricedEpochs_of_resolved hlive hn⟩
  · have hpriced : (cfg.quoteService engineConfig returnLzFeeMist suiGasMist).pricedEpochs text epochs = .ok m :=
      pricedEpochs_of_resolved hlive hm
    exact Except.ok.inj (hpriced.symm.trans hn)
  · intro x k n hx hk hn
    rcases pricedEpochs_ok.mp hn with ⟨hnone, -⟩ | ⟨x', k', hx', hk', -, rfl⟩
    · rw [hx] at hnone
      cases hnone
    · obtain rfl := Option.some.inj (hx.symm.trans hx')
      obtain rfl := Option.some.inj (hk.symm.trans hk')
      exact Nat.le_max_left ..
  · intro fl row sender commitment committed id blob k hcommitted hepochs hc
    obtain ⟨source, hresolved⟩ := storeEpochs_resolves (store_writes_none hc) hcommitted (store_buysFor hc rfl)
    rw [← walrusResolveStoreEpochsOf_count text, ← hepochs] at hresolved
    exact pricedEpochs_of_resolved hlive hresolved
  · exact (result_walrusResolve hlive).trans ⟨And.right, fun h => ⟨hvalid, h⟩⟩

/-! ## Between the two caps -/

/-- A live limit of so many epochs, and nothing else that is answered. -/
def limitReplies (walrusMax : Nat) : Replies
  | .systemState => .ok ⟨1000, 1, 1, walrusMax⟩
  | _ => .error (.error "unavailable")

def exampleDurationQuote : QuoteConfig := ⟨⟨1 / 5, 1 / 5, 1 / 10, 1 / 20⟩, 3 / 20, 1 / 50⟩

theorem durations_agree_iff_ten : DurationsAgree (fun _ => "") exampleConfig
    (exampleConfig.quoteService exampleDurationQuote 0 0) (limitReplies 53) ⟨1000, 1, 1, 53⟩ (some (ofCount 10)) := by
  refine (durations_agree_iff _ exampleConfig exampleDurationQuote 0 0 _ rfl).mpr fun n hn _ => ?_
  rw [ofCount, toCount_natCast, Option.some.injEq] at hn
  subst hn
  decide

/-- A store for nine epochs is quoted while Walrus sells for eight; it is not stored. -/
theorem quoted_unstorable :
    (exampleConfig.quoteService exampleDurationQuote 0 0).pricedEpochs (fun _ => "") (some (ofCount 9)) = .ok 9 ∧
      result (limitReplies 8) (walrusResolveStoreEpochsOf (fun _ => "") exampleConfig (some (ofCount 9))) =
        .ok (.rejected ("committed storage epochs 9 exceed the max storable 8; " ++
          "refusing to store a shorter duration")) ∧
      ¬DurationsAgree (fun _ => "") exampleConfig (exampleConfig.quoteService exampleDurationQuote 0 0) (limitReplies 8)
        ⟨1000, 1, 1, 8⟩ (some (ofCount 9)) := by
  have hpriced : (exampleConfig.quoteService exampleDurationQuote 0 0).pricedEpochs (fun _ => "") (some (ofCount 9)) =
      .ok 9 := pricedEpochs_ok.mpr (Or.inr ⟨_, 9, rfl, toCount_natCast 9, by decide, rfl⟩)
  have hrejected : result (limitReplies 8) (walrusResolveStoreEpochsOf (fun _ => "") exampleConfig (some (ofCount 9))) =
      .ok (.rejected ("committed storage epochs 9 exceed the max storable 8; " ++
        "refusing to store a shorter duration")) := by
    rw [show some (ofCount 9) = (some 9).map ofCount from rfl, walrusResolveStoreEpochsOf_count]
    rfl
  refine ⟨hpriced, hrejected, fun h => ?_⟩
  obtain ⟨n, source, haccepted⟩ := h.accepted.mp ⟨9, hpriced⟩
  rw [hrejected] at haccepted
  cases haccepted

end Bosphor.Relayer

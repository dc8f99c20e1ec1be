import Bosphor.Lib.Rounding

/-!
# Prices, costs and the break-even guard

How many Walrus epochs a blob is stored for, what that costs in FROST, what an
amount is worth in dollars, and whether an escrow covers the recomputed cost.
Dollars are the runtime's numbers: exact up to a rounding `fl`. The guard
proceeds exactly when the escrow's value reaches the required one, and for the
same costs and prices a smaller escrow is refused where a larger one is
(`evaluateBreakEven_refuses`).
-/

namespace Bosphor.Relayer

/-! ## Store epochs -/

/-- Walrus rejects a store for no epochs. -/
def WALRUS_MIN_EPOCHS : Nat := 1

structure StoreEpochsPolicy where
  defaultEpochs : Nat
  maxEpochs : Nat

inductive EpochsSource where
  | committed
  | legacyDefault
  deriving DecidableEq

/-- For how many epochs to store, or why not to. -/
inductive StoreEpochsResolution where
  | accepted (epochs : Nat) (source : EpochsSource)
  | rejected (reason : String)
  deriving DecidableEq

def resolveStoreEpochs (committed : Option Nat) (policy : StoreEpochsPolicy) : StoreEpochsResolution :=
  match committed with
  | none =>
    if policy.defaultEpochs > policy.maxEpochs then
      .rejected s!"legacy default storage epochs {policy.defaultEpochs} exceed the max {policy.maxEpochs}"
    else .accepted policy.defaultEpochs .legacyDefault
  | some committed =>
    if committed > policy.maxEpochs then
      .rejected (s!"committed storage epochs {committed} exceed the max storable {policy.maxEpochs}; " ++
        "refusing to store a shorter duration")
    else .accepted (max committed WALRUS_MIN_EPOCHS) .committed

/-- A commitment that is accepted is stored for its own epochs, for one if it commits to none. -/
theorem resolveStoreEpochs_committed {committed epochs : Nat} {policy : StoreEpochsPolicy} {source : EpochsSource}
    (h : resolveStoreEpochs (some committed) policy = .accepted epochs source) :
    epochs = max committed 1 ∧ committed ≤ policy.maxEpochs := by
  by_cases hlt : committed > policy.maxEpochs
  · simp only [resolveStoreEpochs, if_pos hlt, reduceCtorEq] at h
  · simp only [resolveStoreEpochs, if_neg hlt, StoreEpochsResolution.accepted.injEq] at h
    exact ⟨h.1.symm, Nat.le_of_not_lt hlt⟩

/-! ## The cost of a store -/

/-- What the Walrus system state says of prices, and how far ahead storage is sold. -/
structure WalrusSystemState where
  nShards : Nat
  storagePricePerUnitSize : Nat
  writePricePerUnitSize : Nat
  /-- The length of `future_accounting`. -/
  maxEpochsAhead : Nat
  deriving DecidableEq

def DIGEST_LEN : Nat := 32
def BLOB_ID_LEN : Nat := 32
def BYTES_PER_UNIT_SIZE : Nat := 1024 * 1024

def getMaxFaultyNodes (nShards : Nat) : Nat := (nShards - 1) / 3

/-- Primary and secondary source symbols, under the encoding that is written (RS2, with no safety limit). -/
def getSourceSymbols (nShards : Nat) : Nat × Nat :=
  let maxFaulty := getMaxFaultyNodes nShards
  let minCorrect := nShards - maxFaulty
  (minCorrect - maxFaulty, minCorrect)

def encodedSliverSize (unencodedLength nShards : Nat) : Nat :=
  let (primarySymbols, secondarySymbols) := getSourceSymbols nShards
  let symbolSize := (max unencodedLength 1 - 1) / (primarySymbols * secondarySymbols) + 1
  let symbolSize := if symbolSize % 2 = 1 then symbolSize + 1 else symbolSize
  (primarySymbols + secondarySymbols) * symbolSize * nShards

def encodedBlobLength (unencodedLength nShards : Nat) : Nat :=
  nShards * (nShards * DIGEST_LEN * 2 + BLOB_ID_LEN) + encodedSliverSize unencodedLength nShards

def storageUnitsFromSize (encodedSize : Nat) : Nat := (encodedSize + BYTES_PER_UNIT_SIZE - 1) / BYTES_PER_UNIT_SIZE

/-- The total cost in FROST. -/
def computeWalCost (unencodedSize epochs : Nat) (state : WalrusSystemState) : Except String Nat :=
  if epochs < 1 then .error s!"Invalid epochs: {epochs} (must be a positive integer)"
  else if state.nShards < 1 then
    .error s!"Invalid shard count: {state.nShards} (must be a positive integer)"
  else
    let storageUnits := storageUnitsFromSize (encodedBlobLength unencodedSize state.nShards)
    .ok (storageUnits * state.storagePricePerUnitSize * epochs + storageUnits * state.writePricePerUnitSize)

/-! ## Dollars -/

def FROST_DECIMALS : Nat := 9
def MIST_DECIMALS : Nat := 9

inductive PriceToken where
  | WAL
  | SUI
  | ETH
  | SOL
  deriving DecidableEq

def PriceToken.name : PriceToken → String
  | .WAL => "WAL"
  | .SUI => "SUI"
  | .ETH => "ETH"
  | .SOL => "SOL"

/-- The native token of an origin. -/
inductive OriginToken where
  | ETH
  | SOL
  deriving DecidableEq

def OriginToken.price : OriginToken → PriceToken
  | .ETH => .ETH
  | .SOL => .SOL

def NATIVE_DECIMALS : OriginToken → Nat
  | .ETH => 18
  | .SOL => 9

/-- The dollar price of each token. -/
abbrev PriceSet := PriceToken → ℚ

variable (fl : Rounding)

def toUnits (amount decimals : Nat) : ℚ := fl.div (fl.ofNat amount) (10 ^ decimals)

def amountToUsd (amount decimals : Nat) (priceUsd : ℚ) : ℚ := fl.mul (toUnits fl amount decimals) priceUsd

theorem amountToUsd_le {m n decimals : Nat} {price : ℚ} (hprice : 0 ≤ price) (h : m ≤ n) :
    amountToUsd fl m decimals price ≤ amountToUsd fl n decimals price := by
  have hunits : toUnits fl m decimals ≤ toUnits fl n decimals := fl.div_le (by positivity) (fl.ofNat_le h)
  exact fl.mul_le hprice hunits

/-- A number with a fixed count of decimals. -/
def toFixed (digits : Nat) (x : ℚ) : String :=
  let scaled := (|x| * 10 ^ digits + 1 / 2).floor.toNat
  let fraction := toString (scaled % 10 ^ digits)
  let padded := String.ofList (List.replicate (digits - fraction.length) '0') ++ fraction
  (if x < 0 then "-" else "") ++ toString (scaled / 10 ^ digits) ++ if digits = 0 then "" else "." ++ padded

/-! ## The break-even guard -/

structure BreakEvenInputs where
  escrowNative : Nat
  originToken : OriginToken
  walCostFrost : Nat
  returnLzFeeMist : Nat
  suiGasMist : Nat
  minMarginRatio : ℚ
  prices : PriceSet

structure BreakEvenDecision where
  proceed : Bool
  escrowUsd : ℚ
  costUsd : ℚ
  requiredUsd : ℚ
  marginUsd : ℚ
  /-- Infinite for no cost. -/
  marginRatio : Option ℚ
  reason : String

def requirePrice (prices : PriceSet) (token : PriceToken) : Except String ℚ :=
  if prices token ≤ 0 then .error s!"BreakEvenGuard: missing or non-positive {token.name} price"
  else .ok (prices token)

/-- The recomputed cost of a store. -/
def costUsd (inputs : BreakEvenInputs) : ℚ :=
  fl.add
    (fl.add (amountToUsd fl inputs.walCostFrost FROST_DECIMALS (inputs.prices .WAL))
      (amountToUsd fl inputs.returnLzFeeMist MIST_DECIMALS (inputs.prices .SUI)))
    (amountToUsd fl inputs.suiGasMist MIST_DECIMALS (inputs.prices .SUI))

/-- The cost with the margin on top. -/
def requiredUsd (inputs : BreakEvenInputs) : ℚ := fl.mul (costUsd fl inputs) (fl.add 1 inputs.minMarginRatio)

def escrowUsd (inputs : BreakEvenInputs) : ℚ :=
  amountToUsd fl inputs.escrowNative (NATIVE_DECIMALS inputs.originToken) (inputs.prices inputs.originToken.price)

def evaluateBreakEven (inputs : BreakEvenInputs) : Except String BreakEvenDecision := do
  let _ ← requirePrice inputs.prices .WAL
  let _ ← requirePrice inputs.prices .SUI
  let _ ← requirePrice inputs.prices inputs.originToken.price
  let escrow := escrowUsd fl inputs
  let cost := costUsd fl inputs
  let required := requiredUsd fl inputs
  let margin := fl.sub escrow cost
  let proceed := decide (escrow ≥ required)
  let terms := s!"(cost ${toFixed 4 cost} + {toFixed 0 (fl.mul inputs.minMarginRatio 100)}% margin)"
  return {
    proceed
    escrowUsd := escrow
    costUsd := cost
    requiredUsd := required
    marginUsd := margin
    marginRatio := if cost > 0 then some (fl.div margin cost) else none
    reason := if proceed then s!"escrow ${toFixed 4 escrow} >= required ${toFixed 4 required} {terms}"
      else s!"SKIP: escrow ${toFixed 4 escrow} < required ${toFixed 4 required} {terms}" }

variable {fl}

theorem requirePrice_ok {prices : PriceSet} {token : PriceToken} {p : ℚ} (h : requirePrice prices token = .ok p) :
    0 < prices token := by
  unfold requirePrice at h
  split at h
  · cases h
  · rename_i hpos
    exact not_le.mp hpos

/-- What a decision of the guard means. -/
theorem evaluateBreakEven_ok {inputs : BreakEvenInputs} {d : BreakEvenDecision}
    (h : evaluateBreakEven fl inputs = .ok d) :
    0 < inputs.prices inputs.originToken.price ∧ d.escrowUsd = escrowUsd fl inputs ∧
      d.costUsd = costUsd fl inputs ∧ d.requiredUsd = requiredUsd fl inputs ∧
      (d.proceed = true ↔ requiredUsd fl inputs ≤ escrowUsd fl inputs) := by
  unfold evaluateBreakEven at h
  cases hwal : requirePrice inputs.prices .WAL with
  | error e =>
    rw [hwal] at h
    cases h
  | ok wal =>
    cases hsui : requirePrice inputs.prices .SUI with
    | error e =>
      rw [hwal, hsui] at h
      cases h
    | ok sui =>
      cases horigin : requirePrice inputs.prices inputs.originToken.price with
      | error e =>
        rw [hwal, hsui, horigin] at h
        cases h
      | ok origin =>
        rw [hwal, hsui, horigin] at h
        cases h
        exact ⟨requirePrice_ok horigin, rfl, rfl, rfl, decide_eq_true_iff⟩

/-- The guard decides on any amount if it decides on one. -/
theorem evaluateBreakEven_decides {inputs : BreakEvenInputs} {d : BreakEvenDecision}
    (h : evaluateBreakEven fl inputs = .ok d) (amount : Nat) :
    ∃ d', evaluateBreakEven fl { inputs with escrowNative := amount } = .ok d' := by
  unfold evaluateBreakEven at h ⊢
  cases hwal : requirePrice inputs.prices .WAL with
  | error e =>
    rw [hwal] at h
    cases h
  | ok wal =>
    cases hsui : requirePrice inputs.prices .SUI with
    | error e =>
      rw [hwal, hsui] at h
      cases h
    | ok sui =>
      cases horigin : requirePrice inputs.prices inputs.originToken.price with
      | error e =>
        rw [hwal, hsui, horigin] at h
        cases h
      | ok origin =>
        exact ⟨_, rfl⟩

/-- At the same prices and costs, an escrow no larger than one that is refused, is refused. -/
theorem evaluateBreakEven_refuses {inputs : BreakEvenInputs} {amount : Nat} (hle : amount ≤ inputs.escrowNative)
    {d : BreakEvenDecision} (h : evaluateBreakEven fl inputs = .ok d) (hrefused : d.proceed = false) :
    ∃ d', evaluateBreakEven fl { inputs with escrowNative := amount } = .ok d' ∧ d'.proceed = false := by
  obtain ⟨d', h'⟩ := evaluateBreakEven_decides h amount
  obtain ⟨hprice, -, -, -, hd⟩ := evaluateBreakEven_ok h
  obtain ⟨-, -, -, -, hd'⟩ := evaluateBreakEven_ok h'
  have hworth : escrowUsd fl { inputs with escrowNative := amount } ≤ escrowUsd fl inputs :=
    amountToUsd_le fl hprice.le hle
  refine ⟨d', h', ?_⟩
  by_contra hproceed
  have hpass : requiredUsd fl inputs ≤ escrowUsd fl inputs :=
    (hd'.mp (Bool.eq_true_of_not_eq_false hproceed)).trans hworth
  rw [hd.mpr hpass] at hrefused
  cases hrefused

end Bosphor.Relayer

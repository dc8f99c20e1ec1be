import Bosphor.Lib.Decimal
import Bosphor.Lib.Result
import Bosphor.Relayer.Pricing

/-!
# Priced quotes

What the relayer asks for a store: the escrow, in the native token of the
origin, and what the user pays directly. The forward fee of the request comes
back in the quote as it is (`getQuote_forward`), whatever the prices.
-/

namespace Bosphor.Relayer

/-! ## The engine -/

structure QuoteBuffers where
  returnLeg : ℚ
  suiGas : ℚ
  wal : ℚ
  crossRate : ℚ

structure QuoteConfig where
  buffers : QuoteBuffers
  serviceMarginRatio : ℚ
  minChargeUsd : ℚ

structure QuoteCostInputs where
  originToken : OriginToken
  walCostFrost : Int
  returnLzFeeMist : Int
  suiGasMist : Int
  forwardLzFeeNative : Int
  originGasNative : Int

structure QuoteBreakdown where
  walCostUsd : ℚ
  returnLzUsd : ℚ
  suiGasUsd : ℚ
  forwardLzUsd : ℚ
  originGasUsd : ℚ
  bufferedEscrowUsd : ℚ
  serviceMarginUsd : ℚ
  escrowUsd : ℚ
  forwardUsd : ℚ
  totalUsd : ℚ
  floorApplied : Bool
  deriving DecidableEq

structure Quote where
  originToken : OriginToken
  escrowNative : Int
  forwardNative : Int
  totalNative : Int
  breakdown : QuoteBreakdown
  prices : PriceSet

def SUBUNIT : Nat := 9

/-- Dollars in the smallest unit of a token, rounded up. -/
def usdToNative (fl : Rounding) (usd priceUsd : ℚ) (decimals : Nat) : Int :=
  let wholeUnits := fl.div usd priceUsd
  let sub := ⌈fl.mul wholeUnits (10 ^ SUBUNIT)⌉
  if decimals ≥ SUBUNIT then sub * 10 ^ (decimals - SUBUNIT) else sub.tdiv (10 ^ (SUBUNIT - decimals))

def assertNonNegative (name : String) (v : Int) : Except String Unit :=
  if v < 0 then .error s!"QuoteEngine: {name} must be a non-negative fee, got {v}" else .ok ()

def priceOf (prices : PriceSet) (token : PriceToken) : Except String ℚ :=
  if prices token ≤ 0 then .error s!"QuoteEngine: missing or non-positive {token.name} price" else .ok (prices token)

/-- The cost that the relayer fronts, with its buffers. -/
def bufferedRaw (fl : Rounding) (buffers : QuoteBuffers) (walCostUsd returnLzUsd suiGasUsd : ℚ) : ℚ :=
  let walBuffered := fl.mul walCostUsd (fl.add 1 buffers.wal)
  let returnBuffered := fl.mul (fl.mul returnLzUsd (fl.add 1 buffers.returnLeg)) (fl.add 1 buffers.crossRate)
  let suiGasBuffered := fl.mul (fl.mul suiGasUsd (fl.add 1 buffers.suiGas)) (fl.add 1 buffers.crossRate)
  fl.add (fl.add walBuffered returnBuffered) suiGasBuffered

/-- `quote(inputs, prices)`. -/
def QuoteConfig.quote (fl : Rounding) (config : QuoteConfig) (inputs : QuoteCostInputs) (prices : PriceSet) :
    Except String Quote := do
  assertNonNegative "walCostFrost" inputs.walCostFrost
  assertNonNegative "returnLzFeeMist" inputs.returnLzFeeMist
  assertNonNegative "suiGasMist" inputs.suiGasMist
  assertNonNegative "forwardLzFeeNative" inputs.forwardLzFeeNative
  assertNonNegative "originGasNative" inputs.originGasNative
  let originPrice ← priceOf prices inputs.originToken.price
  let walPrice ← priceOf prices .WAL
  let suiPrice ← priceOf prices .SUI
  let walCostUsd := amountToUsd fl inputs.walCostFrost.toNat FROST_DECIMALS walPrice
  let returnLzUsd := amountToUsd fl inputs.returnLzFeeMist.toNat MIST_DECIMALS suiPrice
  let suiGasUsd := amountToUsd fl inputs.suiGasMist.toNat MIST_DECIMALS suiPrice
  let originDecimals := NATIVE_DECIMALS inputs.originToken
  let forwardLzUsd := amountToUsd fl inputs.forwardLzFeeNative.toNat originDecimals originPrice
  let originGasUsd := amountToUsd fl inputs.originGasNative.toNat originDecimals originPrice
  let raw := bufferedRaw fl config.buffers walCostUsd returnLzUsd suiGasUsd
  let floorApplied := decide (raw < config.minChargeUsd)
  let bufferedEscrowUsd := max raw config.minChargeUsd
  let serviceMarginUsd := fl.mul bufferedEscrowUsd config.serviceMarginRatio
  let escrowUsd := fl.add bufferedEscrowUsd serviceMarginUsd
  let forwardUsd := fl.add forwardLzUsd originGasUsd
  let totalUsd := fl.add escrowUsd forwardUsd
  let escrowNative := usdToNative fl escrowUsd originPrice originDecimals
  let forwardNative := inputs.forwardLzFeeNative + inputs.originGasNative
  return {
    originToken := inputs.originToken
    escrowNative
    forwardNative
    totalNative := escrowNative + forwardNative
    breakdown := { walCostUsd, returnLzUsd, suiGasUsd, forwardLzUsd, originGasUsd, bufferedEscrowUsd, serviceMarginUsd,
                   escrowUsd, forwardUsd, totalUsd, floorApplied }
    prices }

/-! ## The service -/

structure QuoteRequest where
  sizeBytes : Nat
  epochs : Option Nat := none
  originToken : OriginToken
  forwardLzFeeNative : Option Int := none
  originGasNative : Option Int := none

/-- What the service reads: its configuration, and the limits of the store. -/
structure QuoteService where
  engineConfig : QuoteConfig
  /-- `QUOTE_RETURN_LZ_FEE_MIST`. -/
  returnLzFeeMist : Int
  /-- `QUOTE_SUI_GAS_MIST`. -/
  suiGasMist : Int
  maxStoreEpochs : Nat
  /-- `WALRUS_STORE_EPOCHS`. -/
  storeEpochs : Nat

/-- What it is told when it quotes: the prices, and the state of the Walrus system. -/
structure Market where
  prices : Except String PriceSet
  systemState : Except String WalrusSystemState

/-- A request that is refused is answered with a message. -/
def badRequestIf (p : Prop) [Decidable p] (message : String) : Except String Unit :=
    if p then .error message else .ok ()

def QuoteService.quote (fl : Rounding) (service : QuoteService) (market : Market) (req : QuoteRequest) :
    Except String Quote := do
  badRequestIf (req.epochs.any (· > service.maxStoreEpochs))
    s!"epochs must be an integer between 0 and {service.maxStoreEpochs} (got {req.epochs.getD 0})"
  let epochs := req.epochs.map fun epochs => max epochs WALRUS_MIN_EPOCHS
  let prices ← market.prices
  let walCostFrost ← computeWalCost req.sizeBytes (epochs.getD service.storeEpochs) (← market.systemState)
  service.engineConfig.quote fl {
    originToken := req.originToken
    walCostFrost
    returnLzFeeMist := service.returnLzFeeMist
    suiGasMist := service.suiGasMist
    forwardLzFeeNative := req.forwardLzFeeNative.getD 0
    originGasNative := req.originGasNative.getD 0 } prices

/-! ## The endpoint -/

/-- The body of a request; amounts are decimal strings. -/
structure QuoteRequestDto where
  sizeBytes : Nat
  epochs : Option Nat := none
  originToken : OriginToken
  forwardLzFeeNative : Option String := none
  originGasNative : Option String := none

/-- The body of a response, as far as a client reads it. -/
structure RawQuote where
  originToken : OriginToken
  escrowNative : String
  forwardNative : String
  totalNative : String
  breakdown : QuoteBreakdown

def MAX_SAFE_INTEGER : Nat := 2 ^ 53 - 1

/-- An amount that is left out or empty is none; one that is no decimal numeral is refused. -/
def decimalBigint (field : String) (v : Option String) : Except String (Option Int) :=
  match v with
  | none => .ok none
  | some v =>
    if v = "" then .ok none
    else
      match Decimal.readNat v with
      | some n => .ok (some n)
      | none => .error s!"{field} must be a non-negative decimal integer string"

def getQuote (fl : Rounding) (service : QuoteService) (market : Market) (body : QuoteRequestDto) :
    Except String RawQuote := do
  badRequestIf (body.sizeBytes > MAX_SAFE_INTEGER) "sizeBytes must be a non-negative integer"
  let q ← service.quote fl market {
    sizeBytes := body.sizeBytes
    epochs := body.epochs
    originToken := body.originToken
    forwardLzFeeNative := ← decimalBigint "forwardLzFeeNative" body.forwardLzFeeNative
    originGasNative := ← decimalBigint "originGasNative" body.originGasNative }
  return {
    originToken := q.originToken
    escrowNative := toString q.escrowNative
    forwardNative := toString q.forwardNative
    totalNative := toString q.totalNative
    breakdown := q.breakdown }

/-! ## What a quote asks for -/

variable {fl : Rounding}

theorem QuoteConfig.quote_ok {config : QuoteConfig} {inputs : QuoteCostInputs} {prices : PriceSet} {q : Quote}
    (h : config.quote fl inputs prices = .ok q) : q.forwardNative = inputs.forwardLzFeeNative + inputs.originGasNative ∧
      q.totalNative = q.escrowNative + q.forwardNative := by
  simp only [QuoteConfig.quote, Result.bind_ok, Result.pure_ok] at h
  obtain ⟨-, -, -, -, -, -, -, -, -, -, originPrice, -, walPrice, -, suiPrice, -, rfl⟩ := h
  exact ⟨rfl, rfl⟩

theorem QuoteService.quote_ok {service : QuoteService} {market : Market} {req : QuoteRequest} {q : Quote}
    (h : service.quote fl market req = .ok q) :
    q.forwardNative = req.forwardLzFeeNative.getD 0 + req.originGasNative.getD 0 ∧
      q.totalNative = q.escrowNative + q.forwardNative := by
  simp only [QuoteService.quote, Result.bind_ok] at h
  obtain ⟨-, -, prices, -, state, -, cost, -, h⟩ := h
  exact QuoteConfig.quote_ok h

theorem decimalBigint_toString (field : String) (n : Nat) :
    decimalBigint field (some (toString n)) = .ok (some (n : Int)) := by
  have hread := Decimal.readNat_toString n
  have hne : toString n ≠ "" := by
    intro hempty
    rw [hempty] at hread
    cases hread
  unfold decimalBigint
  simp only [hne, if_false, hread]

/-- A quote asks for an escrow, and for the forward fee of its request on top. -/
theorem getQuote_forward {service : QuoteService} {market : Market} {body : QuoteRequestDto}
    {raw : RawQuote} {fee : Nat}
    (hfee : body.forwardLzFeeNative = some (toString fee)) (hgas : body.originGasNative = none)
    (h : getQuote fl service market body = .ok raw) : ∃ escrowNative : Int, raw.escrowNative = toString escrowNative ∧
      raw.forwardNative = toString (fee : Int) ∧ raw.totalNative = toString (escrowNative + fee) := by
  have hnone : decimalBigint "originGasNative" none = .ok none := rfl
  simp only [getQuote, Result.bind_ok, Result.pure_ok, hfee, hgas, decimalBigint_toString, hnone, Except.ok.injEq] at h
  obtain ⟨-, -, _, rfl, _, rfl, q, hq, rfl⟩ := h
  obtain ⟨hforward, htotal⟩ := QuoteService.quote_ok hq
  have hasked : q.forwardNative = (fee : Int) := hforward.trans (Int.add_zero _)
  refine ⟨q.escrowNative, rfl, ?_, ?_⟩
  · show toString q.forwardNative = _
    rw [hasked]
  · show toString q.totalNative = _
    rw [htotal, hasked]

end Bosphor.Relayer

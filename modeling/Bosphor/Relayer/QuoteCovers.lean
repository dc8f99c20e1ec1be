import Mathlib.Tactic.Linarith
import Bosphor.Relayer.QuoteEngine

/-!
# A quoted escrow passes the guard

With exact arithmetic, an escrow of the quoted amount is worth the buffered cost
with the service margin, since the conversion rounds up (`usdToNative_covers`);
so the break-even guard lets it pass for the same costs and prices, if it asks
for no more margin; and the quoted amount grows with every cost
(`quoted_escrow_proceeds`). Both take a service margin that is no loss of more
than the whole charge (`quoted_escrow_falls`).
-/

namespace Bosphor.Relayer

/-! ## Exact conversions -/

theorem usdToNative_exact (usd priceUsd : ℚ) (token : OriginToken) :
    usdToNative Rounding.exact usd priceUsd (NATIVE_DECIMALS token) =
      ⌈usd / priceUsd * 10 ^ SUBUNIT⌉ * 10 ^ (NATIVE_DECIMALS token - SUBUNIT) := by
  cases token <;> rfl

theorem amountToUsd_exact (amount decimals : Nat) (priceUsd : ℚ) :
    amountToUsd Rounding.exact amount decimals priceUsd = amount / 10 ^ decimals * priceUsd := rfl

/-- What is converted to native tokens is worth at least the dollars it stands for. -/
theorem usdToNative_covers {usd priceUsd : ℚ} (hprice : 0 < priceUsd) (token : OriginToken) {amount : Nat}
    (hamount : usdToNative Rounding.exact usd priceUsd (NATIVE_DECIMALS token) ≤ amount) :
    usd ≤ amountToUsd Rounding.exact amount (NATIVE_DECIMALS token) priceUsd := by
  have hceil : usd / priceUsd * 10 ^ SUBUNIT ≤ (⌈usd / priceUsd * 10 ^ SUBUNIT⌉ : ℚ) := Int.le_ceil _
  have hnative : (⌈usd / priceUsd * 10 ^ SUBUNIT⌉ : ℚ) * 10 ^ (NATIVE_DECIMALS token - SUBUNIT) ≤ amount := by
    rw [usdToNative_exact] at hamount
    exact_mod_cast hamount
  have hscale : (10 : ℚ) ^ NATIVE_DECIMALS token = 10 ^ SUBUNIT * 10 ^ (NATIVE_DECIMALS token - SUBUNIT) := by
    cases token <;> norm_num [NATIVE_DECIMALS, SUBUNIT]
  have hunits : usd / priceUsd ≤ amount / 10 ^ NATIVE_DECIMALS token := by
    rw [le_div_iff₀ (by positivity), hscale, ← mul_assoc]
    exact (mul_le_mul_of_nonneg_right hceil (by positivity)).trans hnative
  rw [amountToUsd_exact]
  calc usd = usd / priceUsd * priceUsd := (div_mul_cancel₀ usd hprice.ne').symm
    _ ≤ amount / 10 ^ NATIVE_DECIMALS token * priceUsd := mul_le_mul_of_nonneg_right hunits hprice.le

/-- More dollars are more native tokens. -/
theorem usdToNative_le {usd usd' priceUsd : ℚ} (hprice : 0 < priceUsd) (token : OriginToken) (h : usd ≤ usd') :
    usdToNative Rounding.exact usd priceUsd (NATIVE_DECIMALS token) ≤
      usdToNative Rounding.exact usd' priceUsd (NATIVE_DECIMALS token) := by
  rw [usdToNative_exact, usdToNative_exact]
  have hsub : usd / priceUsd * 10 ^ SUBUNIT ≤ usd' / priceUsd * 10 ^ SUBUNIT :=
    mul_le_mul_of_nonneg_right (div_le_div_of_nonneg_right h hprice.le) (by positivity)
  exact mul_le_mul_of_nonneg_right (Int.ceil_le_ceil hsub) (by positivity)

theorem usdToNative_nonneg {usd priceUsd : ℚ} (hprice : 0 < priceUsd) (token : OriginToken) (h : 0 ≤ usd) :
    0 ≤ usdToNative Rounding.exact usd priceUsd (NATIVE_DECIMALS token) := by
  have hzero := usdToNative_le hprice token h
  rw [usdToNative_exact 0, zero_div, zero_mul, Int.ceil_zero, zero_mul] at hzero
  exact hzero

/-! ## The charge -/

/-- The buffers and the minimum charge are nonnegative. -/
structure QuoteConfig.Charges (config : QuoteConfig) : Prop where
  returnLeg : 0 ≤ config.buffers.returnLeg
  suiGas : 0 ≤ config.buffers.suiGas
  wal : 0 ≤ config.buffers.wal
  crossRate : 0 ≤ config.buffers.crossRate
  minCharge : 0 ≤ config.minChargeUsd

structure QuoteCostInputs.Nonneg (inputs : QuoteCostInputs) : Prop where
  walCostFrost : 0 ≤ inputs.walCostFrost
  returnLzFeeMist : 0 ≤ inputs.returnLzFeeMist
  suiGasMist : 0 ≤ inputs.suiGasMist
  forwardLzFeeNative : 0 ≤ inputs.forwardLzFeeNative
  originGasNative : 0 ≤ inputs.originGasNative

/-- No cost of the one exceeds that of the other, whatever the user pays directly. -/
structure QuoteCostInputs.Le (inputs inputs' : QuoteCostInputs) : Prop where
  originToken : inputs.originToken = inputs'.originToken
  walCostFrost : inputs.walCostFrost ≤ inputs'.walCostFrost
  returnLzFeeMist : inputs.returnLzFeeMist ≤ inputs'.returnLzFeeMist
  suiGasMist : inputs.suiGasMist ≤ inputs'.suiGasMist

/-- The prices that a quote of `token` reads are positive. -/
structure Priced (prices : PriceSet) (token : OriginToken) : Prop where
  wal : 0 < prices .WAL
  sui : 0 < prices .SUI
  origin : 0 < prices token.price

/-- The dollars that are charged for the costs. -/
def QuoteConfig.charge (config : QuoteConfig) (walCostUsd returnLzUsd suiGasUsd : ℚ) : ℚ :=
  max (bufferedRaw Rounding.exact config.buffers walCostUsd returnLzUsd suiGasUsd) config.minChargeUsd *
    (1 + config.serviceMarginRatio)

/-- The dollars of the costs that the relayer fronts. -/
def QuoteConfig.chargeOf (config : QuoteConfig) (inputs : QuoteCostInputs) (prices : PriceSet) : ℚ :=
  config.charge (amountToUsd Rounding.exact inputs.walCostFrost.toNat FROST_DECIMALS (prices .WAL))
    (amountToUsd Rounding.exact inputs.returnLzFeeMist.toNat MIST_DECIMALS (prices .SUI))
    (amountToUsd Rounding.exact inputs.suiGasMist.toNat MIST_DECIMALS (prices .SUI))

namespace QuoteConfig.Charges

variable {config : QuoteConfig} {wal wal' lz lz' gas gas' : ℚ}

theorem bufferedRaw_exact (buffers : QuoteBuffers) (wal lz gas : ℚ) : bufferedRaw Rounding.exact buffers wal lz gas =
    wal * (1 + buffers.wal) + lz * (1 + buffers.returnLeg) * (1 + buffers.crossRate) +
      gas * (1 + buffers.suiGas) * (1 + buffers.crossRate) := rfl

/-- Buffers only add to the cost. -/
theorem cost_le_buffered (h : config.Charges) (hwal : 0 ≤ wal) (hlz : 0 ≤ lz) (hgas : 0 ≤ gas) :
    wal + lz + gas ≤ bufferedRaw Rounding.exact config.buffers wal lz gas := by
  have hadd : ∀ x b : ℚ, 0 ≤ x → 0 ≤ b → x ≤ x * (1 + b) := fun x b hx hb => by
    have := mul_nonneg hx hb
    linarith
  have hreturn := hadd (lz * (1 + config.buffers.returnLeg)) _ (mul_nonneg hlz (by linarith [h.returnLeg])) h.crossRate
  have hsui := hadd (gas * (1 + config.buffers.suiGas)) _ (mul_nonneg hgas (by linarith [h.suiGas])) h.crossRate
  rw [bufferedRaw_exact]
  linarith [hadd wal _ hwal h.wal, hadd lz _ hlz h.returnLeg, hadd gas _ hgas h.suiGas]

theorem buffered_le (h : config.Charges) (hwal : wal ≤ wal') (hlz : lz ≤ lz') (hgas : gas ≤ gas') :
    bufferedRaw Rounding.exact config.buffers wal lz gas ≤ bufferedRaw Rounding.exact config.buffers wal' lz' gas' := by
  have hpos : ∀ b : ℚ, 0 ≤ b → 0 ≤ 1 + b := fun b hb => by linarith
  rw [bufferedRaw_exact, bufferedRaw_exact]
  refine add_le_add (add_le_add ?_ ?_) ?_
  · exact mul_le_mul_of_nonneg_right hwal (hpos _ h.wal)
  · exact mul_le_mul_of_nonneg_right (mul_le_mul_of_nonneg_right hlz (hpos _ h.returnLeg)) (hpos _ h.crossRate)
  · exact mul_le_mul_of_nonneg_right (mul_le_mul_of_nonneg_right hgas (hpos _ h.suiGas)) (hpos _ h.crossRate)

theorem charge_le (h : config.Charges) (hservice : -1 ≤ config.serviceMarginRatio) (hwal : wal ≤ wal')
    (hlz : lz ≤ lz') (hgas : gas ≤ gas') :
    config.charge wal lz gas ≤ config.charge wal' lz' gas' :=
  mul_le_mul_of_nonneg_right (max_le_max_right _ (h.buffered_le hwal hlz hgas)) (by linarith)

/-- The charge is the cost with a margin up to the service margin, and nothing less. -/
theorem required_le_charge (h : config.Charges) (hservice : -1 ≤ config.serviceMarginRatio) (hwal : 0 ≤ wal)
    (hlz : 0 ≤ lz) (hgas : 0 ≤ gas) {minMarginRatio : ℚ} (hmargin : minMarginRatio ≤ config.serviceMarginRatio) :
    (wal + lz + gas) * (1 + minMarginRatio) ≤ config.charge wal lz gas := by
  have hcost : wal + lz + gas ≤ max (bufferedRaw Rounding.exact config.buffers wal lz gas) config.minChargeUsd :=
    (h.cost_le_buffered hwal hlz hgas).trans (le_max_left _ _)
  have hnonneg : 0 ≤ wal + lz + gas := by positivity
  calc (wal + lz + gas) * (1 + minMarginRatio)
      ≤ (wal + lz + gas) * (1 + config.serviceMarginRatio) := mul_le_mul_of_nonneg_left (by linarith) hnonneg
    _ ≤ config.charge wal lz gas := mul_le_mul_of_nonneg_right hcost (by linarith)

theorem charge_nonneg (h : config.Charges) (hservice : -1 ≤ config.serviceMarginRatio) (wal lz gas : ℚ) :
    0 ≤ config.charge wal lz gas :=
  mul_nonneg (h.minCharge.trans (le_max_right _ _)) (by linarith)

end QuoteConfig.Charges

theorem assertNonNegative_ok {name : String} {v : Int} (h : 0 ≤ v) : assertNonNegative name v = .ok () :=
  if_neg (not_lt.mpr h)

theorem priceOf_ok {prices : PriceSet} {token : PriceToken} (h : 0 < prices token) :
    priceOf prices token = .ok (prices token) := if_neg (not_le.mpr h)

theorem requirePrice_of_pos {prices : PriceSet} {token : PriceToken} (h : 0 < prices token) :
    requirePrice prices token = .ok (prices token) := if_neg (not_le.mpr h)

/-- The engine quotes the charge. -/
theorem QuoteConfig.quote_charge (config : QuoteConfig) {inputs : QuoteCostInputs} {prices : PriceSet}
    (hcosts : inputs.Nonneg) (hprices : Priced prices inputs.originToken) :
    ∃ q, config.quote Rounding.exact inputs prices = .ok q ∧ q.escrowNative =
      usdToNative Rounding.exact (config.chargeOf inputs prices) (prices inputs.originToken.price)
        (NATIVE_DECIMALS inputs.originToken) := by
  have hcharge : ∀ x : ℚ, x * (1 + config.serviceMarginRatio) = x + x * config.serviceMarginRatio := fun x => by ring
  rw [QuoteConfig.chargeOf, QuoteConfig.charge, hcharge]
  simp only [QuoteConfig.quote, assertNonNegative_ok hcosts.walCostFrost, assertNonNegative_ok hcosts.returnLzFeeMist,
    assertNonNegative_ok hcosts.suiGasMist, assertNonNegative_ok hcosts.forwardLzFeeNative,
    assertNonNegative_ok hcosts.originGasNative, priceOf_ok hprices.wal, priceOf_ok hprices.sui,
    priceOf_ok hprices.origin]
  exact ⟨_, rfl, rfl⟩

/-- The guard decides where its prices are positive. -/
theorem evaluateBreakEven_of_priced {inputs : BreakEvenInputs} (h : Priced inputs.prices inputs.originToken) :
    ∃ d, evaluateBreakEven Rounding.exact inputs = .ok d := by
  simp only [evaluateBreakEven, requirePrice_of_pos h.wal, requirePrice_of_pos h.sui, requirePrice_of_pos h.origin]
  exact ⟨_, rfl⟩

/-- What the guard is given for an escrow, at the prices and costs of a quote. -/
def QuoteCostInputs.breakEven (inputs : QuoteCostInputs) (prices : PriceSet) (minMarginRatio : ℚ) (escrowNative : Nat) :
    BreakEvenInputs where
  escrowNative := escrowNative
  originToken := inputs.originToken
  walCostFrost := inputs.walCostFrost.toNat
  returnLzFeeMist := inputs.returnLzFeeMist.toNat
  suiGasMist := inputs.suiGasMist.toNat
  minMarginRatio := minMarginRatio
  prices := prices

theorem amountToUsd_nonneg {price : ℚ} (hprice : 0 < price) (amount decimals : Nat) :
    0 ≤ amountToUsd Rounding.exact amount decimals price := by
  rw [amountToUsd_exact]
  positivity

/-- An escrow of the quoted amount or more proceeds, and no larger cost is quoted for less. -/
theorem quoted_escrow_proceeds {config : QuoteConfig} {inputs : QuoteCostInputs} {prices : PriceSet}
    {minMarginRatio : ℚ} (hconfig : config.Charges) (hservice : -1 ≤ config.serviceMarginRatio) (hcosts : inputs.Nonneg)
    (hprices : Priced prices inputs.originToken) (hmargin : minMarginRatio ≤ config.serviceMarginRatio) :
    ∃ q, config.quote Rounding.exact inputs prices = .ok q ∧ 0 ≤ q.escrowNative ∧
      (∀ escrowNative : Nat, q.escrowNative ≤ escrowNative →
        ∃ d, evaluateBreakEven Rounding.exact (inputs.breakEven prices minMarginRatio escrowNative) = .ok d ∧
          d.proceed = true) ∧
      ∀ inputs', inputs'.Nonneg → inputs.Le inputs' →
        ∃ q', config.quote Rounding.exact inputs' prices = .ok q' ∧ q.escrowNative ≤ q'.escrowNative := by
  obtain ⟨q, hq, hescrow⟩ := config.quote_charge hcosts hprices
  refine ⟨q, hq, ?_, fun escrowNative hpaid => ?_, fun inputs' hcosts' hle => ?_⟩
  · rw [hescrow]
    exact usdToNative_nonneg hprices.origin _ (hconfig.charge_nonneg hservice _ _ _)
  · have hpriced : Priced (inputs.breakEven prices minMarginRatio escrowNative).prices
        (inputs.breakEven prices minMarginRatio escrowNative).originToken := hprices
    obtain ⟨d, hd⟩ := evaluateBreakEven_of_priced hpriced
    refine ⟨d, hd, (evaluateBreakEven_ok hd).2.2.2.2.mpr ?_⟩
    rw [hescrow] at hpaid
    refine (hconfig.required_le_charge hservice ?_ ?_ ?_ hmargin).trans (usdToNative_covers hprices.origin _ hpaid)
    · exact amountToUsd_nonneg hprices.wal _ _
    · exact amountToUsd_nonneg hprices.sui _ _
    · exact amountToUsd_nonneg hprices.sui _ _
  · have hprices' : Priced prices inputs'.originToken := hle.originToken ▸ hprices
    obtain ⟨q', hq', hescrow'⟩ := config.quote_charge hcosts' hprices'
    refine ⟨q', hq', ?_⟩
    rw [hescrow, hescrow', ← hle.originToken]
    refine usdToNative_le hprices.origin _ (hconfig.charge_le hservice ?_ ?_ ?_)
    · exact amountToUsd_le _ hprices.wal.le (Int.toNat_le_toNat hle.walCostFrost)
    · exact amountToUsd_le _ hprices.sui.le (Int.toNat_le_toNat hle.returnLzFeeMist)
    · exact amountToUsd_le _ hprices.sui.le (Int.toNat_le_toNat hle.suiGasMist)

/-- A configuration, for examples. -/
def exampleQuoteConfig (serviceMarginRatio : ℚ) : QuoteConfig := ⟨⟨0, 0, 0, 0⟩, serviceMarginRatio, 0⟩

/-- A store whose WAL costs `frost`, for examples. -/
def exampleCosts (frost : Int) : QuoteCostInputs := ⟨.ETH, frost, 0, 0, 3, 2⟩

theorem exampleQuoteConfig_charges (serviceMarginRatio : ℚ) : (exampleQuoteConfig serviceMarginRatio).Charges := by
  constructor <;> norm_num [exampleQuoteConfig]

theorem exampleCosts_nonneg {frost : Int} (h : 0 ≤ frost) : (exampleCosts frost).Nonneg where
  walCostFrost := h
  returnLzFeeMist := by simp [exampleCosts]
  suiGasMist := by simp [exampleCosts]
  forwardLzFeeNative := by simp [exampleCosts]
  originGasNative := by simp [exampleCosts]

theorem examplePriced : Priced (fun _ => 1) .ETH := ⟨one_pos, one_pos, one_pos⟩

/-- A quote with a margin of fifteen percent passes a guard that asks for ten, for any larger escrow as well. -/
theorem quoted_escrow_proceeds_default :
    ∃ q, (exampleQuoteConfig (3 / 20)).quote Rounding.exact (exampleCosts 1000) (fun _ => 1) = .ok q ∧
      0 ≤ q.escrowNative ∧ ∀ escrowNative : Nat, q.escrowNative ≤ escrowNative →
        ∃ d, evaluateBreakEven Rounding.exact
          ((exampleCosts 1000).breakEven (fun _ => 1) (1 / 10) escrowNative) = .ok d ∧
          d.proceed = true := by
  have hservice : -1 ≤ (exampleQuoteConfig (3 / 20)).serviceMarginRatio := by norm_num [exampleQuoteConfig]
  have hmargin : (1 / 10 : ℚ) ≤ (exampleQuoteConfig (3 / 20)).serviceMarginRatio := by norm_num [exampleQuoteConfig]
  have hcosts : (exampleCosts 1000).Nonneg := exampleCosts_nonneg (by decide)
  obtain ⟨q, hq, hnonneg, hproceeds, -⟩ :=
    quoted_escrow_proceeds (exampleQuoteConfig_charges _) hservice hcosts examplePriced hmargin
  exact ⟨q, hq, hnonneg, hproceeds⟩

/-- With a margin of minus two, a store is charged its cost the wrong way round. -/
theorem exampleQuote_falls (frost : Nat) :
    ∃ q, (exampleQuoteConfig (-2)).quote Rounding.exact (exampleCosts frost) (fun _ => 1) = .ok q ∧
      q.escrowNative = -(frost : Int) * 10 ^ 9 := by
  obtain ⟨q, hq, hescrow⟩ :=
    (exampleQuoteConfig (-2)).quote_charge (exampleCosts_nonneg (Int.natCast_nonneg frost)) examplePriced
  have hcharge : (exampleQuoteConfig (-2)).chargeOf (exampleCosts frost) (fun _ => 1) = -(frost / 10 ^ 9) := by
    have hcost : (0 : ℚ) ≤ frost / 10 ^ 9 := by positivity
    rw [QuoteConfig.chargeOf, QuoteConfig.charge, QuoteConfig.Charges.bufferedRaw_exact]
    simp only [amountToUsd_exact, exampleCosts, exampleQuoteConfig, Int.toNat_natCast, Int.toNat_zero, Nat.cast_zero,
      zero_div, add_zero, mul_one, FROST_DECIMALS, max_eq_left hcost]
    ring
  refine ⟨q, hq, ?_⟩
  rw [hescrow, hcharge]
  show usdToNative Rounding.exact _ 1 (NATIVE_DECIMALS .ETH) = _
  rw [usdToNative_exact]
  have hsub : -((frost : ℚ) / 10 ^ 9) / 1 * 10 ^ SUBUNIT = ((-(frost : Int) : Int) : ℚ) := by
    rw [SUBUNIT]
    push_cast
    ring
  rw [hsub, Int.ceil_intCast]
  rfl

/-- With a margin of minus two, a larger cost is quoted for less. -/
theorem quoted_escrow_falls : ¬∀ (config : QuoteConfig) (inputs inputs' : QuoteCostInputs) (prices : PriceSet)
    (minMarginRatio : ℚ) (q q' : Quote), config.Charges → inputs.Nonneg → Priced prices inputs.originToken →
      minMarginRatio ≤ config.serviceMarginRatio → inputs'.Nonneg → inputs.Le inputs' →
      config.quote Rounding.exact inputs prices = .ok q → config.quote Rounding.exact inputs' prices = .ok q' →
      q.escrowNative ≤ q'.escrowNative := by
  intro h
  obtain ⟨q, hq, hescrow⟩ := exampleQuote_falls 0
  obtain ⟨q', hq', hescrow'⟩ := exampleQuote_falls 1
  have hcosts : (exampleCosts (0 : Nat)).Nonneg := exampleCosts_nonneg (by decide)
  have hcosts' : (exampleCosts (1 : Nat)).Nonneg := exampleCosts_nonneg (by decide)
  have hmore : (exampleCosts (0 : Nat)).Le (exampleCosts (1 : Nat)) := ⟨rfl, by decide, le_rfl, le_rfl⟩
  have hle := h _ _ _ _ (-2) q q' (exampleQuoteConfig_charges _) hcosts examplePriced le_rfl hcosts' hmore hq hq'
  rw [hescrow, hescrow'] at hle
  revert hle
  decide

end Bosphor.Relayer

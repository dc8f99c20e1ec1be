import Bosphor.Relayer.PriceOracle
import Bosphor.Relayer.UploadGuard

/-!
# Prices that one source vouches for

Of every token, one of the two sources may report anything at all. As long as
the other is honest, and fresh, the price that the oracle returns is the honest
one, or within the allowed deviation of it (`getPrices_honest`). So an escrow
that the guard lets an upload be bought for covers the cost of the upload at the
honest prices too, up to the square of what the sources may differ by, and to
the rounding of the dollars (`Covers.honest`).
-/

namespace Bosphor.Relayer

open PriceOracle Async

variable {fl : Rounding} {u d : ℚ} {numerals : Numerals} {config : PriceOracleConfig} {h : OracleTold}

/-! ## The oracle -/

/-- The source reports the price of the token at `usd`, and fresh. -/
structure Honest (fl : Rounding) (numerals : Numerals) (config : PriceOracleConfig) (h : OracleTold) (t : PriceToken)
    (usd : ℚ) (source : PriceSource) : Prop where
  reports : ∃ p, Reports fl numerals config h t p source
  usd : ∀ p, Reports fl numerals config h t p source → p.usd = .finite usd
  fresh : ∀ p, Reports fl numerals config h t p source → ∀ now, Reads h now →
    now - p.publishTimeMs ≤ config.maxStalenessMs

/-- Two positive prices, of which one is a fraction `δ` above the other at most. -/
structure Agree (δ a b : ℚ) : Prop where
  pos : 0 < a
  pos_right : 0 < b
  le : a ≤ (1 + δ) * b
  ge : b ≤ (1 + δ) * a

theorem Agree.refl {δ a : ℚ} (hδ : 0 ≤ δ) (ha : 0 < a) : Agree δ a a where
  pos := ha
  pos_right := ha
  le := le_mul_of_one_le_left ha.le (le_add_of_nonneg_right hδ)
  ge := le_mul_of_one_le_left ha.le (le_add_of_nonneg_right hδ)

theorem agree_of_abs {δ a b : ℚ} (ha : 0 < a) (hb : 0 < b) (hδ : 0 ≤ δ) (h : |a - b| ≤ δ * min a b) :
    Agree δ a b := by
  have hleft : δ * min a b ≤ δ * a := mul_le_mul_of_nonneg_left (min_le_left a b) hδ
  have hright : δ * min a b ≤ δ * b := mul_le_mul_of_nonneg_left (min_le_right a b) hδ
  have hsides := abs_le.mp h
  refine ⟨ha, hb, ?_, ?_⟩
  · linarith [hsides.2]
  · linarith [hsides.1]

/-- What the allowed deviation comes to when the deviation is rounded. -/
def spread (u d : ℚ) : ℚ := d / (1 - u) ^ 2

theorem spread_nonneg (hu : u < 1) (hd : 0 ≤ d) : 0 ≤ spread u d :=
  div_nonneg hd (pow_nonneg (sub_nonneg.mpr hu.le) 2)

/-- Two prices whose deviation passes. -/
theorem agree_of_deviation (hfl : fl.Within u) (hd : 0 ≤ d) {a b : ℚ}
    (hdev : (deviation fl (.finite a) (.finite b)).exceeds d = false) : Agree (spread u d) a b := by
  unfold deviation at hdev
  dsimp only at hdev
  split at hdev
  · cases hdev
  · rename_i hmin
    have hpos : 0 < min a b := lt_of_not_ge hmin
    have hdiv : fl.div |fl.sub a b| (min a b) ≤ d := by
      unfold Number.ofRat at hdev
      split at hdev
      · exact le_of_not_gt (of_decide_eq_false hdev)
      · -- a deviation is not negative, so that an infinite one passes no bound
        have hnonneg := (Near.start (u := u) (div_nonneg (abs_nonneg (fl.sub a b)) hpos.le)).round hfl
        have hge : ¬fl.div |fl.sub a b| (min a b) < 0 := not_lt.mpr (hnonneg.nonneg_right hfl.lt_one)
        rw [decide_eq_false hge] at hdev
        cases hdev
    have hone : 0 < 1 - u := sub_pos.mpr hfl.lt_one
    have hsub : (1 - u) * |fl.sub a b| ≤ d * min a b := hfl.le_of_div (abs_nonneg _) hpos hdiv
    have htwice : (1 - u) ^ 2 * |a - b| ≤ d * min a b := by
      calc (1 - u) ^ 2 * |a - b| = (1 - u) * ((1 - u) * |a - b|) := by ring
        _ ≤ (1 - u) * |fl.sub a b| := mul_le_mul_of_nonneg_left (hfl.abs_sub_le a b) hone.le
        _ ≤ d * min a b := hsub
    refine agree_of_abs (hpos.trans_le (min_le_left a b)) (hpos.trans_le (min_le_right a b))
      (spread_nonneg hfl.lt_one hd) ?_
    rw [spread, div_mul_eq_mul_div, le_div_iff₀ (pow_pos hone 2), mul_comm]
    exact htwice

theorem assertSane_ok {p : PricePoint} (hsane : assertSane numerals config p = .ok ()) :
    ∃ usd, p.usd = .finite usd ∧ 0 < usd := by
  unfold assertSane at hsane
  dsimp only at hsane
  split at hsane
  case h_1 usd husd =>
    split at hsane
    · cases hsane
    · rename_i hpos
      exact ⟨usd, husd, lt_of_not_ge hpos⟩
  case h_2 => cases hsane

/-- The price that is taken agrees with the one that an honest source reports. -/
theorem PriceOracle.Taken.honest (hfl : fl.Within u) (hd : 0 ≤ config.maxDeviationRatio)
    {pyth coingecko : PartialPrices} (hpyth : PythTold fl numerals config h pyth)
    (hcoingecko : CoinGeckoTold config h coingecko) {t : PriceToken} {p : PricePoint}
    (htaken : Taken fl numerals config h (pyth t) (coingecko t) p) {q : ℚ} {source : PriceSource}
    (hhonest : Honest fl numerals config h t q source) :
    ∃ usd, p.usd = .finite usd ∧ Agree (spread u config.maxDeviationRatio) usd q := by
  have hδ := spread_nonneg hfl.lt_one hd
  obtain ⟨usd, husd, hpos⟩ := assertSane_ok htaken.sane
  -- the honest source itself
  have hsame : Reports fl numerals config h t p source → q = usd := by
    intro hreport
    have hq := (hhonest.usd p hreport).symm.trans husd
    exact Number.finite.inj hq
  have hfresh : ∀ f, Reports fl numerals config h t f source → ¬Stale config h f := by
    rintro f hreport ⟨now, hread, hlt⟩
    exact absurd (hhonest.fresh f hreport now hread) (Int.not_le.mpr hlt)
  cases source with
  | pyth =>
    obtain ⟨f, res, body, hanswer, hbody, hprice⟩ := hhonest.reports
    obtain ⟨a, ha, rfl⟩ := hpyth
    obtain rfl : a = .ok res := Option.some.inj (ha.symm.trans hanswer)
    have hf : pythPrices fl numerals config (.ok res) t = some f := by
      simp only [pythPrices, hbody, hprice]
    obtain ⟨hprimary, -⟩ | ⟨-, hstale⟩ := htaken.from_source
    · have hp : f = p := Option.some.inj (hf.symm.trans hprimary)
      subst hp
      obtain rfl := hsame ⟨res, body, hanswer, hbody, hprice⟩
      exact ⟨q, husd, .refl hδ hpos⟩
    · exact absurd (hstale f hf) (hfresh f ⟨res, body, hanswer, hbody, hprice⟩)
  | coingecko =>
    obtain ⟨p₀, res, body, hanswer, hbody, entry, usd₀, hentry, husd₀, -⟩ := hhonest.reports
    obtain ⟨a, ha, hsaid, hall⟩ := hcoingecko
    obtain rfl : a = .ok res := Option.some.inj (ha.symm.trans hanswer)
    obtain ⟨f, hf⟩ := hall res body rfl hbody t entry usd₀ hentry husd₀
    have hreports : ∀ f, coingecko t = some f → Reports fl numerals config h t f .coingecko := by
      intro f hf
      obtain ⟨res', body', hres', hbody', hof⟩ := hsaid t f hf
      cases hres'
      exact ⟨res, body', hanswer, hbody', hof⟩
    obtain ⟨-, hagree⟩ | ⟨hfallback, -⟩ := htaken.from_source
    · obtain hstale | hdev := hagree f hf
      · exact absurd hstale (hfresh f (hreports f hf))
      · rw [husd, hhonest.usd f (hreports f hf)] at hdev
        exact ⟨usd, husd, agree_of_deviation hfl hd hdev⟩
    · obtain rfl := hsame (hreports p hfallback)
      exact ⟨q, husd, .refl hδ hpos⟩

/-- Of every token one source may report anything: the price that is returned agrees with the other's, if that is
honest. -/
theorem getPrices_honest (hfl : fl.Within u) (hd : 0 ≤ config.maxDeviationRatio) {prices : PriceToken → PricePoint}
    (hlead : Async.Leads (getPrices fl numerals config) h (.done prices)) (hclock : Clocked h) {t : PriceToken} {q : ℚ}
    {source : PriceSource} (hhonest : Honest fl numerals config h t q source) :
    Agree (spread u config.maxDeviationRatio) (usdOf prices t) q := by
  obtain ⟨pyth, coingecko, hpyth, hcoingecko, htaken⟩ := wp_leads getPrices_taken hlead hclock prices rfl
  obtain ⟨usd, husd, hagree⟩ := (htaken t).honest hfl hd hpyth hcoingecko hhonest
  have hof : usdOf prices t = usd := by
    simp only [usdOf, husd]
  rw [hof]
  exact hagree

/-! ## The guard -/

section

variable {inputs : BreakEvenInputs}

theorem amountToUsd_near (hfl : fl.Within u) (n decimals : Nat) {price : ℚ} (hprice : 0 ≤ price) :
    Near u 3 (amountToUsd .exact n decimals price) (amountToUsd fl n decimals price) := by
  have hunits : Near u 2 ((n : ℚ) / 10 ^ decimals) (toUnits fl n decimals) :=
    (Near.ofNat hfl n).div hfl (by positivity)
  exact hunits.mul hfl (.start hprice)

theorem costUsd_near (hfl : fl.Within u) (hwal : 0 ≤ inputs.prices .WAL) (hsui : 0 ≤ inputs.prices .SUI) :
    Near u 5 (costUsd .exact inputs) (costUsd fl inputs) := by
  have hreturn := amountToUsd_near hfl inputs.returnLzFeeMist MIST_DECIMALS hsui
  have hgas := amountToUsd_near hfl inputs.suiGasMist MIST_DECIMALS hsui
  have hboth := (amountToUsd_near hfl inputs.walCostFrost FROST_DECIMALS hwal).add hfl hreturn
  exact hboth.add hfl (hgas.mono hfl (by omega))

theorem requiredUsd_near (hfl : fl.Within u) (hwal : 0 ≤ inputs.prices .WAL) (hsui : 0 ≤ inputs.prices .SUI)
    (hmargin : 0 ≤ inputs.minMarginRatio) : Near u 7 (requiredUsd .exact inputs) (requiredUsd fl inputs) := by
  have hratio : Near u 1 (1 + inputs.minMarginRatio) (fl.add 1 inputs.minMarginRatio) :=
    (Near.start zero_le_one).add hfl (.start hmargin)
  exact (costUsd_near hfl hwal hsui).mul hfl hratio

/-- The inputs at other prices. -/
def BreakEvenInputs.at (inputs : BreakEvenInputs) (prices : PriceSet) : BreakEvenInputs :=
  { inputs with prices := prices }

variable {δ : ℚ} {prices prices' : PriceSet}

theorem amountToUsd_scale (n decimals : Nat) {price price' : ℚ} (hle : price ≤ (1 + δ) * price') :
    amountToUsd .exact n decimals price ≤ (1 + δ) * amountToUsd .exact n decimals price' := by
  have hunits : (0 : ℚ) ≤ (n : ℚ) / 10 ^ decimals := by positivity
  calc amountToUsd .exact n decimals price = (n : ℚ) / 10 ^ decimals * price := rfl
    _ ≤ (n : ℚ) / 10 ^ decimals * ((1 + δ) * price') := mul_le_mul_of_nonneg_left hle hunits
    _ = (1 + δ) * ((n : ℚ) / 10 ^ decimals * price') := by ring

/-- The cost grows by no more than the prices do. -/
theorem requiredUsd_scale (hwal : Agree δ (prices .WAL) (prices' .WAL)) (hsui : Agree δ (prices .SUI) (prices' .SUI))
    (hmargin : 0 ≤ inputs.minMarginRatio) :
    requiredUsd .exact (inputs.at prices') ≤ (1 + δ) * requiredUsd .exact (inputs.at prices) := by
  have hw := amountToUsd_scale inputs.walCostFrost FROST_DECIMALS hwal.ge
  have hr := amountToUsd_scale inputs.returnLzFeeMist MIST_DECIMALS hsui.ge
  have hg := amountToUsd_scale inputs.suiGasMist MIST_DECIMALS hsui.ge
  have hcost : costUsd .exact (inputs.at prices') ≤ (1 + δ) * costUsd .exact (inputs.at prices) := by
    refine (add_le_add (add_le_add hw hr) hg).trans_eq ?_
    rw [← mul_add, ← mul_add]
    rfl
  calc requiredUsd .exact (inputs.at prices')
      = costUsd .exact (inputs.at prices') * (1 + inputs.minMarginRatio) := rfl
    _ ≤ (1 + δ) * costUsd .exact (inputs.at prices) * (1 + inputs.minMarginRatio) :=
        mul_le_mul_of_nonneg_right hcost (add_nonneg zero_le_one hmargin)
    _ = (1 + δ) * (costUsd .exact (inputs.at prices) * (1 + inputs.minMarginRatio)) := mul_assoc _ _ _

variable (inputs) in
/-- What passes the guard at some prices covers the cost at prices that agree with them, up to what they differ by. -/
theorem guard_transfers (hfl : fl.Within u) (hδ : 0 ≤ δ) (hmargin : 0 ≤ inputs.minMarginRatio)
    (hagree : ∀ t ∈ [.WAL, .SUI, inputs.originToken.price], Agree δ (prices t) (prices' t))
    (hpass : requiredUsd fl (inputs.at prices) ≤ escrowUsd fl (inputs.at prices)) :
    (1 - u) ^ 7 * requiredUsd .exact (inputs.at prices') ≤
      (1 + u) ^ 3 * (1 + δ) ^ 2 * escrowUsd .exact (inputs.at prices') := by
  have hwal := hagree .WAL (by simp)
  have hsui := hagree .SUI (by simp)
  have horigin := hagree inputs.originToken.price (by simp)
  have hrequired : Near u 7 (requiredUsd .exact (inputs.at prices)) (requiredUsd fl (inputs.at prices)) :=
    requiredUsd_near hfl hwal.pos.le hsui.pos.le hmargin
  have hescrow : Near u 3 (escrowUsd .exact (inputs.at prices)) (escrowUsd fl (inputs.at prices)) :=
    amountToUsd_near hfl inputs.escrowNative (NATIVE_DECIMALS inputs.originToken) horigin.pos.le
  have hworth : escrowUsd .exact (inputs.at prices) ≤ (1 + δ) * escrowUsd .exact (inputs.at prices') :=
    amountToUsd_scale inputs.escrowNative (NATIVE_DECIMALS inputs.originToken) horigin.le
  have hδ' : 0 ≤ 1 + δ := add_nonneg zero_le_one hδ
  have hu : 0 ≤ (1 - u) ^ 7 := pow_nonneg (sub_nonneg.mpr hfl.lt_one.le) 7
  have hu' : 0 ≤ (1 + u) ^ 3 := pow_nonneg (add_nonneg zero_le_one hfl.nonneg) 3
  calc (1 - u) ^ 7 * requiredUsd .exact (inputs.at prices')
      ≤ (1 - u) ^ 7 * ((1 + δ) * requiredUsd .exact (inputs.at prices)) :=
        mul_le_mul_of_nonneg_left (requiredUsd_scale hwal hsui hmargin) hu
    _ = (1 + δ) * ((1 - u) ^ 7 * requiredUsd .exact (inputs.at prices)) := by ring
    _ ≤ (1 + δ) * requiredUsd fl (inputs.at prices) := mul_le_mul_of_nonneg_left hrequired.low hδ'
    _ ≤ (1 + δ) * escrowUsd fl (inputs.at prices) := mul_le_mul_of_nonneg_left hpass hδ'
    _ ≤ (1 + δ) * ((1 + u) ^ 3 * escrowUsd .exact (inputs.at prices)) :=
        mul_le_mul_of_nonneg_left hescrow.high hδ'
    _ ≤ (1 + δ) * ((1 + u) ^ 3 * ((1 + δ) * escrowUsd .exact (inputs.at prices'))) :=
        mul_le_mul_of_nonneg_left (mul_le_mul_of_nonneg_left hworth hu') hδ'
    _ = (1 + u) ^ 3 * (1 + δ) ^ 2 * escrowUsd .exact (inputs.at prices') := by ring

end

/-! ## The relayer -/

/-- The prices are the oracle's, and of each that the guard reads one source was honest. -/
def Vouched (fl : Rounding) (numerals : Numerals) (config : PriceOracleConfig) (origin : OriginToken)
    (q prices : PriceSet) : Prop :=
  ∃ told taken, Async.Leads (getPrices fl numerals config) told (.done taken) ∧ Clocked told ∧ prices = usdOf taken ∧
    ∀ t ∈ [.WAL, .SUI, origin.price], ∃ source, Honest fl numerals config told t (q t) source

/-- The escrow covers the cost of the store with its margin, at prices that one source vouches for, up to what the
sources may differ by. -/
def Worth (u d : ℚ) (cfg : Config) (row : StagedIntentRow) (h : Told) (epochs : Nat) (e : EscrowInfo) (q : PriceSet) :
    Prop :=
  ∃ (state : WalrusSystemState) (cost : Nat), ⟨.systemState, .ok state⟩ ∈ h ∧
    computeWalCost (row.size.getD 0) epochs state = .ok cost ∧
    (1 - u) ^ 7 * requiredUsd .exact (guardInputs cfg e cost q) ≤
      (1 + u) ^ 3 * (1 + spread u d) ^ 2 * escrowUsd .exact (guardInputs cfg e cost q)

theorem Covers.honest (hfl : fl.Within u) (hd : 0 ≤ config.maxDeviationRatio) {cfg : Config}
    (hmargin : 0 ≤ cfg.minMarginRatio) {row : StagedIntentRow} {h : Told} {epochs : Nat} {e : EscrowInfo}
    (hcovers : Covers fl cfg row h epochs e) {q : PriceSet}
    (hvouched : ∀ prices, ⟨.getPrices, .ok prices⟩ ∈ h → Vouched fl numerals config e.originToken q prices) :
    Worth u config.maxDeviationRatio cfg row h epochs e q := by
  obtain ⟨prices, state, cost, hprices, hstate, hcost, hpass⟩ := hcovers
  obtain ⟨told, taken, hlead, hclock, rfl, hhonest⟩ := hvouched prices hprices
  refine ⟨state, cost, hstate, hcost, ?_⟩
  refine guard_transfers (guardInputs cfg e cost (usdOf taken)) hfl (spread_nonneg hfl.lt_one hd) hmargin
    (fun t ht => ?_) hpass
  obtain ⟨source, hof⟩ := hhonest t ht
  exact getPrices_honest hfl hd hlead hclock hof

/-- However an attempt came to buy an upload with the guard on, it was shown no escrow, or one that covers the cost at
prices that of each token one source reports: whatever the other says. -/
theorem upload_worth (hfl : fl.Within u) (hd : 0 ≤ config.maxDeviationRatio) {cfg : Config}
    (henabled : cfg.breakEvenEnabled = true) (hprovided : cfg.guarded = true) (hmargin : 0 ≤ cfg.minMarginRatio)
    {row : StagedIntentRow} {sender : String} {commitment : Option IntentCommitment} {h : Told} {id : IntentId}
    {bytes : List UInt8} {epochs : Nat} {next : Except Failure WalrusBlob → Program Booking}
    (hlead : Async.Leads (store fl cfg row sender commitment) h (.await (.writeBlob id bytes epochs) next))
    {q : PriceSet} (hvouched : ∀ prices, ⟨.getPrices, .ok prices⟩ ∈ h → ∀ e, EscrowRead cfg row h (some e) →
      Vouched fl numerals config e.originToken q prices) :
    EscrowRead cfg row h none ∨
      ∃ e, EscrowRead cfg row h (some e) ∧ Worth u config.maxDeviationRatio cfg row h epochs e q := by
  obtain ⟨-, -, hvetted⟩ := (wp_leads (store_rests fl cfg row sender commitment) hlead).1
  obtain hnone | ⟨e, hread, hcovers⟩ := hvetted henabled hprovided
  · exact Or.inl hnone
  · exact Or.inr ⟨e, hread, hcovers.honest hfl hd hmargin fun prices hprices => hvouched prices hprices e hread⟩

/-- Numbers, as far as the example reads them. -/
def exampleNumerals : Numerals where
  number text := if text = "11" then .finite 11 else .nan
  text _ := "1"
  toFixed _ _ := "0"

def exampleOracle : PriceOracleConfig where
  maxStalenessMs := 120000
  maxDeviationRatio := 15 / 100
  sanityBounds _ := ⟨1 / 2, 50⟩
  pyth := ⟨"https://hermes", none, PriceToken.name⟩
  coingecko := ⟨"https://coingecko", none, PriceToken.name⟩

/-- Pyth reports a dollar and ten cents for every token. -/
def examplePyth : PythBody := ⟨some (PRICE_TOKENS.map fun t => ⟨t.name, some ⟨"11", -1, 0⟩⟩)⟩

/-- CoinGecko reports a dollar. -/
def exampleCoinGecko : CoinGeckoBody := fun _ => some ⟨some (.finite 1), some 0⟩

def exampleSources : ∀ c : OracleCall, Except String c.Answer
  | .fetchPyth .. => .ok ⟨true, 200, some examplePyth⟩
  | .fetchCoinGecko .. => .ok ⟨true, 200, some exampleCoinGecko⟩
  | .now => .ok 1000

/-- The two prices of a token. -/
def raised (t : PriceToken) : PricePoint := ⟨t, .finite (11 / 10), 0, .pyth⟩

def dollar (t : PriceToken) : PricePoint := ⟨t, .finite 1, 0, .coingecko⟩

theorem examplePyth_price (t : PriceToken) :
    pythPrice .exact exampleNumerals exampleOracle examplePyth t = some (raised t) := by
  cases t <;> decide +kernel

/-- The first of two prices that differ by a tenth is taken. -/
theorem exampleSources_reconcile (t : PriceToken) : result exampleSources
    (reconcile .exact exampleNumerals exampleOracle t (some (raised t)) (some (dollar t))) = .ok (raised t) := by
  have hsane : assertSane exampleNumerals exampleOracle (raised t) = .ok () := by
    cases t <;> decide +kernel
  have hclose : (deviation .exact (raised t).usd (dollar t).usd).exceeds exampleOracle.maxDeviationRatio = false := by
    cases t <;> decide +kernel
  have hagree : assertConsensus .exact exampleNumerals exampleOracle t (some (raised t)) (some (dollar t)) =
      .ok () := by
    unfold assertConsensus
    dsimp only
    rw [hclose]
    rfl
  have hchosen : choose exampleNumerals exampleOracle t (some (raised t)) (some (dollar t)) (some (raised t))
      (some (dollar t)) = .ok (raised t) := by
    show (assertSane exampleNumerals exampleOracle (raised t) >>= fun _ => pure _) = _
    rw [hsane]
    rfl
  show result exampleSources
    (Async.ofExcept (assertConsensus .exact exampleNumerals exampleOracle t (some (raised t)) (some (dollar t))) >>=
      fun _ => Async.ofExcept (choose exampleNumerals exampleOracle t (some (raised t)) (some (dollar t))
        (some (raised t)) (some (dollar t)))) = _
  rw [hagree, hchosen]
  rfl

/-- The prices that the oracle returns of them. -/
def examplePrices : PriceToken → PricePoint := byToken (raised .WAL) (raised .SUI) (raised .ETH) (raised .SOL)

theorem exampleSources_result :
    result exampleSources (getPrices .exact exampleNumerals exampleOracle) = .ok examplePrices := by
  have hpyth : result exampleSources (tryCatch (tryPyth .exact exampleNumerals exampleOracle)
      fun _ => (pure fun _ => none : Oracle PartialPrices)) = .ok fun t => some (raised t) := by
    rw [← funext examplePyth_price]
    rfl
  have hcoingecko : result exampleSources (tryCatch (tryCoinGecko exampleOracle)
      fun _ => (pure fun _ => none : Oracle PartialPrices)) = .ok fun t => some (dollar t) := by
    have hprices : (fun t => some (dollar t)) = byToken (some (dollar .WAL)) (some (dollar .SUI)) (some (dollar .ETH))
        (some (dollar .SOL)) := funext fun t => by cases t <;> rfl
    rw [hprices]
    rfl
  unfold getPrices
  rw [result_next hpyth, result_next hcoingecko]
  unfold forTokens
  rw [result_next (exampleSources_reconcile .WAL), result_next (exampleSources_reconcile .SUI),
    result_next (exampleSources_reconcile .ETH), result_next (exampleSources_reconcile .SOL)]
  rfl

theorem coingeckoAnswer_mem {h : OracleTold} {a : Except String (Fetched CoinGeckoBody)}
    (ha : coingeckoAnswer h = some a) : ∃ url headers, ⟨.fetchCoinGecko url headers, a⟩ ∈ h := by
  obtain ⟨x, hx, hof⟩ := List.exists_of_findSome?_eq_some ha
  obtain ⟨c, r⟩ := x
  cases c with
  | fetchPyth url headers => cases hof
  | fetchCoinGecko url headers =>
    cases hof
    exact ⟨url, headers, hx⟩
  | now => cases hof

/-- CoinGecko vouches for a dollar; the price that is returned is the other's. -/
theorem exampleOracle_vouched (origin : OriginToken) :
    Vouched .exact exampleNumerals exampleOracle origin (fun _ => 1) fun _ => 11 / 10 := by
  obtain ⟨told, hanswered, hlead⟩ := reaches_result exampleSources (getPrices .exact exampleNumerals exampleOracle)
  rw [exampleSources_result] at hlead
  have hclock : Clocked told := fun e he => nomatch hanswered _ he
  obtain ⟨pyth, coingecko, -, ⟨a, ha, -⟩, -⟩ := wp_leads getPrices_taken hlead hclock examplePrices rfl
  have hcoingecko : coingeckoAnswer told = some (exampleSources (.fetchCoinGecko "" [])) := by
    obtain ⟨url, headers, hmem⟩ := coingeckoAnswer_mem ha
    rw [ha, show a = _ from hanswered _ hmem]
    rfl
  have hreports (t : PriceToken) (p : PricePoint) :
      Reports .exact exampleNumerals exampleOracle told t p .coingecko ↔ p = dollar t := by
    constructor
    · rintro ⟨res, body, hres, hbody, entry, usd, hentry, husd, seconds, htime, rfl⟩
      cases hcoingecko.symm.trans hres
      cases hbody
      cases hentry
      cases husd
      obtain hseconds | ⟨hnone, -⟩ := htime
      · cases hseconds
        rfl
      · cases hnone
    · rintro rfl
      exact ⟨_, exampleCoinGecko, hcoingecko, rfl, _, _, rfl, rfl, 0, Or.inl rfl, rfl⟩
  have husd : (fun _ => 11 / 10) = usdOf examplePrices := funext fun t => by cases t <;> rfl
  refine ⟨told, examplePrices, hlead, hclock, husd, fun t _ =>
    ⟨.coingecko, ⟨dollar t, (hreports t _).mpr rfl⟩, ?_, ?_⟩⟩
  · rintro p hp
    rw [(hreports t p).mp hp]
    rfl
  · rintro p hp now hread
    rw [(hreports t p).mp hp]
    cases hanswered _ hread
    show (1000 : Int) - 0 ≤ 120000
    decide

/-- An escrow of one coin, at those prices. -/
def exampleMarket : Replies
  | .systemState => .ok ⟨1000, 1, 1, 53⟩
  | .evmGetEscrow _ => .ok ⟨ZERO_ADDRESS, 10 ^ 18, EVM_ESCROW_PENDING⟩
  | .getPrices => .ok fun _ => 11 / 10
  | .ensureWal => .ok ()
  | .recordHop .. => .ok ()
  | .fetchBytes _ => .ok (some [7])
  | _ => .error (.error "no reply")

theorem exampleMarket_shown :
    shownEscrow exampleGuarded exampleGuardedRun.row exampleMarket = some ⟨10 ^ 18, .ETH⟩ := by
  have hzero : ZERO_ADDRESS.toLower = ZERO_ADDRESS := by decide +kernel
  have hpending : EVM_ESCROW_PENDING = EVM_ESCROW_PENDING ∧ 0 < 10 ^ 18 ∧ ZERO_ADDRESS.toLower = ZERO_ADDRESS :=
    ⟨rfl, by decide, hzero⟩
  exact if_pos hpending

theorem exampleMarket_guard : ∃ d,
    result exampleMarket (breakEvenGuard .exact exampleGuarded exampleGuardedRun.row 1) = .ok (.ok (some d)) := by
  let inputs := guardInputs exampleGuarded ⟨10 ^ 18, .ETH⟩ 126 fun _ => 11 / 10
  obtain ⟨d, hd⟩ : ∃ d, evaluateBreakEven .exact inputs = .ok d := by
    have hpositive : ∀ t, ¬inputs.prices t ≤ 0 := fun t => by
      norm_num [inputs, guardInputs]
    unfold evaluateBreakEven requirePrice
    simp only [if_neg (hpositive _)]
    exact ⟨_, rfl⟩
  have hcost : computeWalCost 1 1 ⟨1000, 1, 1, 53⟩ = .ok 126 := by decide
  have hcheck : result exampleMarket (breakEvenCheck .exact exampleGuarded ⟨10 ^ 18, .ETH⟩ 1 1) = .ok d :=
    result_breakEvenCheck.mpr ⟨fun _ => 11 / 10, _, 126, rfl, rfl, hcost, hd⟩
  have hproceed : d.proceed = true := by
    rw [(evaluateBreakEven_ok hd).2.2.2.2]
    show Rounding.mul .exact _ _ ≤ amountToUsd .exact (10 ^ 18) 18 (11 / 10)
    norm_num [inputs, guardInputs, costUsd, amountToUsd, toUnits, Rounding.mul, Rounding.div, Rounding.add,
      Rounding.ofNat, Rounding.exact, FROST_DECIMALS, MIST_DECIMALS, exampleGuarded, exampleConfig]
  have hon : (exampleGuarded.breakEvenEnabled && exampleGuarded.guarded &&
    exampleGuardedRun.row.walrusObjectId.isNone) = true := rfl
  refine ⟨d, ?_⟩
  unfold breakEvenGuard
  rw [if_pos hon, result_bind, result_getEscrow, exampleMarket_shown]
  show result exampleMarket (breakEvenCheck .exact exampleGuarded ⟨10 ^ 18, .ETH⟩ 1 1 >>= fun d =>
    if (!d.proceed) = true then pure (.error d.reason) else
      (pure (.ok (some d)) : Program (Except String (Option BreakEvenDecision)))) = _
  rw [result_next hcheck, hproceed]
  rfl

theorem exampleMarket_uploads : ∃ next, Async.Reaches exampleMarket
    (store .exact exampleGuarded exampleGuardedRun.row "0xab" (some exampleCommitment))
    (.await (.writeBlob "0x01" [7] 1) next) := by
  obtain ⟨d, hguard⟩ := exampleMarket_guard
  -- past the guard the pipeline goes on to the upload
  obtain ⟨next, hlead⟩ : ∃ next, Async.Leads
      (fulfil exampleGuarded exampleGuardedRun.row "0xab" (some exampleCommitment) 1 >>= fun _ =>
        (pure (.completion d.escrowUsd d.costUsd) : Program Booking))
      [⟨.ensureWal, .ok ()⟩, ⟨.recordHop "0x01" .received { sender := some "0xab" }, .ok ()⟩,
        ⟨.fetchBytes "0x01", .ok (some [7])⟩] (.await (.writeBlob "0x01" [7] 1) next) := by
    have h1 := Async.Leads.answer (c := Call.ensureWal) (Async.Leads.start (p := fulfil exampleGuarded
      exampleGuardedRun.row "0xab" (some exampleCommitment) 1 >>= fun _ =>
        (pure (.completion d.escrowUsd d.costUsd) : Program Booking))) (.ok ())
    have h2 := Async.Leads.answer (c := Call.recordHop "0x01" .received { sender := some "0xab" }) h1 (.ok ())
    exact ⟨_, Async.Leads.answer (c := Call.fetchBytes "0x01") h2 (.ok (some [7]))⟩
  have hanswered : ∀ x ∈ ([⟨.ensureWal, .ok ()⟩, ⟨.recordHop "0x01" .received { sender := some "0xab" }, .ok ()⟩,
      ⟨.fetchBytes "0x01", .ok (some [7])⟩] : Told), x.2 = exampleMarket x.1 := by
    intro x hx
    simp only [List.mem_cons, List.not_mem_nil, or_false] at hx
    obtain rfl | rfl | rfl := hx <;> rfl
  refine ⟨next, ?_⟩
  unfold store
  exact Async.Reaches.bind (a := .ok 1) rfl (Async.Reaches.bind hguard ⟨_, hanswered, hlead⟩)

/-- The upload for the escrow of one coin: at the dollar that CoinGecko reports it covers the cost, up to what Pyth may
differ by. -/
theorem upload_worth_dollar : ∃ h next,
    Async.Leads (store .exact exampleGuarded exampleGuardedRun.row "0xab" (some exampleCommitment)) h
      (.await (.writeBlob "0x01" [7] 1) next) ∧
    Worth 0 exampleOracle.maxDeviationRatio exampleGuarded exampleGuardedRun.row h 1 ⟨10 ^ 18, .ETH⟩ fun _ => 1 := by
  obtain ⟨next, h, hanswered, hlead⟩ := exampleMarket_uploads
  have hread (e : Option EscrowInfo) (he : EscrowRead exampleGuarded exampleGuardedRun.row h e) :
      e = some ⟨10 ^ 18, .ETH⟩ := by
    have hevm : exampleGuardedRun.row.srcEid ≠ some exampleGuarded.solanaSrcEid := by decide
    unfold EscrowRead at he
    rw [if_neg hevm] at he
    obtain ⟨a, ha, rfl⟩ := he
    rw [show a = _ from hanswered _ ha]
    exact exampleMarket_shown
  have hvouched : ∀ prices, ⟨.getPrices, .ok prices⟩ ∈ h → ∀ e, EscrowRead exampleGuarded exampleGuardedRun.row h
      (some e) → Vouched .exact exampleNumerals exampleOracle e.originToken (fun _ => 1) prices := by
    intro prices hprices e _
    cases hanswered _ hprices
    exact exampleOracle_vouched e.originToken
  have hmargin : 0 ≤ exampleGuarded.minMarginRatio := by
    norm_num [exampleGuarded, exampleConfig]
  have hd : 0 ≤ exampleOracle.maxDeviationRatio := by
    norm_num [exampleOracle]
  have henabled : exampleGuarded.breakEvenEnabled = true := rfl
  refine ⟨h, next, hlead, ?_⟩
  obtain hnone | ⟨e, hsome, hworth⟩ := upload_worth Rounding.exact_within hd henabled rfl hmargin hlead hvouched
  · cases hread _ hnone
  · cases hread _ hsome
    exact hworth

end Bosphor.Relayer

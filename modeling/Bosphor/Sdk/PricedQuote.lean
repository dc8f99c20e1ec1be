import Bosphor.Delivery
import Bosphor.Relayer.QuoteEngine

/-!
# Paying a quote

The clients of the two origins: a quote is fetched from the relayer, and then
submitted with the amounts it asks for. The EVM adapter keeps what the fee of
the moment leaves of the value, the Solana program exactly the amount that is
written in the instruction; so the quoted escrow is opened on EVM if and only if
the fee did not rise, and on Solana if and only if the amount fits
(`paid_quote_funds`).
-/

namespace Bosphor.Sdk

open Relayer (QuoteRequest QuoteRequestDto RawQuote QuoteBreakdown OriginToken getQuote)

/-! ## Fetching a quote -/

structure PricedQuote where
  originToken : OriginToken
  escrowNative : Int
  forwardNative : Int
  totalNative : Int
  /-- The forward amount is a cap, not the live fee. -/
  forwardIsUpperBound : Bool
  breakdown : QuoteBreakdown
  deriving DecidableEq

/-- `BigInt(text)`, of the decimal numerals that the relayer writes. -/
def bigInt (text : String) : Except String Int :=
  match Decimal.readInt text with
  | some n => .ok n
  | none => .error s!"Cannot convert {text} to a BigInt"

/-- A relayer, as its quote endpoint answers. -/
abbrev QuoteEndpoint := QuoteRequestDto → Except String RawQuote

def fetchQuote (relayer : QuoteEndpoint) (request : QuoteRequest) : Except String PricedQuote := do
  let body ← relayer {
    sizeBytes := request.sizeBytes
    epochs := request.epochs
    originToken := request.originToken
    forwardLzFeeNative := request.forwardLzFeeNative.map toString
    originGasNative := request.originGasNative.map toString }
  return {
    originToken := body.originToken
    escrowNative := ← bigInt body.escrowNative
    forwardNative := ← bigInt body.forwardNative
    totalNative := ← bigInt body.totalNative
    forwardIsUpperBound := false
    breakdown := body.breakdown }

theorem bigInt_toString (n : Int) : bigInt (toString n) = .ok n := by
  unfold bigInt
  rw [Decimal.readInt_toString]

/-- Why a submission did not return an intent id. -/
inductive SubmitError (ε : Type) where
  /-- The value is no amount: the transaction is not even sent. -/
  | invalidValue
  | reverted (e : ε)
  | noIntentId

/-- The result of a transaction. -/
def sent {ε α : Type} : Except ε α → Except (SubmitError ε) α
  | .ok a => .ok a
  | .error e => .error (.reverted e)

/-! ## The EVM client -/

structure BosphorEvmClient where
  relayer : QuoteEndpoint
  dstEid : UInt32

namespace BosphorEvmClient

/-- `priceQuote(encoded)`, when the adapter's quote is `nativeFee`. -/
def priceQuote (client : BosphorEvmClient) (encoded : Commitment) (nativeFee : Nat) : Except String PricedQuote :=
  fetchQuote client.relayer {
    sizeBytes := encoded.size.toNat
    epochs := some encoded.storageEpochs.toNat
    originToken := .ETH
    forwardLzFeeNative := some nativeFee }

/-- `extractIntentId(receipt)`, of the events of the transaction. -/
def extractIntentId (logs : List Evm.Entry) : Option Evm.IntentId :=
  logs.findSome? fun log => log.event.submission.map (·.id)

/-- `submitWithValue(encoded, value)`, at a block time, for a fee of the moment. -/
def submitWithValue (client : BosphorEvmClient) (now : Nat) (sender : Evm.Address) (encoded : Commitment) (value : Int)
    (fee : Option Nat) (sendOk : Bool) (s : Evm.State) : Except (SubmitError Evm.Revert) (Evm.IntentId × Evm.State) :=
  if value < 0 then .error .invalidValue
  else do
    let s' ← sent (Evm.submitIntent now sender value.toNat client.dstEid encoded fee sendOk s)
    match extractIntentId (s'.log.drop s.log.length) with
    | none => throw .noIntentId
    | some intentId => return (intentId, s')

def submitPaid (client : BosphorEvmClient) (now : Nat) (sender : Evm.Address) (encoded : Commitment)
    (quote : PricedQuote)
    (fee : Option Nat) (sendOk : Bool) (s : Evm.State) : Except (SubmitError Evm.Revert) (Evm.IntentId × Evm.State) :=
  client.submitWithValue now sender encoded (quote.escrowNative + quote.forwardNative) fee sendOk s

end BosphorEvmClient

/-! ## The Solana client -/

structure BosphorSolanaClient where
  relayer : QuoteEndpoint
  dstEid : UInt32
  /-- The cap on the LayerZero fee. -/
  nativeFee : Int := 0

structure SubmitOptions where
  dstEid : Option UInt32 := none
  nativeFee : Option Int := none
  escrowAmount : Option Int := none

/-- `setBigUint64` keeps the value modulo `2 ^ 64`. -/
def u64 (v : Int) : UInt64 := UInt64.ofNat (v % 2 ^ 64).toNat

namespace BosphorSolanaClient

/-- `priceQuote(encoded)`, when the live fee is `live`. -/
def priceQuote (client : BosphorSolanaClient) (encoded : Commitment) (live : Option Int) :
    Except String PricedQuote := do
  let quote ← fetchQuote client.relayer {
    sizeBytes := encoded.size.toNat
    epochs := some encoded.storageEpochs.toNat
    originToken := .SOL
    forwardLzFeeNative := some (live.getD client.nativeFee) }
  return { quote with forwardIsUpperBound := live.isNone }

/-- The intent id of the event that the program emitted. -/
def parseIntentId (logs : List Solana.Entry) : Option Solana.IntentId :=
  logs.findSome? fun log =>
    match log.event with
    | .intentSubmitted intentId .. => some intentId
    | _ => none

/-- `submit(encoded, opts)`, at the clock's time; `receipt` is what the endpoint's `send` returns. -/
def submit (client : BosphorSolanaClient) (now : Int) (payer : Solana.Pubkey) (encoded : Commitment)
    (opts : SubmitOptions) (receipt : Option Solana.MessagingReceipt) (s : Solana.State) :
    Except (SubmitError Solana.Error) (Solana.IntentId × Solana.State) := do
  let s' ← sent (Solana.submitIntent now payer encoded (opts.dstEid.getD client.dstEid)
    (u64 (opts.nativeFee.getD client.nativeFee)) (u64 (opts.escrowAmount.getD 0)) receipt s)
  match parseIntentId (s'.log.drop s.log.length) with
  | none => throw .noIntentId
  | some intentId => return (intentId, s')

def submitPaid (client : BosphorSolanaClient) (now : Int) (payer : Solana.Pubkey) (encoded : Commitment)
    (quote : PricedQuote) (opts : SubmitOptions) (receipt : Option Solana.MessagingReceipt) (s : Solana.State) :
    Except (SubmitError Solana.Error) (Solana.IntentId × Solana.State) :=
  let cap := opts.nativeFee.getD client.nativeFee
  let nativeFee := if quote.forwardNative > cap then quote.forwardNative else cap
  client.submit now payer encoded { opts with nativeFee := some nativeFee, escrowAmount := some quote.escrowNative } receipt s

end BosphorSolanaClient

/-! ## What is paid -/

variable {fl : Rounding} {service : Relayer.QuoteService} {market : Relayer.Market}

theorem sent_ok {ε α : Type} {x : Except ε α} {a : α} : sent x = .ok a ↔ x = .ok a := by
  cases x with
  | ok b => simp only [sent, Except.ok.injEq]
  | error e => simp only [sent, reduceCtorEq]

/-- The forward amount of a quote is the fee it was fetched with. -/
theorem priceQuote_forward {client : BosphorEvmClient} (hrelayer : client.relayer = getQuote fl service market)
    {encoded : Commitment} {nativeFee : Nat} {quote : PricedQuote}
    (h : client.priceQuote encoded nativeFee = .ok quote) :
    quote.forwardNative = nativeFee := by
  simp only [BosphorEvmClient.priceQuote, fetchQuote, hrelayer, Result.bind_ok, Result.pure_ok] at h
  obtain ⟨body, hbody, -, -, forward, hforward, -, -, rfl⟩ := h
  obtain ⟨-, -, htext, -⟩ := Relayer.getQuote_forward (rfl : _ = some (toString nativeFee)) rfl hbody
  rw [htext, bigInt_toString] at hforward
  exact (Except.ok.inj hforward).symm

theorem submitWithValue_ok {client : BosphorEvmClient} {now : Nat} {sender : Evm.Address} {encoded : Commitment}
    {value : Int} {fee : Option Nat} {sendOk : Bool} {s s' : Evm.State} {id : Evm.IntentId} :
    client.submitWithValue now sender encoded value fee sendOk s = .ok (id, s') ↔ 0 ≤ value ∧
      Evm.submitIntent now sender value.toNat client.dstEid encoded fee sendOk s = .ok s' ∧
        id = s.nextId sender encoded := by
  have hlogs : ∀ {t}, Evm.submitIntent now sender value.toNat client.dstEid encoded fee sendOk s = .ok t →
      BosphorEvmClient.extractIntentId (t.log.drop s.log.length) = some (s.nextId sender encoded) := by
    intro t ht
    obtain ⟨nativeFee, -, -, -, -, -, rfl⟩ := Evm.submitIntent_ok.mp ht
    show BosphorEvmClient.extractIntentId ((s.log ++ _).drop s.log.length) = _
    rw [List.drop_left]
    rfl
  unfold BosphorEvmClient.submitWithValue
  split
  · rename_i hneg
    exact iff_of_false (fun h => by cases h) fun h => absurd hneg (not_lt.mpr h.1)
  · rename_i hvalue
    simp only [Result.bind_ok, sent_ok, not_lt.mp hvalue, true_and]
    constructor
    · rintro ⟨t, ht, hreturned⟩
      rw [hlogs ht] at hreturned
      cases hreturned
      exact ⟨ht, rfl⟩
    · rintro ⟨ht, hid⟩
      refine ⟨s', ht, ?_⟩
      rw [hlogs ht, hid]
      rfl

theorem submit_ok {client : BosphorSolanaClient} {now : Int} {payer : Solana.Pubkey} {encoded : Commitment}
    {opts : SubmitOptions} {receipt : Option Solana.MessagingReceipt} {s s' : Solana.State} {id : Solana.IntentId} :
    client.submit now payer encoded opts receipt s = .ok (id, s') ↔
      Solana.submitIntent now payer encoded (opts.dstEid.getD client.dstEid)
        (u64 (opts.nativeFee.getD client.nativeFee)) (u64 (opts.escrowAmount.getD 0)) receipt s = .ok s' ∧
      id = Solana.submissionId encoded payer (s.nextNonce payer) := by
  have hlogs : ∀ {t}, Solana.submitIntent now payer encoded (opts.dstEid.getD client.dstEid)
      (u64 (opts.nativeFee.getD client.nativeFee)) (u64 (opts.escrowAmount.getD 0)) receipt s = .ok t →
      BosphorSolanaClient.parseIntentId (t.log.drop s.log.length) =
        some (Solana.submissionId encoded payer (s.nextNonce payer)) := by
    intro t ht
    obtain ⟨store, peer, r, lamports, -, -, rfl⟩ := Solana.submitIntent_effect ht
    show BosphorSolanaClient.parseIntentId ((s.log ++ _).drop s.log.length) = _
    rw [List.drop_left]
    rfl
  simp only [BosphorSolanaClient.submit, Result.bind_ok, sent_ok]
  constructor
  · rintro ⟨t, ht, hreturned⟩
    rw [hlogs ht] at hreturned
    cases hreturned
    exact ⟨ht, rfl⟩
  · rintro ⟨ht, hid⟩
    refine ⟨s', ht, ?_⟩
    rw [hlogs ht, hid]
    rfl

/-- The escrow that a submission opens: what the fee leaves of the value. -/
theorem submitWithValue_opens {client : BosphorEvmClient} {now : Nat} {sender : Evm.Address} {encoded : Commitment}
    {value : Int} {fee : Nat} {sendOk : Bool} {s s' : Evm.State} {id : Evm.IntentId}
    (h : client.submitWithValue now sender encoded value (some fee) sendOk s = .ok (id, s')) :
    ∃ amount : Nat, s'.escrows id = ⟨sender, Evm.nativeToken, amount, encoded.deadline, .pending⟩ ∧
      value = fee + amount := by
  obtain ⟨hvalue, hs, rfl⟩ := submitWithValue_ok.mp h
  obtain ⟨nativeFee, hfee, -, hok, -, -, rfl⟩ := Evm.submitIntent_ok.mp hs
  cases hfee
  refine ⟨value.toNat - fee, Function.update_self _ _ _, ?_⟩
  have hcovered : fee ≤ value.toNat := hok.covered
  omega

/-- The vault that a submission opens. -/
theorem submit_opens {client : BosphorSolanaClient} {now : Int} {payer : Solana.Pubkey} {encoded : Commitment}
    {opts : SubmitOptions} {receipt : Option Solana.MessagingReceipt} {s s' : Solana.State} {id : Solana.IntentId}
    (h : client.submit now payer encoded opts receipt s = .ok (id, s')) : ∃ vault, s'.escrows id = some vault ∧
      vault.status = Solana.escrowPending ∧ vault.amount = u64 (opts.escrowAmount.getD 0) ∧
      vault.amount.toNat ≤ s'.lamports (.escrow id) := by
  obtain ⟨hs, rfl⟩ := submit_ok.mp h
  obtain ⟨store, peer, r, lamports, -, hok, rfl⟩ := Solana.submitIntent_effect hs
  exact ⟨_, Function.update_self _ _ _, rfl, rfl, hok.funded⟩

theorem le_u64 (v : Int) : v ≤ (u64 v).toNat ↔ v < 2 ^ 64 := by
  have hmod : ((u64 v).toNat : Int) = v % 2 ^ 64 := by
    unfold u64
    rw [UInt64.toNat_ofNat']
    omega
  rw [hmod]
  omega

/-- An EVM submission that pays a quote opens the quoted escrow exactly when the fee did not rise since; a Solana
submission exactly when the amount is one of 64 bits. -/
theorem paid_quote_funds (fl : Rounding) (service : Relayer.QuoteService) (market : Relayer.Market) :
    (∀ (client : BosphorEvmClient), client.relayer = getQuote fl service market →
      ∀ priced f0 quote, client.priceQuote priced f0 = .ok quote →
      ∀ now sender encoded f1 sendOk s id s',
        client.submitPaid now sender encoded quote (some f1) sendOk s = .ok (id, s') →
        ∃ amount : Nat, s'.escrows id = ⟨sender, Evm.nativeToken, amount, encoded.deadline, .pending⟩ ∧
          (quote.escrowNative ≤ amount ↔ f1 ≤ f0)) ∧
    ∀ (client : BosphorSolanaClient), client.relayer = getQuote fl service market →
      ∀ priced live quote, client.priceQuote priced live = .ok quote →
      ∀ now payer encoded opts receipt s id s',
        client.submitPaid now payer encoded quote opts receipt s = .ok (id, s') →
        ∃ vault, s'.escrows id = some vault ∧ vault.status = Solana.escrowPending ∧
          vault.amount.toNat ≤ s'.lamports (.escrow id) ∧
          (quote.escrowNative ≤ vault.amount.toNat ↔ quote.escrowNative < 2 ^ 64) := by
  constructor
  · intro client hrelayer priced f0 quote hquote now sender encoded f1 sendOk s id s' hsubmit
    have hforward : quote.forwardNative = f0 := priceQuote_forward hrelayer hquote
    obtain ⟨amount, hescrow, hvalue⟩ := submitWithValue_opens hsubmit
    refine ⟨amount, hescrow, ?_⟩
    rw [hforward] at hvalue
    omega
  · intro client _ priced live quote _ now payer encoded opts receipt s id s' hsubmit
    obtain ⟨vault, hvault, hstatus, hamount, hfunded⟩ := submit_opens hsubmit
    refine ⟨vault, hvault, hstatus, hfunded, ?_⟩
    rw [hamount]
    exact le_u64 quote.escrowNative

/-! ## A quote -/

/-- A service that charges seven billionths of a dollar. -/
def exampleService : Relayer.QuoteService where
  engineConfig := ⟨⟨0, 0, 0, 0⟩, 0, 7 / 10 ^ 9⟩
  returnLzFeeMist := 0
  suiGasMist := 0
  maxStoreEpochs := 5
  storeEpochs := 5

def exampleMarket : Relayer.Market := ⟨.ok fun _ => 1, .ok ⟨1, 0, 0, 0⟩⟩

def exampleRelayer : QuoteEndpoint := getQuote .exact exampleService exampleMarket

def exampleEvmClient : BosphorEvmClient := ⟨exampleRelayer, 30⟩

def exampleSolanaClient : BosphorSolanaClient := ⟨exampleRelayer, 30, 0⟩

/-- A result that has a property. -/
theorem ok_of_any {ε α : Type} {x : Except ε α} {p : α → Bool} (h : x.toOption.any p = true) :
    ∃ a, x = .ok a ∧ p a = true := by
  cases x with
  | ok a => exact ⟨a, rfl, h⟩
  | error e => cases h

/-- The EVM client's quote when the fee is 2. -/
theorem example_quoted : ∃ quote, exampleEvmClient.priceQuote exampleCommitment 2 = .ok quote ∧
    (decide (quote.escrowNative = 7000000000 ∧ quote.forwardNative = 2)) = true :=
  ok_of_any (by decide +kernel)

/-- The Solana client's. -/
theorem example_quoted_solana : ∃ quote, exampleSolanaClient.priceQuote exampleCommitment (some 2) = .ok quote ∧
    (decide (quote.escrowNative = 7 ∧ quote.forwardNative = 2)) = true :=
  ok_of_any (by decide +kernel)

/-- The submission that pays the quote, when the fee is `fee`. -/
theorem example_paid {quote : PricedQuote} (hescrow : quote.escrowNative = 7000000000)
    (hforward : quote.forwardNative = 2) {fee : Nat} (hfee : fee ≤ 7000000002) :
    exampleEvmClient.submitPaid 5 (Evm.accountOf 7) exampleCommitment quote (some fee) true Evm.peered =
      .ok (Evm.submissionId exampleCommitment (Evm.accountOf 7) 0,
        Evm.submitted 5 (Evm.accountOf 7) 7000000002 fee 30 exampleCommitment Evm.peered) := by
  have hvalue : quote.escrowNative + quote.forwardNative = 7000000002 := by omega
  unfold BosphorEvmClient.submitPaid
  rw [hvalue]
  exact submitWithValue_ok.mpr ⟨by decide, Evm.submitIntent_ok.mpr
    ⟨fee, rfl, rfl, ⟨by decide, hfee, by decide, by decide, by decide⟩, rfl, rfl, rfl⟩, rfl⟩

/-- The Solana submission that pays it. -/
theorem example_paid_solana {quote : PricedQuote} (hescrow : quote.escrowNative = 7)
    (hforward : quote.forwardNative = 2) :
    ∃ id s', exampleSolanaClient.submitPaid 5 (Solana.walletOf 7) exampleCommitment quote {}
      (some ⟨Solana.walletOf 0, 1, 2, Solana.walletOf 9⟩) Solana.peered = .ok (id, s') := by
  have hsubmits : ∃ s', Solana.submitIntent 5 (Solana.walletOf 7) exampleCommitment 30 2 7
      (some ⟨Solana.walletOf 0, 1, 2, Solana.walletOf 9⟩) Solana.peered = .ok s' := by
    simp only [Solana.submitIntent, Solana.initIfNeeded, Solana.computeIntentId_eq, Solana.encodeForward_eq]
    exact ⟨_, rfl⟩
  obtain ⟨s', hs⟩ := hsubmits
  refine ⟨Solana.submissionId exampleCommitment (Solana.walletOf 7)
    (Solana.peered.nextNonce (Solana.walletOf 7)), s', ?_⟩
  unfold BosphorSolanaClient.submitPaid
  rw [hescrow, hforward]
  exact submit_ok.mpr ⟨hs, rfl⟩

/-- The fee stays, and the escrow is what was quoted. -/
theorem paid_quote_funds_steady :
    (∃ quote : PricedQuote, quote.escrowNative = 7000000000 ∧ ∃ (id : Evm.IntentId) (s' : Evm.State) (amount : Nat),
      s'.escrows id = ⟨Evm.accountOf 7, Evm.nativeToken, amount, exampleCommitment.deadline, .pending⟩ ∧
        quote.escrowNative ≤ amount) ∧
    ∃ quote : PricedQuote, quote.escrowNative = 7 ∧ ∃ (id : Solana.IntentId) (s' : Solana.State)
      (vault : Solana.EscrowVault),
      s'.escrows id = some vault ∧ quote.escrowNative ≤ vault.amount.toNat := by
  have hall := paid_quote_funds .exact exampleService exampleMarket
  constructor
  · obtain ⟨quote, hquote, hamounts⟩ := example_quoted
    obtain ⟨hescrow, hforward⟩ := of_decide_eq_true hamounts
    obtain ⟨amount, hopen, hfunds⟩ := hall.1 exampleEvmClient rfl _ _ _ hquote _ _ _ _ _ _ _ _
      (example_paid hescrow hforward (by decide : 2 ≤ 7000000002))
    exact ⟨quote, hescrow, _, _, amount, hopen, hfunds.mpr le_rfl⟩
  · obtain ⟨quote, hquote, hamounts⟩ := example_quoted_solana
    obtain ⟨hescrow, hforward⟩ := of_decide_eq_true hamounts
    obtain ⟨id, s', hpaid⟩ := example_paid_solana hescrow hforward
    obtain ⟨vault, hopen, -, -, hfunds⟩ := hall.2 exampleSolanaClient rfl _ _ _ hquote _ _ _ _ _ _ _ _ hpaid
    refine ⟨quote, hescrow, id, s', vault, hopen, hfunds.mpr ?_⟩
    rw [hescrow]
    decide

/-- The fee rises from 2 to 5 after the quote, and the escrow is 3 short. -/
theorem paid_quote_short :
    ¬∀ (fl : Rounding) (service : Relayer.QuoteService) (market : Relayer.Market) (client : BosphorEvmClient),
      client.relayer = getQuote fl service market →
      ∀ priced f0 quote, client.priceQuote priced f0 = .ok quote →
      ∀ now sender encoded f1 sendOk s id s',
        client.submitPaid now sender encoded quote (some f1) sendOk s = .ok (id, s') →
        quote.escrowNative ≤ (s'.escrows id).amount := by
  intro hall
  obtain ⟨quote, hquote, hamounts⟩ := example_quoted
  obtain ⟨hescrow, hforward⟩ := of_decide_eq_true hamounts
  have hfunds := hall .exact exampleService exampleMarket exampleEvmClient rfl _ _ _ hquote _ _ _ _ _ _ _ _
    (example_paid hescrow hforward (by decide : 5 ≤ 7000000002))
  have hopen : (Evm.submitted 5 (Evm.accountOf 7) 7000000002 5 30 exampleCommitment Evm.peered).escrows
      (Evm.submissionId exampleCommitment (Evm.accountOf 7) 0) =
      ⟨Evm.accountOf 7, Evm.nativeToken, 6999999997, exampleCommitment.deadline, .pending⟩ := Function.update_self _ _ _
  rw [hopen, hescrow] at hfunds
  exact absurd hfunds (by decide)

end Bosphor.Sdk

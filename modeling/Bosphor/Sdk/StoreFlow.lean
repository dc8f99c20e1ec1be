import Bosphor.Sdk.AwaitProof
import Bosphor.Sdk.PricedQuote

/-!
# Storing in one call

`store()` and `storePriced()` of the EVM client: encode, quote, submit, upload,
and wait for the proof, with an event after each step. Each event is emitted
once, in this order, and after what it reports (`storeWith_follows`).

A flow that returns has submitted exactly one intent, for the blob id that was
computed from its bytes, and uploaded the bytes under the intent's id. It
returns that blob id, which the chain has seen proven, and the end epoch of a
proof that the adapter has accepted (`store_returns`).
-/

namespace Bosphor.Sdk.BosphorEvmClient

open Async
open Relayer (QuoteRequest)

/-! ## The flow -/

structure BlobEncoding where
  blobId : Bytes 32
  size : Nat
  encodingType : Nat
  deriving DecidableEq

structure EncodedIntent extends BlobEncoding where
  storageEpochs : Int
  deadline : Int
  deriving DecidableEq

/-- The arguments of the contract's functions, of an intent whose numbers have the widths of their types. -/
def EncodedIntent.commitment (e : EncodedIntent) : Except AwaitError Commitment :=
  if e.size < 2 ^ 32 ∧ e.encodingType < 2 ^ 8 ∧ 0 ≤ e.storageEpochs ∧ e.storageEpochs < 2 ^ 32 ∧
      0 ≤ e.deadline ∧ e.deadline < 2 ^ 64 then
    .ok ⟨e.blobId, .ofNat e.size, .ofNat e.encodingType, .ofNat e.storageEpochs.toNat, .ofNat e.deadline.toNat⟩
  else .error (.rpc "value out-of-bounds")

structure EncodeOptions where
  epochs : Option Int := none
  deadline : Option Int := none

structure EncodeDefaults where
  defaultEpochs : Int := 5
  deadlineSeconds : Int := 3600

inductive StoreProgress where
  | encoded (encoded : EncodedIntent)
  | quoted (amount : Int) (quote : Option PricedQuote)
  | submitted (intentId : Evm.IntentId) (txHash : String)
  | uploaded (intentId : Evm.IntentId)
  | proven (intentId : Evm.IntentId) (blobId : Bytes 32) (endEpoch : Nat)
  deriving DecidableEq

/-- The place of an event in the flow. -/
def StoreProgress.place : StoreProgress → Nat
  | .encoded _ => 0
  | .quoted .. => 1
  | .submitted .. => 2
  | .uploaded _ => 3
  | .proven .. => 4

structure StoreResult where
  intentId : Evm.IntentId
  blobId : Bytes 32
  endEpoch : Nat
  txHash : String
  quote : Option PricedQuote
  deriving DecidableEq

inductive StoreCall where
  /-- A call of the wait for the proof, the clock and the signal of the whole flow among them. -/
  | await (c : WaitCall AdapterView)
  | computeBlob (data : List UInt8)
  | quote (encoded : Commitment)
  | fetchQuote (request : QuoteRequest)
  /-- A submission with its value, and the receipt of the transaction. -/
  | submit (encoded : Commitment) (value : Int)
  | upload (intentId : Evm.IntentId) (data : List UInt8)
  /-- The callback of the caller, which may throw. -/
  | emit (event : StoreProgress)

abbrev StoreCall.Answer : StoreCall → Type
  | .await c => WaitCall.Answer Reply c
  | .computeBlob _ => BlobEncoding
  | .quote _ => Nat
  | .fetchQuote _ => PricedQuote
  | .submit .. => Evm.IntentId × String
  | .upload .. => Unit
  | .emit _ => Unit

abbrev Flow := Async StoreCall StoreCall.Answer AwaitError

abbrev StoreTold := History StoreCall StoreCall.Answer AwaitError

abbrev storeCall (c : StoreCall) : Flow c.Answer := Async.call c

abbrev emit (event : StoreProgress) : Flow Unit := storeCall (.emit event)

/-- The deadline of an intent: the one asked for, or a time from now. -/
def deadlineOf (opts : EncodeOptions) (defaults : EncodeDefaults) : Flow Int :=
  match opts.deadline with
  | some deadline => return deadline
  | none => do
    let now ← storeCall (.await .now)
    return now / 1000 + defaults.deadlineSeconds

/-- `encodeIntent(computeBlob, data, opts, defaults)`. -/
def encode (data : List UInt8) (opts : EncodeOptions) (defaults : EncodeDefaults) : Flow EncodedIntent :=
  if data = [] then throw (.rpc "cannot store empty data")
  else do
    let blob ← storeCall (.computeBlob data)
    if blob.size ≠ data.length then
      throw (.rpc s!"computeBlob reported size {blob.size} but data is {data.length} bytes")
    else
      let deadline ← deadlineOf opts defaults
      return { blob with storageEpochs := opts.epochs.getD defaults.defaultEpochs, deadline := deadline }

/-- The price that `store` attaches: the fee of the message alone. -/
def priceFee (encoded : EncodedIntent) : Flow (Int × Option PricedQuote) := do
  let c ← Async.ofExcept encoded.commitment
  let fee ← storeCall (.quote c)
  return (fee, none)

/-- The price that `storePriced` attaches: the relayer's quote for the fee. -/
def priceQuoted (encoded : EncodedIntent) : Flow (Int × Option PricedQuote) := do
  let c ← Async.ofExcept encoded.commitment
  let fee ← storeCall (.quote c)
  let quote ← storeCall (.fetchQuote {
    sizeBytes := encoded.size
    epochs := some encoded.storageEpochs.toNat
    originToken := .ETH
    forwardLzFeeNative := some fee })
  return (quote.escrowNative + quote.forwardNative, some quote)

/-- What a flow is called with. -/
structure StoreArgs where
  data : List UInt8
  opts : EncodeOptions := {}
  defaults : EncodeDefaults := {}
  wait : AwaitProofOptions := {}
  hasQueryProof : Bool := true
  isTransientRpcError : AwaitError → Bool

variable (args : StoreArgs) (price : EncodedIntent → Flow (Int × Option PricedQuote)) (polls : Nat)

/-- The flow once its price is known. -/
def submitAndWait (encoded : EncodedIntent) (priced : Int × Option PricedQuote) : Flow StoreResult := do
  emit (.quoted priced.1 priced.2)
  let c ← Async.ofExcept encoded.commitment
  let sent ← storeCall (.submit c priced.1)
  emit (.submitted sent.1 sent.2)
  storeCall (.upload sent.1 args.data)
  emit (.uploaded sent.1)
  let proof ← via StoreCall.await (awaitProof args.hasQueryProof args.isTransientRpcError sent.1 args.wait polls)
  emit (.proven sent.1 proof.1 proof.2)
  return ⟨sent.1, proof.1, proof.2, sent.2, priced.2⟩

/-- The flow that both are, up to the price, with at most `polls` polls for the proof. -/
def storeWith : Flow StoreResult := do
  storeCall (.await .throwIfAborted)
  let encoded ← encode args.data args.opts args.defaults
  emit (.encoded encoded)
  let priced ← price encoded
  submitAndWait args polls encoded priced

def store : Flow StoreResult := storeWith args priceFee polls

def storePriced : Flow StoreResult := storeWith args priceQuoted polls

/-! ## What a flow has told, and been told -/

/-- The events emitted so far. -/
def emitted (h : StoreTold) : List StoreProgress :=
  h.filterMap fun x => match x with
    | ⟨.emit event, _⟩ => some event
    | _ => none

/-- The submissions made so far. -/
def submits (h : StoreTold) : List (Commitment × Int) :=
  h.filterMap fun x => match x with
    | ⟨.submit c value, _⟩ => some (c, value)
    | _ => none

/-- What the wait for the proof was told. -/
def awaitTold (h : StoreTold) : Told AdapterView Reply :=
  h.filterMap fun x => match x with
    | ⟨.await c, r⟩ => some ⟨c, r⟩
    | _ => none

@[simp] theorem emitted_append (h h' : StoreTold) : emitted (h ++ h') = emitted h ++ emitted h' :=
  List.filterMap_append ..

@[simp] theorem submits_append (h h' : StoreTold) : submits (h ++ h') = submits h ++ submits h' :=
  List.filterMap_append ..

@[simp] theorem awaitTold_append (h h' : StoreTold) : awaitTold (h ++ h') = awaitTold h ++ awaitTold h' :=
  List.filterMap_append ..

variable (data : List UInt8)

/-- What an event reports is so. -/
def Happened (h : StoreTold) : StoreProgress → Prop
  | .encoded e => ⟨.computeBlob data, .ok e.toBlobEncoding⟩ ∈ h ∧ e.size = data.length
  | .quoted amount quote => ∃ c, ∃ fee : Nat, ⟨.quote c, .ok fee⟩ ∈ h ∧ (quote = none → amount = fee) ∧
      ∀ q, quote = some q → amount = q.escrowNative + q.forwardNative ∧
        ∃ request, ⟨.fetchQuote request, .ok q⟩ ∈ h ∧ request.forwardLzFeeNative = some (fee : Int)
  | .submitted id txHash => ∃ c value, ⟨.submit c value, .ok (id, txHash)⟩ ∈ h
  | .uploaded id => ⟨.upload id data, .ok ()⟩ ∈ h
  | .proven id blobId endEpoch => Shown (awaitTold h) (.committedBlobId id) blobId ∧
      ∃ proof, Shown (awaitTold h) (.queryProof id) (some proof) ∧ decodeProofEndEpoch proof = .ok endEpoch

/-- A call of the flow, after the calls `h`. -/
def Follows (h : StoreTold) : StoreCall → Prop
  | .emit event => event.place = (emitted h).length ∧ Happened data h event
  | .submit c value => submits h = [] ∧ ∃ e quote, emitted h = [.encoded e, .quoted value quote] ∧ e.commitment = .ok c
  | .upload id bytes => bytes = data ∧ ∃ e amount quote txHash,
      emitted h = [.encoded e, .quoted amount quote, .submitted id txHash]
  | .await c => Asks (awaitTold h) c
  | _ => True

/-- A flow that returns has emitted its five events, and made one submission, of what was encoded at the amount that
was quoted. -/
def Completed (h : StoreTold) (res : StoreResult) : Prop :=
  ∃ e amount c, emitted h = [.encoded e, .quoted amount res.quote, .submitted res.intentId res.txHash,
      .uploaded res.intentId, .proven res.intentId res.blobId res.endEpoch] ∧
    submits h = [(c, amount)] ∧ e.commitment = .ok c ∧ ∀ event ∈ emitted h, Happened data h event

/-- The flow has emitted `events` and made the submissions `sent`. -/
structure Reached (events : List StoreProgress) (sent : List (Commitment × Int)) (h : StoreTold) : Prop where
  emitted_eq : emitted h = events
  submits_eq : submits h = sent
  happened : ∀ event ∈ events, Happened data h event

variable {data} {h t : StoreTold} {events : List StoreProgress} {sent : List (Commitment × Int)}

theorem Happened.append {event : StoreProgress} (hevent : Happened data h event) (t : StoreTold) :
    Happened data (h ++ t) event := by
  cases event with
  | encoded e => exact ⟨List.mem_append_left _ hevent.1, hevent.2⟩
  | quoted amount quote =>
    obtain ⟨c, fee, hfee, hplain, hquoted⟩ := hevent
    refine ⟨c, fee, List.mem_append_left _ hfee, hplain, fun q hq => ?_⟩
    obtain ⟨hamount, request, hrequest, hfee⟩ := hquoted q hq
    exact ⟨hamount, request, List.mem_append_left _ hrequest, hfee⟩
  | submitted id txHash =>
    obtain ⟨c, value, hmem⟩ := hevent
    exact ⟨c, value, List.mem_append_left _ hmem⟩
  | uploaded id => exact List.mem_append_left _ hevent
  | proven id blobId endEpoch =>
    obtain ⟨hblob, proof, hproof, hdec⟩ := hevent
    refine ⟨?_, proof, ?_, hdec⟩
    · rw [awaitTold_append]
      exact List.mem_append_left _ hblob
    · rw [awaitTold_append]
      exact List.mem_append_left _ hproof

/-- Calls that neither emit nor submit. -/
theorem Reached.quiet (hreached : Reached data events sent h) (hevents : emitted t = []) (hsent : submits t = []) :
    Reached data events sent (h ++ t) where
  emitted_eq := by rw [emitted_append, hevents, List.append_nil, hreached.emitted_eq]
  submits_eq := by rw [submits_append, hsent, List.append_nil, hreached.submits_eq]
  happened event hevent := (hreached.happened event hevent).append t

section

variable {β : Type} {Q : StoreTold → Except AwaitError β → Prop} {f : Unit → Flow β}

/-- An event is emitted once it has happened. -/
theorem wp_emit {event : StoreProgress} (hreached : Reached data events sent h) (hplace : event.place = events.length)
    (hevent : Happened data h event) (hQ : ∀ h e, Q h (.error e))
    (hnext : ∀ r, Reached data (events ++ [event]) sent (h ++ [⟨.emit event, r⟩]) →
      wp (Follows data) Q (h ++ [⟨.emit event, r⟩]) (f ())) : wp (Follows data) Q h (emit event >>= f) := by
  refine wp_next ⟨by rw [hreached.emitted_eq, hplace], hevent⟩ (fun _ => hnext _ ⟨?_, ?_, ?_⟩) fun e => hQ _ e
  · rw [emitted_append, hreached.emitted_eq]
    rfl
  · rw [submits_append, hreached.submits_eq]
    exact List.append_nil _
  · intro event' hmem
    obtain hmem | hmem := List.mem_append.mp hmem
    · exact (hreached.happened event' hmem).append _
    · rw [List.mem_singleton.mp hmem]
      exact hevent.append _

end

/-- The price of an intent is asked for without a word. -/
def Prices (data : List UInt8) (price : EncodedIntent → Flow (Int × Option PricedQuote)) : Prop :=
  ∀ e h, wp (Follows data) (fun h' r => ∀ priced, r = .ok priced → ∃ t, h' = h ++ t ∧ emitted t = [] ∧ submits t = [] ∧
    Happened data h' (.quoted priced.1 priced.2)) h (price e)

theorem priceFee_prices : Prices data priceFee := by
  intro e h
  unfold priceFee
  rw [wp_bind, wp_ofExcept]
  cases e.commitment with
  | error err =>
    intro priced hpriced
    cases hpriced
  | ok c =>
    rw [andThen_ok]
    refine wp_next trivial (fun fee => ?_) fun err => ?_
    · intro priced hpriced
      cases hpriced
      exact ⟨_, rfl, rfl, rfl, c, fee, List.mem_append_right _ (List.mem_singleton_self _), fun _ => rfl,
        fun q hq => by cases hq⟩
    · intro priced hpriced
      cases hpriced

theorem priceQuoted_prices : Prices data priceQuoted := by
  intro e h
  unfold priceQuoted
  rw [wp_bind, wp_ofExcept]
  cases e.commitment with
  | error err =>
    intro priced hpriced
    cases hpriced
  | ok c =>
    rw [andThen_ok]
    refine wp_next trivial (fun fee => wp_next trivial (fun quote => ?_) fun err => ?_) fun err => ?_
    · intro priced hpriced
      cases hpriced
      refine ⟨_, List.append_assoc .., rfl, rfl, c, fee, ?_, fun hq => (by cases hq), fun q hq => ?_⟩
      · exact List.mem_append_left _ (List.mem_append_right _ (List.mem_singleton_self _))
      · cases hq
        exact ⟨rfl, _, List.mem_append_right _ (List.mem_singleton_self _), rfl⟩
    · intro priced hpriced
      cases hpriced
    · intro priced hpriced
      cases hpriced

theorem encode_follows (opts : EncodeOptions) (defaults : EncodeDefaults) (hreached : Reached data [] [] h) :
    wp (Follows data) (fun h' r => ∀ e, r = .ok e → Reached data [] [] h' ∧ Happened data h' (.encoded e)) h
      (encode data opts defaults) := by
  unfold encode
  split
  · intro e he
    cases he
  · refine wp_next trivial (fun blob => ?_) fun err => ?_
    · have hcomputed : Reached data [] [] (h ++ [⟨.computeBlob data, .ok blob⟩]) := hreached.quiet rfl rfl
      have hmem : ⟨.computeBlob data, .ok blob⟩ ∈ h ++ [⟨.computeBlob data, .ok blob⟩] :=
        List.mem_append_right _ (List.mem_singleton_self _)
      split
      · intro e he
        cases he
      · rename_i hsize
        rw [not_not] at hsize
        unfold deadlineOf
        split
        · intro e he
          cases he
          exact ⟨hcomputed, hmem, hsize⟩
        · rw [wp_bind]
          refine wp_next (fun id hid => by cases hid) (fun now => ?_) fun err => ?_
          · intro e he
            cases he
            exact ⟨hcomputed.quiet rfl rfl, List.mem_append_left _ hmem, hsize⟩
          · intro e he
            cases he
    · intro e he
      cases he

/-- The wait for the proof neither emits nor submits. -/
theorem awaitProof_follows (args : StoreArgs) (intentId : Evm.IntentId) (polls : Nat)
    (hreached : Reached data events sent h) :
    wp (Follows data) (fun h' r => ∀ proof, r = .ok proof → Reached data events sent h' ∧
        Happened data h' (.proven intentId proof.1 proof.2)) h
      (via StoreCall.await (awaitProof args.hasQueryProof args.isTransientRpcError intentId args.wait polls)) := by
  have hpart : ∀ (h : StoreTold) (c : WaitCall AdapterView) (r : Except AwaitError (WaitCall.Answer Reply c)),
      awaitTold (h ++ [⟨.await c, r⟩]) = awaitTold h ++ [⟨c, r⟩] := fun h c r => awaitTold_append h _
  have hwait := wp_behind (awaitTold h)
    (wp_awaitProof args.hasQueryProof args.isTransientRpcError intentId args.wait polls)
  rw [List.append_nil] at hwait
  have hvia : wp (Follows data) (fun h' r => ∀ proof : Bytes 32 × Nat, r = .ok proof →
      Happened data h' (.proven intentId proof.1 proof.2)) h
      (via StoreCall.await (awaitProof args.hasQueryProof args.isTransientRpcError intentId args.wait polls)) := by
    refine wp_via hpart (fun h' c hc => ?_) (fun h' r hr proof hproof => ?_) hwait
    · obtain ⟨t, ht, hasks⟩ := hc
      intro id hid
      show Shown (awaitTold h') _ _
      rw [ht]
      exact List.mem_append_right _ (hasks id hid)
    · obtain ⟨t, ht, hreturns⟩ := hr
      obtain ⟨hblob, p, hp, hdec⟩ := hreturns proof.1 proof.2 hproof
      refine ⟨?_, p, ?_, hdec⟩
      · rw [ht]
        exact List.mem_append_right _ hblob
      · rw [ht]
        exact List.mem_append_right _ hp
  refine wp_mono (wp_keep (I := Reached data events sent) (fun h c r hc hI => ?_) hvia (calls_via _ _) hreached)
    (fun _ _ hc => hc) fun h' r hr proof hproof => ⟨hr.2, hr.1 proof hproof⟩
  obtain ⟨d, rfl⟩ := hc
  exact hI.quiet rfl rfl

/-- The flow from the price on. -/
theorem submitAndWait_follows (args : StoreArgs) (polls : Nat) {encoded : EncodedIntent}
    {priced : Int × Option PricedQuote} (hreached : Reached args.data [.encoded encoded] [] h)
    (hpriced : Happened args.data h (.quoted priced.1 priced.2)) :
    wp (Follows args.data) (fun h r => ∀ res, r = .ok res → Completed args.data h res) h
      (submitAndWait args polls encoded priced) := by
  have herror : ∀ (h : StoreTold) (e : AwaitError) (res : StoreResult),
      (.error e : Except AwaitError StoreResult) = .ok res → Completed args.data h res :=
    fun h e res hres => by cases hres
  unfold submitAndWait
  refine wp_emit hreached rfl hpriced herror fun _ hquoted => ?_
  rw [wp_bind, wp_ofExcept]
  cases hc : encoded.commitment with
  | error e => exact herror _ e
  | ok c =>
    rw [andThen_ok]
    refine wp_next ⟨hquoted.submits_eq, encoded, priced.2, hquoted.emitted_eq, hc⟩ (fun sent => ?_) fun e => herror _ e
    have hsubmitted : ∀ h, Reached args.data [.encoded encoded, .quoted priced.1 priced.2] [] h → ∀ r,
        Reached args.data [.encoded encoded, .quoted priced.1 priced.2] [(c, priced.1)]
          (h ++ [⟨.submit c priced.1, r⟩]) := by
      intro h hreached r
      refine ⟨?_, ?_, fun event hevent => (hreached.happened event hevent).append _⟩
      · rw [emitted_append, hreached.emitted_eq]
        rfl
      · rw [submits_append, hreached.submits_eq]
        rfl
    refine wp_emit (hsubmitted _ hquoted _) rfl ⟨c, priced.1, List.mem_append_right _ (List.mem_singleton_self _)⟩
      herror fun _ hsent => ?_
    refine wp_next ⟨rfl, encoded, priced.1, priced.2, sent.2, hsent.emitted_eq⟩ (fun _ => ?_) fun e => herror _ e
    refine wp_emit (hsent.quiet rfl rfl) rfl (List.mem_append_right _ (List.mem_singleton_self _)) herror
      fun _ huploaded => ?_
    rw [wp_bind]
    refine wp_mono (awaitProof_follows args sent.1 polls huploaded) (fun _ _ hc => hc) fun h r hr => ?_
    cases r with
    | error e => exact herror _ e
    | ok proof =>
      obtain ⟨hreached, hproven⟩ := hr proof rfl
      rw [andThen_ok]
      refine wp_emit hreached rfl hproven herror fun _ hdone => ?_
      intro res hres
      cases hres
      exact ⟨encoded, priced.1, c, hdone.emitted_eq, hdone.submits_eq, hc,
        fun event hevent => hdone.happened event (hdone.emitted_eq ▸ hevent)⟩

/-- Each step of a flow follows on the one before, and each event on what it reports. -/
theorem storeWith_follows (args : StoreArgs) {price : EncodedIntent → Flow (Int × Option PricedQuote)}
    (hprice : Prices args.data price) (polls : Nat) :
    wp (Follows args.data) (fun h r => ∀ res, r = .ok res → Completed args.data h res) []
      (storeWith args price polls) := by
  have herror : ∀ (h : StoreTold) (e : AwaitError) (res : StoreResult),
      (.error e : Except AwaitError StoreResult) = .ok res → Completed args.data h res :=
    fun h e res hres => by cases hres
  have hempty : Reached args.data [] [] [] := ⟨rfl, rfl, fun event hevent => absurd hevent List.not_mem_nil⟩
  unfold storeWith
  refine wp_next (fun id hid => by cases hid) (fun _ => ?_) fun e => herror _ e
  rw [wp_bind]
  refine wp_mono (encode_follows args.opts args.defaults (hempty.quiet rfl rfl)) (fun _ _ hc => hc) fun h r hr => ?_
  cases r with
  | error e => exact herror _ e
  | ok encoded =>
    obtain ⟨hreached, hencoded⟩ := hr encoded rfl
    rw [andThen_ok]
    refine wp_emit hreached rfl hencoded herror fun _ hreached => ?_
    rw [wp_bind]
    refine wp_mono (hprice encoded _) (fun _ _ hc => hc) fun h r hr => ?_
    cases r with
    | error e => exact herror _ e
    | ok priced =>
      obtain ⟨t, rfl, hevents, hsent, hpriced⟩ := hr priced rfl
      rw [andThen_ok]
      exact submitAndWait_follows args polls (hreached.quiet hevents hsent) hpriced

/-! ## Over the adapter -/

section

variable (client : BosphorEvmClient) (sender : Evm.Address) (s₀ : Evm.State)

/-- The transaction that a submission is sent in. -/
def submissionCall (now : Nat) (c : Commitment) (value : Int) (fee : Option Nat) (sendOk : Bool) : Nat × Evm.Call :=
  (now, .mk (.submitIntent sender value.toNat client.dstEid c fee sendOk) [] [])

/-- How a call is answered after the transactions `as`. What is no call to the chain may be answered with anything. -/
inductive StoreServes :
    List (Nat × Evm.Call) → (c : StoreCall) → Except AwaitError c.Answer → List (Nat × Evm.Call) → Prop
  | await {as c r as'} (h : Serves (Machine.run Evm.step s₀) AdapterShows as c r as') : StoreServes as (.await c) r as'
  | submitted {as c value id s'} (now : Nat) (fee : Option Nat) (sendOk : Bool) (txHash : String)
      (h : client.submitWithValue now sender c value fee sendOk (Machine.run Evm.step s₀ as) = .ok (id, s')) :
    StoreServes as (.submit c value) (.ok (id, txHash)) (as ++ [submissionCall client sender now c value fee sendOk])
  | lost {as as' c value} (e : AwaitError) (h : as' = as ∨ ∃ now fee sendOk,
      as' = as ++ [submissionCall client sender now c value fee sendOk]) :
    StoreServes as (.submit c value) (.error e) as'
  | elsewhere {as c} (hawait : ∀ d, c ≠ .await d) (hsubmit : ∀ d value, c ≠ .submit d value)
      (r : Except AwaitError c.Answer) : StoreServes as c r as

/-- A client that stores while the chain takes one transaction after another. -/
def storeHost (args : StoreArgs) (price : EncodedIntent → Flow (Int × Option PricedQuote)) :
    Host (List (Nat × Evm.Call)) StoreCall StoreCall.Answer AwaitError StoreResult where
  starts as p as' := as' = as ∧ ∃ polls, p = storeWith args price polls
  serves := StoreServes client sender s₀
  moves as as' := ∃ a, as' = as ++ [a]

/-- What the adapter owes a flow: what it was shown is so, and its submission is recorded. -/
structure Owes (as : List (Nat × Evm.Call)) (told : StoreTold) : Prop where
  shown : Holds (Machine.run Evm.step s₀ as) (awaitTold told)
  submitted : ∀ c value id txHash, ⟨.submit c value, .ok (id, txHash)⟩ ∈ told →
    ∃ m ∈ (Machine.run Evm.step s₀ as).submissions, m.id = id ∧ m.commitment = c ∧ m.sender = sender ∧
      m.dstEid = client.dstEid

/-- What has become of a flow that returned `res`. -/
structure Stored (args : StoreArgs) (as : List (Nat × Evm.Call)) (told : StoreTold) (res : StoreResult)
    (e : EncodedIntent) (amount : Int) (m : Evm.Submission) : Prop where
  computed : ⟨.computeBlob args.data, .ok e.toBlobEncoding⟩ ∈ told
  blobId : res.blobId = e.blobId
  events : emitted told = [.encoded e, .quoted amount res.quote, .submitted res.intentId res.txHash,
    .uploaded res.intentId, .proven res.intentId res.blobId res.endEpoch]
  once : submits told = [(m.commitment, amount)]
  commits : e.commitment = .ok m.commitment
  accepted : m ∈ (Machine.run Evm.step s₀ as).submissions
  own : m.id = res.intentId ∧ m.sender = sender ∧ m.dstEid = client.dstEid
  uploaded : ⟨.upload res.intentId args.data, .ok ()⟩ ∈ told
  executed : (Machine.run Evm.step s₀ as).executed res.intentId = true
  proof : ∃ proof ∈ (Machine.run Evm.step s₀ as).executions res.intentId, decodeProofEndEpoch proof = .ok res.endEpoch

end

section

variable {client : BosphorEvmClient} {sender : Evm.Address} {s₀ : Evm.State} {as as' : List (Nat × Evm.Call)}
  {told : StoreTold} {self endpoint owner trustedRelayer : Evm.Address} {tokens : Evm.Address → Evm.TokenAccount}

/-- The log of a run grows with every transaction. -/
theorem Owes.grow (h : Evm.deploy self endpoint owner trustedRelayer tokens = .ok s₀)
    (howes : Owes client sender s₀ as told) (a : Nat × Evm.Call) : Owes client sender s₀ (as ++ [a]) told where
  shown := by
    refine howes.shown.grow (Evm.run_executions h as) (Evm.run_executions h _) (Evm.run_submissions h as)
      (Evm.run_submissions h _) ?_
    rw [Machine.run_append]
    exact Evm.run_log_grows _ _
  submitted c value id txHash hmem := by
    obtain ⟨m, hm, hown⟩ := howes.submitted c value id txHash hmem
    refine ⟨m, ?_, hown⟩
    rw [Machine.run_append]
    exact ((Evm.run_log_grows _ _).filterMap _).subset hm

/-- Other answers. -/
theorem Owes.other (howes : Owes client sender s₀ as told) {x : Σ c : StoreCall, Except AwaitError c.Answer}
    (hawait : ∀ d r, x ≠ ⟨.await d, r⟩) (hsubmit : ∀ c value r, x ≠ ⟨.submit c value, .ok r⟩) :
    Owes client sender s₀ as (told ++ [x]) where
  shown := by
    have hnone : awaitTold [x] = [] := by
      obtain ⟨c, r⟩ := x
      cases c with
      | await d => exact absurd rfl (hawait d r)
      | computeBlob | quote | fetchQuote | submit | upload | emit => rfl
    rw [awaitTold_append, hnone, List.append_nil]
    exact howes.shown
  submitted c value id txHash hmem := by
    obtain hmem | hmem := List.mem_append.mp hmem
    · exact howes.submitted c value id txHash hmem
    · exact absurd (List.mem_singleton.mp hmem).symm (hsubmit c value (id, txHash))

/-- The adapter answers as it owes. -/
theorem StoreServes.owes (h : Evm.deploy self endpoint owner trustedRelayer tokens = .ok s₀) {c : StoreCall}
    {r : Except AwaitError c.Answer} (hserves : StoreServes client sender s₀ as c r as') {data : List UInt8}
    (hfollows : Follows data told c) (howes : Owes client sender s₀ as told) :
    Owes client sender s₀ as' (told ++ [⟨c, r⟩]) := by
  cases hserves with
  | @await c r as' hserves =>
    have hpart : awaitTold (told ++ [⟨.await c, r⟩]) = awaitTold told ++ [⟨c, r⟩] := awaitTold_append told _
    have hsame : as' = as := by cases hserves <;> rfl
    subst hsame
    refine ⟨?_, fun d value id txHash hmem => ?_⟩
    · rw [hpart]
      cases hserves with
      | view hreads => exact howes.shown.serve (Evm.run_executions h as') hfollows hreads
      | throwIfAborted | now | sleep | fails => exact howes.shown.other fun v a h => by cases h
    · obtain hmem | hmem := List.mem_append.mp hmem
      · exact howes.submitted d value id txHash hmem
      · cases List.mem_singleton.mp hmem
  | @submitted c value id s' now fee sendOk txHash hsubmit =>
    obtain ⟨hvalue, hs, hid⟩ := submitWithValue_ok.mp hsubmit
    have hgrown := howes.grow h (submissionCall client sender now c value fee sendOk)
    have hrun : Machine.run Evm.step s₀ (as ++ [submissionCall client sender now c value fee sendOk]) = s' := by
      rw [Machine.run_append]
      exact Machine.run_singleton hs
    refine ⟨?_, fun d v k tx hmem => ?_⟩
    · rw [awaitTold_append]
      exact (List.append_nil (awaitTold told)).symm ▸ hgrown.shown
    · obtain hmem | hmem := List.mem_append.mp hmem
      · exact hgrown.submitted d v k tx hmem
      · cases List.mem_singleton.mp hmem
        rw [hrun]
        obtain ⟨nativeFee, -, -, -, -, -, hs'⟩ := Evm.submitIntent_ok.mp hs
        refine ⟨(Machine.run Evm.step s₀ as).nextSubmission sender client.dstEid c, ?_, hid.symm, rfl, rfl, rfl⟩
        rw [hs', Evm.submissions_append (Machine.run Evm.step s₀ as) _ rfl]
        exact List.mem_append_right _ (List.mem_singleton_self _)
  | @lost as' c value e has =>
    have hother : Owes client sender s₀ as (told ++ [⟨.submit c value, .error e⟩]) :=
      howes.other (fun d r hx => by cases hx) fun c value r hx => by cases hx
    obtain rfl | ⟨now, fee, sendOk, rfl⟩ := has
    · exact hother
    · exact hother.grow h _
  | elsewhere hawait hsubmit r =>
    refine howes.other (fun d r' hx => ?_) fun d value r' hx => ?_
    · cases hx
      exact hawait d rfl
    · cases hx
      exact hsubmit d value rfl

/-- Whatever else happens on the chain, a flow that returns has made one submission, which the adapter accepted: of what
was computed from its bytes, at the amount that was quoted. The bytes were uploaded under its id, and it is executed:
the flow returns the blob id that it committed to and the end epoch of one of its proofs. -/
theorem store_returns (h : Evm.deploy self endpoint owner trustedRelayer tokens = .ok s₀) {args : StoreArgs}
    {price : EncodedIntent → Flow (Int × Option PricedQuote)} (hprice : price = priceFee ∨ price = priceQuoted)
    {res : StoreResult} (hrun : (storeHost client sender s₀ args price).Leads (fun _ _ => True) ([], none)
      (as, some ⟨told, .done res⟩)) :
    ∃ e amount m, Stored client sender s₀ args as told res e amount m := by
  have hprices : Prices args.data price := by
    obtain rfl | rfl := hprice
    · exact priceFee_prices
    · exact priceQuoted_prices
  have hend := hrun.keeps (I := fun _ => True) (J := Owes client sender s₀) (P := Follows args.data)
    (Q := fun h r => ∀ res, r = .ok res → Completed args.data h res) ?_ ?_ ?_ (Host.Holds.idle trivial)
  · obtain ⟨howes, hcompleted⟩ := hend.2 _ rfl
    obtain ⟨e, amount, c, hevents, honce, hcommits, hhappened⟩ := hcompleted res rfl
    have hcomputed := hhappened (.encoded e) (by rw [hevents]; simp)
    obtain ⟨c', value, hsent⟩ := hhappened (.submitted res.intentId res.txHash) (by rw [hevents]; simp)
    have huploaded := hhappened (.uploaded res.intentId) (by rw [hevents]; simp)
    obtain ⟨hblob, proof, hproof, hdec⟩ :=
      hhappened (.proven res.intentId res.blobId res.endEpoch) (by rw [hevents]; simp)
    obtain ⟨m, hm, hid, rfl, hsender, hdst⟩ := howes.submitted c' value res.intentId res.txHash hsent
    have hsame : (m.commitment, value) = (c, amount) := by
      have hmem : (m.commitment, value) ∈ submits told := List.mem_filterMap.mpr ⟨_, hsent, rfl⟩
      rw [honce] at hmem
      exact List.mem_singleton.mp hmem
    cases hsame
    have hmem := howes.shown.proof res.intentId proof hproof
    have hcommitted := (howes.shown.committed res.intentId res.blobId hblob).2
    have hencoded : m.commitment.blobId = e.blobId := by
      unfold EncodedIntent.commitment at hcommits
      split at hcommits
      · rw [← Except.ok.inj hcommits]
      · cases hcommits
    refine ⟨e, amount, m, hcomputed.1, ?_, hevents, honce, hcommits, hm, ⟨hid, hsender, hdst⟩, huploaded,
      ((Evm.run_executions h as).executed_iff _).mpr ⟨proof, hmem⟩, proof, hmem, hdec⟩
    rw [← hcommitted, ← hid, (Evm.run_submissions h as).committed_eq m hm, hencoded]
  · rintro w p w' - - ⟨rfl, polls, rfl⟩
    refine ⟨trivial, ⟨⟨fun id hs => ?_, fun id blobId hs => ?_, fun id proof hs => ?_⟩, fun c value id tx hmem => ?_⟩,
      storeWith_follows args hprices polls⟩
    · exact absurd hs List.not_mem_nil
    · exact absurd hs List.not_mem_nil
    · exact absurd hs List.not_mem_nil
    · exact absurd hmem List.not_mem_nil
  · intro w told c next r w' _ howes hfollows _ hserves
    exact ⟨trivial, StoreServes.owes h hserves hfollows howes⟩
  · rintro w s w' - - ⟨a, rfl⟩
    exact ⟨trivial, fun told howes => howes.grow h a⟩

end

/-! ## A byte that is stored -/

def exampleArgs : StoreArgs where
  data := [7]
  opts := { deadline := some 100 }
  isTransientRpcError _ := false

def exampleEncoded : EncodedIntent where
  blobId := Bytes.zero 32
  size := 1
  encodingType := 0
  storageEpochs := 5
  deadline := 100

def exampleTerms : Commitment := ⟨Bytes.zero 32, 1, 0, 5, 100⟩

/-- The adapter with a peer, and what the submission of the byte makes of it. -/
def exampleSubmitted : Evm.State := Evm.submitted 5 (Evm.accountOf 7) 2 2 30 exampleTerms Evm.peered

def exampleIntentId : Evm.IntentId := Evm.peered.nextId (Evm.accountOf 7) exampleTerms

/-- A proof that names epoch 3. -/
def exampleProof : List UInt8 := (Bytes.zero 32).val ++ Bytes.toBE 32 3

/-- The adapter once the intent is executed. -/
def exampleExecuted : Evm.State :=
  { exampleSubmitted with
    executed := Function.update exampleSubmitted.executed exampleIntentId true
    log := exampleSubmitted.log ++ [⟨6, .intentExecuted exampleIntentId exampleProof⟩] }

theorem exampleSubmission_ok : exampleEvmClient.submitWithValue 5 (Evm.accountOf 7) exampleTerms 2 (some 2) true
    Evm.peered = .ok (exampleIntentId, exampleSubmitted) := by
  refine submitWithValue_ok.mpr ⟨by decide, ?_, rfl⟩
  exact Evm.submitIntent_ok.mpr ⟨2, rfl, rfl, ⟨by decide, by decide, by decide, by decide, by decide⟩, rfl, rfl, rfl⟩

/-- The transactions of the run: a peer, the submission, and the owner's confirmation. -/
def examplePeer : Nat × Evm.Call := (1, .mk (.setPeer (Evm.accountOf 3) 30 (Evm.toBytes32 (Evm.accountOf 6))) [] [])

def exampleSubmission : Nat × Evm.Call :=
  submissionCall exampleEvmClient (Evm.accountOf 7) 5 exampleTerms 2 (some 2) true

def exampleConfirmation : Nat × Evm.Call :=
  (6, .mk (.confirmExecution (Evm.accountOf 3) exampleIntentId exampleProof) [] [])

theorem exampleSubmission_run : Machine.run Evm.step Evm.exampleAdapter [examplePeer, exampleSubmission] =
    exampleSubmitted := by
  have hstep : Evm.step exampleSubmission Evm.peered = .ok exampleSubmitted :=
    (submitWithValue_ok.mp exampleSubmission_ok).2.1
  show Machine.run Evm.step Evm.peered [exampleSubmission] = _
  exact Machine.run_singleton hstep

theorem exampleConfirmation_run : Machine.run Evm.step Evm.exampleAdapter
    [examplePeer, exampleSubmission, exampleConfirmation] = exampleExecuted := by
  have hstep : Evm.step exampleConfirmation exampleSubmitted = .ok exampleExecuted :=
    Evm.confirmExecution_ok.mpr ⟨rfl, Function.update_self _ _ _, rfl, rfl⟩
  show Machine.run Evm.step (Machine.run Evm.step Evm.exampleAdapter [examplePeer, exampleSubmission])
    [exampleConfirmation] = _
  rw [exampleSubmission_run]
  exact Machine.run_singleton hstep

/-- What the adapter shows of the executed intent. -/
theorem exampleExecuted_shows : AdapterShows exampleExecuted (.executed exampleIntentId) true ∧
    AdapterShows exampleExecuted (.committedBlobId exampleIntentId) (Bytes.zero 32) ∧
    AdapterShows exampleExecuted (.queryProof exampleIntentId) (some exampleProof) := by
  refine ⟨?_, ?_, exampleSubmitted.log.length, ?_⟩
  · show true = Function.update exampleSubmitted.executed exampleIntentId true exampleIntentId
    rw [Function.update_self]
  · show _ = Function.update Evm.peered.committedBlobId exampleIntentId (Bytes.zero 32) exampleIntentId
    rw [Function.update_self]
  · show some exampleProof = (((exampleSubmitted.log ++ _).drop _).filterMap _).getLast?
    rw [List.drop_left]
    simp [Evm.Event.proofOf]

/-- The client that stores the byte. -/
abbrev exampleHost := storeHost exampleEvmClient (Evm.accountOf 7) Evm.exampleAdapter exampleArgs priceFee

/-- The byte is stored, and the owner confirms it. -/
theorem store_returns_one : ∃ told res e amount m, Stored exampleEvmClient (Evm.accountOf 7) Evm.exampleAdapter
    exampleArgs [examplePeer, exampleSubmission, exampleConfirmation] told res e amount m := by
  have helse : ∀ as (c : StoreCall) r, (∀ d, c ≠ .await d) → (∀ d v, c ≠ .submit d v) → exampleHost.serves as c r as :=
    fun as c r hawait hsubmit => .elsewhere hawait hsubmit r
  have h0 : exampleHost.Leads (fun _ _ => True) ([], none) ([], none) := .refl
  have h1 : exampleHost.Leads (fun _ _ => True) ([], none) ([examplePeer], none) := h0.step trivial (.move ⟨_, rfl⟩)
  have hstart : exampleHost.starts [examplePeer] (storeWith exampleArgs priceFee 1) [examplePeer] := ⟨rfl, 1, rfl⟩
  have h2 := h1.step trivial (.start hstart)
  have h3 := h2.answer (.ok ()) (.await .throwIfAborted) trivial
  have h4 := h3.answer (c := .computeBlob [7]) _ (helse _ _ (.ok exampleEncoded.toBlobEncoding) nofun nofun) trivial
  have h5 := h4.answer (c := .emit _) _ (helse _ _ (.ok ()) nofun nofun) trivial
  have h6 := h5.answer (c := .quote exampleTerms) _ (helse _ _ (.ok (2 : Nat)) nofun nofun) trivial
  have h7 := h6.answer (c := .emit _) _ (helse _ _ (.ok ()) nofun nofun) trivial
  have hsubmit : exampleHost.serves [examplePeer] (.submit exampleTerms 2) (.ok (exampleIntentId, "0x02"))
      [examplePeer, exampleSubmission] := .submitted 5 (some 2) true "0x02" exampleSubmission_ok
  have h8 := h7.answer _ hsubmit trivial
  have h9 := h8.answer (c := .emit _) _ (helse _ _ (.ok ()) nofun nofun) trivial
  have h10 := h9.answer (c := .upload _ _) _ (helse _ _ (.ok ()) nofun nofun) trivial
  have h11 := h10.answer (c := .emit _) _ (helse _ _ (.ok ()) nofun nofun) trivial
  have h12 := h11.step trivial (.move ⟨exampleConfirmation, rfl⟩)
  have hwait : ∀ (c : WaitCall AdapterView) r, Serves (Machine.run Evm.step Evm.exampleAdapter) AdapterShows
      [examplePeer, exampleSubmission, exampleConfirmation] c r [examplePeer, exampleSubmission, exampleConfirmation] →
      exampleHost.serves [examplePeer, exampleSubmission, exampleConfirmation] (.await c) r
        [examplePeer, exampleSubmission, exampleConfirmation] := fun c r h => .await h
  have h13 := h12.answer _ (hwait .now (.ok (0 : Int)) (.now 0)) trivial
  have h14 := h13.answer _ (hwait .throwIfAborted (.ok ()) .throwIfAborted) trivial
  have h15 := h14.answer _ (hwait _ _ (.view (exampleConfirmation_run ▸ exampleExecuted_shows.1))) trivial
  have h16 := h15.answer _ (hwait _ _ (.view (exampleConfirmation_run ▸ exampleExecuted_shows.2.1))) trivial
  have h17 := h16.answer _ (hwait _ _ (.view (exampleConfirmation_run ▸ exampleExecuted_shows.2.2))) trivial
  have h18 := h17.answer (c := .emit (.proven exampleIntentId (Bytes.zero 32) 3)) _
    (helse _ _ (.ok ()) nofun nofun) trivial
  exact ⟨_, _, store_returns Evm.exampleAdapter_deployed (Or.inl rfl) h18⟩

end Bosphor.Sdk.BosphorEvmClient

import Bosphor.Lib.Returned
import Bosphor.Sdk.SolanaAccounts
import Bosphor.Sdk.SolanaBackend
import Bosphor.Sdk.StoreFlow

/-!
# Storing from Solana in one call

`store()` and `storePriced()` of the Solana client, over the backend that reads
the accounts and sends the transaction. The backend puts the id of the intent
into the transaction from a nonce that it read, reads the logs to check it, and
polls the account of that id.

A flow that returns has made one list of calls (`Script`, `store_calls`): it
sent one transaction, uploaded its bytes under the id of that transaction, and
returned what the account of that id held.
-/

namespace Bosphor.Sdk.SolanaStore

open Async
open Ts (JsNumber JsError)
open Solana (Pubkey IntentId Key AccountMeta)
open BosphorEvmClient (BlobEncoding EncodedIntent EncodeOptions EncodeDefaults)
open Relayer (QuoteRequest)

/-! ## The calls -/

/-- `getAccountInfo(address)`, of an address by its seeds. -/
inductive AccountView where
  | getAccountInfo (key : Key)

abbrev Reply : AccountView → Type := fun _ => Option (List UInt8)

inductive StoreProgress where
  | encoded (encoded : EncodedIntent)
  | quoted (amount : Int) (quote : PricedQuote)
  | submitted (intentId txHash : String)
  | uploaded (intentId : String)
  | proven (intentId blobId : String) (endEpoch : Nat)

structure StoreResult where
  intentId : String
  blobId : String
  endEpoch : Nat
  txHash : String
  quote : Option PricedQuote

inductive StoreCall where
  /-- A read of an account, the clock, the signal, or the sleep between two polls. -/
  | wait (c : WaitCall AccountView)
  | computeBlob (data : List UInt8)
  | quoteLzFee
  | fetchQuote (request : QuoteRequest)
  | signAndSend (tx : Transaction)
  /-- The transaction's logs, with the intent id of the event in them. -/
  | getTransaction (signature : String)
  | upload (intentId : String) (data : List UInt8)
  | emit (event : StoreProgress)

abbrev StoreCall.Answer : StoreCall → Type
  | .wait c => WaitCall.Answer Reply c
  | .computeBlob _ => BlobEncoding
  | .quoteLzFee => Option Int
  | .fetchQuote _ => PricedQuote
  | .signAndSend _ => String
  | .getTransaction _ => Option String
  | .upload .. => Unit
  | .emit _ => Unit

abbrev Flow := Async StoreCall StoreCall.Answer AwaitError

abbrev StoreTold := History StoreCall StoreCall.Answer AwaitError

abbrev storeCall (c : StoreCall) : Flow c.Answer := Async.call c

abbrev emit (event : StoreProgress) : Flow Unit := storeCall (.emit event)

/-- What is thrown, as the flow throws it. -/
def thrown : JsError → AwaitError
  | .error message => .rpc message
  | .rangeError => .rpc "RangeError"

def ofJs {α : Type} (x : Except JsError α) : Flow α := Async.ofExcept (x.mapError thrown)

/-! ## The flow -/

/-- A client, with what its backend was made of. -/
structure Client where
  lib : Libraries
  payerKey : Pubkey
  endpointAccounts : List AccountMeta
  dstEid : JsNumber
  options : String := "0x"
  nativeFee : Int := 0
  /-- It was given a source of the live LayerZero fee. -/
  quotesLzFee : Bool := false
  defaults : EncodeDefaults := {}

structure SubmitOptions where
  dstEid : Option JsNumber := none
  options : Option String := none
  nativeFee : Option Int := none
  escrowAmount : Option Int := none

/-- What a flow is called with. -/
structure StoreArgs where
  data : List UInt8
  opts : EncodeOptions := {}
  submit : SubmitOptions := {}
  wait : AwaitProofOptions := {}
  isTransientRpcError : AwaitError → Bool

variable (client : Client) (args : StoreArgs) (polls : Nat)

/-- `encodeIntent(computeBlob, data, opts, defaults)`. -/
def encode : Flow EncodedIntent :=
  if args.data = [] then throw (.rpc "cannot store empty data")
  else do
    let blob ← storeCall (.computeBlob args.data)
    if blob.size ≠ args.data.length then
      throw (.rpc s!"computeBlob reported size {blob.size} but data is {args.data.length} bytes")
    else
      let storageEpochs := args.opts.epochs.getD client.defaults.defaultEpochs
      match args.opts.deadline with
      | some deadline => return { blob with storageEpochs, deadline }
      | none =>
        let now ← storeCall (.wait .now)
        return { blob with storageEpochs, deadline := now / 1000 + client.defaults.deadlineSeconds }

/-- What `submit(encoded, opts)` gives to the backend. -/
def submitFields (encoded : EncodedIntent) (opts : SubmitOptions) : SolanaSubmitFields where
  blobId := client.lib.toHex encoded.blobId.val
  size := .finite (encoded.size : Nat)
  encodingType := .finite (encoded.encodingType : Nat)
  storageEpochs := .finite (encoded.storageEpochs : Int)
  deadline := encoded.deadline
  dstEid := opts.dstEid.getD client.dstEid
  options := opts.options.getD client.options
  nativeFee := opts.nativeFee.getD client.nativeFee
  escrowAmount := some (opts.escrowAmount.getD 0)

/-- `submit(encoded, opts)`, through `submitIntent(fields)` of the backend: the intent id, and the signature. -/
def submit (fields : SolanaSubmitFields) : Flow (String × String) := do
  let info ← storeCall (.wait (.view (.getAccountInfo (.nonce client.payerKey))))
  let tx ← ofJs (submitIntent client.lib client.payerKey client.endpointAccounts info fields)
  let signature ← storeCall (.signAndSend tx)
  let fromEvent ← storeCall (.getTransaction signature)
  let intentId ← ofJs (crossCheck tx.intentId fromEvent)
  if intentId = "" then
    throw (.rpc "submit_intent produced no IntentSubmitted event; cannot determine intent id")
  else return (intentId, signature)

/-- The request of `priceQuote(encoded)`, when the live fee is `live`. -/
def quoteRequest (encoded : EncodedIntent) (live : Option Int) : QuoteRequest where
  sizeBytes := encoded.size
  epochs := some encoded.storageEpochs.toNat
  originToken := .SOL
  forwardLzFeeNative := some (live.getD client.nativeFee)

/-- `this.quoteLzFee ? await this.quoteLzFee() : null`. -/
def liveFee : Flow (Option Int) := if client.quotesLzFee then storeCall .quoteLzFee else return none

/-- `priceQuote(encoded)`. -/
def priceQuote (encoded : EncodedIntent) : Flow PricedQuote := do
  let live ← liveFee client
  let quote ← storeCall (.fetchQuote (quoteRequest client encoded live))
  return { quote with forwardIsUpperBound := live.isNone }

/-- The options that `submitPaid(encoded, quote, opts)` submits with. -/
def paidOptions (quote : PricedQuote) (opts : SubmitOptions) : SubmitOptions :=
  let cap := opts.nativeFee.getD client.nativeFee
  let nativeFee := if quote.forwardNative > cap then quote.forwardNative else cap
  { opts with nativeFee := some nativeFee, escrowAmount := some quote.escrowNative }

/-- `INTENT_STATE_LEN`. -/
def intentStateLen : Nat := 106

/-- `decodeIntentState(data)` of `proof.ts`, which asks for the length of the account. -/
def decodeProofState (data : List UInt8) : Except JsError IntentStateAccount :=
  if data.length ≠ intentStateLen then
    .error (.error s!"IntentState account must be {intentStateLen} bytes, got {data.length}")
  else decodeIntentState data

/-- `readIntent(intentId)`. -/
def readIntent (intentId : String) : WaitProgram AccountView Reply (Option IntentStateAccount) := do
  let seed ← Async.ofExcept ((client.lib.bytes32 intentId).mapError thrown)
  match ← view (AccountView.getAccountInfo (.intent seed)) with
  | none => return none
  | some data => return some (← Async.ofExcept ((decodeProofState data).mapError thrown))

def executedIntent (intentId : String) : WaitProgram AccountView Reply (Option IntentStateAccount) := do
  let state ← readIntent client intentId
  return state.filter (·.executed)

/-- The id in an error of the wait. -/
def idOf (intentId : String) : IntentId :=
  match client.lib.bytes32 intentId with
  | .ok id => id
  | .error _ => Bytes.zero 32

/-- `awaitProof(intentId, opts)`, with at most `polls` polls. -/
def awaitProof (intentId : String) : WaitProgram AccountView Reply (String × Nat) := do
  let timeoutMs := args.wait.timeoutMs.getD DEFAULT_TIMEOUT_MS
  let pollMs := args.wait.pollMs.getD DEFAULT_POLL_MS
  let deadline := (← call WaitCall.now) + timeoutMs
  pollUntil args.isTransientRpcError (executedIntent client intentId)
    (fun state => return (state.committedBlobId, state.endEpoch)) (idOf client intentId) timeoutMs pollMs deadline polls

/-- The flow once the intent is submitted. -/
def uploadAndWait (sent : String × String) (quote : Option PricedQuote) : Flow StoreResult := do
  emit (.submitted sent.1 sent.2)
  storeCall (.upload sent.1 args.data)
  emit (.uploaded sent.1)
  let proof ← via StoreCall.wait (awaitProof client args polls sent.1)
  emit (.proven sent.1 proof.1 proof.2)
  return ⟨sent.1, proof.1, proof.2, sent.2, quote⟩

/-- `store(data, opts)`. -/
def store : Flow StoreResult := do
  storeCall (.wait .throwIfAborted)
  let encoded ← encode client args
  emit (.encoded encoded)
  let sent ← submit client (submitFields client encoded args.submit)
  uploadAndWait client args polls sent none

/-- `storePriced(data, opts)`. -/
def storePriced : Flow StoreResult := do
  storeCall (.wait .throwIfAborted)
  let encoded ← encode client args
  emit (.encoded encoded)
  let quote ← priceQuote client encoded
  emit (.quoted quote.totalNative quote)
  let sent ← submit client (submitFields client encoded (paidOptions client quote args.submit))
  uploadAndWait client args polls sent (some quote)

/-! ## What a flow calls -/

/-- The calls of a flow apart from those that look and wait. -/
def outward (h : StoreTold) : StoreTold :=
  h.filter fun x => match x.1 with
    | .wait _ => false
    | _ => true

/-- What the wait for the proof was told. -/
def waitTold (h : StoreTold) : Told AccountView Reply :=
  h.filterMap fun x => match x with
    | ⟨.wait c, r⟩ => some ⟨c, r⟩
    | _ => none

@[simp] theorem outward_append (h h' : StoreTold) : outward (h ++ h') = outward h ++ outward h' :=
  List.filter_append ..

@[simp] theorem waitTold_append (h h' : StoreTold) : waitTold (h ++ h') = waitTold h ++ waitTold h' :=
  List.filterMap_append ..

@[simp] theorem outward_wait (c : WaitCall AccountView) (r : Except AwaitError (StoreCall.wait c).Answer) :
    outward [⟨.wait c, r⟩] = [] := rfl

@[simp] theorem waitTold_wait (c : WaitCall AccountView) (r : Except AwaitError (StoreCall.wait c).Answer) :
    waitTold [⟨.wait c, r⟩] = [⟨c, r⟩] := rfl

/-- How the price of an intent is found: the calls, and the quote that the flow goes on with. -/
inductive Priced (e : EncodedIntent) : StoreTold → Option PricedQuote → Prop
  | plain : Priced e [] none
  | live (fee : Option Int) (quote : PricedQuote) (hsource : client.quotesLzFee = true) :
    Priced e [⟨.quoteLzFee, .ok fee⟩, ⟨.fetchQuote (quoteRequest client e fee), .ok quote⟩,
      ⟨.emit (.quoted quote.totalNative { quote with forwardIsUpperBound := fee.isNone }), .ok ()⟩]
      (some { quote with forwardIsUpperBound := fee.isNone })
  | cap (quote : PricedQuote) (hsource : client.quotesLzFee = false) :
    Priced e [⟨.fetchQuote (quoteRequest client e none), .ok quote⟩,
      ⟨.emit (.quoted quote.totalNative { quote with forwardIsUpperBound := true }), .ok ()⟩]
      (some { quote with forwardIsUpperBound := true })

/-- What is submitted at a price. -/
def optionsAt : Option PricedQuote → SubmitOptions
  | none => args.submit
  | some quote => paidOptions client quote args.submit

/-- The wait for the proof of `intentId` has seen an executed intent, whose blob id and end epoch it returned. -/
def SeesProof (intentId : String) (h : Told AccountView Reply) (proof : String × Nat) : Prop :=
  ∃ seed data state, client.lib.bytes32 intentId = .ok seed ∧ Shown h (.getAccountInfo (.intent seed)) (some data) ∧
    decodeProofState data = .ok state ∧ state.executed = true ∧ proof = (state.committedBlobId, state.endEpoch)

/-- What a flow has called that returned `res`: the calls in their order, and what its transaction and its result were
made of. -/
structure Script (told : StoreTold) (res : StoreResult) (e : EncodedIntent) (tx : Transaction) (pricing : StoreTold)
    (fromEvent : Option String) : Prop where
  calls : outward told = ⟨.computeBlob args.data, .ok e.toBlobEncoding⟩ :: ⟨.emit (.encoded e), .ok ()⟩ :: (pricing ++
    [⟨.signAndSend tx, .ok res.txHash⟩, ⟨.getTransaction res.txHash, .ok fromEvent⟩,
      ⟨.emit (.submitted res.intentId res.txHash), .ok ()⟩, ⟨.upload res.intentId args.data, .ok ()⟩,
      ⟨.emit (.uploaded res.intentId), .ok ()⟩, ⟨.emit (.proven res.intentId res.blobId res.endEpoch), .ok ()⟩])
  size : e.size = args.data.length
  priced : Priced client e pricing res.quote
  built : ∃ info, submitIntent client.lib client.payerKey client.endpointAccounts info
    (submitFields client e (optionsAt client args res.quote)) = .ok tx
  named : res.intentId = tx.intentId
  proven : SeesProof client res.intentId (waitTold told) (res.blobId, res.endEpoch)

section

variable {client args polls} {t : StoreTold}

theorem returned_ofJs {α : Type} {x : Except JsError α} {a : α} : Returned (ofJs x) t a ↔ t = [] ∧ x = .ok a := by
  unfold ofJs
  rw [returned_ofExcept, Solana.mapError_ok]

theorem encode_returned {e : EncodedIntent} (h : Returned (encode client args) t e) :
    outward t = [⟨.computeBlob args.data, .ok e.toBlobEncoding⟩] ∧ e.size = args.data.length := by
  unfold encode at h
  split at h
  · exact absurd h returned_throw
  · obtain ⟨blob, t₁, rfl, h₁⟩ := returned_next.mp h
    split at h₁
    · exact absurd h₁ returned_throw
    · rename_i hsize
      rw [not_not] at hsize
      dsimp only at h₁
      split at h₁
      · obtain ⟨rfl, rfl⟩ := returned_pure.mp h₁
        exact ⟨rfl, hsize⟩
      · obtain ⟨now, t₂, rfl, h₂⟩ := returned_next.mp h₁
        obtain ⟨rfl, rfl⟩ := returned_pure.mp h₂
        exact ⟨rfl, hsize⟩

theorem submit_returned {fields : SolanaSubmitFields} {sent : String × String}
    (h : Returned (submit client fields) t sent) : ∃ info tx fromEvent,
      outward t = [⟨.signAndSend tx, .ok sent.2⟩, ⟨.getTransaction sent.2, .ok fromEvent⟩] ∧
      submitIntent client.lib client.payerKey client.endpointAccounts info fields = .ok tx ∧ sent.1 = tx.intentId := by
  unfold submit at h
  obtain ⟨info, t₁, rfl, h₁⟩ := returned_next.mp h
  obtain ⟨_, t₂, tx, rfl, htx, h₂⟩ := returned_bind.mp h₁
  obtain ⟨rfl, hbuilt⟩ := returned_ofJs.mp htx
  obtain ⟨signature, t₃, rfl, h₃⟩ := returned_next.mp h₂
  obtain ⟨fromEvent, t₄, rfl, h₄⟩ := returned_next.mp h₃
  obtain ⟨_, t₅, intentId, rfl, hid, h₅⟩ := returned_bind.mp h₄
  obtain ⟨rfl, hchecked⟩ := returned_ofJs.mp hid
  split at h₅
  · exact absurd h₅ returned_throw
  · obtain ⟨rfl, rfl⟩ := returned_pure.mp h₅
    exact ⟨info, tx, fromEvent, rfl, hbuilt, crossCheck_ok hchecked⟩

/-- The quote, and the event of it. -/
theorem priceQuote_returned {e : EncodedIntent} {quote : PricedQuote} (h : Returned (priceQuote client e) t quote) :
    Priced client e (t ++ [⟨.emit (.quoted quote.totalNative quote), .ok ()⟩]) (some quote) := by
  have hfetched : ∀ live t, Returned (storeCall (.fetchQuote (quoteRequest client e live)) >>= fun quote =>
      pure { quote with forwardIsUpperBound := live.isNone }) t quote →
      ∃ raw, t = [⟨.fetchQuote (quoteRequest client e live), .ok raw⟩] ∧
        quote = { raw with forwardIsUpperBound := live.isNone } := by
    intro live t h
    obtain ⟨raw, t₁, rfl, h₁⟩ := returned_next.mp h
    obtain ⟨rfl, rfl⟩ := returned_pure.mp h₁
    exact ⟨raw, rfl, rfl⟩
  unfold priceQuote at h
  obtain ⟨t₁, t₂, live, rfl, hlive, h₁⟩ := returned_bind.mp h
  obtain ⟨raw, rfl, rfl⟩ := hfetched live t₂ h₁
  cases hsource : client.quotesLzFee with
  | true =>
    rw [liveFee, hsource, if_pos rfl, returned_call] at hlive
    rw [hlive]
    exact .live live raw hsource
  | false =>
    rw [liveFee, hsource, if_neg Bool.false_ne_true] at hlive
    obtain ⟨rfl, rfl⟩ := returned_pure.mp hlive
    exact .cap raw hsource

end

theorem wp_awaitProof (intentId : String) :
    wp (fun _ _ => True) (fun h r => ∀ proof, r = .ok proof → SeesProof client intentId h proof) []
      (awaitProof client args polls intentId) := by
  unfold awaitProof
  refine wp_next trivial (fun now => ?_) fun e proof hproof => by cases hproof
  refine wp_pollUntil (K := fun h state => SeesProof client intentId h (state.committedBlobId, state.endEpoch))
    (fun _ _ _ => trivial) (fun h => ?_) (fun h state hK => ?_) (fun h e proof hproof => by cases hproof) polls _
  · unfold executedIntent readIntent
    rw [wp_bind, wp_bind, wp_ofExcept]
    cases hseed : client.lib.bytes32 intentId with
    | error e =>
      intro state hstate
      cases hstate
    | ok seed =>
      show andThen _ _ _ _ (.ok seed)
      rw [andThen_ok]
      refine wp_next trivial (fun info => ?_) fun e => ?_
      · cases info with
        | none =>
          intro state hstate
          cases hstate
        | some data =>
          rw [wp_bind, wp_ofExcept]
          cases hdecode : decodeProofState data with
          | error e =>
            intro state hstate
            cases hstate
          | ok decoded =>
            intro state hstate
            obtain ⟨hsome, hexecuted⟩ := Option.filter_eq_some_iff.mp (Except.ok.inj hstate)
            cases hsome
            exact ⟨seed, data, decoded, hseed, shown_last h (AccountView.getAccountInfo (.intent seed)) (some data),
              hdecode, hexecuted, rfl⟩
      · intro state hstate
        cases hstate
  · intro proof hproof
    cases hproof
    exact hK

/-- The calls of the wait, in the flow. -/
def waiting (s : Told AccountView Reply) : StoreTold := s.map fun x => ⟨.wait x.1, x.2⟩

theorem outward_waiting (s : Told AccountView Reply) : outward (waiting s) = [] := by
  induction s with
  | nil => rfl
  | cons x s ih => exact ih

theorem waitTold_waiting (s : Told AccountView Reply) : waitTold (waiting s) = s := by
  induction s with
  | nil => rfl
  | cons x s ih => exact congrArg (x :: ·) ih

section

variable {client args polls} {t : StoreTold} {res : StoreResult}

theorem uploadAndWait_returned {sent : String × String} {quote : Option PricedQuote}
    (h : Returned (uploadAndWait client args polls sent quote) t res) :
    outward t = [⟨.emit (.submitted sent.1 sent.2), .ok ()⟩, ⟨.upload sent.1 args.data, .ok ()⟩,
      ⟨.emit (.uploaded sent.1), .ok ()⟩, ⟨.emit (.proven sent.1 res.blobId res.endEpoch), .ok ()⟩] ∧
    SeesProof client sent.1 (waitTold t) (res.blobId, res.endEpoch) ∧ res.intentId = sent.1 ∧ res.txHash = sent.2 ∧
    res.quote = quote := by
  unfold uploadAndWait at h
  obtain ⟨_, t₁, rfl, h₁⟩ := returned_next.mp h
  obtain ⟨_, t₂, rfl, h₂⟩ := returned_next.mp h₁
  obtain ⟨_, t₃, rfl, h₃⟩ := returned_next.mp h₂
  obtain ⟨_, t₄, proof, rfl, hproof, h₄⟩ := returned_bind.mp h₃
  obtain ⟨s, hwait, rfl⟩ := returned_via.mp hproof
  obtain ⟨_, t₅, rfl, h₅⟩ := returned_next.mp h₄
  obtain ⟨rfl, rfl⟩ := returned_pure.mp h₅
  have hsees := hwait.post (wp_awaitProof client args polls sent.1) proof rfl
  refine ⟨?_, ?_, rfl, rfl, rfl⟩
  · show outward ([_, _, _] ++ (waiting s ++ [_])) = _
    rw [outward_append, outward_append, outward_waiting]
    rfl
  · show SeesProof client sent.1 (waitTold ([_, _, _] ++ (waiting s ++ [_]))) _
    rw [waitTold_append, waitTold_append, waitTold_waiting]
    show SeesProof client sent.1 (s ++ []) _
    rw [List.append_nil]
    exact hsees

theorem SeesProof.append {intentId : String} {h : Told AccountView Reply} {proof : String × Nat}
    (hsees : SeesProof client intentId h proof) (h₀ : Told AccountView Reply) :
    SeesProof client intentId (h₀ ++ h) proof := by
  obtain ⟨seed, data, state, hseed, hshown, hrest⟩ := hsees
  exact ⟨seed, data, state, hseed, List.mem_append_right _ hshown, hrest⟩

theorem Priced.outward_eq {e : EncodedIntent} {pricing : StoreTold} {quote : Option PricedQuote}
    (h : Priced client e pricing quote) : outward pricing = pricing := by
  cases h <;> rfl

/-- The flow from the price on, behind the calls `t₀`. -/
theorem script_of_priced {e : EncodedIntent} {quote : Option PricedQuote} (t₀ : StoreTold)
    {pricing t₁ t₂ : StoreTold} {sent : String × String}
    (hencoded : outward t₀ = [⟨.computeBlob args.data, .ok e.toBlobEncoding⟩])
    (hsize : e.size = args.data.length) (hpriced : Priced client e pricing quote)
    (hsubmit : Returned (submit client (submitFields client e (optionsAt client args quote))) t₁ sent)
    (hrest : Returned (uploadAndWait client args polls sent quote) t₂ res) :
    ∃ tx fromEvent, Script client args (t₀ ++ (⟨.emit (.encoded e), .ok ()⟩ :: pricing) ++ t₁ ++ t₂) res e tx pricing
      fromEvent := by
  obtain ⟨info, tx, fromEvent, hcalls, hbuilt, hnamed⟩ := submit_returned hsubmit
  obtain ⟨hend, hsees, hid, htx, rfl⟩ := uploadAndWait_returned hrest
  rw [← hid] at hnamed hend hsees
  rw [← htx] at hcalls hend
  have hemit : outward (⟨.emit (.encoded e), .ok ()⟩ :: pricing) = ⟨.emit (.encoded e), .ok ()⟩ :: pricing :=
    congrArg (_ :: ·) hpriced.outward_eq
  refine ⟨tx, fromEvent, ?_, hsize, hpriced, ⟨info, hbuilt⟩, hnamed, ?_⟩
  · rw [outward_append, outward_append, outward_append, hencoded, hemit, hcalls, hend, List.append_assoc]
    rfl
  · rw [waitTold_append]
    exact hsees.append _

/-- What a flow that returns has called. -/
theorem store_calls (h : Returned (store client args polls) t res ∨ Returned (storePriced client args polls) t res) :
    ∃ e tx pricing fromEvent, Script client args t res e tx pricing fromEvent := by
  obtain h | h := h
  · unfold store at h
    obtain ⟨_, t₁, rfl, h₁⟩ := returned_next.mp h
    obtain ⟨t₂, t₃, e, rfl, hencode, h₂⟩ := returned_bind.mp h₁
    obtain ⟨_, t₄, rfl, h₃⟩ := returned_next.mp h₂
    obtain ⟨t₅, t₆, sent, rfl, hsubmit, hrest⟩ := returned_bind.mp h₃
    obtain ⟨hencoded, hsize⟩ := encode_returned hencode
    obtain ⟨tx, fromEvent, hscript⟩ := script_of_priced (⟨.wait .throwIfAborted, .ok ()⟩ :: t₂) hencoded hsize
      .plain hsubmit hrest
    refine ⟨e, tx, [], fromEvent, ?_⟩
    rw [List.append_assoc, List.append_assoc] at hscript
    exact hscript
  · unfold storePriced at h
    obtain ⟨_, t₁, rfl, h₁⟩ := returned_next.mp h
    obtain ⟨t₂, t₃, e, rfl, hencode, h₂⟩ := returned_bind.mp h₁
    obtain ⟨_, t₄, rfl, h₃⟩ := returned_next.mp h₂
    obtain ⟨t₅, t₆, quote, rfl, hquote, h₄⟩ := returned_bind.mp h₃
    obtain ⟨_, t₇, rfl, h₅⟩ := returned_next.mp h₄
    obtain ⟨t₈, t₉, sent, rfl, hsubmit, hrest⟩ := returned_bind.mp h₅
    obtain ⟨hencoded, hsize⟩ := encode_returned hencode
    obtain ⟨tx, fromEvent, hscript⟩ := script_of_priced (⟨.wait .throwIfAborted, .ok ()⟩ :: t₂) hencoded hsize
      (priceQuote_returned hquote) hsubmit hrest
    refine ⟨e, tx, t₅ ++ [⟨.emit (.quoted quote.totalNative quote), .ok ()⟩], fromEvent, ?_⟩
    simpa only [List.append_assoc, List.cons_append, List.nil_append] using hscript

end

end Bosphor.Sdk.SolanaStore

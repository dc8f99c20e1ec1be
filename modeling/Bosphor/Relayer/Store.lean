import Bosphor.Lib.Async
import Bosphor.Relayer.Lifecycle
import Bosphor.Relayer.Pricing
import Bosphor.Relayer.WalrusBlobId

/-!
# The store pipeline

`store`, the program that takes a staged row through its upload, its record on
Sui and its return leg, awaiting one call after another. Each step persists its
result before the next, and skips what the row it was given says is done; the
row is the one the tick drained, and is not read again.
-/

namespace Bosphor.Relayer

open StagedIntentStore

/-- A row as the drain query returns it, under its key. -/
structure StagedIntentRow extends Row where
  intentId : IntentId
  deriving DecidableEq

def StagedIntentRow.hasBytes (row : StagedIntentRow) : Bool := row.bytes.isSome

/-- Where in the pipeline a failure is said to have happened. -/
inductive Phase where
  | pre
  | post
  deriving DecidableEq

/-- An error of the pipeline: a `StoreError` says its phase, any other does not. -/
inductive Failure where
  | error (message : String)
  | storeError (message : String) (phase : Phase)
  deriving DecidableEq

/-- `String(err)`. -/
def Failure.text : Failure → String
  | .error message => "Error: " ++ message
  | .storeError message _ => "StoreError: " ++ message

/-- A blob that Walrus stored. -/
structure WalrusBlob where
  blobId : String
  objectId : String
  endEpoch : Nat
  deriving DecidableEq

/-- The escrow record of the EVM adapter; `token` is the zero address for native. -/
structure EvmEscrow where
  token : String
  amount : Nat
  status : Nat
  deriving DecidableEq

/-- What the ops ledger is told of a completed store. -/
structure CompletedStore where
  sender : String
  committedBlobId : Option String
  walrusBlobId : String
  walrusObjectId : String
  endEpoch : Nat
  storeDigest : String
  deriving DecidableEq

/-- The calls that the pipeline awaits. -/
inductive Call where
  | readCommittedStorageEpochs (id : IntentId)
  | systemState
  | evmGetEscrow (id : IntentId)
  | getAccountInfo (id : IntentId)
  | getPrices
  | ensureWal
  | recordHop (id : IntentId) (hop : IntentHop) (details : HopDetails)
  | fetchBytes (id : IntentId)
  | writeBlob (id : IntentId) (blob : List UInt8) (epochs : Nat)
  | persistUpload (id : IntentId) (up : UploadResult)
  | executeStore (id : IntentId) (sender walrusObjectId : String) (deadlineMs : Nat)
  | waitForTransaction (digest : String)
  | persistStore (id : IntentId) (storeDigest : String)
  | recordLedger (id : IntentId) (entry : CompletedStore)
  | markLedgered (id : IntentId)
  | freeBytes (id : IntentId)
  | quoteLzFee (id : IntentId) (walrusBlobId : String) (endEpoch dstEid : Nat)
  | lzSendProof (id : IntentId) (walrusBlobId : String) (endEpoch dstEid feeAmount : Nat)
  | evmConfirmExecution (id : IntentId) (proof : List UInt8)
  | solanaConfirmExecution (id : IntentId) (blobId : List UInt8) (endEpoch : Nat)
  | markReturned (id : IntentId)
  | markDone (id : IntentId)
  | markDead (id : IntentId) (lastError : String)

abbrev Call.Answer : Call → Type
  | .readCommittedStorageEpochs _ => Nat
  | .systemState => WalrusSystemState
  | .evmGetEscrow _ => EvmEscrow
  | .getAccountInfo _ => Option (List UInt8)
  | .getPrices => PriceSet
  | .fetchBytes _ => Option (List UInt8)
  | .writeBlob .. => WalrusBlob
  | .executeStore .. => String
  | .recordLedger .. => Bool
  | .quoteLzFee .. => Nat
  | .lzSendProof .. => String
  | .evmConfirmExecution .. => String
  | .solanaConfirmExecution .. => String
  | _ => Unit

/-- The statement that a call runs on `staged_intent`, if it is one that writes it. -/
def Call.op (now : Nat) : Call → Option Op
  | .persistUpload id up => some (.persistUpload id up now)
  | .persistStore id storeDigest => some (.persistStore id storeDigest now)
  | .markLedgered id => some (.markLedgered id)
  | .freeBytes id => some (.freeBytes id now)
  | .markReturned id => some (.markReturned id now)
  | .markDone id => some (.markDone id now)
  | .markDead id lastError => some (.markDead id lastError now)
  | _ => none

/-- A program of the relayer. -/
abbrev Program := Async Call Call.Answer Failure

abbrev call (c : Call) : Program c.Answer := Async.call c

structure Config where
  evmDstEid : Nat
  solanaSrcEid : Nat
  storeConcurrency : Nat := 4
  batchSize : Nat := 20
  backoffBaseMs : Nat := 2000
  backoffCapMs : Nat := 300000
  maxStoreAttempts : Nat := 8
  returnMaxAttempts : Nat := 20
  attemptTimeoutMs : Nat := 120000
  leaseMs : Nat := 600000
  breakEvenEnabled : Bool
  /-- Whether the guard and the escrow reader are provided. -/
  guarded : Bool := true
  guardReturnLzFeeMist : Nat
  guardSuiGasMist : Nat := 30000000
  minMarginRatio : ℚ := 1 / 10
  storeEpochs : Nat := 5
  maxEpochs : Nat := 53
  solanaConfigured : Bool := true
  solanaCanConfirm : Bool := true
  ledger : Bool := true

variable (fl : Rounding) (cfg : Config)

/-! ## Walrus -/

/-- Whether `part` stands in `text`. -/
def includes (text part : String) : Bool := decide (part.toList <:+: text.toList)

/-- Whether `text` is at a `code`, an optional colon, blanks and a lone `2`. -/
def atCodeTwo (text : List Char) : Bool :=
  match text with
  | 'c' :: 'o' :: 'd' :: 'e' :: rest =>
    let rest := if rest.head? = some ':' then rest.tail else rest
    match Text.trimStart rest with
    | '2' :: after => !after.head?.any Text.isWord
    | _ => false
  | _ => false

/-- `/MoveAbort.*\bcode:?\s*2\b/`. -/
def abortsWithCodeTwo (message : String) : Bool :=
  message.toList.tails.any fun t => "MoveAbort".toList.isPrefixOf t &&
    ((t.drop 9).tails.zip ((t.drop 8).takeWhile fun c => !Text.isLineEnd c)).any fun (here, before) =>
      !Text.isWord before && atCodeTwo here

def isStaleCacheError (message : String) : Bool :=
  includes message "balance::split" || includes message "balance::destroy_zero" ||
    includes message "BehindCurrentEpoch" || abortsWithCodeTwo message

/-- `WalrusService.resolveStoreEpochs`: under the configured cap and Walrus's own. -/
def walrusResolveStoreEpochs (committed : Option Nat) : Program StoreEpochsResolution :=
  match resolveStoreEpochs committed ⟨cfg.storeEpochs, cfg.maxEpochs⟩ with
  | .rejected reason => return .rejected reason
  | .accepted .. => do
    let sys ← call .systemState
    if sys.maxEpochsAhead < 1 then
      throw (.error s!"Walrus system state has no valid max_epochs_ahead ({sys.maxEpochsAhead})")
    return resolveStoreEpochs committed ⟨cfg.storeEpochs, min cfg.maxEpochs sys.maxEpochsAhead⟩

/-- `WalrusService.upload`: one retry for a price that a new epoch made stale. -/
def upload (id : IntentId) (blob : List UInt8) (epochs : Nat) : Program WalrusBlob := do
  if epochs < 1 then throw (.error s!"Invalid Walrus store epochs: {epochs}")
  let result ← tryCatch (call (.writeBlob id blob epochs)) fun err =>
    if isStaleCacheError err.text then call (.writeBlob id blob epochs) else throw err
  -- the cost is recomputed for the metrics alone, and a failure to is no failure
  let _ ← tryCatch (do let _ ← call .systemState; return ()) fun _ => return ()
  return result

def estimateWalCostFrost (byteLength epochs : Nat) : Program Nat := do
  let state ← call .systemState
  match computeWalCost byteLength epochs state with
  | .ok cost => return cost
  | .error message => throw (.error message)

/-! ## The escrow readers -/

/-- What the guard needs of an escrow. -/
structure EscrowInfo where
  escrowNative : Nat
  originToken : OriginToken
  deriving DecidableEq

/-- `EvmService.getEscrow`: no escrow, or a read that reverts, is `none`. -/
def evmGetEscrow (id : IntentId) : Program (Option EvmEscrow) :=
  tryCatch (do
    let e ← call (.evmGetEscrow id)
    return if e.status = 0 then none else some e) fun _ => return none

/-- The amount and the status of an `EscrowVault` account. -/
def decodeVault (data : List UInt8) : Option (Nat × Nat) :=
  if data.length < 90 then none
  else some (Bytes.ofBE (Bytes.slice data 72 8).reverse, (data.getD 88 0).toNat)

/-- `SolanaService.getEscrow`: no vault, or a read that fails, is `none`. -/
def solanaGetEscrow (id : IntentId) : Program (Option (Nat × Nat)) :=
  if cfg.solanaConfigured then
    tryCatch (do
      let acc ← call (.getAccountInfo id)
      return acc.bind decodeVault) fun _ => return none
  else return none

def EVM_ESCROW_PENDING : Nat := 1
def SOLANA_ESCROW_PENDING : Nat := 0
def ZERO_ADDRESS : String := "0x0000000000000000000000000000000000000000"

/-- `ChainEscrowReader.getEscrow`: only pending native escrows are told apart from none. -/
def getEscrow (id : IntentId) (srcEid : Option Nat) : Program (Option EscrowInfo) := do
  if srcEid = some cfg.solanaSrcEid then
    let some (amount, status) ← solanaGetEscrow cfg id | return none
    if status ≠ SOLANA_ESCROW_PENDING ∨ amount = 0 then return none
    return some ⟨amount, .SOL⟩
  else
    let some e ← evmGetEscrow id | return none
    if e.status ≠ EVM_ESCROW_PENDING ∨ e.amount = 0 then return none
    if e.token.toLower ≠ ZERO_ADDRESS then return none
    return some ⟨e.amount, .ETH⟩

/-- `BreakEvenGuardService.check`. -/
def breakEvenCheck (escrow : EscrowInfo) (sizeBytes epochs : Nat) : Program BreakEvenDecision := do
  let prices ← call .getPrices
  let walCostFrost ← estimateWalCostFrost sizeBytes epochs
  match evaluateBreakEven fl ⟨escrow.escrowNative, escrow.originToken, walCostFrost, cfg.guardReturnLzFeeMist,
    cfg.guardSuiGasMist, cfg.minMarginRatio, prices⟩ with
  | .ok decision => return decision
  | .error message => throw (.error message)

/-! ## The return leg -/

/-- A hop for the public feed: a failure to record it is logged and dropped. -/
def trackHop (id : IntentId) (hop : IntentHop) (details : HopDetails) : Program Unit :=
  tryCatch (call (.recordHop id hop details)) fun _ => return ()

/-- The LayerZero send that both return legs try first. -/
def lzReturn (id : IntentId) (walrusBlobId : String) (endEpoch dstEid : Nat) : Program Unit := do
  let quotedFee ← call (.quoteLzFee id walrusBlobId endEpoch dstEid)
  let lzDigest ← call (.lzSendProof id walrusBlobId endEpoch dstEid (quotedFee * 11 / 10))
  trackHop id .proofSent { txHash := some lzDigest }

/-- The field of a blob id, for the fallback's proof. -/
def canonicalBlobId (walrusBlobId : String) : Program (List UInt8) :=
  match walrusBlobIdToField walrusBlobId with
  | .ok field => return field
  | .error message => throw (.error message)

def returnToEvm (id : IntentId) (walrusBlobId : String) (endEpoch : Nat) : Program Unit :=
  tryCatch (lzReturn id walrusBlobId endEpoch cfg.evmDstEid) fun _ => do
    let field ← canonicalBlobId walrusBlobId
    let evmDigest ← call (.evmConfirmExecution id (field ++ Bytes.toBE 32 endEpoch))
    trackHop id .proofSent { txHash := some evmDigest }

def returnToSolana (id : IntentId) (walrusBlobId : String) (endEpoch : Nat) : Program Unit :=
  tryCatch (lzReturn id walrusBlobId endEpoch cfg.solanaSrcEid) fun _ => do
    if !cfg.solanaCanConfirm then
      throw (.error (s!"[{id}] Solana-origin return leg requires a Solana signer " ++
        "(set SOLANA_RELAYER_KEYPAIR); cannot confirm_execution"))
    let field ← canonicalBlobId walrusBlobId
    let sig ← call (.solanaConfirmExecution id field endEpoch)
    trackHop id .proofSent { txHash := some sig }
    trackHop id .confirmed { txHash := some sig }

/-! ## The steps of `store` -/

/-- Marker of a store that an earlier attempt recorded. -/
def ALREADY_RECORDED : String := "already-recorded"

/-- The committed epochs: of the row, or read from Sui for a row without them. -/
def committedEpochs (row : StagedIntentRow) : Program (Option Nat) :=
  match row.storageEpochs with
  | some epochs => return some epochs
  | none =>
    tryCatch (do
      let epochs ← call (.readCommittedStorageEpochs row.intentId)
      return some epochs) fun _ => return none

/-- 1a. For how many epochs to store, or why the intent is not stored. -/
def storeEpochs (row : StagedIntentRow) : Program (Except String Nat) := do
  let committed ← committedEpochs row
  match ← walrusResolveStoreEpochs cfg committed with
  | .accepted epochs _ => return .ok epochs
  | .rejected reason =>
    -- the duration of an upload that was made is fixed, whatever the cap is now
    if row.walrusObjectId.isSome then return .ok (max (committed.getD 0) WALRUS_MIN_EPOCHS)
    return .error reason

/-- 1b. The guard, before any spend: a decision if it was applied, or why the intent is skipped. -/
def breakEvenGuard (row : StagedIntentRow) (epochs : Nat) : Program (Except String (Option BreakEvenDecision)) := do
  if cfg.breakEvenEnabled && cfg.guarded && row.walrusObjectId.isNone then
    let some escrow ← getEscrow cfg row.intentId row.srcEid | return .ok none
    let decision ← breakEvenCheck fl cfg escrow (row.size.getD 0) epochs
    if !decision.proceed then return .error decision.reason
    return .ok (some decision)
  else return .ok none

/-- 2. The upload, unless the row has one. -/
def uploadStep (row : StagedIntentRow) (epochs : Nat) : Program UploadResult :=
  match row.walrusObjectId with
  | some objectId => return ⟨objectId, row.walrusBlobId.getD "", row.endEpoch.getD 0⟩
  | none => do
    let some bytes ← call (.fetchBytes row.intentId) | throw (.error "ready row has no bytes to upload")
    let info ← upload row.intentId bytes epochs
    let up : UploadResult := ⟨info.objectId, info.blobId, info.endEpoch⟩
    call (.persistUpload row.intentId up)
    return up

/-- Whether an error of `execute_store` says that the intent is recorded already (abort code 2). -/
def alreadyExecuted (message : String) : Bool :=
  includes message "execute_store" && (includes message ", 2)" || includes message "abort code: 2")

/-- 3. The record on Sui, unless the row has one. -/
def recordStep (row : StagedIntentRow) (sender : String) (commitment : Option IntentCommitment)
    (walrusObjectId : String) : Program String :=
  match row.storeDigest with
  | some digest => return digest
  | none => do
    let deadlineMs := row.deadline.getD ((commitment.map (·.deadline)).getD 0)
    let storeDigest ← tryCatch (do
      let digest ← call (.executeStore row.intentId sender walrusObjectId deadlineMs)
      call (.waitForTransaction digest)
      return digest) fun err => if alreadyExecuted err.text then return ALREADY_RECORDED else throw err
    call (.persistStore row.intentId storeDigest)
    return storeDigest

/-- 3b. The ops ledger; a failure is left to its backfill. -/
def ledgerStep (row : StagedIntentRow) (entry : CompletedStore) : Program Unit :=
  if !row.ledgered && cfg.ledger then
    tryCatch (do
      let _ ← call (.recordLedger row.intentId entry)
      call (.markLedgered row.intentId)) fun _ => return ()
  else return ()

/-- 5. The return leg, unless the row has been returned; its failure is a failure of the second phase. -/
def returnStep (row : StagedIntentRow) (up : UploadResult) : Program Unit :=
  if !row.returned then do
    tryCatch (if row.srcEid = some cfg.solanaSrcEid then returnToSolana cfg row.intentId up.walrusBlobId up.endEpoch
      else returnToEvm cfg row.intentId up.walrusBlobId up.endEpoch)
      fun retErr => throw (.storeError retErr.text .post)
    call (.markReturned row.intentId)
  else return ()

/-- The reference that the recomputed blob id is compared with. -/
def committedRef (row : StagedIntentRow) (commitment : Option IntentCommitment) : String :=
  ((commitment.map (·.committedBlobId)).orElse fun _ => row.committedBlobId).getD
    ("0x" ++ String.ofList (List.replicate 64 '0'))

/-- The steps that spend and record, once the row is known to be one to store. -/
def fulfil (row : StagedIntentRow) (sender : String) (commitment : Option IntentCommitment) (epochs : Nat) :
    Program Unit := do
  call .ensureWal
  trackHop row.intentId .received { sender := some sender, txHash := row.deliveryDigest }
  let up ← uploadStep row epochs
  trackHop row.intentId .storedWalrus
    { blobId := some up.walrusBlobId, suiObjectId := some up.walrusObjectId, endEpoch := some up.endEpoch }
  let storeDigest ← recordStep row sender commitment up.walrusObjectId
  trackHop row.intentId .recordedSui
    { txHash := if storeDigest = ALREADY_RECORDED then none else some storeDigest }
  ledgerStep cfg row ⟨sender, (commitment.map (·.committedBlobId)).orElse fun _ => row.committedBlobId,
    up.walrusBlobId, up.walrusObjectId, up.endEpoch, storeDigest⟩
  call (.freeBytes row.intentId)
  returnStep cfg row up
  call (.markDone row.intentId)

/-- What is booked in the ledger of profit and loss when the pipeline ends. -/
inductive Booking where
  | nothing
  | skip (reason : String)
  | completion (collectedUsd spentUsd : ℚ)

/-- The pipeline. A row that is not to be stored is dead-lettered before any spend. -/
def store (row : StagedIntentRow) (sender : String) (commitment : Option IntentCommitment) : Program Booking := do
  let ref := committedRef row commitment
  let blobId := row.blobId.getD "undefined"
  if !blobIdMatches (row.blobId.getD "") ref then
    call (.markDead row.intentId s!"blob id {blobId} does not match committed reference {ref}")
    return .nothing
  else
    match ← storeEpochs cfg row with
    | .error reason =>
      call (.markDead row.intentId s!"storage epochs rejected: {reason}")
      return .skip reason
    | .ok epochs =>
      match ← breakEvenGuard fl cfg row epochs with
      | .error reason =>
        call (.markDead row.intentId s!"break-even guard skip: {reason}")
        return .skip reason
      | .ok decision =>
        fulfil cfg row sender commitment epochs
        return decision.elim .nothing fun d => .completion d.escrowUsd d.costUsd

end Bosphor.Relayer

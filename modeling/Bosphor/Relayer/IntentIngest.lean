import Bosphor.Lib.Async
import Bosphor.Relayer.Lifecycle
import Bosphor.Relayer.WalrusBlobId

/-!
# Ingest

The gate for bytes that come out of band: `ingest` binds them to the commitment
of their intent, and stages them if they are exactly what was committed to. Its
calls, and those of the byte recovery that feeds it, may be answered with
anything; the clock is one of them.
-/

namespace Bosphor.Relayer

inductive IngestRejectReason where
  | unknown
  | alreadyExecuted
  | expired
  | oversized
  | wrongSize
  | wrongBlobId
  | backpressure
  deriving DecidableEq, Repr

inductive IngestResult where
  | accepted (intentId : IntentId) (blobId : String) (size : Nat)
  | rejected (intentId : IntentId) (reason : IngestRejectReason) (message : String)
  deriving DecidableEq

inductive UpsertOutcome where
  | accepted
  | backpressure
  | terminal
  deriving DecidableEq, Repr

/-- The calls that ingest awaits. -/
inductive IngestCall where
  | getCommitment (id : IntentId)
  | now
  | stagedBytesTotal
  | encodeBlob (bytes : List UInt8)
  /-- The statement of `upsertBytes`: whether it returned a row. -/
  | upsert (id : IntentId) (blob : StagedBytes) (maxStagedBytes : Option Nat) (now : Nat)
  | stagedBytesTotalExcluding (id : IntentId)

abbrev IngestCall.Answer : IngestCall → Type
  | .getCommitment _ => Option IntentCommitment
  | .now => Nat
  | .stagedBytesTotal => Nat
  | .encodeBlob _ => String
  | .upsert .. => Bool
  | .stagedBytesTotalExcluding _ => Nat

/-- A program of the ingest service. -/
abbrev Ingesting := Async IngestCall IngestCall.Answer Unit

abbrev ingestCall (c : IngestCall) : Ingesting c.Answer := Async.call c

structure IngestConfig where
  maxIngestBytes : Nat := 10485760
  maxStagedBytes : Nat := 268435456
  /-- Whether there is a store queue to write to. -/
  staged : Bool := true

/-- `StagedIntentStore.upsertBytes`: one statement, and a second to say why it wrote nothing. -/
def upsertBytes (id : IntentId) (blob : StagedBytes) (maxStagedBytes : Option Nat) : Ingesting UpsertOutcome := do
  let now ← ingestCall .now
  if ← ingestCall (.upsert id blob maxStagedBytes now) then return .accepted
  else
    match maxStagedBytes with
    | none => return .terminal
    | some cap => do
      let total ← ingestCall (.stagedBytesTotalExcluding id)
      return if total + blob.size > cap then .backpressure else .terminal

/-- Any hop at or past `stored_walrus`. -/
def isExecuted : IntentHop → Bool
  | .storedWalrus | .recordedSui | .proofSent | .confirmed => true
  | .submitted | .received => false

def reject (id : IntentId) (reason : IngestRejectReason) (message : String) : Ingesting IngestResult :=
  return .rejected id reason message

variable (cfg : IngestConfig)

/-- The end of `ingest`, once the bytes are those that were committed to. -/
def stage (id : IntentId) (bytes : List UInt8) (blobId : String) (appId : Option String) (deadline : Nat) :
    Ingesting IngestResult := do
  if cfg.staged then
    match ← upsertBytes id ⟨bytes, blobId, bytes.length, appId, some deadline⟩ (some cfg.maxStagedBytes) with
    | .terminal => reject id .expired "intent is no longer pending on this relayer"
    | .backpressure =>
      reject id .backpressure s!"staged bytes + {bytes.length} would exceed MAX_STAGED_BYTES {cfg.maxStagedBytes}"
    | .accepted => return .accepted id blobId bytes.length
  else return .accepted id blobId bytes.length

/-- The fast path of the cap, before the blob id is recomputed: why the bytes are turned away. -/
def shed (bytes : List UInt8) : Ingesting (Option String) := do
  if cfg.staged then
    let stagedBytes ← ingestCall .stagedBytesTotal
    return if stagedBytes + bytes.length > cfg.maxStagedBytes then
      some s!"staged bytes {stagedBytes} + {bytes.length} exceed MAX_STAGED_BYTES {cfg.maxStagedBytes}"
    else none
  else return none

/-- The blob id of the bytes must be the committed one. -/
def bindBytes (id : IntentId) (bytes : List UInt8) (appId : Option String) (commitment : IntentCommitment) :
    Ingesting IngestResult := do
  let blobId ← ingestCall (.encodeBlob bytes)
  if !blobIdMatches blobId commitment.committedBlobId then
    reject id .wrongBlobId
      s!"recomputed blob id {blobId} does not match committed {commitment.committedBlobId}"
  else stage cfg id bytes blobId appId commitment.deadline

/-- The checks of the bytes against the commitment of a known intent. -/
def admitBytes (id : IntentId) (bytes : List UInt8) (appId : Option String) (commitment : IntentCommitment) :
    Ingesting IngestResult := do
  if isExecuted commitment.status then reject id .alreadyExecuted "intent already executed"
  else
    let now ← ingestCall .now
    if now > commitment.deadline then reject id .expired "intent deadline has passed"
    else if bytes.length > cfg.maxIngestBytes then
      reject id .oversized s!"blob exceeds MAX_INGEST_BLOB_BYTES ({bytes.length} > {cfg.maxIngestBytes})"
    else if bytes.length ≠ commitment.size then
      reject id .wrongSize s!"blob size {bytes.length} does not match committed size {commitment.size}"
    else
      match ← shed cfg bytes with
      | some message => reject id .backpressure message
      | none => bindBytes cfg id bytes appId commitment

/-- Validates out-of-band bytes for an intent, in a fixed order, and stages them. -/
def ingest (id : IntentId) (bytes : List UInt8) (appId : Option String) : Ingesting IngestResult := do
  match ← ingestCall (.getCommitment id) with
  | none => reject id .unknown "no pending intent for this id"
  | some commitment => admitBytes cfg id bytes appId commitment

end Bosphor.Relayer

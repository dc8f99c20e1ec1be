import Bosphor.Relayer.AppId
import Bosphor.Relayer.IntentIngest

/-!
# The upload endpoints

`POST /blob/:intentId`: the checks of the request, the ingest, and the answer
that each of its results is told with. `POST /blob/encode` makes the same checks
and only encodes (`encode`).
-/

namespace Bosphor.Relayer

/-- The seconds that a client is to wait when the store has no room. -/
def BACKPRESSURE_RETRY_AFTER_SECONDS : Nat := 5

inductive IngestReply where
  | ack (intentId : IntentId) (blobId : String) (size : Nat)
  | refused (status : Nat) (message : String) (retryAfter : Option Nat := none)
  deriving DecidableEq

def IngestReply.status : IngestReply → Nat
  | .ack .. => 201
  | .refused status _ _ => status

/-- The status of the error that a rejection is told with. -/
def toHttpError : IngestRejectReason → Nat
  | .unknown => 404
  | .alreadyExecuted => 409
  | .expired => 410
  | .oversized => 413
  | .wrongSize => 422
  | .wrongBlobId => 422
  | .backpressure => 503

/-- What a result of ingest is answered with. -/
def ingestReply : IngestResult → IngestReply
  | .accepted id blobId size => .ack id blobId size
  | .rejected _ reason message =>
    .refused (toHttpError reason) message
      (if reason = .backpressure then some BACKPRESSURE_RETRY_AFTER_SECONDS else none)

/-- The checks of a request before its bytes are ingested: the app id that they are recorded with, or the reason they
are not looked at. -/
def checkRequest (rawAppId : Option String) (body : Option (List UInt8)) :
    Except IngestReply (List UInt8 × Option String) :=
  match parseAppId (rawAppId.map fun value => [value]) with
  | .malformed message => .error (.refused 400 message)
  | .ok appId =>
    match body with
    | some (b :: bytes) => .ok (b :: bytes, appId)
    | _ => .error (.refused 400 "request body must be the raw blob bytes")

/-- What the encode endpoint answers. -/
structure EncodeReply where
  blobId : String
  size : Nat
  deriving DecidableEq

/-- `encode(bytes)`, by the encoder that ingest compares with: nothing is stored. -/
def encode (encodeBlob : List UInt8 → String) (bytes : List UInt8) : EncodeReply := ⟨encodeBlob bytes, bytes.length⟩

/-- What `ingestBlob` answers once the ingest has ended; what the service throws is answered by the framework. -/
def ingestBlobReply : Except Unit IngestResult → IngestReply
  | .ok result => ingestReply result
  | .error _ => .refused 500 "Internal server error"

/-- Only the conflict stands for an intent that has been executed. -/
theorem ingestBlobReply_conflict {ended : Except Unit IngestResult} (h : (ingestBlobReply ended).status = 409) :
    ∃ id message, ended = .ok (.rejected id .alreadyExecuted message) := by
  cases ended with
  | error e => cases h
  | ok result =>
    cases result with
    | accepted id blobId size => cases h
    | rejected id reason message =>
      cases reason with
      | alreadyExecuted => exact ⟨id, message, rfl⟩
      | unknown | expired | oversized | wrongSize | wrongBlobId | backpressure => cases h

/-- Only an ingest that has accepted the bytes is acknowledged. -/
theorem ingestBlobReply_ack {ended : Except Unit IngestResult} (h : (ingestBlobReply ended).status < 400) :
    ∃ id blobId size, ended = .ok (.accepted id blobId size) := by
  cases ended with
  | error e => exact absurd h (show ¬500 < 400 by decide)
  | ok result =>
    cases result with
    | accepted id blobId size => exact ⟨id, blobId, size, rfl⟩
    | rejected id reason message =>
      have hstatus : 404 ≤ toHttpError reason := by cases reason <;> decide
      exact absurd h (by show ¬toHttpError reason < 400; omega)

theorem checkRequest_refused {rawAppId : Option String} {body : Option (List UInt8)} {reply : IngestReply}
    (h : checkRequest rawAppId body = .error reply) : reply.status = 400 := by
  unfold checkRequest at h
  split at h
  · cases h
    rfl
  · split at h
    · cases h
    · cases h
      rfl

end Bosphor.Relayer

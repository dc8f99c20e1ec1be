import Bosphor.Sdk.RelayerHttp

/-!
# The upload

The bytes of an intent go to the relayer in one request, which is made again
while the relayer has not seen the intent yet, is busy, or cannot be reached.
What the loop does about it is that of every request (`withRelayerRetry_tries`);
here stands how an answer to the upload counts (`uploadOutcome`).
-/

namespace Bosphor.Sdk

open Async

/-- `DEFAULT_UPLOAD_RETRY`. -/
def DEFAULT_UPLOAD_RETRY : RetryBounds where
  maxAttempts := 12
  maxElapsedMs := 120000
  baseDelayMs := 1000
  maxDelayMs := 10000

/-- Retry bounds, or `false` for a single attempt. -/
inductive UploadRetryOptions where
  | policy (policy : RetryPolicy)
  | never

structure UploadBlobOptions where
  appId : Option String := none
  retry : Option UploadRetryOptions := none

/-- The bounds that an upload runs with. -/
def UploadBlobOptions.bounds (opts : UploadBlobOptions) : RetryBounds :=
  match opts.retry with
  | some .never => { DEFAULT_UPLOAD_RETRY with maxAttempts := 1 }
  | some (.policy policy) => policy.over DEFAULT_UPLOAD_RETRY
  | none => DEFAULT_UPLOAD_RETRY

variable (parseDate : String → Option Int) (relayerUrl intentId : String) (data : List UInt8) (opts : UploadBlobOptions)

def uploadRequest : Request where
  url := relayerUrl ++ "/blob/" ++ intentId
  method := "POST"
  body := some data
  headers := relayerHeaders "application/octet-stream" opts.appId

/-- One request, and what its answer is taken for. -/
def uploadAttempt (n : Nat) : Http Unit := do
  let res ← httpCall (.fetch (uploadRequest relayerUrl intentId data opts))
  if res.ok then return ()
  -- an earlier attempt was ingested, and the intent moved on
  else if res.status = 409 ∧ n ≥ 2 then return ()
  else
    let retryAfterMs ← readRetryAfterMs parseDate res
    throw (.relayerUpload intentId res.status (res.text.getD "(no response body)") retryAfterMs)

/-- `uploadBlob(fetchFn, relayerUrl, intentId, data, opts)`. -/
def uploadBlob : Http Unit :=
  match opts.retry with
  | some .never => uploadAttempt parseDate relayerUrl intentId data opts 1
  | _ => withRelayerRetry opts.bounds (uploadAttempt parseDate relayerUrl intentId data opts)

/-- A response that is an error of the upload, which asks for the wait that its header states at some time. -/
def rejection (res : Response) (err : HttpError) : Prop :=
  ∃ ms : Option Int, err = .relayerUpload intentId res.status (res.text.getD "(no response body)") ms ∧
    (res.retryAfter = none → ms = none) ∧
      ∀ value, res.retryAfter = some value → ∃ now, ms = parseRetryAfter parseDate (some value) now

/-- An attempt fails by an error of the request or by a rejection; it succeeds by an acknowledgement, or, where it is
not the first, by the answer that the intent has been executed. -/
def uploadOutcome : Outcome Unit where
  fails r err := (r = .error err) ∨ ∃ res, r = .ok res ∧ res.ok = false ∧ rejection parseDate intentId res err
  succeeds n r _ := ∃ res, r = .ok res ∧ (res.ok = true ∨ res.status = 409 ∧ 2 ≤ n)

/-- The calls of an upload: those of the loop, and no request but its own. -/
def UploadCalls (h : HttpTold) (c : HttpCall) : Prop :=
  (uploadOutcome parseDate intentId).Tries opts.bounds h c ∧
    ∀ req, c = .fetch req → req = uploadRequest relayerUrl intentId data opts

variable {parseDate relayerUrl intentId data opts} {h : HttpTold} {n : Nat}

theorem readRetryAfterMs_tries {α : Type} {out : Outcome α} {bounds : RetryBounds} (res : Response) :
    wp (out.Tries bounds) (ends (fun h' ms => ∃ t, h' = h ++ t ∧ fetched t = [] ∧ slept t = 0 ∧
        (res.retryAfter = none → ms = none) ∧
          ∀ value, res.retryAfter = some value → ∃ now, ms = parseRetryAfter parseDate (some value) now)
      fun h' _ => ∃ t, h' = h ++ t ∧ fetched t = [] ∧ slept t = 0 ∧ ¬Clocked t) h (readRetryAfterMs parseDate res) := by
  unfold readRetryAfterMs
  split
  case h_1 hnone =>
    refine ⟨[], by simp, rfl, rfl, fun _ => rfl, fun value hvalue => ?_⟩
    rw [hnone] at hvalue
    cases hvalue
  case h_2 value hvalue =>
    rw [wp_bind]
    refine (wp_call _).mpr ⟨trivial, fun r => ?_⟩
    cases r with
    | error e =>
      refine ⟨[⟨.now, .error e⟩], rfl, rfl, rfl, fun hclock => ?_⟩
      obtain ⟨t, ht⟩ := hclock (.error e) (List.mem_singleton_self _)
      cases ht
    | ok now =>
      refine ⟨[⟨.now, .ok now⟩], rfl, rfl, rfl, fun hnone => ?_, fun v hv => ?_⟩
      · rw [hvalue] at hnone
        cases hnone
      · rw [hvalue] at hv
        cases hv
        exact ⟨now, rfl⟩

/-- An attempt that throws for its answer fails by it. -/
theorem rejects_tries {α : Type} {out : Outcome α} {bounds : RetryBounds} {req : Request} {res : Response}
    {err : Option Int → HttpError}
    (hfails : ∀ ms, (res.retryAfter = none → ms = none) →
      (∀ value, res.retryAfter = some value → ∃ now, ms = parseRetryAfter parseDate (some value) now) →
        out.fails (.ok res) (err ms)) :
    wp (out.Tries bounds)
      (ends (fun h' a => ∃ t r, h' = h ++ t ∧ fetched t = [r] ∧ slept t = 0 ∧ out.succeeds n r a)
        fun h' err => ∃ t r, h' = h ++ t ∧ fetched t = [r] ∧ slept t = 0 ∧ (Clocked t → out.fails r err))
      (h ++ [⟨.fetch req, .ok res⟩]) (readRetryAfterMs parseDate res >>= fun ms => throw (err ms) : Http α) := by
  rw [wp_bind]
  refine wp_mono (readRetryAfterMs_tries res) (fun _ _ hc => hc) fun h' r hr => ?_
  cases r with
  | error e =>
    obtain ⟨t, rfl, hfetched, hslept, hclock⟩ := hr
    refine ⟨_, .ok res, List.append_assoc .., ?_, ?_, fun hclocked => ?_⟩
    · rw [fetched_append, hfetched]
      rfl
    · rw [slept_append, hslept]
      rfl
    · exact absurd (fun r hr => hclocked r (List.mem_append_right _ hr)) hclock
  | ok ms =>
    obtain ⟨t, rfl, hfetched, hslept, hnone, hsome⟩ := hr
    refine ⟨_, .ok res, List.append_assoc .., ?_, ?_, fun _ => hfails ms hnone hsome⟩
    · rw [fetched_append, hfetched]
      rfl
    · rw [slept_append, hslept]
      rfl

theorem uploadAttempt_attempts {bounds : RetryBounds} :
    (uploadOutcome parseDate intentId).Attempts bounds (uploadAttempt parseDate relayerUrl intentId data opts) := by
  intro n h hfetch
  unfold uploadAttempt
  rw [wp_bind]
  refine (wp_call _).mpr ⟨hfetch _, fun r => ?_⟩
  cases r with
  | error e => exact ⟨_, .error e, rfl, rfl, rfl, fun _ => Or.inl rfl⟩
  | ok res =>
    rw [andThen_ok]
    split
    case isTrue hok => exact ⟨_, .ok res, rfl, rfl, rfl, res, rfl, Or.inl hok⟩
    case isFalse hok =>
      rw [Bool.not_eq_true] at hok
      split
      case isTrue hconflict => exact ⟨_, .ok res, rfl, rfl, rfl, res, rfl, Or.inr hconflict⟩
      case isFalse =>
        exact rejects_tries fun ms hnone hsome => Or.inr ⟨res, rfl, hok, ms, rfl, hnone, hsome⟩

theorem readRetryAfterMs_calls {C : Request → Prop} (res : Response) :
    Calls (fun c => ∀ req, c = .fetch req → C req) (readRetryAfterMs parseDate res) := by
  unfold readRetryAfterMs
  split
  · trivial
  · exact Calls.bind (calls_call fun req hreq => by cases hreq) fun _ => trivial

/-- The calls of an attempt are requests for the upload and looks at the clock. -/
theorem uploadAttempt_calls (n : Nat) : Calls (fun c => ∀ req, c = .fetch req → req = uploadRequest relayerUrl intentId
    data opts) (uploadAttempt parseDate relayerUrl intentId data opts n) := by
  unfold uploadAttempt
  refine Calls.bind (calls_call fun req hreq => (HttpCall.fetch.inj hreq).symm) fun res => ?_
  split
  · trivial
  · split
    · trivial
    · exact Calls.bind (readRetryAfterMs_calls res) fun _ => trivial

/-- A single attempt does what a loop of one does. -/
theorem single_tries {α : Type} {out : Outcome α} {bounds : RetryBounds} {fn : Nat → Http α}
    (hone : bounds.maxAttempts ≤ 1) (hfn : out.Attempts bounds fn) :
    wp (out.Tries bounds) (ends out.Returned (out.Threw bounds)) [] (fn 1) := by
  have hfirst : ∀ req, out.Tries bounds [] (.fetch req) :=
    fun req => ⟨by show 0 < max 1 _; omega, fun _ r hr => absurd hr List.not_mem_nil⟩
  refine wp_mono (hfn 1 [] hfirst) (fun _ _ hc => hc) fun h r hr => ?_
  cases r with
  | ok a =>
    obtain ⟨t, r, rfl, hfetched, -, hsucceeds⟩ := hr
    exact ⟨[], r, hfetched, hsucceeds, fun _ r hr => absurd hr List.not_mem_nil⟩
  | error err =>
    obtain ⟨t, r, rfl, hfetched, -, hfails⟩ := hr
    intro hclock
    exact Or.inr ⟨[], r, hfetched, hfails hclock, fun r hr => absurd hr List.not_mem_nil, Or.inr (Or.inl hone)⟩

theorem uploadBlob_tries : wp ((uploadOutcome parseDate intentId).Tries opts.bounds)
    (ends (uploadOutcome parseDate intentId).Returned ((uploadOutcome parseDate intentId).Threw opts.bounds)) []
    (uploadBlob parseDate relayerUrl intentId data opts) := by
  unfold uploadBlob
  split
  case h_2 => exact withRelayerRetry_tries uploadAttempt_attempts
  case h_1 hnever =>
    have hone : opts.bounds = { DEFAULT_UPLOAD_RETRY with maxAttempts := 1 } := by
      unfold UploadBlobOptions.bounds
      rw [hnever]
    exact single_tries (by rw [hone]) uploadAttempt_attempts

theorem uploadBlob_requests :
    Calls (fun c => ∀ req, c = .fetch req → req = uploadRequest relayerUrl intentId data opts)
      (uploadBlob parseDate relayerUrl intentId data opts) := by
  unfold uploadBlob
  split
  · exact uploadAttempt_calls 1
  · exact withRelayerRetry_calls uploadAttempt_calls

variable (parseDate relayerUrl intentId data opts) in
/-- An upload makes the same request no more often than it may, each time after an answer that is to be retried. It
waits as long as that answer asks, or as the backoff says, and never past the time allowed. It returns on an
acknowledgement, or, behind a first attempt, on the answer that the intent has been executed; it throws the first
rejection that is final, or the last one that its bounds allow. -/
theorem uploadBlob_retries :
    wp (UploadCalls parseDate relayerUrl intentId data opts)
      (ends (uploadOutcome parseDate intentId).Returned ((uploadOutcome parseDate intentId).Threw opts.bounds)) []
      (uploadBlob parseDate relayerUrl intentId data opts) := by
  have hrequests : wp (fun _ c => ∀ req, c = .fetch req → req = uploadRequest relayerUrl intentId data opts)
      (fun _ _ => True) [] (uploadBlob parseDate relayerUrl intentId data opts) :=
    wp_frame (I := fun _ => True) (fun _ _ _ _ _ => trivial) (fun _ _ _ hc => hc) (fun _ _ _ => trivial)
      uploadBlob_requests trivial
  exact wp_mono (wp_and uploadBlob_tries hrequests) (fun _ _ hc => hc) fun _ _ hr => hr.1

end Bosphor.Sdk

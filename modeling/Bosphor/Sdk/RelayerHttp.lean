import Bosphor.Lib.Retry
import Bosphor.Lib.Text
import Mathlib.Data.Int.Order.Basic
import Mathlib.Tactic.Linarith

/-!
# The relayer over HTTP

The bounded retry loop behind every request of the SDK to a relayer. A failure
that it retries is waited for as long as the answer asks (`Retry-After`), or by
exponential backoff, unless the wait would overrun the time allowed. How a
request, the clock, a sleep or the caller's abort turns out is not the SDK's to
say.

`Tries` states what the loop does at each call and at its end, for any program
whose attempts make one request each (`withRelayerRetry_tries`); what it has
slept never exceeds the time allowed, as long as the clock does not run slower
than the sleeps (`Honest`).
-/

namespace Bosphor.Sdk

open Async

/-! ## Requests -/

structure Request where
  url : String
  method : String
  body : Option (List UInt8)
  headers : List (String × String)
  deriving DecidableEq

/-- What the SDK reads of a response. -/
structure Response where
  ok : Bool
  status : Nat
  /-- The `Retry-After` header, of a response that has one. -/
  retryAfter : Option String := none
  /-- What `text()` resolves to, unless it fails. -/
  text : Option String
  deriving DecidableEq

/-- What the SDK reads of an error that it did not throw itself. -/
structure ThrownError where
  name : Option String := none
  code : Option String := none
  status : Option Int := none
  message : Option String := none
  retryAfterMs : Option Int := none
  deriving DecidableEq

inductive HttpError where
  /-- The reason of the caller's signal. -/
  | aborted
  | thrown (e : ThrownError)
  /-- `RelayerUploadError`. -/
  | relayerUpload (intentId : String) (status : Nat) (reason : String) (retryAfterMs : Option Int)
  /-- `RelayerRequestError`. -/
  | relayerRequest (operation : String) (status : Nat) (body : String) (retryAfterMs : Option Int)
  deriving DecidableEq

inductive HttpCall where
  | throwIfAborted
  | now
  | sleep (ms : Int)
  | fetch (req : Request)
  deriving DecidableEq

abbrev HttpCall.Answer : HttpCall → Type
  | .now => Int
  | .fetch _ => Response
  | _ => Unit

/-- A program that talks to the relayer. -/
abbrev Http := Async HttpCall HttpCall.Answer HttpError

abbrev HttpTold := History HttpCall HttpCall.Answer HttpError

abbrev httpCall (c : HttpCall) : Http c.Answer := Async.call c

def APP_ID_HEADER : String := "X-Bosphor-App"

/-- The content type, and the app id when one is configured. -/
def relayerHeaders (contentType : String) (appId : Option String) : List (String × String) :=
  ("content-type", contentType) ::
    match appId with
    | some id => if id = "" then [] else [(APP_ID_HEADER, id)]
    | none => []

/-! ## Errors -/

def isRetryableStatus (status : Nat) : Bool := status = 408 || status = 429 || status ≥ 500

def TRANSIENT_CODES : List String :=
  ["ECONNRESET", "ECONNREFUSED", "ETIMEDOUT", "ENOTFOUND", "EAI_AGAIN", "EPIPE", "UND_ERR_SOCKET",
    "UND_ERR_CONNECT_TIMEOUT", "TIMEOUT", "NETWORK_ERROR", "SERVER_ERROR"]

/-- The alternatives of the pattern that are plain text. -/
def transientTexts : List String :=
  ["socket hang up", "socket disconnected", "network socket", "fetch failed", "failed to fetch", "networkerror",
    "load failed", "timeout", "time out", "timedout", "timed out", "too many requests", "service unavailable",
    "bad gateway"]

/-- The alternatives that stand between word boundaries. -/
def transientNumbers : List String := ["429", "500", "501", "502", "503", "504"]

/-- The pattern `TRANSIENT_MESSAGE`, which ignores case. -/
def transientMessage (message : String) : Bool :=
  let text := message.toList.map Char.toLower
  transientTexts.any (fun w => Text.occurs w.toList text) ||
    transientNumbers.any fun w => Text.hasWord w.toList false text

def isTransientRpcError (e : ThrownError) : Bool :=
  let code := e.code.getD ""
  if e.name = some "AbortError" then false
  else if ["CALL_EXCEPTION", "INVALID_ARGUMENT", "BAD_DATA"].contains code then false
  else if TRANSIENT_CODES.contains code then true
  else if e.status.any fun status => status = 429 || status ≥ 500 then true
  else transientMessage (e.message.getD "")

/-- What `shouldRetry` says of each error. -/
def HttpError.retryable : HttpError → Bool
  | .aborted => false
  | .thrown e => isTransientRpcError e
  | .relayerUpload _ status _ _ => status = 404 || isRetryableStatus status
  | .relayerRequest _ status _ _ => isRetryableStatus status

/-- The field `retryAfterMs` of an error. -/
def HttpError.retryAfterMs : HttpError → Option Int
  | .thrown e => e.retryAfterMs
  | .relayerUpload _ _ _ ms => ms
  | .relayerRequest _ _ _ ms => ms
  | _ => none

/-! ## `Retry-After` -/

/-- Milliseconds from `now`, of delay seconds or of a date as `Date.parse` reads it. The seconds are exact here; the
source has them as a double. -/
def parseRetryAfter (parseDate : String → Option Int) (value : Option String) (now : Int) : Option Int := do
  let v := Text.trim (← value).toList
  if v.isEmpty then none
  else if v.all Char.isDigit then some (v.foldl (fun n c => 10 * n + (c.toNat - 48)) 0 * 1000 : Nat)
  else if !v.any Char.isAlpha then none
  else
    let at' ← parseDate (String.ofList v)
    some (max 0 (at' - now))

/-- `readRetryAfterMs(res)`. -/
def readRetryAfterMs (parseDate : String → Option Int) (res : Response) : Http (Option Int) := do
  match res.retryAfter with
  | none => return none
  | some value =>
    let now ← httpCall .now
    return parseRetryAfter parseDate (some value) now

/-! ## The loop -/

/-- The bounds of a retry loop, of which each may be left to a default. -/
structure RetryPolicy where
  maxAttempts : Option Nat := none
  maxElapsedMs : Option Int := none
  baseDelayMs : Option Int := none
  maxDelayMs : Option Int := none

/-- The bounds that the loop runs with. -/
structure RetryBounds where
  maxAttempts : Nat
  maxElapsedMs : Int
  baseDelayMs : Int
  maxDelayMs : Int

def RetryPolicy.over (policy : RetryPolicy) (defaults : RetryBounds) : RetryBounds where
  maxAttempts := policy.maxAttempts.getD defaults.maxAttempts
  maxElapsedMs := policy.maxElapsedMs.getD defaults.maxElapsedMs
  baseDelayMs := policy.baseDelayMs.getD defaults.baseDelayMs
  maxDelayMs := policy.maxDelayMs.getD defaults.maxDelayMs

variable (bounds : RetryBounds)

def RetryBounds.backoff (attempt : Nat) : Int := min bounds.maxDelayMs (bounds.baseDelayMs * 2 ^ (attempt - 1))

/-- The wait after the failure of an attempt. -/
def RetryBounds.delay (attempt : Nat) (err : HttpError) : Int :=
  match err.retryAfterMs with
  | some ms => if ms ≥ 0 then ms else bounds.backoff attempt
  | none => bounds.backoff attempt

/-- What the loop does about the failure of an attempt. -/
def recover (started : Int) (attempt : Nat) (err : HttpError) : Http Unit := do
  httpCall .throwIfAborted
  if attempt ≥ bounds.maxAttempts ∨ err.retryable = false then throw err
  let delay := bounds.delay attempt err
  let now ← httpCall .now
  if now - started + delay > bounds.maxElapsedMs then throw err
  httpCall (.sleep delay)

/-- `withRelayerRetry(fn, opts)`, where `shouldRetry` goes by the error alone. -/
def withRelayerRetry {α : Type} (fn : Nat → Http α) : Http α := do
  let started ← httpCall .now
  retry (httpCall .throwIfAborted) fn (recover bounds started) (bounds.maxAttempts - 1) 1

/-! ## What the loop was told -/

/-- The answers to the requests made so far. -/
def fetched (h : HttpTold) : List (Except HttpError Response) :=
  h.filterMap fun x => match x with
    | ⟨.fetch _, r⟩ => some r
    | _ => none

/-- The milliseconds slept. -/
def slept (h : HttpTold) : Int :=
  (h.map fun x => match x with
    | ⟨.sleep ms, .ok _⟩ => ms
    | _ => 0).sum

@[simp] theorem fetched_append (h h' : HttpTold) : fetched (h ++ h') = fetched h ++ fetched h' :=
  List.filterMap_append ..

theorem mem_fetched {h : HttpTold} {r : Except HttpError Response} : r ∈ fetched h ↔ ∃ req, ⟨.fetch req, r⟩ ∈ h := by
  unfold fetched
  rw [List.mem_filterMap]
  constructor
  · rintro ⟨⟨c, a⟩, hmem, hpart⟩
    cases c with
    | fetch req =>
      cases hpart
      exact ⟨req, hmem⟩
    | throwIfAborted | now | sleep ms => cases hpart
  · rintro ⟨req, hmem⟩
    exact ⟨_, hmem, rfl⟩

@[simp] theorem slept_append (h h' : HttpTold) : slept (h ++ h') = slept h + slept h' := by
  unfold slept
  rw [List.map_append, List.sum_append]

/-- Every look at the clock shows a time. -/
def Clocked (h : HttpTold) : Prop := ∀ r, ⟨.now, r⟩ ∈ h → ∃ t, r = .ok t

/-- Between two looks at the clock at least as much time has passed as was slept. -/
def Honest (h : HttpTold) : Prop :=
  ∀ before between after t t', h = before ++ ⟨.now, .ok t⟩ :: (between ++ ⟨.now, .ok t'⟩ :: after) →
    t + slept between ≤ t'

theorem Clocked.left {h h' : HttpTold} (hc : Clocked (h ++ h')) : Clocked h :=
  fun r hr => hc r (List.mem_append_left _ hr)

/-! ## What the loop does -/

/-- How the answer to the request of an attempt makes it fail, and succeed. -/
structure Outcome (α : Type) where
  fails : Except HttpError Response → HttpError → Prop
  succeeds : Nat → Except HttpError Response → α → Prop

variable {α : Type}

/-- An attempt that was made again. -/
def Outcome.Retried (out : Outcome α) (r : Except HttpError Response) : Prop :=
  ∃ err, out.fails r err ∧ err.retryable = true

/-- A call of the loop, after the calls `h`. -/
def Outcome.Tries (out : Outcome α) (h : HttpTold) : HttpCall → Prop
  | .fetch _ => (fetched h).length < max 1 bounds.maxAttempts ∧ (Clocked h → ∀ r ∈ fetched h, out.Retried r)
  | .sleep ms => (Clocked h → ∃ r err, (fetched h).getLast? = some r ∧ out.fails r err ∧ err.retryable = true ∧
      ms = bounds.delay (fetched h).length err) ∧ (Honest h → slept h + ms ≤ bounds.maxElapsedMs)
  | _ => True

/-- The last attempt, `n`, was the last one allowed, or the wait after it would have taken too long. -/
def RetryBounds.Exhausted (h : HttpTold) (n : Nat) (err : HttpError) : Prop :=
  bounds.maxAttempts ≤ n ∨ ∃ started now rest, h = ⟨.now, .ok started⟩ :: (rest ++ [⟨.now, .ok now⟩]) ∧
    now - started + bounds.delay n err > bounds.maxElapsedMs

/-- The loop returns what an attempt returned, and those before it were made again. -/
def Outcome.Returned (out : Outcome α) (h : HttpTold) (a : α) : Prop :=
  ∃ before r, fetched h = before ++ [r] ∧ out.succeeds (before.length + 1) r a ∧
    (Clocked h → ∀ r ∈ before, out.Retried r)

/-- The loop throws what the caller aborted it with, or how its last attempt failed, if that is not to be retried or
the bounds are exhausted. -/
def Outcome.Threw (out : Outcome α) (h : HttpTold) (err : HttpError) : Prop :=
  Clocked h → (∃ c : HttpCall, (c = .throwIfAborted ∨ ∃ ms, c = .sleep ms) ∧ ⟨c, .error err⟩ ∈ h) ∨
    ∃ before r, fetched h = before ++ [r] ∧ out.fails r err ∧ (∀ r ∈ before, out.Retried r) ∧
      (err.retryable = false ∨ bounds.Exhausted h (before.length + 1) err)

/-- An attempt makes one request, and turns out by its answer. -/
def Outcome.Attempts (out : Outcome α) (fn : Nat → Http α) : Prop :=
  ∀ n h, (∀ req, out.Tries bounds h (.fetch req)) →
    wp (out.Tries bounds)
      (ends (fun h' a => ∃ t r, h' = h ++ t ∧ fetched t = [r] ∧ slept t = 0 ∧ out.succeeds n r a)
        fun h' err => ∃ t r, h' = h ++ t ∧ fetched t = [r] ∧ slept t = 0 ∧ (Clocked t → out.fails r err)) h (fn n)

/-- Before the attempt `n`. -/
structure Outcome.Before (out : Outcome α) (started : Int) (n : Nat) (h : HttpTold) : Prop where
  pos : 1 ≤ n
  allowed : n ≤ max 1 bounds.maxAttempts
  begun : ∃ rest, h = ⟨.now, .ok started⟩ :: rest
  attempts : (fetched h).length + 1 = n
  retried : Clocked h → ∀ r ∈ fetched h, out.Retried r

/-- After the attempt `n` has failed. -/
structure Outcome.After (out : Outcome α) (started : Int) (n : Nat) (err : HttpError) (h : HttpTold) : Prop where
  pos : 1 ≤ n
  begun : ∃ rest, h = ⟨.now, .ok started⟩ :: rest
  failed : ∃ before r, fetched h = before ++ [r] ∧ before.length + 1 = n ∧
    (Clocked h → out.fails r err ∧ ∀ r ∈ before, out.Retried r)

variable {bounds} {out : Outcome α} {started : Int} {n : Nat} {h : HttpTold} {err : HttpError}

/-- A call that is no request changes nothing of it. -/
theorem Outcome.After.tell (hafter : out.After started n err h) {c : HttpCall} {r : Except HttpError c.Answer}
    (hc : ∀ req, c ≠ .fetch req) : out.After started n err (h ++ [⟨c, r⟩]) := by
  have hnone : fetched [(⟨c, r⟩ : Σ c : HttpCall, Except HttpError c.Answer)] = [] := by
    cases c with
    | fetch req => exact absurd rfl (hc req)
    | throwIfAborted | now | sleep ms => rfl
  obtain ⟨rest, rfl⟩ := hafter.begun
  obtain ⟨before, r', hfetched, hlength, hfails⟩ := hafter.failed
  refine ⟨hafter.pos, ⟨rest ++ [⟨c, r⟩], rfl⟩, before, r', ?_, hlength, fun hclock => hfails hclock.left⟩
  rw [fetched_append, hnone, List.append_nil, hfetched]

theorem Outcome.After.threw (hafter : out.After started n err h)
    (hstop : err.retryable = false ∨ bounds.Exhausted h n err) : out.Threw bounds h err := by
  obtain ⟨before, r, hfetched, hlength, hfails⟩ := hafter.failed
  intro hclock
  rw [← hlength] at hstop
  exact Or.inr ⟨before, r, hfetched, (hfails hclock).1, (hfails hclock).2, hstop⟩

/-- The time that has passed since the start covers what was slept. -/
theorem Honest.slept_le {rest : HttpTold} {now : Int}
    (hhonest : Honest (⟨.now, .ok started⟩ :: (rest ++ [⟨.now, .ok now⟩]))) : slept rest ≤ now - started := by
  have hpassed := hhonest [] rest [] started now rfl
  linarith

theorem recover_tries (hafter : out.After started n err h) :
    wp (out.Tries bounds) (ends (fun h _ => out.Before bounds started (n + 1) h) (out.Threw bounds)) h
      (recover bounds started n err) := by
  unfold recover
  rw [wp_bind]
  refine (wp_call _).mpr ⟨trivial, fun r => ?_⟩
  have hafter := hafter.tell (c := .throwIfAborted) (r := r) fun req hreq => by cases hreq
  cases r with
  | error e =>
    intro _
    exact Or.inl ⟨.throwIfAborted, Or.inl rfl, List.mem_append_right _ (List.mem_singleton_self _)⟩
  | ok _ =>
    rw [andThen_ok]
    split
    case isTrue hstop =>
      exact hafter.threw (hstop.symm.imp_right fun hlast => Or.inl hlast)
    case isFalse hgo =>
      obtain ⟨hmore, hretryable⟩ := not_or.mp hgo
      rw [Bool.not_eq_false] at hretryable
      rw [wp_bind]
      refine (wp_call _).mpr ⟨trivial, fun r => ?_⟩
      have hbefore := hafter
      have hafter := hafter.tell (c := .now) (r := r) fun req hreq => by cases hreq
      cases r with
      | error e =>
        intro hclock
        obtain ⟨t, ht⟩ := hclock (.error e) (List.mem_append_right _ (List.mem_singleton_self _))
        cases ht
      | ok now =>
        rw [andThen_ok]
        obtain ⟨rest, hrest⟩ := hbefore.begun
        split
        case isTrue hover =>
          refine hafter.threw (Or.inr (Or.inr ⟨started, now, rest, ?_, hover⟩))
          rw [hrest]
          rfl
        case isFalse hunder =>
          obtain ⟨before, r, hfetched, hlength, hfails⟩ := hafter.failed
          refine (wp_call _).mpr ⟨⟨fun hclock => ?_, fun hhonest => ?_⟩, fun r' => ?_⟩
          · refine ⟨r, err, ?_, (hfails hclock).1, hretryable, ?_⟩
            · rw [hfetched, List.getLast?_concat]
            · rw [hfetched, List.length_append, List.length_singleton, hlength]
          · rw [hrest] at hhonest ⊢
            have hslept := Honest.slept_le hhonest
            have hsame : slept (⟨.now, .ok started⟩ :: rest ++ [⟨.now, .ok now⟩]) = slept rest := by
              rw [slept_append, show slept (⟨.now, .ok started⟩ :: rest) = 0 + slept rest from rfl,
                show slept [⟨.now, .ok now⟩] = 0 from rfl, zero_add, add_zero]
            rw [hsame]
            linarith
          · cases r' with
            | error e =>
              intro _
              exact Or.inl ⟨.sleep _, Or.inr ⟨_, rfl⟩, List.mem_append_right _ (List.mem_singleton_self _)⟩
            | ok _ =>
              have hafter := hafter.tell (c := .sleep (bounds.delay n err)) (r := .ok ()) fun req hreq => by cases hreq
              obtain ⟨before, r, hfetched, hlength, hfails⟩ := hafter.failed
              refine ⟨by omega, by omega, hafter.begun, ?_, fun hclock r' hr' => ?_⟩
              · rw [hfetched, List.length_append, List.length_singleton, hlength]
              · rw [hfetched] at hr'
                obtain hr' | hr' := List.mem_append.mp hr'
                · exact (hfails hclock).2 r' hr'
                · rw [List.mem_singleton.mp hr']
                  exact ⟨err, (hfails hclock).1, hretryable⟩

/-- The loop makes no more attempts than it may, each after one that is to be retried, and waits no longer than it
may. -/
theorem withRelayerRetry_tries {fn : Nat → Http α} (hfn : out.Attempts bounds fn) :
    wp (out.Tries bounds) (ends out.Returned (out.Threw bounds)) [] (withRelayerRetry bounds fn) := by
  unfold withRelayerRetry
  rw [wp_bind]
  refine (wp_call _).mpr ⟨trivial, fun r => ?_⟩
  cases r with
  | error e =>
    intro hclock
    obtain ⟨t, ht⟩ := hclock (.error e) (List.mem_singleton_self _)
    cases ht
  | ok started =>
    rw [andThen_ok]
    refine wp_retry (I := out.Before bounds started) (J := out.Before bounds started)
      (F := fun n err h => out.After started n err h) (fun n h hbefore => ?_) (fun n h hbefore => ?_)
      (fun n err h hafter => recover_tries hafter) (fun h hbefore => ?_) ?_
    · refine (wp_call _).mpr ⟨trivial, fun r => ?_⟩
      cases r with
      | error e =>
        intro _
        exact Or.inl ⟨.throwIfAborted, Or.inl rfl, List.mem_append_right _ (List.mem_singleton_self _)⟩
      | ok _ =>
        obtain ⟨rest, rfl⟩ := hbefore.begun
        have hsame : fetched (⟨.now, .ok started⟩ :: rest ++ [⟨.throwIfAborted, .ok ()⟩]) =
            fetched (⟨.now, .ok started⟩ :: rest) := by
          rw [fetched_append]
          exact List.append_nil _
        exact ⟨hbefore.pos, hbefore.allowed, ⟨_, rfl⟩, by rw [hsame]; exact hbefore.attempts,
          fun hclock => by rw [hsame]; exact hbefore.retried hclock.left⟩
    · have hlength := hbefore.attempts
      have hallowed := hbefore.allowed
      refine wp_mono (hfn n h fun req => ⟨by omega, hbefore.retried⟩) (fun _ _ hc => hc) fun h' r hr => ?_
      obtain ⟨rest, hrest⟩ := hbefore.begun
      cases r with
      | ok a =>
        obtain ⟨t, r, rfl, hfetched, -, hsucceeds⟩ := hr
        refine ⟨fetched h, r, by rw [fetched_append, hfetched], ?_, fun hclock => hbefore.retried hclock.left⟩
        rw [hlength]
        exact hsucceeds
      | error err =>
        obtain ⟨t, r, rfl, hfetched, -, hfails⟩ := hr
        refine ⟨hbefore.pos, ⟨rest ++ t, by rw [hrest]; rfl⟩, fetched h, r, by rw [fetched_append, hfetched], hlength,
          fun hclock => ⟨hfails fun r hr => hclock r (List.mem_append_right _ hr), hbefore.retried hclock.left⟩⟩
    · have hallowed := hbefore.allowed
      omega
    · exact ⟨le_refl 1, by omega, ⟨[], rfl⟩, rfl, fun _ r hr => absurd hr List.not_mem_nil⟩

/-- The loop makes no request of its own. -/
theorem withRelayerRetry_calls {fn : Nat → Http α} {C : Request → Prop}
    (hfn : ∀ n, Calls (fun c => ∀ req, c = .fetch req → C req) (fn n)) :
    Calls (fun c => ∀ req, c = .fetch req → C req) (withRelayerRetry bounds fn) := by
  have hother : ∀ c : HttpCall, (∀ req, c ≠ .fetch req) → ∀ req, c = .fetch req → C req :=
    fun c hc req hreq => absurd hreq (hc req)
  refine Calls.bind (calls_call (hother .now nofun)) fun started =>
    Calls.retry (calls_call (hother .throwIfAborted nofun)) hfn fun n err => ?_
  refine Calls.bind (calls_call (hother .throwIfAborted nofun)) fun _ => ?_
  split
  · trivial
  · refine Calls.bind (calls_call (hother .now nofun)) fun now => ?_
    split
    · trivial
    · exact calls_call (hother (.sleep _) nofun)

end Bosphor.Sdk

import Bosphor.Delivery
import Bosphor.Evm.Executions
import Bosphor.Lib.Host
import Bosphor.Solana.Executions

/-!
# Waiting for a proof

The clients poll the origin until the intent is executed. The EVM client then
returns the blob id that the adapter committed to, with the end epoch of the
proof in the event; the Solana client returns what the intent's account records.
Both return what the proof states as long as the proofs of the adapter carry the
committed blob ids (`executions_proven_iff`).
-/

namespace Bosphor.Sdk

open Async
open Bytes (ofBE toBE)

/-! ## The polls -/

inductive AwaitError where
  | rpc (message : String)
  | aborted
  /-- `ProofTimeoutError`. -/
  | proofTimeout (intentId : Bytes 32) (timeoutMs : Int)
  | noQueryProof
  | noProof
  /-- The proof must be 64 bytes. -/
  | proofLength (bytes : Nat)
  /-- The polls at hand are made, and the client goes on. -/
  | polling
  deriving DecidableEq

/-- The calls of a client that waits: its views of the chain, the clock, and its sleep between polls. -/
inductive WaitCall (View : Type) where
  | view (v : View)
  | throwIfAborted
  | now
  | sleep (ms : Int)

abbrev WaitCall.Answer {View : Type} (Reply : View → Type) : WaitCall View → Type
  | .view v => Reply v
  | .now => Int
  | _ => Unit

abbrev WaitProgram (View : Type) (Reply : View → Type) := Async (WaitCall View) (WaitCall.Answer Reply) AwaitError

abbrev Told (View : Type) (Reply : View → Type) := History (WaitCall View) (WaitCall.Answer Reply) AwaitError

section

variable {View : Type} {Reply : View → Type} {α β : Type}

/-- A view of the chain. -/
def view (v : View) : WaitProgram View Reply (Reply v) := call (WaitCall.view v)

/-- A turn that found nothing ends with a sleep, or past the deadline with an error. -/
def endTurn (intentId : Bytes 32) (timeoutMs pollMs deadline : Int) : WaitProgram View Reply Unit := do
  let now ← call WaitCall.now
  if now ≥ deadline then throw (.proofTimeout intentId timeoutMs) else call (WaitCall.sleep pollMs)

/-- Of `awaitProof`, at most `polls` turns of the loop: `check` looks whether the intent is executed, and `finish`
follows once it is. -/
def pollUntil (isTransientRpcError : AwaitError → Bool) (check : WaitProgram View Reply (Option β))
    (finish : β → WaitProgram View Reply α) (intentId : Bytes 32) (timeoutMs pollMs deadline : Int) (polls : Nat) :
    WaitProgram View Reply α :=
  match polls with
  | 0 => throw .polling
  | polls + 1 => do
    call WaitCall.throwIfAborted
    let done ← tryCatch check fun err => if !isTransientRpcError err then throw err else return none
    match done with
    | some b => finish b
    | none =>
      endTurn intentId timeoutMs pollMs deadline
      pollUntil isTransientRpcError check finish intentId timeoutMs pollMs deadline polls

end

def DEFAULT_TIMEOUT_MS : Int := 5 * 60000
def DEFAULT_POLL_MS : Int := 3000

structure AwaitProofOptions where
  timeoutMs : Option Int := none
  pollMs : Option Int := none

/-! ## The clients -/

namespace BosphorEvmClient

/-- The views of the adapter. -/
inductive AdapterView where
  | executed (intentId : Evm.IntentId)
  | committedBlobId (intentId : Evm.IntentId)
  | queryProof (intentId : Evm.IntentId)

abbrev Reply : AdapterView → Type
  | .executed _ => Bool
  | .committedBlobId _ => Bytes 32
  | .queryProof _ => Option (List UInt8)

abbrev Program := WaitProgram AdapterView Reply

def executed (intentId : Evm.IntentId) : Program Bool := view (AdapterView.executed intentId)

def committedBlobId (intentId : Evm.IntentId) : Program (Bytes 32) := view (AdapterView.committedBlobId intentId)

def queryProof (intentId : Evm.IntentId) : Program (Option (List UInt8)) := view (AdapterView.queryProof intentId)

def decodeProofEndEpoch (proof : List UInt8) : Except AwaitError Nat :=
  if proof.length ≠ 64 then .error (.proofLength proof.length) else .ok (ofBE (Bytes.slice proof 32 32))

/-- `readEndEpoch(intentId)`, of an adapter that has a `queryProof` or has none. -/
def readEndEpoch (hasQueryProof : Bool) (intentId : Evm.IntentId) : Program Nat := do
  if !hasQueryProof then throw .noQueryProof
  match ← queryProof intentId with
  | none => throw .noProof
  | some proof => Async.ofExcept (decodeProofEndEpoch proof)

def isExecuted (intentId : Evm.IntentId) : Program (Option Unit) := do
  let done ← executed intentId
  return if done then some () else none

def provenResult (hasQueryProof : Bool) (intentId : Evm.IntentId) : Program (Bytes 32 × Nat) := do
  let blobId ← committedBlobId intentId
  let endEpoch ← readEndEpoch hasQueryProof intentId
  return (blobId, endEpoch)

/-- `awaitProof(intentId, opts)`; which errors of a view pass for transient is not the client's to say. -/
def awaitProof (hasQueryProof : Bool) (isTransientRpcError : AwaitError → Bool) (intentId : Evm.IntentId)
    (opts : AwaitProofOptions) (polls : Nat) : Program (Bytes 32 × Nat) := do
  let timeoutMs := opts.timeoutMs.getD DEFAULT_TIMEOUT_MS
  let pollMs := opts.pollMs.getD DEFAULT_POLL_MS
  let deadline := (← call WaitCall.now) + timeoutMs
  pollUntil isTransientRpcError (isExecuted intentId) (fun _ => provenResult hasQueryProof intentId) intentId timeoutMs
    pollMs deadline polls

end BosphorEvmClient

namespace BosphorSolanaClient

/-- The view of the program's accounts. -/
inductive ChainView where
  | readIntent (intentId : Solana.IntentId)

abbrev Reply : ChainView → Type
  | .readIntent _ => Option Solana.IntentState

abbrev Program := WaitProgram ChainView Reply

def readIntent (intentId : Solana.IntentId) : Program (Option Solana.IntentState) :=
    view (ChainView.readIntent intentId)

def executedIntent (intentId : Solana.IntentId) : Program (Option Solana.IntentState) := do
  let state ← readIntent intentId
  return state.filter (·.executed)

/-- `awaitProof(intentId, opts)`. -/
def awaitProof (isTransientRpcError : AwaitError → Bool) (intentId : Solana.IntentId) (opts : AwaitProofOptions)
    (polls : Nat) : Program (Bytes 32 × UInt64) := do
  let timeoutMs := opts.timeoutMs.getD DEFAULT_TIMEOUT_MS
  let pollMs := opts.pollMs.getD DEFAULT_POLL_MS
  let deadline := (← call WaitCall.now) + timeoutMs
  pollUntil isTransientRpcError (executedIntent intentId) (fun state => return (state.committedBlobId, state.endEpoch))
    intentId timeoutMs pollMs deadline polls

end BosphorSolanaClient

/-! ## What they run in -/

section

variable {A S View : Type} {Reply : View → Type} {α : Type}

/-- How a call is answered after the transactions `as`; `reads` says how the chain shows a view. -/
inductive Serves (stateAfter : List A → S) (reads : S → (v : View) → Reply v → Prop) :
    List A → (c : WaitCall View) → Except AwaitError (c.Answer Reply) → List A → Prop
  | view {as v a} (h : reads (stateAfter as) v a) : Serves stateAfter reads as (.view v) (.ok a) as
  | throwIfAborted {as} : Serves stateAfter reads as .throwIfAborted (.ok ()) as
  | now {as} (ms : Int) : Serves stateAfter reads as .now (.ok ms) as
  | sleep {as ms} : Serves stateAfter reads as (.sleep ms) (.ok ()) as
  | fails {as c} (e : AwaitError) : Serves stateAfter reads as c (.error e) as

/-- The client waits while the chain takes one transaction after another. -/
def WaitHost (stateAfter : List A → S) (reads : S → (v : View) → Reply v → Prop)
    (wait : Nat → WaitProgram View Reply α) :
    Host (List A) (WaitCall View) (WaitCall.Answer Reply) AwaitError α where
  starts as p as' := as' = as ∧ ∃ polls, p = wait polls
  serves := Serves stateAfter reads
  moves as as' := ∃ a, as' = as ++ [a]

end

/-- What the adapter shows; `queryProof` finds the last event of the blocks that the node serves. -/
def AdapterShows (s : Evm.State) : (v : BosphorEvmClient.AdapterView) → BosphorEvmClient.Reply v → Prop
  | .executed id, answer => answer = s.executed id
  | .committedBlobId id, blobId => blobId = s.committedBlobId id
  | .queryProof id, found => ∃ older, found = ((s.log.drop older).filterMap fun x => x.event.proofOf id).getLast?

def AccountsShow (s : Solana.State) : (v : BosphorSolanaClient.ChainView) → BosphorSolanaClient.Reply v → Prop
  | .readIntent id, state => state = s.intents id

/-! ## What a client was told when it returns -/

section

variable {View : Type} {Reply : View → Type} {α β : Type} {P : Told View Reply → WaitCall View → Prop}
  {Q : Told View Reply → Except AwaitError α → Prop} {K : Told View Reply → β → Prop}

theorem wp_endTurn {intentId : Bytes 32} {timeoutMs pollMs deadline : Int}
    {Q : Told View Reply → Except AwaitError Unit → Prop}
    (hP : ∀ h c, (∀ v, c ≠ .view v) → P h c) (hQ : ∀ h r, Q h r) (h : Told View Reply) :
    wp P Q h (endTurn intentId timeoutMs pollMs deadline) := by
  rw [endTurn, wp_bind]
  refine (wp_call WaitCall.now).mpr ⟨hP _ _ (fun v h => by cases h), fun r => ?_⟩
  cases r with
  | error e => exact hQ _ _
  | ok now =>
    rw [andThen_ok]
    by_cases hlate : now ≥ deadline
    · rw [if_pos hlate]
      exact hQ _ _
    · rw [if_neg hlate]
      exact (wp_call (WaitCall.sleep pollMs)).mpr ⟨hP _ _ (fun v h => by cases h), fun _ => hQ _ _⟩

/-- A loop ends with an error, or after a check that establishes `K`. -/
theorem wp_pollUntil {isTransientRpcError : AwaitError → Bool} {check : WaitProgram View Reply (Option β)}
    {finish : β → WaitProgram View Reply α} {intentId : Bytes 32} {timeoutMs pollMs deadline : Int}
    (hP : ∀ h c, (∀ v, c ≠ .view v) → P h c) (hcheck : ∀ h, wp P (fun h r => ∀ b, r = .ok (some b) → K h b) h check)
    (hfinish : ∀ h b, K h b → wp P Q h (finish b)) (hQ : ∀ h e, Q h (.error e)) (polls : Nat) (h : Told View Reply) :
    wp P Q h (pollUntil isTransientRpcError check finish intentId timeoutMs pollMs deadline polls) := by
  induction polls generalizing h with
  | zero => exact hQ h _
  | succ polls ih =>
    have hrest : ∀ h, wp P Q h (endTurn intentId timeoutMs pollMs deadline >>= fun _ =>
        pollUntil isTransientRpcError check finish intentId timeoutMs pollMs deadline polls) := by
      intro h
      rw [wp_bind]
      refine wp_endTurn hP (fun h r => ?_) h
      cases r with
      | error e => exact hQ _ e
      | ok _ => exact ih _
    rw [pollUntil, wp_bind]
    refine (wp_call WaitCall.throwIfAborted).mpr ⟨hP _ _ (fun v h => by cases h), fun r => ?_⟩
    cases r with
    | error e => exact hQ _ e
    | ok _ =>
      rw [andThen_ok, wp_bind, wp_tryCatch]
      refine wp_mono (hcheck _) (fun _ _ => id) fun h r hr => ?_
      cases r with
      | error e =>
        rw [orElse_error]
        by_cases htransient : (!isTransientRpcError e) = true
        · rw [if_pos htransient]
          exact hQ _ e
        · rw [if_neg htransient]
          exact hrest _
      | ok done =>
        rw [orElse_ok, andThen_ok]
        cases done with
        | none => exact hrest _
        | some b => exact hfinish _ b (hr b rfl)

/-- The client was shown `a` for the view `v`. -/
def Shown (h : Told View Reply) (v : View) (a : Reply v) : Prop :=
  (⟨.view v, .ok a⟩ : Σ c : WaitCall View, Except AwaitError (c.Answer Reply)) ∈ h

theorem Shown.later {h : Told View Reply} {v : View} {a : Reply v} (hs : Shown h v a)
    (x : Σ c : WaitCall View, Except AwaitError (c.Answer Reply)) : Shown (h ++ [x]) v a :=
  List.mem_append_left _ hs

theorem shown_last (h : Told View Reply) (v : View) (a : Reply v) : Shown (h ++ [⟨.view v, .ok a⟩]) v a :=
  List.mem_append_right _ (List.mem_singleton_self _)

/-- Other answers show nothing. -/
theorem Shown.earlier {h : Told View Reply} {v : View} {a : Reply v}
    {x : Σ c : WaitCall View, Except AwaitError (c.Answer Reply)} (hs : Shown (h ++ [x]) v a)
    (hx : ∀ v (a : Reply v), x ≠ ⟨.view v, .ok a⟩) : Shown h v a :=
  (List.mem_append.mp hs).resolve_right fun hm => hx v a (List.mem_singleton.mp hm).symm

/-- A turn whose check succeeds is the last one. -/
theorem result_pollUntil {o : (c : WaitCall View) → Except AwaitError (c.Answer Reply)}
    (habort : o .throwIfAborted = .ok ()) {check : WaitProgram View Reply (Option β)} {b : β}
    (hcheck : result o check = .ok (some b)) (isTransientRpcError : AwaitError → Bool)
    (finish : β → WaitProgram View Reply α) (intentId : Bytes 32) (timeoutMs pollMs deadline : Int) (polls : Nat) :
    result o (pollUntil isTransientRpcError check finish intentId timeoutMs pollMs deadline (polls + 1)) =
      result o (finish b) := by
  have hcall : result o (call WaitCall.throwIfAborted) = .ok () := (result_call _).trans habort
  have htry : result o (tryCatch check fun err => if !isTransientRpcError err then throw err else pure none) =
      .ok (some b) := by
    rw [result_tryCatch, hcheck]
    rfl
  rw [pollUntil, result_next hcall, result_next htry]

end

namespace BosphorEvmClient

/-- The blob id is read of an intent that was seen executed. -/
def Asks (h : Told AdapterView Reply) (c : WaitCall AdapterView) : Prop :=
  ∀ id, c = .view (.committedBlobId id) → Shown h (.executed id) true

/-- The result is the committed blob id with the end epoch of the proof. -/
def Returns (intentId : Evm.IntentId) (h : Told AdapterView Reply) (r : Except AwaitError (Bytes 32 × Nat)) : Prop :=
  ∀ blobId endEpoch, r = .ok (blobId, endEpoch) → Shown h (.committedBlobId intentId) blobId ∧
    ∃ proof, Shown h (.queryProof intentId) (some proof) ∧ decodeProofEndEpoch proof = .ok endEpoch

theorem returns_error {intentId : Evm.IntentId} {h : Told AdapterView Reply} (e : AwaitError) :
    Returns intentId h (.error e) := fun _ _ hr => by cases hr

theorem wp_provenResult (hasQueryProof : Bool) (intentId : Evm.IntentId) {h : Told AdapterView Reply}
    (hexecuted : Shown h (.executed intentId) true) :
    wp Asks (Returns intentId) h (provenResult hasQueryProof intentId) := by
  rw [provenResult, wp_bind]
  refine (wp_call (WaitCall.view (AdapterView.committedBlobId intentId))).mpr ⟨fun id hid => ?_, fun r => ?_⟩
  · cases hid
    exact hexecuted
  · cases r with
    | error e => exact returns_error e
    | ok blobId =>
      have hblob := @shown_last _ Reply h (.committedBlobId intentId) blobId
      rw [andThen_ok, wp_bind, readEndEpoch]
      cases hasQueryProof with
      | false => exact returns_error _
      | true =>
        refine (wp_bind _ _).mpr ((wp_call (WaitCall.view (AdapterView.queryProof intentId))).mpr
          ⟨fun id hid => (by cases hid), fun r => ?_⟩)
        cases r with
        | error e => exact returns_error e
        | ok found =>
          cases found with
          | none => exact returns_error _
          | some proof =>
            refine (wp_ofExcept _).mpr ?_
            cases hdec : decodeProofEndEpoch proof with
            | error e => exact returns_error e
            | ok endEpoch =>
              rw [andThen_ok, wp_pure]
              intro b e hr
              cases hr
              exact ⟨hblob.later _, proof, shown_last _ _ _, hdec⟩

theorem wp_awaitProof (hasQueryProof : Bool) (isTransientRpcError : AwaitError → Bool) (intentId : Evm.IntentId)
    (opts : AwaitProofOptions) (polls : Nat) :
    wp Asks (Returns intentId) [] (awaitProof hasQueryProof isTransientRpcError intentId opts polls) := by
  rw [awaitProof, wp_bind]
  refine (wp_call WaitCall.now).mpr ⟨fun _ h => (by cases h), fun r => ?_⟩
  cases r with
  | error e => exact returns_error e
  | ok now =>
    refine wp_pollUntil (K := fun h _ => Shown h (.executed intentId) true) (fun h c hc id hid => absurd hid (hc _))
      (fun h => ?_) (fun h _ hK => wp_provenResult hasQueryProof intentId hK) (fun h e => returns_error e) polls _
    rw [isExecuted, wp_bind]
    refine (wp_call (WaitCall.view (AdapterView.executed intentId))).mpr ⟨fun _ h => (by cases h), fun r => ?_⟩
    cases r with
    | error e =>
      intro b hb
      cases hb
    | ok done =>
      intro b hb
      cases done with
      | false => cases hb
      | true => exact shown_last h (AdapterView.executed intentId) true

/-- What was shown of the adapter is still so. -/
structure Holds (s : Evm.State) (told : Told AdapterView Reply) : Prop where
  executed : ∀ id, Shown told (.executed id) true → s.executed id = true
  committed : ∀ id blobId, Shown told (.committedBlobId id) blobId → s.intents id = true ∧ s.committedBlobId id = blobId
  proof : ∀ id proof, Shown told (.queryProof id) (some proof) → proof ∈ s.executions id

variable {self endpoint owner trustedRelayer : Evm.Address} {tokens : Evm.Address → Evm.TokenAccount} {s₀ : Evm.State}
  {as : List (Nat × Evm.Call)} {told : Told AdapterView Reply}

/-- A view that is answered is held, if it is asked for as the client does. -/
theorem Holds.serve {xs : List Evm.Confirmation} {s : Evm.State} (hacc : Evm.Accounted xs s) (h : Holds s told)
    {v : AdapterView} {a : Reply v} (hasks : Asks told (.view v)) (hreads : AdapterShows s v a) :
    Holds s (told ++ [⟨.view v, .ok a⟩]) := by
  refine ⟨fun id hs => ?_, fun id blobId hs => ?_, fun id proof hs => ?_⟩
  all_goals rcases List.mem_append.mp hs with hs | hs
  · exact h.executed id hs
  · cases List.mem_singleton.mp hs
    exact hreads.symm
  · exact h.committed id blobId hs
  · cases List.mem_singleton.mp hs
    exact ⟨hacc.submission (h.executed id (hasks id rfl)), hreads.symm⟩
  · exact h.proof id proof hs
  · cases List.mem_singleton.mp hs
    obtain ⟨older, hfound⟩ := hreads
    exact ((List.drop_suffix older s.log).filterMap _).subset (List.mem_of_getLast? hfound.symm)

/-- Other answers show nothing. -/
theorem Holds.other {s : Evm.State} (h : Holds s told)
    {x : Σ c : WaitCall AdapterView, Except AwaitError (c.Answer Reply)}
    (hx : ∀ v (a : Reply v), x ≠ ⟨.view v, .ok a⟩) : Holds s (told ++ [x]) where
  executed id hs := h.executed id (hs.earlier hx)
  committed id blobId hs := h.committed id blobId (hs.earlier hx)
  proof id proof hs := h.proof id proof (hs.earlier hx)

/-- What was shown is still so after one more transaction. -/
theorem Holds.grow {xs xs' : List Evm.Confirmation} {s s' : Evm.State} (hacc : Evm.Accounted xs s)
    (hacc' : Evm.Accounted xs' s') (hs : Evm.Submissions s) (hs' : Evm.Submissions s') (hl : s.log <+: s'.log)
    (h : Holds s told) : Holds s' told where
  executed id hshown := hacc.executed_grows hacc' hl (h.executed id hshown)
  committed id blobId hshown := by
    obtain ⟨hi, rfl⟩ := h.committed id blobId hshown
    exact hs.committed_grows hs' hl hi
  proof id proof hshown := (Evm.executions_grow hl id).subset (h.proof id proof hshown)

/-- The adapter deployed, and a client that waits for an intent. -/
abbrev host (s₀ : Evm.State) (hasQueryProof : Bool) (isTransientRpcError : AwaitError → Bool) (intentId : Evm.IntentId)
    (opts : AwaitProofOptions) :=
  WaitHost (Machine.run Evm.step s₀) AdapterShows (awaitProof hasQueryProof isTransientRpcError intentId opts)

/-- A client that returns was shown what the adapter holds. -/
theorem awaitProof_holds (h : Evm.deploy self endpoint owner trustedRelayer tokens = .ok s₀) {hasQueryProof : Bool}
    {isTransientRpcError : AwaitError → Bool} {intentId : Evm.IntentId} {opts : AwaitProofOptions} {blobId : Bytes 32}
    {endEpoch : Nat}
    (hrun : (host s₀ hasQueryProof isTransientRpcError intentId opts).Leads (fun _ _ => True) ([], none)
      (as, some ⟨told, .done (blobId, endEpoch)⟩)) :
    Holds (Machine.run Evm.step s₀ as) told ∧ Returns intentId told (.ok (blobId, endEpoch)) := by
  have hkeeps := hrun.keeps (I := fun _ => True)
      (J := fun as told => Holds (Machine.run Evm.step s₀ as) told) (P := Asks)
    (Q := Returns intentId) ?_ ?_ ?_ (.idle trivial)
  · obtain ⟨hholds, hreturns⟩ := hkeeps.2 _ rfl
    exact ⟨hholds, hreturns⟩
  · rintro w p w' - - ⟨rfl, polls, rfl⟩
    refine ⟨trivial, ⟨fun _ h => ?_, fun _ _ h => ?_, fun _ _ h => ?_⟩, wp_awaitProof ..⟩ <;> cases h
  · rintro w told c next r w' - hholds hasks - hserves
    refine ⟨trivial, ?_⟩
    cases hserves with
    | view hreads => exact hholds.serve (Evm.run_executions h w) hasks hreads
    | throwIfAborted | now | sleep | fails => exact hholds.other fun v a h => by cases h
  · rintro w s w' - - ⟨a, rfl⟩
    refine ⟨trivial, fun told hholds => hholds.grow (Evm.run_executions h w) (Evm.run_executions h _)
      (Evm.run_submissions h w) (Evm.run_submissions h _) ?_⟩
    rw [Machine.run_append]
    exact Evm.run_log_grows _ _

/-- The answers of a node that serves all blocks. -/
def answers (s : Evm.State) (time : Int) : (c : WaitCall AdapterView) → Except AwaitError (c.Answer Reply)
  | .view (.executed id) => .ok (s.executed id)
  | .view (.committedBlobId id) => .ok (s.committedBlobId id)
  | .view (.queryProof id) => .ok (s.executions id).getLast?
  | .throwIfAborted => .ok ()
  | .now => .ok time
  | .sleep _ => .ok ()

theorem decodeProofEndEpoch_ok_iff {proof : List UInt8} {endEpoch : Nat} :
    decodeProofEndEpoch proof = .ok endEpoch ↔ proof.length = 64 ∧ endEpoch = ofBE (Bytes.slice proof 32 32) := by
  by_cases h : proof.length = 64
  · simp only [decodeProofEndEpoch, h, ne_eq, not_true, if_false, Except.ok.injEq, true_and, eq_comm]
  · simp only [decodeProofEndEpoch, h, ne_eq, not_false_eq_true, if_true, reduceCtorEq, false_and]

/-- The first poll returns, if the intent is executed and its proof can be decoded. -/
theorem awaitProof_executed {s : Evm.State} {intentId : Evm.IntentId} {proof : List UInt8} {endEpoch : Nat}
    (hx : s.executed intentId = true) (hproof : s.executions intentId = [proof])
    (hdec : decodeProofEndEpoch proof = .ok endEpoch) (time : Int) (isTransientRpcError : AwaitError → Bool)
    (opts : AwaitProofOptions) (polls : Nat) :
    result (answers s time) (awaitProof true isTransientRpcError intentId opts (polls + 1)) =
      .ok (s.committedBlobId intentId, endEpoch) := by
  have hcheck : result (answers s time) (isExecuted intentId) = .ok (some ()) := by
    have hview : result (answers s time) (executed intentId) = .ok (s.executed intentId) := result_call _
    rw [isExecuted, result_next hview, hx]
    rfl
  have hepoch : result (answers s time) (readEndEpoch true intentId) = .ok endEpoch := by
    have hlast : (s.executions intentId).getLast? = some proof := by
      rw [hproof]
      rfl
    have hview : result (answers s time) (queryProof intentId) = .ok (some proof) :=
      (result_call _).trans (congrArg Except.ok hlast)
    show result (answers s time) (queryProof intentId >>= _) = _
    rw [result_next hview]
    show result (answers s time) (Async.ofExcept (decodeProofEndEpoch proof)) = _
    rw [hdec]
    rfl
  have hnow : result (answers s time) (call WaitCall.now) = .ok time := result_call _
  have hview : result (answers s time) (committedBlobId intentId) = .ok (s.committedBlobId intentId) := result_call _
  rw [awaitProof, result_next hnow, result_pollUntil rfl hcheck, provenResult, result_next hview, result_next hepoch]
  rfl

/-- After the transactions `as`, a client that has returned has returned what the proof states, and one that starts
returns it. -/
def ReturnsProofs (s₀ : Evm.State) (as : List (Nat × Evm.Call)) : Prop :=
  ∀ isTransientRpcError intentId opts,
    (∀ hasQueryProof told blobId endEpoch, (host s₀ hasQueryProof isTransientRpcError intentId opts).Leads
        (fun _ _ => True) ([], none) (as, some ⟨told, .done (blobId, endEpoch)⟩) →
      ∃ proof, (Machine.run Evm.step s₀ as).executions intentId = [proof] ∧
        Evm.BosphorProof.decode proof = .ok (blobId, endEpoch)) ∧
    ((Machine.run Evm.step s₀ as).executed intentId = true → ∀ time polls, ∃ proof blobId endEpoch,
      result (answers (Machine.run Evm.step s₀ as) time)
        (awaitProof true isTransientRpcError intentId opts (polls + 1)) = .ok (blobId, endEpoch) ∧
      (Machine.run Evm.step s₀ as).executions intentId = [proof] ∧
      Evm.BosphorProof.decode proof = .ok (blobId, endEpoch))

/-- While the proofs carry the committed blob ids, clients return what they state. -/
theorem returnsProofs (h : Evm.deploy self endpoint owner trustedRelayer tokens = .ok s₀)
    (hcommitted : (Machine.run Evm.step s₀ as).ProofsCommitted) : ReturnsProofs s₀ as := by
  have hsub := Evm.run_submissions h as
  -- The proof of an executed intent, with the blob id that the adapter shows.
  have hproof : ∀ intentId, (Machine.run Evm.step s₀ as).executed intentId = true → ∃ proof endEpoch,
      (Machine.run Evm.step s₀ as).executions intentId = [proof] ∧ Evm.BosphorProof.decode proof =
        .ok ((Machine.run Evm.step s₀ as).committedBlobId intentId, endEpoch) := by
    intro intentId hx
    obtain ⟨proof, hproof, m, hm, rfl, endEpoch, hdec⟩ := hcommitted intentId hx
    exact ⟨proof, endEpoch, hproof, by rw [hsub.committed_eq m hm, hdec]⟩
  intro isTransientRpcError intentId opts
  refine ⟨fun hasQueryProof told blobId endEpoch hrun => ?_, fun hx time polls => ?_⟩
  · obtain ⟨hholds, hreturns⟩ := awaitProof_holds h hrun
    obtain ⟨hblob, shown, hshown, hepoch⟩ := hreturns blobId endEpoch rfl
    have hmem := hholds.proof intentId shown hshown
    obtain ⟨proof, endEpoch', hexec, hdec⟩ := hproof intentId (((Evm.run_executions h as).executed_iff _).mpr ⟨_, hmem⟩)
    rw [hexec, List.mem_singleton] at hmem
    subst hmem
    obtain ⟨hlength, hfirst, -⟩ := Evm.BosphorProof.decode_ok_iff.mp hdec
    refine ⟨shown, hexec, Evm.BosphorProof.decode_ok_iff.mpr ⟨hlength, ?_, (decodeProofEndEpoch_ok_iff.mp hepoch).2⟩⟩
    rw [hfirst, (hholds.committed intentId blobId hblob).2]
  · obtain ⟨proof, endEpoch, hexec, hdec⟩ := hproof intentId hx
    obtain ⟨hlength, -, hepoch⟩ := Evm.BosphorProof.decode_ok_iff.mp hdec
    exact ⟨proof, _, endEpoch, awaitProof_executed hx hexec (decodeProofEndEpoch_ok_iff.mpr ⟨hlength, hepoch⟩) time
      isTransientRpcError opts polls, hexec, hdec⟩

end BosphorEvmClient

namespace BosphorSolanaClient

/-- The result is that of an intent that was seen executed. -/
def Returns (intentId : Solana.IntentId) (h : Told ChainView Reply)
    (r : Except AwaitError (Bytes 32 × UInt64)) : Prop :=
  ∀ blobId endEpoch, r = .ok (blobId, endEpoch) → ∃ intent, Shown h (.readIntent intentId) (some intent) ∧
    intent.result = some (blobId, endEpoch)

theorem wp_awaitProof (isTransientRpcError : AwaitError → Bool) (intentId : Solana.IntentId) (opts : AwaitProofOptions)
    (polls : Nat) :
    wp (fun _ _ => True) (Returns intentId) [] (awaitProof isTransientRpcError intentId opts polls) := by
  have herror : ∀ h e, Returns intentId h (.error e) := fun _ _ _ _ hr => by cases hr
  rw [awaitProof, wp_bind]
  refine (wp_call WaitCall.now).mpr ⟨trivial, fun r => ?_⟩
  cases r with
  | error e => exact herror _ e
  | ok now =>
    refine wp_pollUntil (K := fun h intent => Shown h (.readIntent intentId) (some intent) ∧ intent.executed = true)
      (fun _ _ _ => trivial) (fun h => ?_) (fun h intent hK => ?_) herror polls _
    · rw [executedIntent, wp_bind]
      refine (wp_call (WaitCall.view (ChainView.readIntent intentId))).mpr ⟨trivial, fun r => ?_⟩
      cases r with
      | error e =>
        intro b hb
        cases hb
      | ok state =>
        intro intent hb
        obtain ⟨rfl, hx⟩ := Option.filter_eq_some_iff.mp (Except.ok.inj hb)
        exact ⟨shown_last h (ChainView.readIntent intentId) (some intent), hx⟩
    · intro blobId endEpoch hr
      refine ⟨intent, hK.1, ?_⟩
      rw [Solana.IntentState.result, if_pos hK.2]
      exact congrArg some (Except.ok.inj hr)

/-- The answers of a node. -/
def answers (s : Solana.State) (time : Int) : (c : WaitCall ChainView) → Except AwaitError (c.Answer Reply)
  | .view (.readIntent id) => .ok (s.intents id)
  | .throwIfAborted => .ok ()
  | .now => .ok time
  | .sleep _ => .ok ()

/-- The program deployed, and a client that waits for an intent. -/
abbrev host (s₀ : Solana.State) (isTransientRpcError : AwaitError → Bool) (intentId : Solana.IntentId)
    (opts : AwaitProofOptions) :=
  WaitHost (Machine.run Solana.step s₀) AccountsShow (awaitProof isTransientRpcError intentId opts)

/-- After the instructions `as`, a client that has returned has returned the result in the only event of the intent,
and one that starts returns it. -/
def ReturnsResults (s₀ : Solana.State) (as : List (Int × Solana.Op)) : Prop :=
  ∀ isTransientRpcError intentId opts,
    (∀ told blobId endEpoch, (host s₀ isTransientRpcError intentId opts).Leads (fun _ _ => True) ([], none)
        (as, some ⟨told, .done (blobId, endEpoch)⟩) →
      (Machine.run Solana.step s₀ as).executions intentId = [(blobId, endEpoch)]) ∧
    ∀ intent, (Machine.run Solana.step s₀ as).intents intentId = some intent → intent.executed = true →
      ∀ time polls, result (answers (Machine.run Solana.step s₀ as) time)
        (awaitProof isTransientRpcError intentId opts (polls + 1)) = .ok (intent.committedBlobId, intent.endEpoch)

variable (bumps : Solana.Key → UInt8) (rent : Nat → Nat) (systemOwned : Solana.Pubkey → Bool)
  (lamports : Solana.Key → Nat)

theorem returnsResults (as : List (Int × Solana.Op)) :
    ReturnsResults (Solana.initial bumps rent systemOwned lamports) as := by
  intro isTransientRpcError intentId opts
  refine ⟨fun told blobId endEpoch hrun => ?_, fun intent hi hx time polls => ?_⟩
  · have hkeeps := hrun.keeps (I := fun _ => True) (P := fun _ _ => True) (Q := Returns intentId)
      (J := fun as told => ∀ intent r, Shown told (.readIntent intentId) (some intent) → intent.result = some r →
        r ∈ (Machine.run Solana.step (Solana.initial bumps rent systemOwned lamports) as).executions intentId)
      ?_ ?_ ?_ (.idle trivial)
    · obtain ⟨hholds, hreturns⟩ := hkeeps.2 _ rfl
      obtain ⟨intent, hshown, hresult⟩ := hreturns blobId endEpoch rfl
      exact (Solana.run_executed bumps rent systemOwned lamports as).executions_eq (hholds intent _ hshown hresult)
    · rintro w p w' - - ⟨rfl, polls, rfl⟩
      exact ⟨trivial, fun _ _ h => (by cases h), wp_awaitProof ..⟩
    · rintro w told c next r w' - hholds - - hserves
      refine ⟨trivial, fun intent r hshown hresult => ?_⟩
      cases hserves with
      | @view v state hreads =>
        rcases List.mem_append.mp hshown with hs | hs
        · exact hholds intent r hs hresult
        · cases List.mem_singleton.mp hs
          rw [Solana.run_executed bumps rent systemOwned lamports w, ← show _ = _ from hreads]
          simp [hresult]
      | throwIfAborted | now | sleep | fails =>
        exact hholds intent r (hshown.earlier fun v a h => by cases h) hresult
    · rintro w s w' - - ⟨a, rfl⟩
      refine ⟨trivial, fun told hholds intent r hshown hresult => ?_⟩
      rw [Machine.run_append]
      exact ((Solana.run_log_grows _ [a]).filterMap _).subset (hholds intent r hshown hresult)
  · have hnow : result (answers (Machine.run Solana.step (Solana.initial bumps rent systemOwned lamports) as) time)
        (call WaitCall.now) = .ok time := result_call _
    have hcheck : result (answers (Machine.run Solana.step (Solana.initial bumps rent systemOwned lamports) as) time)
        (executedIntent intentId) = .ok (some intent) := by
      have hview : result (answers (Machine.run Solana.step (Solana.initial bumps rent systemOwned lamports) as) time)
          (readIntent intentId) = .ok (some intent) := (result_call _).trans (congrArg Except.ok hi)
      rw [executedIntent, result_next hview]
      simp [hx]
    rw [awaitProof, result_next hnow, result_pollUntil rfl hcheck]
    rfl

end BosphorSolanaClient

/-! ## Executed intents and their proofs -/

/-- On both origins an executed intent has one event, with the blob id of its submission, and the clients return what it
states. -/
def ProvenExecutions (s₀ : Evm.State) (as : List (Nat × Evm.Call)) (t₀ : Solana.State)
    (bs : List (Int × Solana.Op)) : Prop :=
  (Machine.run Evm.step s₀ as).ProofsCommitted ∧ (Machine.run Solana.step t₀ bs).ResultsCommitted ∧
    BosphorEvmClient.ReturnsProofs s₀ as ∧ BosphorSolanaClient.ReturnsResults t₀ bs

/-- Every run of the two origins proves its executions exactly when each accepted `confirmExecution` of the EVM adapter
has 64 bytes of proof that start with the committed blob id. -/
theorem executions_proven_iff {self endpoint owner trustedRelayer : Evm.Address}
    {tokens : Evm.Address → Evm.TokenAccount} {s₀ : Evm.State}
    (h : Evm.deploy self endpoint owner trustedRelayer tokens = .ok s₀) (as : List (Nat × Evm.Call))
    (bumps : Solana.Key → UInt8) (rent : Nat → Nat) (systemOwned : Solana.Pubkey → Bool) (lamports : Solana.Key → Nat)
    (bs : List (Int × Solana.Op)) :
    ProvenExecutions s₀ as (Solana.initial bumps rent systemOwned lamports) bs ↔
      ∀ x ∈ Evm.confirmationsOf s₀ as, x.Carries := by
  rw [← Evm.run_proofsCommitted_iff h as]
  constructor
  · intro hproven
    exact hproven.1
  · intro hcommitted
    exact ⟨hcommitted, Solana.run_resultsCommitted bumps rent systemOwned lamports bs,
      BosphorEvmClient.returnsProofs h hcommitted,
        BosphorSolanaClient.returnsResults bumps rent systemOwned lamports bs⟩

/-- A submission that the owner confirms with `proof`. -/
def confirmedWith (proof : List UInt8) : List (Nat × Evm.Call) :=
  [(1, .mk (.setPeer (Evm.accountOf 3) 30 (Evm.toBytes32 (Evm.accountOf 6))) [] []),
   (5, .mk (.submitIntent (Evm.accountOf 7) 9 30 exampleCommitment (some 2) true) [] []),
   (6, .mk (.confirmExecution (Evm.accountOf 3) Evm.theSubmission.id proof) [] [])]

theorem confirmedWith_confirmations (proof : List UInt8) :
    Evm.confirmationsOf Evm.exampleAdapter (confirmedWith proof) =
    [⟨Evm.theSubmission.id, proof, exampleCommitment.blobId⟩] := by
  have hconfirm : Evm.confirmations 6 (.mk (.confirmExecution (Evm.accountOf 3) Evm.theSubmission.id proof) [] [])
      Evm.oneSubmission = .ok [⟨Evm.theSubmission.id, proof, exampleCommitment.blobId⟩] := by
    have howner : Evm.accountOf 3 = Evm.oneSubmission.owner := by
      rw [Evm.oneSubmission_eq]
      rfl
    have hblob : Evm.oneSubmission.committedBlobId Evm.theSubmission.id = exampleCommitment.blobId := by
      rw [Evm.oneSubmission_eq]
      exact Function.update_self _ _ _
    have hcall := (@Evm.confirmExecution_ok 6 (Evm.accountOf 3) Evm.theSubmission.id proof Evm.oneSubmission _).mpr
      ⟨howner, Evm.oneSubmission_pending.2.1, Evm.oneSubmission_pending.2.2.1, rfl⟩
    simp only [Evm.confirmations, Result.bind_ok, Result.pure_ok, hblob]
    exact ⟨_, hcall, trivial⟩
  have hfirst : Machine.next Evm.step Evm.exampleAdapter
      (1, .mk (.setPeer (Evm.accountOf 3) 30 (Evm.toBytes32 (Evm.accountOf 6))) [] []) = Evm.peered := rfl
  have hsecond : Machine.next Evm.step Evm.peered
      (5, .mk (.submitIntent (Evm.accountOf 7) 9 30 exampleCommitment (some 2) true) [] []) = Evm.oneSubmission := rfl
  rw [confirmedWith, Evm.confirmationsOf, Evm.confirmations_none 1 (fun _ _ _ h => by cases h), hfirst,
    Evm.confirmationsOf, Evm.confirmations_none 5 (fun _ _ _ h => by cases h), hsecond, Evm.confirmationsOf, hconfirm]
  rfl

/-- The owner confirms with the proof that Sui would send. -/
theorem executions_proven_confirmed : ProvenExecutions Evm.exampleAdapter
    (confirmedWith (exampleCommitment.blobId.val ++ toBE 32 3)) Solana.exampleProgram [] := by
  refine (executions_proven_iff Evm.exampleAdapter_deployed _ _ _ _ _ []).mpr fun x hx => ?_
  rw [confirmedWith_confirmations, List.mem_singleton] at hx
  subst hx
  exact ⟨by decide, by decide⟩

/-- The owner confirms with no proof at all, and the event of the executed intent decodes to nothing: not every run
proves its executions. -/
theorem execution_unproven : ¬∀ (self endpoint owner trustedRelayer : Evm.Address)
    (tokens : Evm.Address → Evm.TokenAccount) (s₀ : Evm.State),
      Evm.deploy self endpoint owner trustedRelayer tokens = .ok s₀ →
      ∀ (as : List (Nat × Evm.Call)) (bs : List (Int × Solana.Op)),
        ProvenExecutions s₀ as Solana.exampleProgram bs := by
  intro h
  have hproven := (h _ _ _ _ _ _ Evm.exampleAdapter_deployed (confirmedWith []) []).1
  have hcarries := (Evm.run_proofsCommitted_iff Evm.exampleAdapter_deployed (confirmedWith [])).mp hproven
  rw [confirmedWith_confirmations] at hcarries
  have hlength := (hcarries _ (List.mem_singleton_self _)).1
  cases hlength

end Bosphor.Sdk

import Bosphor.Solana.Settlement

/-!
# The results of executed intents

An intent's account becomes executed by a proof received from Sui or by a
`confirm_execution` of the admin. Both check the returned blob id against the
committed one, and emit what they record: the events of an intent are, in every
reachable state, what its account says (`run_executed`).
-/

namespace Bosphor.Solana

/-- The result of an execution of `id`. -/
def Event.resultOf (id : IntentId) : Event → Option (Bytes 32 × UInt64)
  | .intentExecuted id' returnedBlobId endEpoch _ => if id' = id then some (returnedBlobId, endEpoch) else none
  | _ => none

/-- The results of the `IntentExecuted` events of `id`, oldest first. -/
def State.executions (s : State) (id : IntentId) : List (Bytes 32 × UInt64) :=
  s.log.filterMap fun x => x.event.resultOf id

/-- The result that an account records. -/
def IntentState.result (intent : IntentState) : Option (Bytes 32 × UInt64) :=
  if intent.executed then some (intent.committedBlobId, intent.endEpoch) else none

/-- The events of the executions are those of the accounts. -/
def Executed (s : State) : Prop := ∀ id, s.executions id = ((s.intents id).bind (·.result)).toList

theorem executions_append {s s' : State} {x : Entry} (h : s'.log = s.log ++ [x]) (id : IntentId) :
    s'.executions id = s.executions id ++ (x.event.resultOf id).toList := by
  rw [State.executions, h, List.filterMap_append]
  cases hx : x.event.resultOf id <;> simp only [List.filterMap_cons, List.filterMap_nil, hx, Option.toList] <;> rfl

/-- An intent that was not executed is executed, with the event of its result. -/
theorem Executed.executed {s s' : State} {id : IntentId} {intent : IntentState} {endEpoch : UInt64} {x : Entry}
    (h : Executed s) (hi : s.intents id = some intent) (hx : intent.executed = false) (hl : s'.log = s.log ++ [x])
    (hs : s'.intents = Function.update s.intents id (some { intent with executed := true, endEpoch }))
    (hevent : ∀ id', x.event.resultOf id' = if id = id' then some (intent.committedBlobId, endEpoch) else none) :
    Executed s' := by
  intro id'
  rw [executions_append hl, h, hevent, hs]
  by_cases he : id = id'
  · subst he
    rw [if_pos rfl, Function.update_self, hi]
    simp [IntentState.result, hx]
  · rw [if_neg he, Function.update_of_ne (Ne.symm he)]
    exact List.append_nil _

theorem Effect.executed {now : Int} {op : Op} {s s' : State} (h : Effect now op s s') (hs : Executed s) :
    Executed s' := by
  cases h with
  | @submit s payer c dstEid nativeFee escrowAmount store peer r lamports h =>
    intro id
    rw [executions_append (s := s) rfl, hs]
    by_cases he : id = submissionId c payer (s.nextNonce payer)
    · rw [he, h.newIntent]
      simp [submitted, IntentState.result, Event.resultOf]
    · have hother : (submitted now payer c dstEid escrowAmount store peer r lamports s).intents id = s.intents id :=
        Function.update_of_ne he _ _
      rw [hother]
      exact List.append_nil _
  | @release s params beneficiary proof intent vault h =>
    refine hs.executed h.hasIntent h.notExecuted rfl rfl fun id' => ?_
    rw [← h.committed]
    rfl
  | @confirm s store intent id endEpoch hstore hi hx => exact hs.executed hi hx rfl rfl fun _ => rfl
  | @refund s vault id hv hst hlate =>
    intro id'
    rw [executions_append (s := s) rfl, hs]
    exact List.append_nil _
  | initStore | setPeer | transfer | assign => exact hs

/-- In every reachable state, the events of an intent are what its account records. -/
theorem run_executed (bumps : Key → UInt8) (rent : Nat → Nat) (systemOwned : Pubkey → Bool) (lamports : Key → Nat)
    (as : List (Int × Op)) : Executed (Machine.run step (initial bumps rent systemOwned lamports) as) :=
  Machine.run_inv as (fun _ _ _ _ h hs => (step_effect h).executed hs) fun _ => rfl

theorem Effect.log_grows {now : Int} {op : Op} {s s' : State} (h : Effect now op s s') : s.log <+: s'.log := by
  cases h with
  | submit | release | confirm | refund => exact List.prefix_append _ _
  | initStore | setPeer | transfer | assign => exact List.prefix_rfl

/-- No event is lost. -/
theorem run_log_grows (s : State) (as : List (Int × Op)) : s.log <+: (Machine.run step s as).log :=
  Machine.run_inv (P := fun t => s.log <+: t.log) as (fun _ _ _ _ h hp => hp.trans (step_effect h).log_grows)
    List.prefix_rfl

/-- The only event of an intent that is executed. -/
theorem Executed.executions_eq {s : State} (h : Executed s) {id : IntentId} {result : Bytes 32 × UInt64}
    (hr : result ∈ s.executions id) : s.executions id = [result] := by
  rw [h] at hr ⊢
  cases hi : (s.intents id).bind (·.result) with
  | none =>
    rw [hi] at hr
    cases hr
  | some r =>
    rw [hi] at hr
    rw [List.mem_singleton.mp hr]
    rfl

/-- Every executed account has one event, with the blob id of its submission and its end epoch. -/
def State.ResultsCommitted (s : State) : Prop :=
  ∀ id intent, s.intents id = some intent → intent.executed = true →
    s.executions id = [(intent.committedBlobId, intent.endEpoch)] ∧
    ∃ m ∈ s.submissions, m.id = id ∧ m.commitment.blobId = intent.committedBlobId

theorem run_resultsCommitted (bumps : Key → UInt8) (rent : Nat → Nat) (systemOwned : Pubkey → Bool)
    (lamports : Key → Nat) (as : List (Int × Op)) :
    (Machine.run step (initial bumps rent systemOwned lamports) as).ResultsCommitted := by
  intro id intent hi hx
  obtain ⟨m, hm, hid, hblob, -⟩ := (run_recorded bumps rent systemOwned lamports as).intent id intent hi
  refine ⟨?_, m, hm, hid, hblob⟩
  rw [run_executed bumps rent systemOwned lamports as, hi]
  simp [IntentState.result, hx]

end Bosphor.Solana

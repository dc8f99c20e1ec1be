import Bosphor.Relayer.IntentIngest
import Mathlib.Data.List.MinMax
import Mathlib.Order.Basic

/-!
# The furthest hop

The status of a record and the furthest hop that was recorded. The status is
the last hop, whichever it is: ingest takes an intent for one that was never
stored when an earlier hop is recorded again (`status_regresses`).
`status_furthest` says when the two agree.
-/

namespace Bosphor.Relayer

/-- Where a hop stands on the round trip. -/
def IntentHop.order : IntentHop → Nat
  | .submitted => 0
  | .received => 1
  | .storedWalrus => 2
  | .recordedSui => 3
  | .proofSent => 4
  | .confirmed => 5

theorem IntentHop.order_injective : Function.Injective IntentHop.order := by
  intro a b h
  cases a <;> cases b <;> first | rfl | cases h

instance : LinearOrder IntentHop := LinearOrder.lift' IntentHop.order IntentHop.order_injective

/-- The record after some calls, one after the other. -/
def recordHops (id : IntentId) (calls : List HopCall) : Option IntentLifecycleRecord :=
  calls.foldl (fun record c => some (applyHop record id c.hop c.details c.now)) none

/-- The furthest of the hops that were recorded. -/
def furthest (calls : List HopCall) : Option IntentHop := (calls.map (·.hop)).max?

theorem furthest_eq_some {calls : List HopCall} {hop : IntentHop} :
    furthest calls = some hop ↔ (∃ c ∈ calls, c.hop = hop) ∧ ∀ c ∈ calls, c.hop ≤ hop := by
  rw [furthest, List.max?_eq_some_iff]
  simp only [List.mem_map, forall_exists_index, and_imp, forall_apply_eq_imp_iff₂]

/-- The furthest hop does not depend on the order of the calls. -/
theorem furthest_perm {calls calls' : List HopCall} (h : calls.Perm calls') : furthest calls = furthest calls' := by
  refine Option.ext fun hop => ?_
  rw [furthest_eq_some, furthest_eq_some]
  simp only [h.mem_iff]

/-! ## The record -/

variable {id : IntentId} {calls : List HopCall}

theorem recordHops_append (c : HopCall) :
    recordHops id (calls ++ [c]) = some (applyHop (recordHops id calls) id c.hop c.details c.now) := by
  rw [recordHops, List.foldl_append]
  rfl

/-- The status is the hop of the last call. -/
theorem recordHops_status : (recordHops id calls).map (·.status) = calls.getLast?.map (·.hop) := by
  rcases List.eq_nil_or_concat calls with rfl | ⟨before, c, rfl⟩
  · rfl
  · rw [List.concat_eq_append, recordHops_append, List.getLast?_concat]
    rfl

/-- A field is set once a call has set it. -/
theorem recordHops_has (field : LifecycleField) :
    (recordHops id calls).any (·.has field) = true ↔ ∃ c ∈ calls, c.details.has field = true := by
  induction calls using List.reverseRecOn with
  | nil => exact iff_of_false Bool.false_ne_true fun ⟨c, hc, _⟩ => List.not_mem_nil hc
  | append_singleton before c ih =>
    rw [recordHops_append, Option.any_some, applyHop_has, Bool.or_eq_true, ih]
    simp only [List.mem_append, List.mem_singleton, or_and_right, exists_or, exists_eq_left, or_comm]

/-- The calls together set all of the commitment. -/
structure CommitmentSet (calls : List HopCall) : Prop where
  committedBlobId : ∃ c ∈ calls, c.details.has .committedBlobId = true
  size : ∃ c ∈ calls, c.details.has .size = true
  deadline : ∃ c ∈ calls, c.details.has .deadline = true

/-- The commitment of an intent is known once the calls have set all of it. -/
theorem recordHops_commitment (id : IntentId) : (getCommitment (recordHops id calls)).isSome = true ↔
    CommitmentSet calls := by
  rw [getCommitment_isSome, recordHops_has, recordHops_has, recordHops_has]
  exact ⟨fun ⟨hblob, hsize, hdeadline⟩ => ⟨hblob, hsize, hdeadline⟩,
    fun h => ⟨h.committedBlobId, h.size, h.deadline⟩⟩

/-! ## Ingest -/

variable (cfg : IngestConfig)

/-- Ingest turns an intent with this record down as already executed, whatever it is given. -/
def RejectsExecuted (id : IntentId) (record : Option IntentLifecycleRecord) : Prop :=
  ∀ bytes appId, ∀ o : (∀ c, Except Unit (IngestCall.Answer c)), o (.getCommitment id) = .ok (getCommitment record) →
    (ingest cfg id bytes appId).result o = .ok (.rejected id .alreadyExecuted "intent already executed")

/-- A service whose clock is far ahead, and whose other calls fail. -/
def lateAnswers (record : Option IntentLifecycleRecord) (now : Nat) : ∀ c, Except Unit (IngestCall.Answer c)
  | .getCommitment _ => .ok (getCommitment record)
  | .now => .ok now
  | _ => .error ()

theorem ingest_result {bytes : List UInt8} {appId : Option String} {o : ∀ c, Except Unit (IngestCall.Answer c)}
    {commitment : Option IntentCommitment} (h : o (.getCommitment id) = .ok commitment) :
    (ingest cfg id bytes appId).result o = (commitment.elim (reject id .unknown "no pending intent for this id")
      (admitBytes cfg id bytes appId)).result o := by
  rw [ingest, Async.result_next ((Async.result_call _).trans h)]
  cases commitment <;> rfl

/-- Ingest turns an intent down as executed exactly when its commitment is known and its status says so. -/
theorem rejectsExecuted_iff {record : Option IntentLifecycleRecord} :
    RejectsExecuted cfg id record ↔ ∃ c, getCommitment record = some c ∧ isExecuted c.status = true := by
  constructor
  · intro h
    cases hc : getCommitment record with
    | none =>
      have hresult := h [] none (lateAnswers record 0) rfl
      rw [ingest_result cfg (o := lateAnswers record 0) rfl, hc] at hresult
      cases hresult
    | some c =>
      refine ⟨c, rfl, ?_⟩
      by_contra hno
      have hresult := h [] none (lateAnswers record (c.deadline + 1)) rfl
      have hnow : (ingestCall .now).result (lateAnswers record (c.deadline + 1)) = .ok (c.deadline + 1) := rfl
      rw [ingest_result cfg (o := lateAnswers record (c.deadline + 1)) rfl, hc, Option.elim_some,
        admitBytes, if_neg hno,
        Async.result_next hnow, if_pos (Nat.lt_succ_self c.deadline)] at hresult
      cases hresult
  · rintro ⟨c, hc, hexecuted⟩ bytes appId o ho
    rw [ingest_result cfg ho, hc, Option.elim_some, admitBytes, if_pos hexecuted]
    rfl

/-! ## The status and the furthest hop -/

/-- The status is the furthest hop, and ingest turns the intent down once it was stored. -/
structure TellsFurthest (id : IntentId) (calls : List HopCall) : Prop where
  status : (recordHops id calls).map (·.status) = furthest calls
  rejects : (∃ c ∈ calls, isExecuted c.hop = true) → RejectsExecuted cfg id (recordHops id calls)

/-- The last call is for a furthest hop; if that is one at or past `stored_walrus`, the commitment is known. -/
def LastIsFurthest (calls : List HopCall) : Prop :=
  ∀ last ∈ calls.getLast?, (∀ c ∈ calls, c.hop ≤ last.hop) ∧ (isExecuted last.hop = true → CommitmentSet calls)

theorem isExecuted_iff (hop : IntentHop) : isExecuted hop = true ↔ IntentHop.storedWalrus ≤ hop := by
  cases hop <;> decide

theorem rejects_iff {last : HopCall} (h : calls.getLast? = some last) :
    RejectsExecuted cfg id (recordHops id calls) ↔ isExecuted last.hop = true ∧ CommitmentSet calls := by
  have hstatus : (recordHops id calls).map (·.status) = some last.hop := by
    rw [recordHops_status, h]
    rfl
  rw [rejectsExecuted_iff, ← recordHops_commitment id]
  constructor
  · rintro ⟨c, hc, hexecuted⟩
    have hlast : some c.status = some last.hop := (getCommitment_status hc).symm.trans hstatus
    refine ⟨Option.some.inj hlast ▸ hexecuted, ?_⟩
    rw [hc]
    rfl
  · rintro ⟨hexecuted, hknown⟩
    obtain ⟨c, hc⟩ := Option.isSome_iff_exists.mp hknown
    have hlast : some c.status = some last.hop := (getCommitment_status hc).symm.trans hstatus
    exact ⟨c, hc, (Option.some.inj hlast).symm ▸ hexecuted⟩

/-- The status of a record is the furthest hop, and ingest goes by it, exactly after the calls whose last is for a
furthest hop. -/
theorem status_furthest (id : IntentId) (calls : List HopCall) : TellsFurthest cfg id calls ↔ LastIsFurthest calls := by
  rcases List.eq_nil_or_concat calls with rfl | ⟨before, last, rfl⟩
  · exact iff_of_true ⟨rfl, fun ⟨c, hc, _⟩ => absurd hc List.not_mem_nil⟩ fun _ h => nomatch h
  rw [List.concat_eq_append]
  have hlast : (before ++ [last]).getLast? = some last := List.getLast?_concat
  have hmem : last ∈ before ++ [last] := List.mem_append_right before (List.mem_singleton_self last)
  have hstatus : (recordHops id (before ++ [last])).map (·.status) = some last.hop := by
    rw [recordHops_status, hlast]
    rfl
  constructor
  · rintro ⟨hfurthest, hrejects⟩ _ h
    obtain rfl : last = _ := Option.some.inj (hlast.symm.trans h)
    rw [hstatus, eq_comm, furthest_eq_some] at hfurthest
    exact ⟨hfurthest.2, fun hexecuted => ((rejects_iff cfg hlast).mp (hrejects ⟨last, hmem, hexecuted⟩)).2⟩
  · intro h
    obtain ⟨hle, hknown⟩ := h last hlast
    refine ⟨?_, ?_⟩
    · rw [hstatus, eq_comm, furthest_eq_some]
      exact ⟨⟨last, hmem, rfl⟩, hle⟩
    · rintro ⟨c, hc, hexecuted⟩
      -- no hop is past the last one, which is then past `stored_walrus` too
      have hpast : isExecuted last.hop = true :=
        (isExecuted_iff _).mpr (((isExecuted_iff _).mp hexecuted).trans (hle c hc))
      exact (rejects_iff cfg hlast).mpr ⟨hpast, hknown hpast⟩

/-- An intent that was stored, and whose delivery is recorded again by the next attempt. -/
def exampleRetried : List HopCall :=
  [{ hop := .submitted, details := { committedBlobId := some "0x00", size := some 3, deadline := some 9000 }, now := 1 },
    { hop := .received, now := 2 }, { hop := .storedWalrus, now := 3 }, { hop := .received, now := 4 }]

/-- Its status falls back to `received`, and ingest takes it for one that was never stored. -/
theorem status_regresses : ¬ ∀ id calls, TellsFurthest {} id calls := by
  intro h
  have hstatus := (h "0x01" exampleRetried).status
  have hback : (recordHops "0x01" exampleRetried).map (·.status) = some .received := rfl
  have hfurthest : furthest exampleRetried = some .storedWalrus := by decide
  rw [hback, hfurthest] at hstatus
  cases hstatus

end Bosphor.Relayer

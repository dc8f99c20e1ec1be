import Bosphor.Relayer.StagedIntentStore

/-!
# The lifecycle store

The hops of an intent's round trip and the record they are merged into. The
commitment that ingest and the store pipeline rely on is read off that record.
-/

namespace Bosphor.Relayer

/-- The six hops of a round trip. -/
inductive IntentHop where
  | submitted
  | received
  | storedWalrus
  | recordedSui
  | proofSent
  | confirmed
  deriving DecidableEq, Repr

/-- What is known at a hop. -/
structure HopDetails where
  txHash : Option String := none
  sender : Option String := none
  blobId : Option String := none
  suiObjectId : Option String := none
  endEpoch : Option Nat := none
  committedBlobId : Option String := none
  size : Option Nat := none
  deadline : Option Nat := none
  walCostMist : Option String := none
  timestamp : Option Nat := none
  deriving DecidableEq

structure IntentHopRecord where
  hop : IntentHop
  timestamp : Nat
  txHash : Option String
  deriving DecidableEq

/-- The lifecycle of one intent. -/
structure IntentLifecycleRecord where
  intentId : IntentId
  status : IntentHop
  hops : List IntentHopRecord
  sender : Option String := none
  blobId : Option String := none
  suiObjectId : Option String := none
  endEpoch : Option Nat := none
  committedBlobId : Option String := none
  size : Option Nat := none
  deadline : Option Nat := none
  walCostMist : Option String := none
  createdAt : Nat
  updatedAt : Nat
  deriving DecidableEq

/-- The commitment of an intent, as its record has it. -/
structure IntentCommitment where
  intentId : IntentId
  committedBlobId : String
  size : Nat
  deadline : Nat
  sender : Option String
  status : IntentHop
  deriving DecidableEq

/-- The hops with the entry of `hop` replaced where it first stands, or added at the end. -/
def recordHopEntry (hops : List IntentHopRecord) (entry : IntentHopRecord) : List IntentHopRecord :=
  match hops with
  | [] => [entry]
  | h :: rest => if h.hop = entry.hop then entry :: rest else h :: recordHopEntry rest entry

/-- The record with a hop folded in: what the hop knows overwrites what the record had. -/
def applyHop (existing : Option IntentLifecycleRecord) (intentId : IntentId) (hop : IntentHop) (details : HopDetails)
    (now : Nat) : IntentLifecycleRecord :=
  let timestamp := details.timestamp.getD now
  let record := existing.getD
    { intentId := intentId, status := hop, hops := [], createdAt := timestamp, updatedAt := timestamp }
  { record with
    hops := recordHopEntry record.hops ⟨hop, timestamp, details.txHash⟩
    status := hop
    updatedAt := timestamp
    sender := details.sender.orElse fun _ => record.sender
    blobId := details.blobId.orElse fun _ => record.blobId
    suiObjectId := details.suiObjectId.orElse fun _ => record.suiObjectId
    endEpoch := details.endEpoch.orElse fun _ => record.endEpoch
    committedBlobId := details.committedBlobId.orElse fun _ => record.committedBlobId
    size := details.size.orElse fun _ => record.size
    deadline := details.deadline.orElse fun _ => record.deadline
    walCostMist := details.walCostMist.orElse fun _ => record.walCostMist }

/-- A call of `recordHop`. -/
structure HopCall where
  hop : IntentHop
  details : HopDetails := {}
  now : Nat

/-- The commitment of a record, if all of it is known. -/
def getCommitment (record : Option IntentLifecycleRecord) : Option IntentCommitment := do
  let r ← record
  let committedBlobId ← r.committedBlobId
  let size ← r.size
  let deadline ← r.deadline
  return ⟨r.intentId, committedBlobId, size, deadline, r.sender, r.status⟩

theorem recordHopEntry_hops {hops : List IntentHopRecord} {entry : IntentHopRecord} {hop : IntentHop} :
    (∃ h ∈ recordHopEntry hops entry, h.hop = hop) ↔ hop = entry.hop ∨ ∃ h ∈ hops, h.hop = hop := by
  induction hops with
  | nil => simp [recordHopEntry, eq_comm]
  | cons h rest ih =>
    unfold recordHopEntry
    split
    · rename_i hsame
      simp only [List.exists_mem_cons_iff, hsame, eq_comm (a := hop)]
      exact ⟨fun hx => hx.imp_right Or.inr, fun hx => hx.elim Or.inl id⟩
    · simp only [List.exists_mem_cons_iff, ih]
      exact or_left_comm

/-- The fields of a record that hops set. -/
inductive LifecycleField where
  | sender
  | blobId
  | suiObjectId
  | endEpoch
  | committedBlobId
  | size
  | deadline
  deriving DecidableEq

/-- Whether a field of the record is set. -/
def IntentLifecycleRecord.has (r : IntentLifecycleRecord) : LifecycleField → Bool
  | .sender => r.sender.isSome
  | .blobId => r.blobId.isSome
  | .suiObjectId => r.suiObjectId.isSome
  | .endEpoch => r.endEpoch.isSome
  | .committedBlobId => r.committedBlobId.isSome
  | .size => r.size.isSome
  | .deadline => r.deadline.isSome

/-- Whether a hop sets a field. -/
def HopDetails.has (d : HopDetails) : LifecycleField → Bool
  | .sender => d.sender.isSome
  | .blobId => d.blobId.isSome
  | .suiObjectId => d.suiObjectId.isSome
  | .endEpoch => d.endEpoch.isSome
  | .committedBlobId => d.committedBlobId.isSome
  | .size => d.size.isSome
  | .deadline => d.deadline.isSome

theorem orElse_isSome {α : Type} (a b : Option α) : (a.orElse fun _ => b).isSome = (a.isSome || b.isSome) := by
  cases a <;> rfl

section

variable {existing : Option IntentLifecycleRecord} {intentId : IntentId} {hop : IntentHop} {details : HopDetails}
  {now : Nat}

/-- The hops of the merged record. -/
theorem applyHop_hops {hop' : IntentHop} : (∃ h ∈ (applyHop existing intentId hop details now).hops, h.hop = hop') ↔
    hop' = hop ∨ ∃ r, existing = some r ∧ ∃ h ∈ r.hops, h.hop = hop' := by
  refine recordHopEntry_hops.trans (or_congr_right ?_)
  cases existing with
  | none => simp
  | some r => simp

/-- A field of the merged record is set if the hop sets it, or it was set. -/
theorem applyHop_has (field : LifecycleField) : (applyHop existing intentId hop details now).has field =
    (details.has field || existing.any (·.has field)) := by
  cases field <;> cases existing <;> exact orElse_isSome ..

end

/-- The commitment is known once all of its fields are. -/
theorem getCommitment_isSome {record : Option IntentLifecycleRecord} : (getCommitment record).isSome = true ↔
    record.any (·.has .committedBlobId) = true ∧ record.any (·.has .size) = true ∧
      record.any (·.has .deadline) = true := by
  cases record with
  | none => simp [getCommitment]
  | some r =>
    show (getCommitment (some r)).isSome ↔ r.committedBlobId.isSome ∧ r.size.isSome ∧ r.deadline.isSome
    cases hblob : r.committedBlobId <;> cases hsize : r.size <;> cases hdeadline : r.deadline <;>
      simp [getCommitment, hblob, hsize, hdeadline]

theorem getCommitment_status {record : Option IntentLifecycleRecord} {c : IntentCommitment}
    (h : getCommitment record = some c) : record.map (·.status) = some c.status := by
  simp only [getCommitment, Option.bind_eq_bind, Option.bind_eq_some_iff, Option.pure_def, Option.some.injEq] at h
  obtain ⟨r, rfl, -, -, -, -, -, -, rfl⟩ := h
  rfl

end Bosphor.Relayer

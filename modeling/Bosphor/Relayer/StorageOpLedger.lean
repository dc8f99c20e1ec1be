import Bosphor.Lib.Host
import Bosphor.Relayer.Store

/-!
# The ledger of storage operations

The durable ledger of completed stores: what an entry says, and the two
programs that write it, each call of which may fail: `recordCompletedStore`,
which the pipeline runs inline, and `backfill`, which runs it for the completed
stores that are not marked yet. A completion is counted after an insert that
inserted it, and a row is marked after an insert that answered (`Booked`).
-/

namespace Bosphor.Relayer.StorageOpLedger

open Async

/-- One completed storage op. -/
structure StorageOpEntry where
  intentId : IntentId
  srcEid : Option Nat
  sender : Option String
  size : Option Nat
  blobId : Option String
  walrusBlobId : Option String
  walrusObjectId : Option String
  endEpoch : Option Nat
  appId : Option String
  network : String
  storeDigest : Option String
  createdAt : Nat
  storedAt : Nat
  deriving DecidableEq

/-- What a writer knows of a completed store. -/
structure CompletedStore where
  row : StagedIntentRow
  sender : Option String := none
  committedBlobId : Option String := none
  walrusBlobId : Option String := none
  walrusObjectId : Option String := none
  endEpoch : Option Nat := none
  storeDigest : Option String := none

/-- Build the ledger entry for a completed store. -/
def buildLedgerEntry (completed : CompletedStore) (network : String) (now : Nat) : StorageOpEntry :=
  let row := completed.row
  let digest := completed.storeDigest.orElse fun _ => row.storeDigest
  { intentId := row.intentId
    srcEid := row.srcEid
    sender := completed.sender
    size := row.size
    blobId := completed.committedBlobId.orElse fun _ => row.committedBlobId
    walrusBlobId := completed.walrusBlobId.orElse fun _ => row.walrusBlobId
    walrusObjectId := completed.walrusObjectId.orElse fun _ => row.walrusObjectId
    endEpoch := completed.endEpoch.orElse fun _ => row.endEpoch
    appId := row.appId
    network := network
    storeDigest := if digest = some ALREADY_RECORDED then none else digest
    createdAt := row.createdAt
    storedAt := row.storedAt.getD (if row.storeDigest.any (· ≠ "") then row.updatedAt else now) }

/-- The calls that the writers await. -/
inductive LedgerCall where
  | now
  /-- `INSERT … ON CONFLICT (intent_id) DO NOTHING RETURNING intent_id`: whether this call inserted the row. -/
  | record (entry : StorageOpEntry)
  /-- The counters of the process. -/
  | recordLedgerOp (entry : StorageOpEntry)
  | markLedgered (intentId : IntentId)
  | pendingLedger (limit : Nat)
  | getCommitment (intentId : IntentId)

abbrev LedgerCall.Answer : LedgerCall → Type
  | .now => Nat
  | .record _ => Bool
  | .recordLedgerOp _ => Unit
  | .markLedgered _ => Unit
  | .pendingLedger _ => List StagedIntentRow
  | .getCommitment _ => Option IntentCommitment

/-- A program of the ledger service. -/
abbrev Writing := Async LedgerCall LedgerCall.Answer Unit

abbrev ledgerCall (c : LedgerCall) : Writing c.Answer := Async.call c

/-- What a writer was told. -/
abbrev Heard := History LedgerCall LedgerCall.Answer Unit

variable (network : String)

/-- Record a completed store. Never throws: `false` leaves the write to the backfill. -/
def recordCompletedStore (completed : CompletedStore) : Writing Bool :=
  tryCatch (do
    let now ← ledgerCall .now
    let entry := buildLedgerEntry completed network now
    let inserted ← ledgerCall (.record entry)
    if inserted then ledgerCall (.recordLedgerOp entry)
    ledgerCall (.markLedgered completed.row.intentId)
    return true) fun _ => return false

/-- The commitment of a row that is backfilled; without an answer, the row is left for later. -/
def commitmentOf (id : IntentId) : Writing (Option (Option IntentCommitment)) :=
  tryCatch (do
    let c ← ledgerCall (.getCommitment id)
    return some c) fun _ => return none

/-- How many of the rows were recorded. -/
def backfillRows : List StagedIntentRow → Writing Nat
  | [] => return 0
  | row :: rows => do
    match ← commitmentOf row.intentId with
    | none => backfillRows rows
    | some c => do
      let recorded ← recordCompletedStore network
        { row := row, sender := c.bind (·.sender), committedBlobId := c.map (·.committedBlobId) }
      let others ← backfillRows rows
      return (if recorded then 1 else 0) + others

/-- Backfill completed stores the ledger has not recorded yet. -/
def backfill (limit : Nat) : Writing Nat :=
  tryCatch (do
    let rows ← ledgerCall (.pendingLedger limit)
    backfillRows network rows) fun _ => return 0

/-! ## What a writer has heard when it counts and marks -/

/-- A completion is counted right after an insert that inserted it, and a row is marked after one that answered. -/
def Booked (heard : Heard) : LedgerCall → Prop
  | .recordLedgerOp entry => ∃ h, heard = h ++ [⟨.record entry, .ok true⟩]
  | .markLedgered id => ∃ entry inserted, ⟨.record entry, .ok inserted⟩ ∈ heard ∧ entry.intentId = id
  | _ => True

variable {network} {h : Heard}

theorem recordCompletedStore_booked (completed : CompletedStore) :
    wp Booked (fun _ _ => True) h (recordCompletedStore network completed) := by
  unfold recordCompletedStore
  rw [wp_tryCatch, wp_bind, wp_call]
  refine ⟨trivial, fun r => ?_⟩
  cases r with
  | error err => trivial
  | ok now =>
    have hmark : ∀ (h : Heard) entry inserted, entry.intentId = completed.row.intentId →
        ⟨.record entry, .ok inserted⟩ ∈ h → wp Booked (orElse Booked (fun _ _ => True) fun _ => pure false) h
          (ledgerCall (.markLedgered completed.row.intentId) >>= fun _ => (pure true : Writing Bool)) := by
      intro h entry inserted hid hmem
      rw [wp_bind]
      exact (wp_call _).mpr ⟨⟨entry, inserted, hmem, hid⟩, fun r => by cases r <;> trivial⟩
    rw [andThen_ok, wp_bind, wp_call]
    refine ⟨trivial, fun r => ?_⟩
    cases r with
    | error err => trivial
    | ok inserted =>
      rw [andThen_ok]
      cases inserted with
      | false => exact hmark _ _ false rfl (List.mem_append_right _ (List.mem_singleton_self _))
      | true =>
        simp only [if_true]
        rw [wp_bind]
        refine (wp_call _).mpr ⟨⟨_, rfl⟩, fun r => ?_⟩
        cases r with
        | error err => trivial
        | ok _ =>
          exact hmark _ _ true rfl (List.mem_append_left _ (List.mem_append_right _ (List.mem_singleton_self _)))

theorem backfillRows_booked (rows : List StagedIntentRow) :
    wp Booked (fun _ _ => True) h (backfillRows network rows) := by
  induction rows generalizing h with
  | nil => trivial
  | cons row rows ih =>
    unfold backfillRows
    rw [wp_bind]
    have hasked : wp Booked (fun _ _ => True) h (commitmentOf row.intentId) := by
      unfold commitmentOf
      rw [wp_tryCatch, wp_bind, wp_call]
      exact ⟨trivial, fun r => by cases r <;> trivial⟩
    refine wp_mono hasked (fun _ _ => id) fun h r _ => ?_
    cases r with
    | error err => trivial
    | ok found =>
      rw [andThen_ok]
      cases found with
      | none => exact ih
      | some c =>
        simp only
        rw [wp_bind]
        refine wp_mono (recordCompletedStore_booked _) (fun _ _ => id) fun h r _ => ?_
        cases r with
        | error err => trivial
        | ok recorded =>
          rw [andThen_ok, wp_bind]
          refine wp_mono ih (fun _ _ => id) fun h r _ => ?_
          cases r <;> trivial

theorem backfill_booked (limit : Nat) : wp Booked (fun _ _ => True) h (backfill network limit) := by
  unfold backfill
  rw [wp_tryCatch, wp_bind, wp_call]
  refine ⟨trivial, fun r => ?_⟩
  cases r with
  | error err => trivial
  | ok rows =>
    rw [andThen_ok]
    refine wp_mono (backfillRows_booked rows) (fun _ _ => id) fun h r _ => ?_
    cases r <;> trivial

end Bosphor.Relayer.StorageOpLedger

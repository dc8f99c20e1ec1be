import Bosphor.Lib.Bytes
import Bosphor.Lib.ReadCommitted
import Mathlib.Algebra.BigOperators.Finprod

/-!
# The staged intent store

The durable store queue, the table `staged_intent`, and the statements that
write it, each as the SQL of its method: which row it goes for, the condition
under which it writes, and the columns it sets. Times are epoch milliseconds.
`Op.run` is a statement that runs alone; side by side they run as statements
under READ COMMITTED.
-/

namespace Bosphor.Relayer

abbrev IntentId := String

/-- The lease identity of a relayer process. -/
abbrev Claimant := String

/-- The coarse lifecycle of a row. -/
inductive StagedState where
  | active
  | done
  | dead
  | expired
  deriving DecidableEq, Repr

/-- A row of `staged_intent`, without its key. -/
structure Row where
  committedBlobId : Option String := none
  size : Option Nat := none
  deadline : Option Nat := none
  srcEid : Option Nat := none
  received : Bool := false
  deliveryDigest : Option String := none
  bytes : Option (List UInt8) := none
  blobId : Option String := none
  walrusObjectId : Option String := none
  walrusBlobId : Option String := none
  endEpoch : Option Nat := none
  storageEpochs : Option Nat := none
  storeDigest : Option String := none
  returned : Bool := false
  state : StagedState := .active
  attempts : Nat := 0
  nextAttemptAt : Nat
  claimedBy : Option Claimant := none
  leaseExpiresAt : Option Nat := none
  lastError : Option String := none
  appId : Option String := none
  storedAt : Option Nat := none
  ledgered : Bool := false
  bytesRecoveryAt : Option Nat := none
  createdAt : Nat
  updatedAt : Nat
  deriving DecidableEq, Repr

/-- `staged_intent`, by its primary key. -/
abbrev Rows := IntentId → Option Row

/-- `done`, `dead` or `expired`. -/
def Row.Terminal (r : Row) : Prop := r.state ≠ .active

/-- Out-of-band bytes that were bound to a commitment. -/
structure StagedBytes where
  bytes : List UInt8
  blobId : String
  size : Nat
  appId : Option String := none
  deadline : Option Nat := none

/-- What the Sui `IntentReceived` event says. -/
structure ReceivedDetails where
  srcEid : Nat
  committedBlobId : String
  deadline : Nat
  deliveryDigest : Option String := none
  storageEpochs : Option Nat := none

/-- A Walrus upload that succeeded. -/
structure UploadResult where
  walrusObjectId : String
  walrusBlobId : String
  endEpoch : Nat
  deriving DecidableEq

namespace StagedIntentStore

/-- What a row counts for in the staged bytes. -/
def stagedSize (r : Option Row) : Nat := (r.filter (·.bytes.isSome)).elim 0 (·.size.getD 0)

/-- The total size of the staged bytes. -/
noncomputable def stagedBytesTotal (rows : Rows) : Nat := ∑ᶠ k, stagedSize (rows k)

/-- The total size of the staged bytes, without one intent's own. -/
noncomputable def stagedBytesTotalExcluding (rows : Rows) (id : IntentId) : Nat :=
  ∑ᶠ k, if k = id then 0 else ((rows k).filter (·.bytes.isSome)).elim 0 (·.size.getD 0)

/-! ## The columns that are set -/

/-- The row `upsertBytes` inserts. -/
def bytesInserted (blob : StagedBytes) (now : Nat) : Row where
  bytes := some blob.bytes
  blobId := some blob.blobId
  size := some blob.size
  appId := blob.appId
  deadline := blob.deadline
  nextAttemptAt := now
  createdAt := now
  updatedAt := now

/-- The row `upsertBytes` finds, with the bytes merged in: the delivered deadline wins. -/
def bytesMerged (blob : StagedBytes) (now : Nat) (r : Row) : Row :=
  { r with
    bytes := some blob.bytes
    blobId := some blob.blobId
    size := some blob.size
    updatedAt := now
    appId := blob.appId.orElse fun _ => r.appId
    deadline := r.deadline.orElse fun _ => blob.deadline }

/-- The row `markReceived` inserts. -/
def receivedInserted (details : ReceivedDetails) (now : Nat) : Row where
  received := true
  srcEid := some details.srcEid
  committedBlobId := some details.committedBlobId
  deadline := some details.deadline
  deliveryDigest := details.deliveryDigest
  storageEpochs := details.storageEpochs
  nextAttemptAt := now
  createdAt := now
  updatedAt := now

/-- The row `markReceived` finds, flagged. -/
def receivedMerged (details : ReceivedDetails) (now : Nat) (r : Row) : Row :=
  { r with
    received := true
    srcEid := some details.srcEid
    committedBlobId := some details.committedBlobId
    deadline := some details.deadline
    deliveryDigest := details.deliveryDigest.orElse fun _ => r.deliveryDigest
    storageEpochs := details.storageEpochs.orElse fun _ => r.storageEpochs
    updatedAt := now }

/-- The row under a claim lease. -/
def claimed (claimant : Claimant) (now leaseMs : Nat) (r : Row) : Row :=
  { r with claimedBy := some claimant, leaseExpiresAt := some (now + leaseMs), updatedAt := now }

def uploaded (up : UploadResult) (now : Nat) (r : Row) : Row :=
  { r with
    walrusObjectId := some up.walrusObjectId
    walrusBlobId := some up.walrusBlobId
    endEpoch := some up.endEpoch
    updatedAt := now }

def stored (storeDigest : String) (now : Nat) (r : Row) : Row :=
  { r with storeDigest := some storeDigest, storedAt := some now, updatedAt := now }

def done (now : Nat) (r : Row) : Row := { r with state := .done, bytes := none, updatedAt := now }

def dead (lastError : String) (now : Nat) (r : Row) : Row :=
  { r with state := .dead, bytes := none, lastError := some lastError, updatedAt := now }

/-- The row behind a backoff, its claim released. -/
def rescheduled (attempts nextAttemptAt : Nat) (lastError : String) (now : Nat) (r : Row) : Row :=
  { r with
    attempts := attempts
    nextAttemptAt := nextAttemptAt
    lastError := some lastError
    updatedAt := now
    claimedBy := none
    leaseExpiresAt := none }

def expired (now : Nat) (r : Row) : Row := { r with state := .expired, bytes := none, updatedAt := now }

/-! ## The conditions -/

/-- Whether `drainDue` may claim the row: due, actionable, and not leased to another live claimant. -/
def due (now : Nat) (claimant : Claimant) (r : Row) : Bool :=
  r.state == .active && r.nextAttemptAt ≤ now && r.received && (r.bytes.isSome || r.walrusObjectId.isSome) &&
    (r.claimedBy.isNone || r.claimedBy == some claimant || r.leaseExpiresAt.any (· < now))

theorem due_active {now : Nat} {claimant : Claimant} {r : Row} (h : due now claimant r = true) :
    r.state = .active := by
  simp only [due, Bool.and_eq_true, beq_iff_eq] at h
  exact h.1.1.1.1

/-- Whether `claimForByteRecovery` finds the row. -/
def recoverable (now graceMs : Nat) (r : Row) : Bool :=
  r.state == .active && r.received && r.bytes.isNone && r.committedBlobId.isSome && r.walrusObjectId.isNone &&
    r.storeDigest.isNone && r.deadline.all (now < ·) && r.bytesRecoveryAt.getD (r.createdAt + graceMs) ≤ now

/-- Whether the row's deadline has passed. -/
def overdue (now : Nat) (r : Row) : Bool := r.state == .active && r.deadline.any (· < now)

/-- Whether the row was buffered before `cutoff` and never received. -/
def unreceived (cutoff : Nat) (r : Row) : Bool :=
  r.state == .active && !r.received && r.deadline.isNone && r.createdAt < cutoff

/-- Whether a terminal row is past retention; a completed store is kept until it is ledgered. -/
def purgeable (cutoff : Nat) (r : Row) : Bool :=
  r.state != .active && r.updatedAt < cutoff && (r.storeDigest.isNone || r.ledgered)

/-! ## The statements -/

open ReadCommitted (Statement)

/-- What an `UPDATE` makes of the latest version of a row. -/
def rewrite (guard : Row → Bool) (set : Row → Row) (latest : Option Row) : Option (Option Row) :=
  (latest.filter guard).map fun r => some (set r)

/-- `UPDATE … SET set WHERE intent_id = id AND guard`. -/
def updateRow (id : IntentId) (guard : Row → Bool) (set : Row → Row) : Statement IntentId Row where
  targets snapshot _ k := k = id ∧ ∃ r, snapshot k = some r ∧ guard r = true
  write _ k latest := if k = id then rewrite guard set latest else none

/-- `UPDATE … SET set WHERE guard`. -/
def updateRows (guard : Row → Bool) (set : Row → Row) : Statement IntentId Row where
  targets snapshot _ k := ∃ r, snapshot k = some r ∧ guard r = true
  write _ _ latest := rewrite guard set latest

/-- `INSERT inserted … ON CONFLICT (intent_id) DO UPDATE SET merged WHERE state = 'active'`, for snapshots that
`admits`. -/
def upsert (id : IntentId) (inserted : Row) (merged : Row → Row) (admits : Rows → Prop) : Statement IntentId Row where
  targets snapshot _ k := k = id ∧ admits snapshot
  write _ k latest := if k = id then
    match latest with
    | none => some (some inserted)
    | some r => if r.state = .active then some (some (merged r)) else none
  else none

/-- The statements that write the table, with their arguments and the time. -/
inductive Op where
  | upsertBytes (id : IntentId) (blob : StagedBytes) (maxStagedBytes : Option Nat) (now : Nat)
  | markReceived (id : IntentId) (details : ReceivedDetails) (now : Nat)
  | rescheduleByteRecovery (id : IntentId) (nextAt now : Nat)
  | drainDue (claimant : Claimant) (leaseMs now limit : Nat)
  | persistUpload (id : IntentId) (up : UploadResult) (now : Nat)
  | persistStore (id : IntentId) (storeDigest : String) (now : Nat)
  | markLedgered (id : IntentId)
  | markReturned (id : IntentId) (now : Nat)
  | freeBytes (id : IntentId) (now : Nat)
  | markDone (id : IntentId) (now : Nat)
  | markDead (id : IntentId) (lastError : String) (now : Nat)
  | reschedule (id : IntentId) (attempts nextAttemptAt : Nat) (lastError : String) (now : Nat)
  | expireDue (now : Nat)
  | expireUnreceived (cutoff now : Nat)
  | purgeTerminal (cutoff : Nat)

/-- The statement of a method. Most take any row of their intent, whatever its state. -/
def Op.statement : Op → Statement IntentId Row
  | .upsertBytes id blob maxStagedBytes now =>
    upsert id (bytesInserted blob now) (bytesMerged blob now) fun snapshot =>
      ∀ cap ∈ maxStagedBytes, stagedBytesTotalExcluding snapshot id + blob.size ≤ cap
  | .markReceived id details now =>
    upsert id (receivedInserted details now) (receivedMerged details now) fun _ => True
  | .rescheduleByteRecovery id nextAt now =>
    updateRow id (·.state == .active) fun r => { r with bytesRecoveryAt := some nextAt, updatedAt := now }
  | .drainDue claimant leaseMs now limit =>
    -- the snapshot's oldest due rows are locked first, so any of them may be: others are skipped when locked
    { updateRows (due now claimant) (claimed claimant now leaseMs) with
      targets := fun snapshot locked k =>
        locked.length < limit ∧ ∃ r, snapshot k = some r ∧ due now claimant r = true }
  | .persistUpload id up now => updateRow id (fun _ => true) (uploaded up now)
  | .persistStore id storeDigest now => updateRow id (fun _ => true) (stored storeDigest now)
  | .markLedgered id => updateRow id (fun _ => true) fun r => { r with ledgered := true }
  | .markReturned id now => updateRow id (fun _ => true) fun r => { r with returned := true, updatedAt := now }
  | .freeBytes id now => updateRow id (fun _ => true) fun r => { r with bytes := none, updatedAt := now }
  | .markDone id now => updateRow id (fun _ => true) (done now)
  | .markDead id lastError now => updateRow id (fun _ => true) (dead lastError now)
  | .reschedule id attempts nextAttemptAt lastError now =>
    updateRow id (fun _ => true) (rescheduled attempts nextAttemptAt lastError now)
  | .expireDue now => updateRows (overdue now) (expired now)
  | .expireUnreceived cutoff now => updateRows (unreceived cutoff) (expired now)
  | .purgeTerminal cutoff =>
    { updateRows (purgeable cutoff) id with
      write := fun _ _ latest => (latest.filter (purgeable cutoff)).map fun _ => none }

theorem rewrite_some {guard : Row → Bool} {set : Row → Row} {latest : Option Row} {v : Option Row} :
    rewrite guard set latest = some v ↔ ∃ r, latest = some r ∧ guard r = true ∧ v = some (set r) := by
  cases latest with
  | none => simp [rewrite]
  | some r =>
    by_cases h : guard r = true
    · rw [rewrite, Option.filter_some_pos h]
      simp [h, eq_comm (b := v)]
    · rw [rewrite, Option.filter_some_neg (Bool.eq_false_of_not_eq_true h)]
      simp [h]

theorem updateRow_some {id : IntentId} {guard : Row → Bool} {set : Row → Row} {rows : Rows} {k : IntentId}
    {latest v : Option Row} : (updateRow id guard set).write rows k latest = some v ↔
      k = id ∧ ∃ r, latest = some r ∧ guard r = true ∧ v = some (set r) := by
  show (if k = id then rewrite guard set latest else none) = some v ↔ _
  split
  · rename_i h
    simp only [rewrite_some, h, true_and]
  · rename_i h
    simp only [reduceCtorEq, h, false_and]

theorem upsert_some {id : IntentId} {inserted : Row} {merged : Row → Row} {admits : Rows → Prop} {rows : Rows}
    {k : IntentId} {latest v : Option Row} : (upsert id inserted merged admits).write rows k latest = some v ↔
      k = id ∧ ((latest = none ∧ v = some inserted) ∨
        ∃ r, latest = some r ∧ r.state = .active ∧ v = some (merged r)) := by
  show (if k = id then _ else none) = some v ↔ _
  split
  · rename_i h
    cases latest with
    | none => simp [h, eq_comm]
    | some r =>
      by_cases ha : r.state = .active
      · simp [h, ha, eq_comm]
      · simp [h, ha]
  · rename_i h
    simp only [reduceCtorEq, h, false_and]

theorem purge_some {cutoff : Nat} {rows : Rows} {k : IntentId} {latest v : Option Row} :
    (Op.purgeTerminal cutoff).statement.write rows k latest = some v ↔
      ∃ r, latest = some r ∧ purgeable cutoff r = true ∧ v = none := by
  show (latest.filter (purgeable cutoff)).map (fun _ => none) = some v ↔ _
  cases latest with
  | none => simp
  | some r =>
    by_cases h : purgeable cutoff r = true
    · rw [Option.filter_some_pos h]
      simp [h, eq_comm (b := v)]
    · rw [Option.filter_some_neg (Bool.eq_false_of_not_eq_true h)]
      simp [h]

/-- What a statement can do to a row's state and its bytes. -/
inductive Touches : Option Row → Option Row → Prop
  | inserted {r : Row} (h : r.state = .active) : Touches none (some r)
  | worked {r r' : Row} (h : r.state = .active) (h' : r'.state = .active) : Touches (some r) (some r')
  | noted {r r' : Row} (h : r'.state = r.state) (hbytes : r'.bytes = none ∨ r'.bytes = r.bytes) :
    Touches (some r) (some r')
  | settled {r r' : Row} (h : r'.Terminal) (hbytes : r'.bytes = none) : Touches (some r) (some r')
  | deleted {r : Row} (h : r.Terminal) : Touches (some r) none

theorem Op.touches {op : Op} {rows : Rows} {k : IntentId} {latest v : Option Row}
    (h : op.statement.write rows k latest = some v) : Touches latest v := by
  cases op with
  | upsertBytes id blob cap now =>
    obtain ⟨-, ⟨rfl, rfl⟩ | ⟨r, rfl, ha, rfl⟩⟩ := upsert_some.mp h
    · exact .inserted rfl
    · exact .worked ha ha
  | markReceived id details now =>
    obtain ⟨-, ⟨rfl, rfl⟩ | ⟨r, rfl, ha, rfl⟩⟩ := upsert_some.mp h
    · exact .inserted rfl
    · exact .worked ha ha
  | rescheduleByteRecovery id nextAt now =>
    obtain ⟨-, r, rfl, ha, rfl⟩ := updateRow_some.mp h
    exact .noted rfl (Or.inr rfl)
  | drainDue claimant leaseMs now limit =>
    obtain ⟨r, rfl, hdue, rfl⟩ := rewrite_some.mp h
    exact .noted rfl (Or.inr rfl)
  | persistUpload id up now =>
    obtain ⟨-, r, rfl, -, rfl⟩ := updateRow_some.mp h
    exact .noted rfl (Or.inr rfl)
  | persistStore id storeDigest now =>
    obtain ⟨-, r, rfl, -, rfl⟩ := updateRow_some.mp h
    exact .noted rfl (Or.inr rfl)
  | markLedgered id =>
    obtain ⟨-, r, rfl, -, rfl⟩ := updateRow_some.mp h
    exact .noted rfl (Or.inr rfl)
  | markReturned id now =>
    obtain ⟨-, r, rfl, -, rfl⟩ := updateRow_some.mp h
    exact .noted rfl (Or.inr rfl)
  | freeBytes id now =>
    obtain ⟨-, r, rfl, -, rfl⟩ := updateRow_some.mp h
    exact .noted rfl (Or.inl rfl)
  | markDone id now =>
    obtain ⟨-, r, rfl, -, rfl⟩ := updateRow_some.mp h
    exact .settled StagedState.noConfusion rfl
  | markDead id lastError now =>
    obtain ⟨-, r, rfl, -, rfl⟩ := updateRow_some.mp h
    exact .settled StagedState.noConfusion rfl
  | reschedule id attempts nextAttemptAt lastError now =>
    obtain ⟨-, r, rfl, -, rfl⟩ := updateRow_some.mp h
    exact .noted rfl (Or.inr rfl)
  | expireDue now =>
    obtain ⟨r, rfl, -, rfl⟩ := rewrite_some.mp h
    exact .settled StagedState.noConfusion rfl
  | expireUnreceived cutoff now =>
    obtain ⟨r, rfl, -, rfl⟩ := rewrite_some.mp h
    exact .settled StagedState.noConfusion rfl
  | purgeTerminal cutoff =>
    obtain ⟨r, rfl, hp, rfl⟩ := purge_some.mp h
    simp only [purgeable, Bool.and_eq_true, bne_iff_ne] at hp
    exact .deleted hp.1.1

/-- A statement that runs alone. -/
def Op.run (op : Op) (rows : Rows) : Rows := fun k => (op.statement.write rows k (rows k)).getD (rows k)

/-- An answer of `SELECT intent_id … WHERE matching ORDER BY created_at LIMIT limit`, when the rows in `skipped` are
locked and skipped. -/
structure Oldest (matching : Row → Bool) (skipped : Set IntentId) (limit : Nat) (rows : Rows)
    (answer : List IntentId) : Prop where
  nodup : answer.Nodup
  length_le : answer.length ≤ limit
  found : ∀ k ∈ answer, ∃ r, rows k = some r ∧ matching r = true
  unskipped : ∀ k ∈ answer, k ∉ skipped
  ordered : answer.Pairwise fun i j => ∀ r r', rows i = some r → rows j = some r' → r.createdAt ≤ r'.createdAt
  /-- A row that is left out is skipped, or comes after a full answer. -/
  full : ∀ k r, rows k = some r → matching r = true → k ∉ skipped → k ∉ answer → answer.length = limit ∧
    ∀ j ∈ answer, ∀ r', rows j = some r' → r'.createdAt ≤ r.createdAt

/-- What `claimForByteRecovery` may answer from its snapshot. -/
def ClaimForByteRecovery (now graceMs limit : Nat) (snapshot : Rows) (answer : List IntentId) : Prop :=
  Oldest (recoverable now graceMs) ∅ limit snapshot answer

end StagedIntentStore

end Bosphor.Relayer

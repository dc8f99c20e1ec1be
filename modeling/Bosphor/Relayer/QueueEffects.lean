import Bosphor.Lib.Result
import Bosphor.Relayer.IntentProcessor

/-!
# What the steps of the queue do

Each statement, each phase of a tick and each stage of a run, described once:
what a statement leaves of a row (`Op.write_row`), which rows a tick holds and
which of them it has taken up (`Tick.rows`, `Tick.taken`), and which runs of the
pipeline execute.
-/

namespace Bosphor.Relayer

open StagedIntentStore

/-! ## Statements -/

/-- The statements that one intent's row is the only one to see. -/
def StagedIntentStore.Op.intent : Op → Option IntentId
  | .upsertBytes id .. | .markReceived id .. | .rescheduleByteRecovery id .. | .persistUpload id .. |
    .persistStore id .. | .markLedgered id | .markReturned id .. | .freeBytes id .. | .markDone id .. |
    .markDead id .. | .reschedule id .. => some id
  | .drainDue .. | .expireDue .. | .expireUnreceived .. | .purgeTerminal .. => none

/-- A row is left alone, or the statement wrote it. -/
theorem StagedIntentStore.Op.run_cases (op : Op) (rows : Rows) (k : IntentId) :
    op.run rows k = rows k ∨ op.statement.write rows k (rows k) = some (op.run rows k) := by
  unfold Op.run
  cases h : op.statement.write rows k (rows k) with
  | none => exact Or.inl rfl
  | some v => exact Or.inr rfl

/-- What `UPDATE … WHERE intent_id = id` makes of its row. -/
theorem StagedIntentStore.Op.run_self (op : Op) {id : IntentId} {set : Row → Row}
    (hop : op.statement = updateRow id (fun _ => true) set) (rows : Rows) : op.run rows id = (rows id).map set := by
  unfold Op.run
  rw [hop]
  cases hrow : rows id with
  | none =>
    have hnone : (updateRow id (fun _ => true) set).write rows id none = none := if_pos rfl
    rw [hnone, Option.getD_none, Option.map_none]
  | some r =>
    rw [updateRow_some.mpr ⟨rfl, r, rfl, rfl, rfl⟩, Option.getD_some, Option.map_some]

/-- The statements that insert rows. -/
def StagedIntentStore.Op.Inserts : Op → Prop
  | .upsertBytes .. | .markReceived .. => True
  | _ => False

/-- A statement that only updates rows inserts none. -/
theorem StagedIntentStore.Op.run_none {op : Op} (hop : ¬op.Inserts) {rows : Rows} {k : IntentId}
    (hrow : rows k = none) :
    op.run rows k = none := by
  obtain hsame | hw := op.run_cases rows k
  · exact hsame.trans hrow
  · rw [hrow] at hw
    cases op with
    | upsertBytes | markReceived => exact absurd trivial hop
    | persistUpload | persistStore | markLedgered | markReturned | freeBytes | markDone | markDead | reschedule |
      rescheduleByteRecovery =>
      obtain ⟨-, r, hr, -⟩ := updateRow_some.mp hw
      cases hr
    | drainDue | expireDue | expireUnreceived => exact absurd hw.symm (Option.some_ne_none _)
    | purgeTerminal =>
      obtain ⟨r, hr, -⟩ := purge_some.mp hw
      cases hr

/-- Neither claims nor releases a row, nor deletes it. -/
def StagedIntentStore.Op.Neutral : Op → Prop
  | .drainDue .. | .reschedule .. | .purgeTerminal .. => False
  | _ => True

/-- The reaper's statements, when they go for the row. -/
def StagedIntentStore.Op.Expires (row : Row) : Op → Prop
  | .expireDue now => overdue now row = true
  | .expireUnreceived cutoff _ => unreceived cutoff row = true
  | _ => False

theorem StagedIntentStore.Op.Expires.active {row : Row} {op : Op} (h : op.Expires row) : row.state = .active := by
  unfold Op.Expires at h
  split at h
  · simp only [overdue, Bool.and_eq_true, beq_iff_eq] at h
    exact h.1
  · simp only [unreceived, Bool.and_eq_true, beq_iff_eq] at h
    exact h.1.1.1
  · exact h.elim

/-- What a statement makes of the state of the row at `k`. -/
inductive StateWrite (op : Op) (k : IntentId) (r r' : Row) : Prop
  | kept (h : r'.state = r.state)
  | done (now : Nat) (hop : op = .markDone k now) (h : r'.state = .done)
  | dead (text : String) (now : Nat) (hop : op = .markDead k text now) (h : r'.state = .dead)
  | expired (hop : op.Expires r) (h : r'.state = .expired)

/-- What a statement makes of the row at `k`. -/
structure RowWrite (op : Op) (k : IntentId) (r r' : Row) : Prop where
  state : StateWrite op k r r'
  claim : op.Neutral → r'.claimedBy = r.claimedBy ∧ r'.leaseExpiresAt = r.leaseExpiresAt
  upload : r.walrusObjectId ≠ none → r'.walrusObjectId ≠ none
  digest : r'.storeDigest = r.storeDigest ∨ r'.storeDigest ≠ none ∧ ∃ d now, op = .persistStore k d now
  attempts : r'.attempts = r.attempts ∨ ∃ nextAt text now, op = .reschedule k r'.attempts nextAt text now

/-- A statement that leaves the state, the claim, the results and the attempts alone. -/
theorem RowWrite.noted {op : Op} {k : IntentId} {r r' : Row} (hstate : r'.state = r.state)
    (hclaim : r'.claimedBy = r.claimedBy ∧ r'.leaseExpiresAt = r.leaseExpiresAt)
    (hupload : r.walrusObjectId ≠ none → r'.walrusObjectId ≠ none) (hdigest : r'.storeDigest = r.storeDigest)
    (hattempts : r'.attempts = r.attempts) : RowWrite op k r r' :=
  ⟨.kept hstate, fun _ => hclaim, hupload, Or.inl hdigest, Or.inl hattempts⟩

/-- A statement that settles the row. -/
theorem RowWrite.settled {op : Op} {k : IntentId} {r r' : Row} (hstate : StateWrite op k r r')
    (hclaim : r'.claimedBy = r.claimedBy ∧ r'.leaseExpiresAt = r.leaseExpiresAt)
    (hupload : r'.walrusObjectId = r.walrusObjectId) (hdigest : r'.storeDigest = r.storeDigest)
    (hattempts : r'.attempts = r.attempts) : RowWrite op k r r' :=
  ⟨hstate, fun _ => hclaim, fun h => hupload ▸ h, Or.inl hdigest, Or.inl hattempts⟩

/-- A row as it is inserted: nobody has claimed, uploaded or recorded it. -/
structure Row.Fresh (r : Row) : Prop where
  state : r.state = .active
  claimedBy : r.claimedBy = none
  storeDigest : r.storeDigest = none

/-- What a statement leaves of a row. -/
theorem StagedIntentStore.Op.write_row {op : Op} {rows : Rows} {k : IntentId} {latest : Option Row} {r' : Row}
    (h : op.statement.write rows k latest = some (some r')) :
    (latest = none ∧ r'.Fresh) ∨ ∃ r, latest = some r ∧ RowWrite op k r r' := by
  cases op with
  | upsertBytes | markReceived =>
    obtain ⟨-, ⟨rfl, hv⟩ | ⟨r, rfl, -, hv⟩⟩ := upsert_some.mp h
    · cases hv
      exact Or.inl ⟨rfl, rfl, rfl, rfl⟩
    · cases hv
      exact Or.inr ⟨r, rfl, .noted rfl ⟨rfl, rfl⟩ id rfl rfl⟩
  | rescheduleByteRecovery | markLedgered | markReturned | freeBytes =>
    obtain ⟨-, r, rfl, -, hv⟩ := updateRow_some.mp h
    cases hv
    exact Or.inr ⟨r, rfl, .noted rfl ⟨rfl, rfl⟩ id rfl rfl⟩
  | drainDue =>
    obtain ⟨r, rfl, -, hv⟩ := rewrite_some.mp h
    cases hv
    exact Or.inr ⟨r, rfl, .kept rfl, fun hop => hop.elim, id, Or.inl rfl, Or.inl rfl⟩
  | persistUpload =>
    obtain ⟨-, r, rfl, -, hv⟩ := updateRow_some.mp h
    cases hv
    exact Or.inr ⟨r, rfl, .noted rfl ⟨rfl, rfl⟩ (fun _ => Option.some_ne_none _) rfl rfl⟩
  | persistStore id d now =>
    obtain ⟨rfl, r, rfl, -, hv⟩ := updateRow_some.mp h
    cases hv
    exact Or.inr ⟨r, rfl, .kept rfl, fun _ => ⟨rfl, rfl⟩, fun h => h, Or.inr ⟨Option.some_ne_none _, d, now, rfl⟩,
      Or.inl rfl⟩
  | markDone id now =>
    obtain ⟨rfl, r, rfl, -, hv⟩ := updateRow_some.mp h
    cases hv
    exact Or.inr ⟨r, rfl, .settled (.done now rfl rfl) ⟨rfl, rfl⟩ rfl rfl rfl⟩
  | markDead id text now =>
    obtain ⟨rfl, r, rfl, -, hv⟩ := updateRow_some.mp h
    cases hv
    exact Or.inr ⟨r, rfl, .settled (.dead text now rfl rfl) ⟨rfl, rfl⟩ rfl rfl rfl⟩
  | reschedule id attempts nextAt text now =>
    obtain ⟨rfl, r, rfl, -, hv⟩ := updateRow_some.mp h
    cases hv
    exact Or.inr ⟨r, rfl, .kept rfl, fun hop => hop.elim, fun h => h, Or.inl rfl, Or.inr ⟨nextAt, text, now, rfl⟩⟩
  | expireDue | expireUnreceived =>
    obtain ⟨r, rfl, hdue, hv⟩ := rewrite_some.mp h
    cases hv
    exact Or.inr ⟨r, rfl, .settled (.expired hdue rfl) ⟨rfl, rfl⟩ rfl rfl rfl⟩
  | purgeTerminal =>
    obtain ⟨r, -, -, hv⟩ := purge_some.mp h
    cases hv

/-- A row is deleted by the purge alone. -/
theorem StagedIntentStore.Op.write_deletes {op : Op} {rows : Rows} {k : IntentId} {latest : Option Row}
    (h : op.statement.write rows k latest = some none) : ∃ cutoff, op = .purgeTerminal cutoff := by
  cases op with
  | upsertBytes | markReceived =>
    obtain ⟨-, ⟨-, hv⟩ | ⟨r, -, -, hv⟩⟩ := upsert_some.mp h
    · cases hv
    · cases hv
  | rescheduleByteRecovery | markLedgered | markReturned | freeBytes | persistUpload | persistStore | markDone |
    markDead | reschedule =>
    obtain ⟨-, r, -, -, hv⟩ := updateRow_some.mp h
    cases hv
  | drainDue | expireDue | expireUnreceived =>
    obtain ⟨r, -, -, hv⟩ := rewrite_some.mp h
    cases hv
  | purgeTerminal cutoff => exact ⟨cutoff, rfl⟩

theorem StateWrite.active {op : Op} {k : IntentId} {r r' : Row} (h : StateWrite op k r r') (ha : r'.state = .active) :
    r.state = .active := by
  cases h with
  | kept h => exact h ▸ ha
  | done now hop h => rw [h] at ha; cases ha
  | dead text now hop h => rw [h] at ha; cases ha
  | expired hop h => rw [h] at ha; cases ha

/-- The claim of a row is as it was, and the row is no more active than it was. -/
structure KeepsClaim (r r' : Row) : Prop where
  claimedBy : r'.claimedBy = r.claimedBy
  leaseExpiresAt : r'.leaseExpiresAt = r.leaseExpiresAt
  active : r'.state = .active → r.state = .active

/-- What a statement that does not touch claims leaves of a row. -/
theorem StagedIntentStore.Op.write_claim {op : Op} (hop : op.Neutral) {rows : Rows} {k : IntentId}
    {latest v : Option Row} (h : op.statement.write rows k latest = some v) :
    (latest = none ∧ ∃ r', v = some r' ∧ r'.claimedBy = none) ∨
      ∃ r r', latest = some r ∧ v = some r' ∧ KeepsClaim r r' := by
  cases v with
  | none =>
    obtain ⟨cutoff, rfl⟩ := Op.write_deletes h
    exact hop.elim
  | some r' =>
    obtain ⟨hnone, hfresh⟩ | ⟨r, hr, hwrite⟩ := Op.write_row h
    · exact Or.inl ⟨hnone, r', rfl, hfresh.claimedBy⟩
    · obtain ⟨hclaim, hlease⟩ := hwrite.claim hop
      exact Or.inr ⟨r, r', hr, rfl, hclaim, hlease, hwrite.state.active⟩

/-- Neither the upload nor the digest of a row is lost. -/
structure KeepsResults (r r' : Row) : Prop where
  upload : r.walrusObjectId ≠ none → r'.walrusObjectId ≠ none
  digest : r.storeDigest ≠ none → r'.storeDigest ≠ none

theorem KeepsResults.of_eq {r r' : Row} (hupload : r'.walrusObjectId = r.walrusObjectId)
    (hdigest : r'.storeDigest = r.storeDigest) : KeepsResults r r' :=
  ⟨fun h => hupload ▸ h, fun h => hdigest ▸ h⟩

theorem RowWrite.results {op : Op} {k : IntentId} {r r' : Row} (h : RowWrite op k r r') : KeepsResults r r' where
  upload := h.upload
  digest hold := by
    obtain hsame | ⟨hnew, -⟩ := h.digest
    · exact hsame ▸ hold
    · exact hnew

/-- No statement takes a row's upload or digest away, short of deleting it. -/
theorem StagedIntentStore.Op.write_results {op : Op} {rows : Rows} {k : IntentId} {latest : Option Row} {r' : Row}
    (h : op.statement.write rows k latest = some (some r')) :
    latest = none ∨ ∃ r, latest = some r ∧ KeepsResults r r' :=
  (Op.write_row h).imp And.left fun ⟨r, hr, hwrite⟩ => ⟨r, hr, hwrite.results⟩

/-- The upload of a row is as it was. -/
structure SameUpload (r r' : Row) : Prop where
  walrusObjectId : r'.walrusObjectId = r.walrusObjectId
  walrusBlobId : r'.walrusBlobId = r.walrusBlobId
  endEpoch : r'.endEpoch = r.endEpoch

/-- Only `persistUpload` changes the upload of a row, and a row is inserted without one. -/
theorem StagedIntentStore.Op.write_upload {op : Op} (hop : ∀ id up now, op ≠ .persistUpload id up now) {rows : Rows}
    {k : IntentId} {latest : Option Row} {r' : Row} (h : op.statement.write rows k latest = some (some r')) :
    (latest = none ∧ r'.walrusObjectId = none) ∨ ∃ r, latest = some r ∧ SameUpload r r' := by
  cases op with
  | persistUpload id up now => exact absurd rfl (hop id up now)
  | upsertBytes | markReceived =>
    obtain ⟨-, ⟨rfl, hv⟩ | ⟨r, rfl, -, hv⟩⟩ := upsert_some.mp h
    · cases hv
      exact Or.inl ⟨rfl, rfl⟩
    · cases hv
      exact Or.inr ⟨r, rfl, rfl, rfl, rfl⟩
  | rescheduleByteRecovery | persistStore | markLedgered | markReturned | reschedule | freeBytes | markDone | markDead =>
    obtain ⟨-, r, rfl, -, hv⟩ := updateRow_some.mp h
    cases hv
    exact Or.inr ⟨r, rfl, rfl, rfl, rfl⟩
  | drainDue | expireDue | expireUnreceived =>
    obtain ⟨r, rfl, -, hv⟩ := rewrite_some.mp h
    cases hv
    exact Or.inr ⟨r, rfl, rfl, rfl, rfl⟩
  | purgeTerminal =>
    obtain ⟨r, -, -, hv⟩ := purge_some.mp h
    cases hv

/-- The calls of the pipeline do not touch claims. -/
theorem Call.op_neutral {c : Call} {now : Nat} {op : Op} (h : c.op now = some op) : op.Neutral := by
  cases c <;> cases h <;> trivial

/-- The calls of the pipeline expire nothing. -/
theorem Call.op_keeps_active {c : Call} {now : Nat} {op : Op} (h : c.op now = some op) {row : Row} :
    ¬op.Expires row := by
  cases c <;> cases h <;> exact id

theorem drainRows_picked {rows : Rows} {p : Claimant} {now leaseMs : Nat} {picked : List IntentId} {id : IntentId}
    (h : id ∈ picked) : drainRows rows p now leaseMs picked id = (rows id).map (claimed p now leaseMs) := if_pos h

theorem drainRows_other {rows : Rows} {p : Claimant} {now leaseMs : Nat} {picked : List IntentId} {id : IntentId}
    (h : id ∉ picked) : drainRows rows p now leaseMs picked id = rows id := if_neg h

theorem mem_drainAnswer {rows : Rows} {picked : List IntentId} {s : StagedIntentRow} :
    s ∈ drainAnswer rows picked ↔ s.intentId ∈ picked ∧ rows s.intentId = some s.toRow := by
  simp only [drainAnswer, List.mem_filterMap, Option.map_eq_some_iff]
  refine ⟨fun h => ?_, fun h => ⟨s.intentId, h.1, s.toRow, h.2, rfl⟩⟩
  obtain ⟨id, hmem, r, hr, hs⟩ := h
  subst hs
  exact ⟨hmem, hr⟩

theorem drainAnswer_ids (rows : Rows) (picked : List IntentId) :
    ((drainAnswer rows picked).map (·.intentId)).Sublist picked := by
  induction picked with
  | nil => exact List.Sublist.refl _
  | cons id rest ih =>
    unfold drainAnswer at ih ⊢
    cases h : rows id with
    | none => simpa [h] using ih.cons id
    | some r => simpa [h] using ih.cons_cons id

/-- Whether the attempt is retried. -/
def attemptsLeft (cfg : Config) (row : StagedIntentRow) (err : AttemptError) : Prop :=
  row.attempts + 1 < if err.isPost then cfg.returnMaxAttempts else cfg.maxStoreAttempts

/-- A failed attempt is retried behind a backoff, or dead-lettered. -/
theorem attemptFailed_cases (cfg : Config) (row : StagedIntentRow) (err : AttemptError) (now : Nat) :
    (attemptsLeft cfg row err ∧ ∃ nextAt text,
        attemptFailed cfg row err now = .reschedule row.intentId (row.attempts + 1) nextAt text now) ∨
      (¬attemptsLeft cfg row err ∧ ∃ text, attemptFailed cfg row err now = .markDead row.intentId text now) := by
  unfold attemptFailed attemptsLeft
  cases err.isPost with
  | true =>
    simp only [if_true]
    split
    · exact Or.inr ⟨by omega, _, rfl⟩
    · exact Or.inl ⟨by omega, _, _, rfl⟩
  | false =>
    simp only [Bool.false_eq_true, if_false]
    split
    · exact Or.inr ⟨by omega, _, rfl⟩
    · exact Or.inl ⟨by omega, _, _, rfl⟩

/-! ## Ticks -/

/-- The rows that a tick holds, from its claim on. -/
def Tick.rows (tick : Tick) : List StagedIntentRow :=
  match tick.phase with
  | .draining => []
  | .drained rows => rows
  | .asking row rest ready => ready.map (·.row) ++ row :: rest
  | .starting ready _ => ready.map (·.row)

/-- The rows that passed the in-process check and are not started yet. -/
def Tick.taken (tick : Tick) : List StagedIntentRow :=
  match tick.phase with
  | .draining => []
  | .drained _ => []
  | .asking row _ ready => ready.map (·.row) ++ [row]
  | .starting ready _ => ready.map (·.row)

/-- The loop ends, or takes up a row that no run of the process has. -/
theorem scan_cases (cfg : Config) (now : Nat) (inProcess : IntentId → Bool) (rows : List StagedIntentRow)
    (ready : List Ready) :
    scan cfg now inProcess rows ready = .start ready ∨
      ∃ row rest, scan cfg now inProcess rows ready = .ask row rest ready ∧
      inProcess row.intentId = false ∧ (row :: rest).Sublist rows := by
  induction rows with
  | nil => exact Or.inl rfl
  | cons row rest ih =>
    have hskip : scan cfg now inProcess rest ready = .start ready ∨ ∃ s tail,
        scan cfg now inProcess rest ready = .ask s tail ready ∧ inProcess s.intentId = false ∧
          (s :: tail).Sublist (row :: rest) :=
      ih.imp_right fun ⟨s, tail, hscan, hfree, hsub⟩ => ⟨s, tail, hscan, hfree, hsub.cons row⟩
    unfold scan
    split
    · exact Or.inl rfl
    split
    · exact hskip
    split
    · exact hskip
    split
    · exact hskip
    · rename_i hfree _ _
      exact Or.inr ⟨row, rest, rfl, by simpa using hfree, List.Sublist.refl _⟩

/-- The loop drops rows, and takes up a row that no run of the process has. -/
theorem scan_rows (cfg : Config) (now startedAt : Nat) (inProcess : IntentId → Bool) (rows : List StagedIntentRow)
    (ready : List Ready) :
    let tick : Tick := ⟨startedAt, (scan cfg now inProcess rows ready).phase⟩
    tick.rows.Sublist (ready.map (·.row) ++ rows) ∧
      ∀ s ∈ tick.taken, s ∈ ready.map (·.row) ∨ inProcess s.intentId = false := by
  obtain hscan | ⟨row, rest, hscan, hfree, hsub⟩ := scan_cases cfg now inProcess rows ready
  · rw [hscan]
    exact ⟨List.sublist_append_left _ _, fun s hs => Or.inl hs⟩
  · rw [hscan]
    refine ⟨hsub.append_left _, fun s hs => ?_⟩
    obtain hs | hs := List.mem_append.mp hs
    · exact Or.inl hs
    · rw [List.mem_singleton.mp hs]
      exact Or.inr hfree

theorem takeUp_rows (row : StagedIntentRow) (c : Option IntentCommitment) (ready : List Ready) :
    ((takeUp row c ready).map (·.row)).Sublist (ready.map (·.row) ++ [row]) := by
  unfold takeUp
  split
  · split
    · exact List.sublist_append_left _ _
    · simp
  · exact List.sublist_append_left _ _

/-! ## Runs -/

theorem Run.executing_answered {run : Run} {rest : Program Booking} (h : run.work = .answered rest) : run.Executing :=
  fun _ hsettled => Work.noConfusion (h.symm.trans hsettled)

theorem Run.executing_awaiting {run : Run} {c : Call} {next : Except Failure c.Answer → Program Booking}
    (h : run.work = .awaiting c next) : run.Executing :=
  fun _ hsettled => Work.noConfusion (h.symm.trans hsettled)

theorem Process.setTick_self (proc : Process) (k : Nat) (tick : Tick) : (proc.setTick k tick).ticks k = some tick :=
  Function.update_self ..

theorem Process.setRun_self (proc : Process) (r : Nat) (run : Run) : (proc.setRun r run).runs r = some run :=
  Function.update_self ..

theorem Run.settle_not_executing (run : Run) (now : Nat) (result : Except Failure Booking) :
    ¬(run.settle now result).Executing := fun h => h result rfl

/-- A failure is handled unless the timer won the race. -/
theorem Run.settle_handling (run : Run) (now : Nat) (result : Except Failure Booking) :
    (run.handling = .racing ∧ (run.settle now result).handling = .finished) ∨
      (run.handling = .racing ∧ ∃ e, result = .error e ∧ (run.settle now result).handling = .handling (.failed e) now) ∨
      (run.handling ≠ .racing ∧ (run.settle now result).handling = run.handling) := by
  unfold Run.settle
  cases run.handling with
  | racing =>
    cases result with
    | ok b => exact Or.inl ⟨rfl, rfl⟩
    | error e => exact Or.inr (Or.inl ⟨rfl, e, rfl, rfl⟩)
  | handling err since => exact Or.inr (Or.inr ⟨Handling.noConfusion, rfl⟩)
  | finished => exact Or.inr (Or.inr ⟨Handling.noConfusion, rfl⟩)

theorem Process.resumeRun_ticks (proc : Process) (r : Nat) (run : Run) (rest : Program Booking) (now : Nat) :
    (proc.resumeRun r run rest now).ticks = proc.ticks := by
  unfold Process.resumeRun
  cases Work.of rest with
  | settled result => rfl
  | awaiting c next => rfl
  | answered rest => rfl

/-- Run `r` of the process `p` is executing the pipeline for the intent `id`. -/
def Queue.Executes (σ : Queue) (p : Claimant) (r : Nat) (id : IntentId) : Prop :=
  ∃ proc run, σ.processes p = some proc ∧ proc.runs r = some run ∧ run.row.intentId = id ∧ run.Executing

/-! ## What a step does to the table -/

variable {fl : Rounding} {cfg : Config} {σ : Queue} {p : Claimant} {proc proc' : Process} {e : Event} {rows' : Rows}
  {past' : Past}

/-- A process leaves the table alone, claims rows, makes a call that writes it, or settles a failed attempt. -/
theorem ProcessStep.table (hstep : ProcessStep fl cfg σ p proc e proc' rows' past') :
    rows' = σ.rows ∨
      (∃ k tick skipped picked, e = .drain p k skipped ∧ proc.ticks k = some tick ∧
        Oldest (due tick.startedAt p) skipped cfg.batchSize σ.rows picked ∧
        rows' = drainRows σ.rows p tick.startedAt cfg.leaseMs picked) ∨
      (∃ r c op, e = .call p r c ∧ c.op σ.now = some op ∧ rows' = op.run σ.rows) ∨
      ∃ r run err since, e = .handle p r ∧ proc.runs r = some run ∧ run.handling = .handling err since ∧
        rows' = (attemptFailed cfg run.row err since).run σ.rows := by
  cases hstep with
  | stop | tick | tickFails | resumeTick | commitment | start | finish | resume | timeout | handleFails =>
    exact Or.inl rfl
  | drain skipped picked hk hphase hpicked =>
    exact Or.inr (Or.inl ⟨_, _, skipped, picked, rfl, hk, hpicked, rfl⟩)
  | @call r run c next a landed hr hwork hanswer hlanded =>
    cases landed with
    | false => exact Or.inl rfl
    | true =>
      cases hop : c.op σ.now with
      | none =>
        have hrun : c.run σ.now σ.rows = σ.rows := by
          unfold Call.run
          rw [hop]
          rfl
        exact Or.inl hrun
      | some op =>
        have hrun : c.run σ.now σ.rows = op.run σ.rows := by
          unfold Call.run
          rw [hop]
          rfl
        exact Or.inr (Or.inr (Or.inl ⟨r, c, op, rfl, hop, hrun⟩))
  | handle hr hhandling => exact Or.inr (Or.inr (Or.inr ⟨_, _, _, _, rfl, hr, hhandling, rfl⟩))

/-- What settles a failed attempt inserts no row. -/
theorem attemptFailed_inserts (row : StagedIntentRow) (err : AttemptError) (now : Nat) :
    ¬(attemptFailed cfg row err now).Inserts := by
  obtain ⟨-, nextAt, text, hop⟩ | ⟨-, text, hop⟩ := attemptFailed_cases cfg row err now
  · rw [hop]
    exact id
  · rw [hop]
    exact id

/-- The calls of the pipeline insert no row. -/
theorem Call.op_inserts {c : Call} {now : Nat} {op : Op} (h : c.op now = some op) : ¬op.Inserts := by
  cases c <;> cases h <;> exact id

/-- A row is left alone or claimed, or a statement wrote it, which inserts only where it is one of the outside. -/
theorem QueueStep.row_cases {τ : Queue} (hstep : QueueStep fl cfg σ e τ) (k : IntentId) :
    τ.rows k = σ.rows k ∨ (∃ p now leaseMs, τ.rows k = (σ.rows k).map (claimed p now leaseMs)) ∨
      ∃ op : Op, (e = .statement op ∨ ¬op.Inserts) ∧ op.statement.write σ.rows k (σ.rows k) = some (τ.rows k) := by
  have hop : ∀ op : Op, e = .statement op ∨ ¬op.Inserts → τ.rows = op.run σ.rows →
      τ.rows k = σ.rows k ∨ (∃ p now leaseMs, τ.rows k = (σ.rows k).map (claimed p now leaseMs)) ∨
        ∃ op : Op, (e = .statement op ∨ ¬op.Inserts) ∧ op.statement.write σ.rows k (σ.rows k) = some (τ.rows k) := by
    intro op hop hrows
    rw [hrows]
    exact (op.run_cases σ.rows k).imp_right fun hwrite => Or.inr ⟨op, hop, hwrite⟩
  cases hstep with
  | advance | boot | crash => exact Or.inl rfl
  | statement op => exact hop op (Or.inl rfl) rfl
  | own hp hown =>
    obtain heq | ⟨_, tick, skipped, picked, -, -, -, hdrain⟩ | ⟨_, c, op, -, hcall, hrun⟩ |
      ⟨_, _, _, _, -, -, -, hrun⟩ :=
      hown.table
    · exact Or.inl (congrFun heq k)
    · by_cases hmem : k ∈ picked
      · exact Or.inr (Or.inl ⟨_, _, _, (congrFun hdrain k).trans (drainRows_picked hmem)⟩)
      · exact Or.inl ((congrFun hdrain k).trans (drainRows_other hmem))
    · exact hop op (Or.inr (Call.op_inserts hcall)) hrun
    · exact hop _ (Or.inr (attemptFailed_inserts _ _ _)) hrun

/-- No step takes a row's upload or digest away, short of deleting it. -/
theorem QueueStep.keeps_results {τ : Queue} (hstep : QueueStep fl cfg σ e τ) {k : IntentId} {r r' : Row}
    (hr : σ.rows k = some r) (hr' : τ.rows k = some r') : KeepsResults r r' := by
  obtain hsame | ⟨p, now, leaseMs, hclaimed⟩ | ⟨op, -, hwrite⟩ := hstep.row_cases k
  · rw [hr', hr, Option.some.injEq] at hsame
    exact hsame ▸ .of_eq rfl rfl
  · rw [hr', hr, Option.map_some, Option.some.injEq] at hclaimed
    exact hclaimed ▸ .of_eq rfl rfl
  · rw [hr', hr] at hwrite
    obtain hnone | ⟨r₀, hr₀, hkeep⟩ := Op.write_results hwrite
    · cases hnone
    · cases hr₀
      exact hkeep

end Bosphor.Relayer

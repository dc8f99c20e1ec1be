import Bosphor.Relayer.Store

/-!
# The intent processor

The relayer processes that share the staged table. A tick claims due rows,
takes up those it can store, and starts a run of the pipeline for each; a run
settles, or its timer fires while the work behind it goes on, and a failure is
retried or dead-lettered. Ticks of one process overlap once the first is older
than the watchdog. Every await is a point where anything else may happen:
another tick, another process, the reaper, ingest, a crash.

Each statement on the table takes effect at once, as one that runs under a row
lock does. A process is known by its claimant.
-/

namespace Bosphor.Relayer

open StagedIntentStore

/-- A row that a tick has taken up, with what the lifecycle store knows of the intent. -/
structure Ready where
  row : StagedIntentRow
  sender : String
  commitment : Option IntentCommitment

/-- Where a tick stands. -/
inductive TickPhase where
  /-- The claim is on its way to the database. -/
  | draining
  /-- The rows it claimed are on their way back. -/
  | drained (rows : List StagedIntentRow)
  /-- The commitment of `row` is asked for. -/
  | asking (row : StagedIntentRow) (rest : List StagedIntentRow) (ready : List Ready)
  /-- The rows taken up are being started, and the runs that were started are waited for. -/
  | starting (ready : List Ready) (runs : List Nat)

structure Tick where
  startedAt : Nat
  phase : TickPhase

/-- Where the work of a run stands. -/
inductive Work where
  /-- A call is on its way. -/
  | awaiting (c : Call) (next : Except Failure c.Answer → Program Booking)
  /-- The call is answered, and the program is about to go on. -/
  | answered (rest : Program Booking)
  | settled (result : Except Failure Booking)

/-- A program up to its next call. -/
def Work.of : Program Booking → Work
  | .done b => .settled (.ok b)
  | .fail e => .settled (.error e)
  | .await c next => .awaiting c next

/-- Why an attempt failed. -/
inductive AttemptError where
  | failed (e : Failure)
  | timeout

/-- Where `runStore` stands: the work races the timer; the loser is dropped but goes on. -/
inductive Handling where
  | racing
  | handling (err : AttemptError) (since : Nat)
  | finished

structure Run where
  row : StagedIntentRow
  sender : String
  commitment : Option IntentCommitment
  startedAt : Nat
  work : Work
  handling : Handling

/-- Whether `store()` is executing. -/
def Run.Executing (run : Run) : Prop := ∀ result, run.work ≠ .settled result

structure Process where
  stopped : Bool := false
  inProcess : IntentId → Bool := fun _ => false
  tickStartedAt : Option Nat := none
  ticks : Nat → Option Tick := fun _ => none
  runs : Nat → Option Run := fun _ => none
  /-- When it last claimed, or when it was booted. -/
  drainedAt : Nat

/-- What has happened to the intents, as far as the table may forget it. -/
structure Past where
  /-- `persistUpload` has committed. -/
  uploaded : IntentId → Bool := fun _ => false
  /-- `persistStore` has committed. -/
  recorded : IntentId → Bool := fun _ => false
  /-- The failed attempts of the return leg while the intent's row stands. -/
  returnFailures : IntentId → Nat := fun _ => 0
  /-- Its row has been marked dead or expired. -/
  condemned : IntentId → Bool := fun _ => false

structure Queue where
  now : Nat
  rows : Rows
  processes : Claimant → Option Process
  past : Past := {}

variable (fl : Rounding) (cfg : Config)

/-! ## A tick -/

/-- What a tick does with its rows until it awaits again. -/
inductive Scan where
  | ask (row : StagedIntentRow) (rest : List StagedIntentRow) (ready : List Ready)
  | start (ready : List Ready)

/-- The loop over the rows, up to the next commitment that is asked for. -/
def scan (now : Nat) (inProcess : IntentId → Bool) : List StagedIntentRow → List Ready → Scan
  | [], ready => .start ready
  | row :: rest, ready =>
    if ready.length ≥ cfg.storeConcurrency then .start ready
    else if inProcess row.intentId then scan now inProcess rest ready
    else if !row.received || (!row.hasBytes && row.walrusObjectId.isNone) then scan now inProcess rest ready
    else if row.deadline.any (· ≤ now) then scan now inProcess rest ready
    else .ask row rest ready

def Scan.phase : Scan → TickPhase
  | .ask row rest ready => .asking row rest ready
  | .start ready => .starting ready []

/-- The rows taken up once a commitment is known: an intent without a sender is passed over. -/
def takeUp (row : StagedIntentRow) (commitment : Option IntentCommitment) (ready : List Ready) : List Ready :=
  match commitment.bind (·.sender) with
  | some sender => if sender = "" then ready else ready ++ [⟨row, sender, commitment⟩]
  | none => ready

/-- Whether the interval may start a tick: the last is over, or presumed hung. -/
def mayTick (now : Nat) (tickStartedAt : Option Nat) : Bool :=
  tickStartedAt.all fun t => cfg.attemptTimeoutMs * 2 ≤ now - t

namespace Process

variable (proc : Process)

def setTick (k : Nat) (tick : Tick) : Process := { proc with ticks := Function.update proc.ticks k (some tick) }

/-- The tick is over; it clears the slot only if it still owns it. -/
def endTick (k : Nat) (tick : Tick) : Process :=
  { proc with
    ticks := Function.update proc.ticks k none
    tickStartedAt := if proc.tickStartedAt = some tick.startedAt then none else proc.tickStartedAt }

def setRun (r : Nat) (run : Run) : Process := { proc with runs := Function.update proc.runs r (some run) }

/-- `runStore`, up to its first await: the in-process slot is taken and the pipeline started. -/
def startRun (r now : Nat) (ready : Ready) : Process :=
  { proc.setRun r ⟨ready.row, ready.sender, ready.commitment, now,
      .answered (store fl cfg ready.row ready.sender ready.commitment), .racing⟩ with
    inProcess := Function.update proc.inProcess ready.row.intentId true }

end Process

/-! ## A run -/

def AttemptError.text : AttemptError → String
  | .failed e => e.text
  | .timeout => s!"TimeoutError: store attempt exceeded {cfg.attemptTimeoutMs}ms"

/-- Whether the failure is of the return leg. -/
def AttemptError.isPost : AttemptError → Bool
  | .failed (.storeError _ .post) => true
  | _ => false

/-- The statement that settles a failed attempt: the retry behind a backoff, or the dead letter. -/
def attemptFailed (row : StagedIntentRow) (err : AttemptError) (now : Nat) : Op :=
  let attempts := row.attempts + 1
  let backoff := min (cfg.backoffBaseMs * 2 ^ attempts) cfg.backoffCapMs
  let text := err.text cfg
  if err.isPost then
    if attempts ≥ cfg.returnMaxAttempts then
      .markDead row.intentId s!"return proof undelivered after {attempts} attempts (capped): {text}" now
    else .reschedule row.intentId attempts (now + backoff) text now
  else if attempts ≥ cfg.maxStoreAttempts then
    .markDead row.intentId s!"pre-store attempts exhausted ({attempts}): {text}" now
  else .reschedule row.intentId attempts (now + backoff) text now

/-- The run once its work has settled: a failure is handled unless the timer won the race. -/
def Run.settle (run : Run) (now : Nat) (result : Except Failure Booking) : Run :=
  { run with
    work := .settled result
    handling := match run.handling, result with
      | .racing, .ok _ => .finished
      | .racing, .error e => .handling (.failed e) now
      | handling, _ => handling }

/-- The process once the program of a run goes on: when it settles, the in-process slot is given up. -/
def Process.resumeRun (proc : Process) (r : Nat) (run : Run) (rest : Program Booking) (now : Nat) : Process :=
  match Work.of rest with
  | .settled result =>
    { proc.setRun r (run.settle now result) with
      inProcess := Function.update proc.inProcess run.row.intentId false }
  | work => proc.setRun r { run with work := work }

/-! ## The queue -/

def drainRows (rows : Rows) (claimant : Claimant) (now leaseMs : Nat) (picked : List IntentId) : Rows :=
  fun id => if id ∈ picked then (rows id).map (claimed claimant now leaseMs) else rows id

/-- The rows that the claim returns, the oldest first. -/
def drainAnswer (rows : Rows) (picked : List IntentId) : List StagedIntentRow :=
  picked.filterMap fun id => (rows id).map fun r => ⟨r, id⟩

/-- What a call leaves of the table. -/
def Call.run (now : Nat) (c : Call) (rows : Rows) : Rows := ((c.op now).map fun op => op.run rows).getD rows

/-- An answer that a read of the table gives. -/
def Call.Answers (rows : Rows) : (c : Call) → Except Failure c.Answer → Prop
  | .fetchBytes id, .ok bytes => bytes = (rows id).bind (·.bytes)
  | _, _ => True

def Past.called (past : Past) : Call → Past
  | .persistUpload id _ => { past with uploaded := Function.update past.uploaded id true }
  | .persistStore id _ => { past with recorded := Function.update past.recorded id true }
  | _ => past

/-- A failure of the return leg is counted when the pipeline settles with it. -/
def Past.settled (past : Past) (id : IntentId) : Program Booking → Past
  | .fail (.storeError _ .post) =>
    { past with returnFailures := Function.update past.returnFailures id (past.returnFailures id + 1) }
  | _ => past

/-- Nothing is counted for an intent without a row. -/
def Past.deleted (past : Past) (rows : Rows) : Past :=
  { past with returnFailures := fun id => if rows id = none then 0 else past.returnFailures id }

/-- The intents whose rows are dead or expired are condemned from then on. -/
def Past.judged (past : Past) (rows : Rows) : Past :=
  { past with condemned := fun id => past.condemned id || (rows id).any fun r => r.state == .dead || r.state == .expired }

/-- The statements that ingest, the event callback, the reaper, the recovery sweep and the ledger's backfill run. -/
def Op.Outside : Op → Prop
  | .upsertBytes .. | .markReceived .. | .rescheduleByteRecovery .. | .markLedgered .. | .expireDue .. |
    .expireUnreceived .. | .purgeTerminal .. => True
  | _ => False

/-- What can happen to the queue. -/
inductive Event where
  | advance (now : Nat)
  | boot (p : Claimant)
  | crash (p : Claimant)
  | stop (p : Claimant)
  | tick (p : Claimant) (k : Nat)
  | drain (p : Claimant) (k : Nat) (skipped : Set IntentId)
  | tickFails (p : Claimant) (k : Nat)
  | resumeTick (p : Claimant) (k : Nat)
  | commitment (p : Claimant) (k : Nat)
  | start (p : Claimant) (k r : Nat) (ready : Ready)
  | finish (p : Claimant) (k : Nat)
  | call (p : Claimant) (r : Nat) (c : Call)
  | resume (p : Claimant) (r : Nat)
  | timeout (p : Claimant) (r : Nat)
  | handle (p : Claimant) (r : Nat)
  | handleFails (p : Claimant) (r : Nat)
  | statement (op : Op)

/-- A step of the process `p`, which stands at `proc`, with what it leaves of the process, the table and the past. -/
inductive ProcessStep (σ : Queue) (p : Claimant) (proc : Process) : Event → Process → Rows → Past → Prop
  | stop : ProcessStep σ p proc (.stop p) { proc with stopped := true } σ.rows σ.past
  | tick (k : Nat) (hk : proc.ticks k = none) (hstopped : proc.stopped = false)
    (hmay : mayTick cfg σ.now proc.tickStartedAt = true) :
    ProcessStep σ p proc (.tick p k) { proc.setTick k ⟨σ.now, .draining⟩ with tickStartedAt := some σ.now }
      σ.rows σ.past
  | drain {k tick} (skipped : Set IntentId) (picked : List IntentId) (hk : proc.ticks k = some tick)
    (hphase : tick.phase = .draining)
    (hpicked : Oldest (due tick.startedAt p) skipped cfg.batchSize σ.rows picked) :
    ProcessStep σ p proc (.drain p k skipped)
      { proc.setTick k ⟨tick.startedAt,
          .drained (drainAnswer (drainRows σ.rows p tick.startedAt cfg.leaseMs picked) picked)⟩ with
        drainedAt := tick.startedAt }
      (drainRows σ.rows p tick.startedAt cfg.leaseMs picked) σ.past
  | tickFails {k tick} (hk : proc.ticks k = some tick)
    (hphase : ∀ ready runs, tick.phase ≠ .starting ready runs) :
    ProcessStep σ p proc (.tickFails p k) (proc.endTick k tick) σ.rows σ.past
  | resumeTick {k tick rows} (hk : proc.ticks k = some tick) (hphase : tick.phase = .drained rows) :
    ProcessStep σ p proc (.resumeTick p k)
      (proc.setTick k ⟨tick.startedAt, (scan cfg tick.startedAt proc.inProcess rows []).phase⟩) σ.rows σ.past
  | commitment {k tick row rest ready} (c : Option IntentCommitment) (hk : proc.ticks k = some tick)
    (hphase : tick.phase = .asking row rest ready) :
    ProcessStep σ p proc (.commitment p k)
      (proc.setTick k
        ⟨tick.startedAt, (scan cfg tick.startedAt proc.inProcess rest (takeUp row c ready)).phase⟩) σ.rows σ.past
  -- the runs of one tick start at one go; one after the other, what comes between is only more than can
  | start {k tick ready rest runs} (r : Nat) (hk : proc.ticks k = some tick)
    (hphase : tick.phase = .starting (ready :: rest) runs) (hr : proc.runs r = none) :
    ProcessStep σ p proc (.start p k r ready)
      ((proc.startRun fl cfg r σ.now ready).setTick k ⟨tick.startedAt, .starting rest (r :: runs)⟩) σ.rows σ.past
  | finish {k tick runs} (hk : proc.ticks k = some tick) (hphase : tick.phase = .starting [] runs)
    (hruns : ∀ r ∈ runs, ∃ run, proc.runs r = some run ∧ run.handling = .finished) :
    ProcessStep σ p proc (.finish p k) (proc.endTick k tick) σ.rows σ.past
  -- a call that reports an error may have landed all the same
  | call {r run c next} (a : Except Failure c.Answer) (landed : Bool) (hr : proc.runs r = some run)
    (hwork : run.work = .awaiting c next) (hanswer : c.Answers σ.rows a) (hlanded : a.isOk = true → landed = true) :
    ProcessStep σ p proc (.call p r c) (proc.setRun r { run with work := .answered (next a) })
      (if landed then c.run σ.now σ.rows else σ.rows)
      (if landed then (σ.past.called c).judged (c.run σ.now σ.rows) else σ.past)
  | resume {r run rest} (hr : proc.runs r = some run) (hwork : run.work = .answered rest) :
    ProcessStep σ p proc (.resume p r) (proc.resumeRun r run rest σ.now) σ.rows
      (σ.past.settled run.row.intentId rest)
  | timeout {r run} (hr : proc.runs r = some run) (hrace : run.handling = .racing)
    (hlate : run.startedAt + cfg.attemptTimeoutMs ≤ σ.now) :
    ProcessStep σ p proc (.timeout p r) (proc.setRun r { run with handling := .handling .timeout σ.now })
      σ.rows σ.past
  | handle {r run err since} (hr : proc.runs r = some run) (hhandling : run.handling = .handling err since) :
    ProcessStep σ p proc (.handle p r) (proc.setRun r { run with handling := .finished })
      ((attemptFailed cfg run.row err since).run σ.rows)
      (σ.past.judged ((attemptFailed cfg run.row err since).run σ.rows))
  | handleFails {r run err since} (hr : proc.runs r = some run)
    (hhandling : run.handling = .handling err since) :
    ProcessStep σ p proc (.handleFails p r) (proc.setRun r { run with handling := .finished }) σ.rows σ.past

/-- One step of the queue. -/
inductive QueueStep : Queue → Event → Queue → Prop
  | advance {σ} (now : Nat) (h : σ.now ≤ now) : QueueStep σ (.advance now) { σ with now := now }
  | boot {σ} (p : Claimant) (hp : σ.processes p = none) :
    QueueStep σ (.boot p) { σ with processes := Function.update σ.processes p (some { drainedAt := σ.now }) }
  | crash {σ} (p : Claimant) : QueueStep σ (.crash p) { σ with processes := Function.update σ.processes p none }
  | own {σ p proc e proc' rows past} (hp : σ.processes p = some proc)
    (h : ProcessStep fl cfg σ p proc e proc' rows past) :
    QueueStep σ e { σ with rows := rows, processes := Function.update σ.processes p (some proc'), past := past }
  | statement {σ} (op : Op) (hop : Op.Outside op) :
    QueueStep σ (.statement op)
      { σ with rows := op.run σ.rows, past := (σ.past.deleted (op.run σ.rows)).judged (op.run σ.rows) }

/-- Some steps, each of which meets `P`. -/
abbrev Queue.Leads (P : Queue → Event → Prop) : Queue → Queue → Prop :=
  Relation.ReflTransGen fun σ τ => ∃ e, P σ e ∧ QueueStep fl cfg σ e τ

/-- Before the first process: an empty table. -/
def Queue.empty : Queue where
  now := 0
  rows := fun _ => none
  processes := fun _ => none

/-- One more step. -/
theorem Queue.Leads.step {fl : Rounding} {cfg : Config} {P : Queue → Event → Prop} {σ τ υ : Queue} {e : Event}
    (hrun : Queue.Leads fl cfg P σ τ) (hstep : QueueStep fl cfg τ e υ) (hP : P τ e) : Queue.Leads fl cfg P σ υ :=
  hrun.tail ⟨e, hP, hstep⟩

theorem Queue.Leads.mono {fl : Rounding} {cfg : Config} {P P' : Queue → Event → Prop} {σ τ : Queue}
    (hrun : Queue.Leads fl cfg P σ τ) (h : ∀ σ e, P σ e → P' σ e) : Queue.Leads fl cfg P' σ τ :=
  Relation.ReflTransGen.mono (fun _ _ ⟨e, hP, hstep⟩ => ⟨e, h _ e hP, hstep⟩) σ τ hrun

/-- What every step keeps that meets `P`, a run of such steps keeps. -/
theorem Queue.Leads.keeps {fl : Rounding} {cfg : Config} {P : Queue → Event → Prop} {I : Queue → Prop} {σ τ : Queue}
    (hrun : Queue.Leads fl cfg P σ τ) (hstep : ∀ σ e τ, I σ → P σ e → QueueStep fl cfg σ e τ → I τ) (h : I σ) :
    I τ := by
  induction hrun with
  | refl => exact h
  | tail _ hlast ih =>
    obtain ⟨e, hP, hs⟩ := hlast
    exact hstep _ e _ ih hP hs

end Bosphor.Relayer

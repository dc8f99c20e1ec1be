import Bosphor.Lib.Result
import Bosphor.Relayer.StoreEffects

/-!
# One intent on its way

The queue with a single staged intent: a tick that finds its row and goes
through to the start of a run (`Queue.tick_one`), and a run whose calls are
answered one after the other (`Queue.serves`).
-/

namespace Bosphor.Relayer

open StagedIntentStore

/-! ## A tick that goes through -/

/-- The steps of a tick `k` of `p` that goes through at once, when the process stands at `proc`. -/
inductive Prompt (proc : Process) (p : Claimant) (k now : Nat) : Queue → Event → Prop
  | tick {σ} (hp : σ.processes p = some proc) : Prompt proc p k now σ (.tick p k)
  | drain {σ pr tick} (hp : σ.processes p = some pr) (hk : pr.ticks k = some tick) (hstart : tick.startedAt = now)
    (hnow : σ.now = now) (hruns : pr.runs = proc.runs) : Prompt proc p k now σ (.drain p k ∅)
  | resumeTick {σ pr tick rows} (hp : σ.processes p = some pr) (hk : pr.ticks k = some tick)
    (hphase : tick.phase = .drained rows) (hrows : ∀ s ∈ rows, σ.rows s.intentId = some s.toRow) :
    Prompt proc p k now σ (.resumeTick p k)
  | commitment {σ pr tick s} (hp : σ.processes p = some pr) (hk : pr.ticks k = some tick)
    (hphase : tick.phase = .asking s [] []) : Prompt proc p k now σ (.commitment p k)
  | start {σ pr tick r ready row} (hp : σ.processes p = some pr) (hk : pr.ticks k = some tick)
    (hothers : ∀ i, i ≠ k → pr.ticks i = proc.ticks i) (hstart : tick.startedAt = pr.drainedAt)
      (hrow : σ.rows ready.row.intentId = some row)
    (hclaim : row.claimedBy = some p) (hlease : row.leaseExpiresAt = ready.row.leaseExpiresAt)
    (hactive : row.state = .active) : Prompt proc p k now σ (.start p k r ready)

variable {cfg : Config} {fl : Rounding} {σ : Queue} {p : Claimant} {proc : Process} {id : IntentId}
  {row : Row} {now : Nat}

/-- A due row is one that a tick may store. -/
theorem due_ready (h : due now p row = true) :
    row.received = true ∧ (row.bytes.isSome = true ∨ row.walrusObjectId.isSome = true) := by
  simp only [due, Bool.and_eq_true, Bool.or_eq_true] at h
  exact ⟨h.1.1.2, h.1.2⟩

/-- The row as its claim returns it. -/
def claimedRow (p : Claimant) (now leaseMs : Nat) (row : Row) (id : IntentId) : StagedIntentRow :=
  ⟨claimed p now leaseMs row, id⟩

theorem drainAnswer_one {rows : Rows} (hrow : rows id = some row) (leaseMs : Nat) :
    drainAnswer (drainRows rows p now leaseMs [id]) [id] = [claimedRow p now leaseMs row id] := by
  have hmem : id ∈ [id] := List.mem_singleton_self id
  simp only [drainAnswer, List.filterMap_cons, drainRows_picked hmem, hrow, Option.map_some, List.filterMap_nil,
    claimedRow]

/-- A row that may be stored is asked for. -/
theorem scan_one (hconcurrency : 0 < cfg.storeConcurrency) {inProcess : IntentId → Bool} {s : StagedIntentRow}
    (hfree : inProcess s.intentId = false) (hreceived : s.received = true)
    (hready : s.bytes.isSome = true ∨ s.walrusObjectId.isSome = true) (hdeadline : s.deadline.any (· ≤ now) = false) :
    scan cfg now inProcess [s] [] = .ask s [] [] := by
  have hcount : ¬([] : List Ready).length ≥ cfg.storeConcurrency := Nat.not_le_of_lt hconcurrency
  have hkeep : (!s.received || (!s.hasBytes && s.walrusObjectId.isNone)) = false := by
    obtain hb | hw := hready
    · simp [hreceived, StagedIntentRow.hasBytes, hb]
    · obtain ⟨w, hw⟩ := Option.isSome_iff_exists.mp hw
      simp [hreceived, hw]
  simp only [scan, if_neg hcount, hfree, hkeep, hdeadline, Bool.false_eq_true, if_false]

variable (σ) in
/-- A step of a process in a queue where that process was replaced. -/
theorem QueueStep.own_at {e : Event} {proc' : Process} {rows' : Rows} {past' : Past}
    (h : ProcessStep fl cfg { σ with processes := Function.update σ.processes p (some proc) } p proc e proc' rows' past') :
    QueueStep fl cfg { σ with processes := Function.update σ.processes p (some proc) } e
      { σ with rows := rows', processes := Function.update σ.processes p (some proc'), past := past' } := by
  have hstep := QueueStep.own (Function.update_self p (some proc) σ.processes) h
  simpa only [Function.update_idem] using hstep

/-- A row whose intent is in process is passed over. -/
theorem scan_passes (hconcurrency : 0 < cfg.storeConcurrency) {inProcess : IntentId → Bool} {s : StagedIntentRow}
    (htaken : inProcess s.intentId = true) : scan cfg now inProcess [s] [] = .start [] := by
  have hcount : ¬([] : List Ready).length ≥ cfg.storeConcurrency := Nat.not_le_of_lt hconcurrency
  simp only [scan, if_neg hcount, htaken, if_true]

variable (fl cfg) in
/-- A tick that finds one due row claims it, and goes through the loop over it. -/
theorem Queue.tick_scans (hp : σ.processes p = some proc) {k : Nat} (hk : proc.ticks k = none)
    (hstopped : proc.stopped = false) (hmay : mayTick cfg σ.now proc.tickStartedAt = true)
    (hpicked : Oldest (due σ.now p) ∅ cfg.batchSize σ.rows [id]) (hrow : σ.rows id = some row) {result : Scan}
    (hscan : scan cfg σ.now proc.inProcess [claimedRow p σ.now cfg.leaseMs row id] [] = result) :
    ∃ proc', Queue.Leads fl cfg (Prompt proc p k σ.now) σ
        { σ with
          rows := drainRows σ.rows p σ.now cfg.leaseMs [id]
          processes := Function.update σ.processes p (some proc') } ∧
      proc'.ticks = Function.update proc.ticks k (some ⟨σ.now, result.phase⟩) ∧
      proc'.runs = proc.runs ∧ proc'.inProcess = proc.inProcess ∧ proc'.stopped = false ∧
      proc'.tickStartedAt = some σ.now ∧ proc'.drainedAt = σ.now := by
  let rows' := drainRows σ.rows p σ.now cfg.leaseMs [id]
  let σ' : Queue := { σ with rows := rows' }
  let ticking : Process := { proc.setTick k ⟨σ.now, .draining⟩ with tickStartedAt := some σ.now }
  let drained : Process := { ticking.setTick k ⟨σ.now, .drained (drainAnswer rows' [id])⟩ with drainedAt := σ.now }
  let scanned : Process := drained.setTick k ⟨σ.now, result.phase⟩
  have htick : QueueStep fl cfg σ (.tick p k)
      { σ with processes := Function.update σ.processes p (some ticking) } :=
    .own hp (.tick k hk hstopped hmay)
  have hdrain : QueueStep fl cfg { σ with processes := Function.update σ.processes p (some ticking) } (.drain p k ∅)
      { σ' with processes := Function.update σ'.processes p (some drained) } := by
    have hat : ticking.ticks k = some ⟨σ.now, .draining⟩ := proc.setTick_self k _
    exact QueueStep.own_at σ (.drain ∅ [id] hat rfl hpicked)
  have hresume : QueueStep fl cfg { σ' with processes := Function.update σ'.processes p (some drained) }
      (.resumeTick p k) { σ' with processes := Function.update σ'.processes p (some scanned) } := by
    have hat : drained.ticks k = some ⟨σ.now, .drained (drainAnswer rows' [id])⟩ := ticking.setTick_self k _
    have hstep : QueueStep fl cfg { σ' with processes := Function.update σ'.processes p (some drained) } _ _ :=
      QueueStep.own_at σ' (.resumeTick hat rfl)
    have hphase : (scan cfg σ.now drained.inProcess (drainAnswer rows' [id]) []).phase = result.phase := by
      rw [drainAnswer_one hrow]
      exact congrArg Scan.phase hscan
    rwa [hphase] at hstep
  refine ⟨scanned, ?_, ?_, rfl, rfl, hstopped, rfl, rfl⟩
  · refine .head ⟨_, .tick hp, htick⟩ <| .head ⟨_, ?_, hdrain⟩ <| .single ⟨_, ?_, hresume⟩
    · exact .drain (Function.update_self ..) (proc.setTick_self k ⟨σ.now, .draining⟩) rfl rfl rfl
    · exact .resumeTick (Function.update_self ..) (ticking.setTick_self k _) rfl fun s hs => (mem_drainAnswer.mp hs).2
  · show Function.update (Function.update (Function.update proc.ticks k _) k _) k _ = _
    rw [Function.update_idem, Function.update_idem]

variable (fl cfg) in
/-- A tick that finds one due row claims it and asks for its commitment. -/
theorem Queue.tick_asks (hp : σ.processes p = some proc) {k : Nat} (hk : proc.ticks k = none)
    (hstopped : proc.stopped = false) (hmay : mayTick cfg σ.now proc.tickStartedAt = true)
    (hfree : proc.inProcess id = false) (hpicked : Oldest (due σ.now p) ∅ cfg.batchSize σ.rows [id])
    (hrow : σ.rows id = some row) (hdeadline : row.deadline.any (· ≤ σ.now) = false)
    (hconcurrency : 0 < cfg.storeConcurrency) :
    ∃ proc', Queue.Leads fl cfg (Prompt proc p k σ.now) σ
        { σ with
          rows := drainRows σ.rows p σ.now cfg.leaseMs [id]
          processes := Function.update σ.processes p (some proc') } ∧
      proc'.ticks = Function.update proc.ticks k
        (some ⟨σ.now, .asking (claimedRow p σ.now cfg.leaseMs row id) [] []⟩) ∧
      proc'.runs = proc.runs ∧ proc'.inProcess = proc.inProcess ∧ proc'.stopped = false ∧
      proc'.tickStartedAt = some σ.now ∧ proc'.drainedAt = σ.now := by
  obtain ⟨row', hrow', hdue⟩ := hpicked.found id (List.mem_singleton_self id)
  rw [hrow, Option.some.injEq] at hrow'
  subst hrow'
  obtain ⟨hreceived, hbytes⟩ := due_ready hdue
  exact Queue.tick_scans cfg fl hp hk hstopped hmay hpicked hrow (scan_one hconcurrency hfree hreceived hbytes hdeadline)

/-- The tick whose row is found to have a sender. -/
def Process.takenUp (proc : Process) (k startedAt : Nat) (ready : Ready) : Process :=
  proc.setTick k ⟨startedAt, .starting [ready] []⟩

/-- The tick that has started its one run. -/
def Process.started (proc : Process) (fl : Rounding) (cfg : Config) (k r startedAt now : Nat)
    (ready : Ready) : Process :=
  ((proc.takenUp k startedAt ready).startRun fl cfg r now ready).setTick k ⟨startedAt, .starting [] [r]⟩

variable (fl cfg) in
/-- A tick that awaits the commitment of its last row takes the row up, -/
theorem Queue.tick_takes (hp : σ.processes p = some proc) {k t : Nat} {s : StagedIntentRow}
    (hk : proc.ticks k = some ⟨t, .asking s [] []⟩) {c : IntentCommitment} {sender : String}
    (hsender : c.sender = some sender) (hnamed : sender ≠ "") :
    QueueStep fl cfg σ (.commitment p k)
      { σ with processes := Function.update σ.processes p (some (proc.takenUp k t ⟨s, sender, some c⟩)) } := by
  have htake : (scan cfg t proc.inProcess [] (takeUp s (some c) [])).phase = .starting [⟨s, sender, some c⟩] [] := by
    have hup : takeUp s (some c) [] = [⟨s, sender, some c⟩] := by
      simp only [takeUp, Option.bind_some, hsender, if_neg hnamed, List.nil_append]
    rw [hup]
    rfl
  have hstep : QueueStep fl cfg σ (.commitment p k) _ := .own hp (.commitment (some c) hk rfl)
  rwa [htake] at hstep

variable (fl cfg σ) in
/-- and starts its run. -/
theorem Queue.tick_runs (proc : Process) (p : Claimant) (k t : Nat) (ready : Ready) {r : Nat}
    (hr : proc.runs r = none) :
    QueueStep fl cfg
      { σ with processes := Function.update σ.processes p (some (proc.takenUp k t ready)) } (.start p k r ready)
      { σ with processes := Function.update σ.processes p (some (proc.started fl cfg k r t σ.now ready)) } := by
  have hat : (proc.takenUp k t ready).ticks k = some ⟨t, .starting [ready] []⟩ := proc.setTick_self k _
  exact QueueStep.own_at σ (.start r hat rfl hr)

/-- A run of the claimed row that has just been started. -/
def startedRun (fl : Rounding) (cfg : Config) (now : Nat) (s : StagedIntentRow) (sender : String)
    (c : IntentCommitment) : Run :=
  ⟨s, sender, some c, now, .answered (store fl cfg s sender (some c)), .racing⟩

variable (fl cfg) in
/-- A tick that finds one due row starts its run. -/
theorem Queue.tick_starts (hp : σ.processes p = some proc) {k r : Nat} (hk : proc.ticks k = none)
    (hr : proc.runs r = none) (hstopped : proc.stopped = false) (hmay : mayTick cfg σ.now proc.tickStartedAt = true)
    (hfree : proc.inProcess id = false) (hpicked : Oldest (due σ.now p) ∅ cfg.batchSize σ.rows [id])
    (hrow : σ.rows id = some row) (hdeadline : row.deadline.any (· ≤ σ.now) = false)
    (hconcurrency : 0 < cfg.storeConcurrency) {c : IntentCommitment} {sender : String}
    (hsender : c.sender = some sender) (hnamed : sender ≠ "") :
    ∃ proc', Queue.Leads fl cfg (Prompt proc p k σ.now) σ
        { σ with
          rows := drainRows σ.rows p σ.now cfg.leaseMs [id]
          processes := Function.update σ.processes p (some proc') } ∧
      proc'.runs = Function.update proc.runs r
        (some (startedRun fl cfg σ.now (claimedRow p σ.now cfg.leaseMs row id) sender c)) ∧
      proc'.ticks = Function.update proc.ticks k (some ⟨σ.now, .starting [] [r]⟩) ∧
      proc'.inProcess = Function.update proc.inProcess id true ∧ proc'.stopped = false ∧
      proc'.tickStartedAt = some σ.now ∧ proc'.drainedAt = σ.now := by
  obtain ⟨asking, hasks, hticks, hruns, hslots, hstop, hticked, hdrained⟩ :=
    Queue.tick_asks cfg fl hp hk hstopped hmay hfree hpicked hrow hdeadline hconcurrency
  obtain ⟨found, hfound, hdue⟩ := hpicked.found id (List.mem_singleton_self id)
  rw [hrow, Option.some.injEq] at hfound
  subst hfound
  let s := claimedRow p σ.now cfg.leaseMs row id
  let ready : Ready := ⟨s, sender, some c⟩
  let σ' : Queue := { σ with rows := drainRows σ.rows p σ.now cfg.leaseMs [id] }
  have hasking : asking.ticks k = some ⟨σ.now, .asking s [] []⟩ := hticks ▸ Function.update_self ..
  have hcommit : QueueStep fl cfg { σ' with processes := Function.update σ'.processes p (some asking) }
      (.commitment p k)
      { σ' with processes := Function.update σ'.processes p (some (asking.takenUp k σ.now ready)) } := by
    have hstep := Queue.tick_takes cfg fl (σ := { σ' with processes := Function.update σ'.processes p (some asking) })
      (Function.update_self ..) hasking hsender hnamed
    rwa [Function.update_idem] at hstep
  have hstart := Queue.tick_runs cfg fl σ' asking p k σ.now ready (hruns ▸ hr)
  refine ⟨asking.started fl cfg k r σ.now σ.now ready, ?_, ?_, ?_, ?_, hstop, hticked, hdrained⟩
  · refine (hasks.tail ⟨_, .commitment (Function.update_self ..) hasking rfl, hcommit⟩).tail ⟨_, ?_, hstart⟩
    have hothers : ∀ i, i ≠ k → (asking.takenUp k σ.now ready).ticks i = proc.ticks i := by
      intro i hi
      show Function.update asking.ticks k _ i = _
      rw [Function.update_of_ne hi, hticks, Function.update_of_ne hi]
    have hclaimed : σ'.rows id = some s.toRow := by
      show drainRows σ.rows p σ.now cfg.leaseMs [id] id = _
      rw [drainRows_picked (List.mem_singleton_self id), hrow]
      rfl
    have hlast : (⟨σ.now, .starting [ready] []⟩ : Tick).startedAt = (asking.takenUp k σ.now ready).drainedAt :=
      hdrained.symm
    have hactive : row.state = .active := due_active hdue
    exact .start (Function.update_self ..) (asking.setTick_self k _) hothers hlast hclaimed rfl rfl hactive
  · show Function.update asking.runs r _ = _
    rw [hruns]
    rfl
  · show Function.update (Function.update asking.ticks k _) k _ = _
    rw [Function.update_idem, hticks, Function.update_idem]
  · show Function.update asking.inProcess id true = _
    rw [hslots]

/-! ## One staged intent -/

/-- A statement that writes one row. -/
theorem StagedIntentStore.Op.run_write {op : Op} {rows : Rows} {v : Option Row}
    (hself : op.statement.write rows id (rows id) = some v)
    (hother : ∀ k, k ≠ id → op.statement.write rows k (rows k) = none) : op.run rows = Function.update rows id v := by
  funext k
  unfold Op.run
  by_cases hk : k = id
  · subst hk
    rw [hself, Function.update_self, Option.getD_some]
  · rw [hother k hk, Function.update_of_ne hk, Option.getD_none]

theorem StagedIntentStore.Op.run_update {op : Op} {rows : Rows} {guard : Row → Bool} {set : Row → Row}
    (hop : op.statement = updateRow id guard set) (hrow : rows id = some row) (hguard : guard row = true) :
    op.run rows = Function.update rows id (some (set row)) := by
  apply Op.run_write
  · rw [hop]
    exact updateRow_some.mpr ⟨rfl, row, hrow, hguard, rfl⟩
  · intro k hk
    rw [hop]
    exact if_neg hk

theorem StagedIntentStore.Op.run_insert {op : Op} {rows : Rows} {inserted : Row} {merged : Row → Row}
    {admits : Rows → Prop} (hop : op.statement = upsert id inserted merged admits) (hrow : rows id = none) :
    op.run rows = Function.update rows id (some inserted) := by
  apply Op.run_write
  · rw [hop]
    exact upsert_some.mpr ⟨rfl, Or.inl ⟨hrow, rfl⟩⟩
  · intro k hk
    rw [hop]
    exact if_neg hk

theorem StagedIntentStore.Op.run_merge {op : Op} {rows : Rows} {inserted : Row} {merged : Row → Row}
    {admits : Rows → Prop} (hop : op.statement = upsert id inserted merged admits) (hrow : rows id = some row)
    (hactive : row.state = .active) : op.run rows = Function.update rows id (some (merged row)) := by
  apply Op.run_write
  · rw [hop]
    exact upsert_some.mpr ⟨rfl, Or.inr ⟨row, hrow, hactive, rfl⟩⟩
  · intro k hk
    rw [hop]
    exact if_neg hk

/-- A table with one row. -/
def Rows.one (id : IntentId) (row : Row) : Rows := Function.update (fun _ => none) id (some row)

theorem Rows.one_self : Rows.one id row id = some row := Function.update_self ..

theorem Rows.one_update (r : Row) : Function.update (Rows.one id row) id (some r) = Rows.one id r :=
  Function.update_idem ..

theorem Rows.one_some {k : IntentId} {r : Row} (h : Rows.one id row k = some r) : k = id ∧ r = row := by
  obtain h | ⟨-, h⟩ := Table.set_some.mp h
  · exact h
  · cases h

/-- The row of a table is the answer of a query that it matches. -/
theorem StagedIntentStore.Oldest.one {matching : Row → Bool} (hmatching : matching row = true) {limit : Nat}
    (hlimit : 0 < limit) :
    Oldest matching ∅ limit (Rows.one id row) [id] where
  nodup := List.nodup_singleton id
  length_le := hlimit
  found k hk := by
    rw [List.mem_singleton.mp hk]
    exact ⟨row, Rows.one_self, hmatching⟩
  unskipped k _ := Set.notMem_empty k
  ordered := List.pairwise_singleton ..
  full k r hk hr hskip hmem := absurd (List.mem_singleton.mpr (Rows.one_some hk).1) hmem

theorem drainRows_one (p : Claimant) (now leaseMs : Nat) :
    drainRows (Rows.one id row) p now leaseMs [id] = Rows.one id (claimed p now leaseMs row) := by
  funext k
  by_cases hk : k = id
  · subst hk
    rw [drainRows_picked (List.mem_singleton_self _), Rows.one_self, Rows.one_self, Option.map_some]
  · rw [drainRows_other (fun h => hk (List.mem_singleton.mp h))]
    simp only [Rows.one, Function.update_of_ne hk]

variable (fl cfg) in
/-- A tick that finds the one due row of the table starts its run. -/
theorem Queue.tick_one (hp : σ.processes p = some proc) {k r : Nat} (hk : proc.ticks k = none)
    (hr : proc.runs r = none) (hstopped : proc.stopped = false) (hmay : mayTick cfg σ.now proc.tickStartedAt = true)
    (hfree : proc.inProcess id = false) (hrows : σ.rows = Rows.one id row) (hdue : due σ.now p row = true)
    (hbatch : 0 < cfg.batchSize) (hdeadline : row.deadline.any (· ≤ σ.now) = false)
    (hconcurrency : 0 < cfg.storeConcurrency) {c : IntentCommitment} {sender : String}
    (hsender : c.sender = some sender) (hnamed : sender ≠ "") :
    ∃ proc', Queue.Leads fl cfg (Prompt proc p k σ.now) σ
        { σ with
          rows := Rows.one id (claimed p σ.now cfg.leaseMs row)
          processes := Function.update σ.processes p (some proc') } ∧
      proc'.runs = Function.update proc.runs r
        (some (startedRun fl cfg σ.now (claimedRow p σ.now cfg.leaseMs row id) sender c)) ∧
      proc'.ticks = Function.update proc.ticks k (some ⟨σ.now, .starting [] [r]⟩) ∧
      proc'.inProcess = Function.update proc.inProcess id true ∧ proc'.stopped = false ∧
      proc'.tickStartedAt = some σ.now ∧ proc'.drainedAt = σ.now := by
  have hpicked : Oldest (due σ.now p) ∅ cfg.batchSize σ.rows [id] := hrows ▸ Oldest.one hdue hbatch
  have hrow : σ.rows id = some row := hrows ▸ Rows.one_self
  have hstarts := Queue.tick_starts cfg fl hp hk hr hstopped hmay hfree hpicked hrow hdeadline hconcurrency
    hsender hnamed
  rwa [hrows, drainRows_one] at hstarts

/-- Nobody is condemned while the one row of the table is active. -/
theorem Past.judged_one (past : Past) (hactive : row.state = .active) : past.judged (Rows.one id row) = past := by
  have hsame : ∀ k, (past.condemned k || (Rows.one id row k).any fun r => r.state == .dead || r.state == .expired) =
      past.condemned k := by
    intro k
    have hnone : ((Rows.one id row k).any fun r => r.state == .dead || r.state == .expired) = false := by
      cases h : Rows.one id row k with
      | none => rfl
      | some r =>
        obtain ⟨-, rfl⟩ := Rows.one_some h
        simp [hactive]
    rw [hnone, Bool.or_false]
  simp only [Past.judged, hsame]

/-- A table with two rows. -/
def Rows.two (id : IntentId) (row : Row) (id' : IntentId) (row' : Row) : Rows :=
  Function.update (Rows.one id row) id' (some row')

section

variable {id' : IntentId} {row' : Row}

theorem Rows.two_second : Rows.two id row id' row' id' = some row' := Function.update_self ..

theorem Rows.two_first (hne : id ≠ id') : Rows.two id row id' row' id = some row :=
  (Function.update_of_ne hne ..).trans Rows.one_self

theorem Rows.two_update (r : Row) : Function.update (Rows.two id row id' row') id' (some r) = Rows.two id row id' r :=
  Function.update_idem ..

theorem Rows.two_some {k : IntentId} {r : Row} (h : Rows.two id row id' row' k = some r) :
    k = id' ∧ r = row' ∨ k ≠ id' ∧ k = id ∧ r = row :=
  (Table.set_some.mp h).imp_right fun h => ⟨h.1, Rows.one_some h.2⟩

/-- The one of two rows that a query matches is its answer. -/
theorem StagedIntentStore.Oldest.two {matching : Row → Bool} (hother : matching row = false)
    (hmatching : matching row' = true) {limit : Nat} (hlimit : 0 < limit) :
    Oldest matching ∅ limit (Rows.two id row id' row') [id'] where
  nodup := List.nodup_singleton id'
  length_le := hlimit
  found k hk := by
    rw [List.mem_singleton.mp hk]
    exact ⟨row', Rows.two_second, hmatching⟩
  unskipped k _ := Set.notMem_empty k
  ordered := List.pairwise_singleton ..
  full k r hk hr hskip hmem := by
    obtain ⟨rfl, -⟩ | ⟨-, -, rfl⟩ := Rows.two_some hk
    · exact absurd (List.mem_singleton_self _) hmem
    · rw [hother] at hr
      cases hr

theorem drainRows_two (hne : id ≠ id') (p : Claimant) (now leaseMs : Nat) :
    drainRows (Rows.two id row id' row') p now leaseMs [id'] = Rows.two id row id' (claimed p now leaseMs row') := by
  funext k
  by_cases hk : k = id'
  · subst hk
    rw [drainRows_picked (List.mem_singleton_self _), Rows.two_second, Rows.two_second, Option.map_some]
  · rw [drainRows_other (fun h => hk (List.mem_singleton.mp h))]
    simp only [Rows.two, Function.update_of_ne hk]

end

/-! ## A run that is served -/

/-- The program, table and past after calls that each met `C` were answered, at one time. -/
inductive Served (C : Call → Prop) (now : Nat) (start : Program Booking) (rows : Rows) (past : Past) :
    Program Booking → Rows → Past → Prop
  | start : Served C now start rows past start rows past
  | answer {c next rows' past'} (h : Served C now start rows past (.await c next) rows' past')
    (a : Except Failure c.Answer) (hcall : C c) (hanswer : c.Answers rows' a) :
    Served C now start rows past (next a) (c.run now rows') ((past'.called c).judged (c.run now rows'))

namespace Served

variable {C : Call → Prop} {start : Program Booking} {rows : Rows} {past past' : Past} {c : Call}
  {next : Except Failure c.Answer → Program Booking}

/-- A call that only reads. -/
theorem read (h : Served C now start rows past (.await c next) (Rows.one id row) past') (a : Except Failure c.Answer)
    (hcall : C c) (hanswer : c.Answers (Rows.one id row) a) (hop : c.op now = none) (hpast : past'.called c = past')
    (hactive : row.state = .active) : Served C now start rows past (next a) (Rows.one id row) past' := by
  have hstep := h.answer a hcall hanswer
  have hrun : c.run now (Rows.one id row) = Rows.one id row := by
    unfold Call.run
    rw [hop]
    rfl
  rwa [hrun, Past.judged_one _ hactive, hpast] at hstep

/-- A call that only reads, from any table. -/
theorem look {rows' : Rows} (h : Served C now start rows past (.await c next) rows' past')
    (a : Except Failure c.Answer) (hcall : C c) (hanswer : c.Answers rows' a) (hop : c.op now = none) :
    ∃ past'', Served C now start rows past (next a) rows' past'' := by
  have hstep := h.answer a hcall hanswer
  have hrun : c.run now rows' = rows' := by
    unfold Call.run
    rw [hop]
    rfl
  rw [hrun] at hstep
  exact ⟨_, hstep⟩

/-- A call that updates the one row. -/
theorem write (h : Served C now start rows past (.await c next) (Rows.one id row) past') (a : Except Failure c.Answer)
    {op : Op} {set : Row → Row} (hcall : C c) (hanswer : c.Answers (Rows.one id row) a) (hop : c.op now = some op)
    (hstatement : op.statement = updateRow id (fun _ => true) set) (hactive : (set row).state = .active) :
    Served C now start rows past (next a) (Rows.one id (set row)) (past'.called c) := by
  have hstep := h.answer a hcall hanswer
  have hrun : c.run now (Rows.one id row) = Rows.one id (set row) := by
    unfold Call.run
    rw [hop]
    exact (Op.run_update hstatement Rows.one_self rfl).trans (Rows.one_update _)
  rwa [hrun, Past.judged_one _ hactive] at hstep

end Served

variable (fl cfg) in
/-- A run goes on with one call answered. -/
theorem Queue.serve (hp : σ.processes p = some proc) {r : Nat} {run : Run} (hr : proc.runs r = some run) {c : Call}
    {next : Except Failure c.Answer → Program Booking} (hwork : run.work = .answered (.await c next))
    (a : Except Failure c.Answer) (hanswer : c.Answers σ.rows a) :
    let waiting : Queue :=
      { σ with processes := Function.update σ.processes p (some (proc.setRun r { run with work := .awaiting c next })) }
    QueueStep fl cfg σ (.resume p r) waiting ∧ QueueStep fl cfg waiting (.call p r c)
      { σ with
        rows := c.run σ.now σ.rows
        processes := Function.update σ.processes p (some (proc.setRun r { run with work := .answered (next a) }))
        past := (σ.past.called c).judged (c.run σ.now σ.rows) } := by
  let waits : Process := proc.setRun r { run with work := .awaiting c next }
  refine ⟨.own hp (.resume hr hwork), ?_⟩
  have hstep : QueueStep fl cfg { σ with processes := Function.update σ.processes p (some waits) } (.call p r c) _ :=
    QueueStep.own_at σ (.call a true (proc.setRun_self r _) rfl hanswer fun _ => rfl)
  rwa [show waits.setRun r { run with work := .answered (next a) } = proc.setRun r
    { run with work := .answered (next a) }
    from congrArg (fun runs => { proc with runs := runs }) (Function.update_idem ..)] at hstep

variable (fl cfg) in
/-- A run goes on with its calls answered. -/
theorem Queue.serves {P : Queue → Event → Prop} {C : Call → Prop} (hp : σ.processes p = some proc) {r : Nat} {run : Run}
    (hr : proc.runs r = some run) {start rest : Program Booking} {rows : Rows} {past : Past}
    (hwork : run.work = .answered start) (hserved : Served C σ.now start σ.rows σ.past rest rows past)
    (hresume : ∀ σ, P σ (.resume p r)) (hcall : ∀ σ c, C c → P σ (.call p r c)) :
    Queue.Leads fl cfg P σ
      { σ with
        rows := rows
        processes := Function.update σ.processes p (some (proc.setRun r { run with work := .answered rest }))
        past := past } := by
  induction hserved with
  | start =>
    have hrun : ({ run with work := .answered start } : Run) = run := by
      rw [← hwork]
    have hproc : proc.setRun r run = proc := by
      unfold Process.setRun
      rw [← hr, Function.update_eq_self]
    rw [hrun, hproc, ← hp, Function.update_eq_self]
  | @answer c next rows' past' h a hc hanswer ih =>
    let before : Queue :=
      { σ with
        rows := rows'
        processes := Function.update σ.processes p
          (some (proc.setRun r { run with work := .answered (.await c next) }))
        past := past' }
    obtain ⟨hfirst, hsecond⟩ := Queue.serve cfg fl (σ := before) (Function.update_self ..)
      (proc.setRun_self r _) rfl a hanswer
    have hprocess : (proc.setRun r { run with work := .answered (.await c next) }).setRun r
        { run with work := .answered (next a) } = proc.setRun r { run with work := .answered (next a) } :=
      congrArg (fun runs => { proc with runs := runs }) (Function.update_idem ..)
    have hend := (Relation.ReflTransGen.tail ih ⟨_, hresume _, hfirst⟩).tail ⟨_, hcall _ _ hc, hsecond⟩
    rwa [show Function.update before.processes p
      (some ((proc.setRun r { run with work := .answered (.await c next) }).setRun r
        { run with work := .answered (next a) })) = _ from Function.update_idem .., hprocess] at hend

/-- A run whose pipeline has failed, once the failure is told and once it is handled. -/
def Run.failed (run : Run) (now : Nat) (err : Failure) : Run := run.settle now (.error err)

def Run.handled (run : Run) (now : Nat) (err : Failure) : Run := { run.failed now err with handling := .finished }

/-- The process then; the slot of the run is free. -/
def Process.failed (proc : Process) (r : Nat) (run : Run) (now : Nat) (err : Failure) : Process :=
  { proc.setRun r (run.failed now err) with inProcess := Function.update proc.inProcess run.row.intentId false }

def Process.handled (proc : Process) (r : Nat) (run : Run) (now : Nat) (err : Failure) : Process :=
  (proc.failed r run now err).setRun r (run.handled now err)

variable (fl cfg) in
/-- A run whose pipeline fails, and the handler of its failure. -/
theorem Queue.fails (hp : σ.processes p = some proc) {r : Nat} {run : Run} (hr : proc.runs r = some run)
    {err : Failure} (hwork : run.work = .answered (.fail err)) (hrace : run.handling = .racing) :
    let failed : Queue :=
      { σ with
        processes := Function.update σ.processes p (some (proc.failed r run σ.now err))
        past := σ.past.settled run.row.intentId (.fail err) }
    QueueStep fl cfg σ (.resume p r) failed ∧ QueueStep fl cfg failed (.handle p r)
      { σ with
        rows := (attemptFailed cfg run.row (.failed err) σ.now).run σ.rows
        processes := Function.update σ.processes p (some (proc.handled r run σ.now err))
        past := failed.past.judged ((attemptFailed cfg run.row (.failed err) σ.now).run σ.rows) } := by
  intro failed
  have hfailed : (run.failed σ.now err).handling = .handling (.failed err) σ.now := by
    unfold Run.failed Run.settle
    rw [hrace]
  refine ⟨.own hp (.resume hr hwork), ?_⟩
  have hat : (proc.failed r run σ.now err).runs r = some (run.failed σ.now err) := Function.update_self ..
  have hstep : QueueStep fl cfg failed (.handle p r) _ := QueueStep.own_at
    { σ with past := failed.past } (.handle hat hfailed)
  exact hstep

/-- A relayer without the break-even guard. -/
def exampleConfig : Config where
  evmDstEid := 40161
  solanaSrcEid := 40168
  breakEvenEnabled := false
  guardReturnLzFeeMist := 0

/-- The blob whose id is all zero bits, base64url and hexadecimal. -/
def exampleBlobId : String := "AAAAAAAAAAAAAAAAAAAAAAAAAAAAAAAAAAAAAAAAAAA"
def exampleField : String := "0x0000000000000000000000000000000000000000000000000000000000000000"

def exampleBytes : StagedBytes := { bytes := [7], blobId := exampleBlobId, size := 1 }

def exampleReceipt : ReceivedDetails where
  srcEid := 40161
  committedBlobId := exampleField
  deadline := 3600000
  storageEpochs := some 1

def exampleCommitment : IntentCommitment where
  intentId := "0x01"
  committedBlobId := exampleField
  size := 1
  deadline := 3600000
  sender := some "0xab"
  status := .submitted

/-- The row of an intent whose bytes were ingested, and whose event came. -/
def exampleRow : Row := receivedMerged exampleReceipt 0 (bytesInserted exampleBytes 0)

/-- The queue with that row alone. -/
def exampleStaged (processes : Claimant → Option Process) : Queue := ⟨0, Rows.one "0x01" exampleRow, processes, {}⟩

/-- Nothing is forgotten of an active row. -/
theorem Past.none_one (hactive : row.state = .active) :
    (Past.deleted {} (Rows.one id row)).judged (Rows.one id row) = {} := by
  rw [Past.judged_one _ hactive]
  simp [Past.deleted]

variable (fl cfg) in
/-- The bytes of the one intent are staged. -/
theorem QueueStep.buffers_one (blob : StagedBytes) (cap : Option Nat) (processes : Claimant → Option Process) :
    QueueStep fl cfg ⟨0, fun _ => none, processes, {}⟩ (.statement (.upsertBytes id blob cap 0))
      ⟨0, Rows.one id (bytesInserted blob 0), processes, {}⟩ := by
  have hstep : QueueStep fl cfg ⟨0, fun _ => none, processes, {}⟩ (.statement (.upsertBytes id blob cap 0)) _ :=
    .statement _ trivial
  have hrun : (Op.upsertBytes id blob cap 0).run (fun _ => none) = Rows.one id (bytesInserted blob 0) :=
    Op.run_insert rfl rfl
  rwa [hrun, Past.none_one rfl] at hstep

variable (fl cfg) in
/-- The event of the one intent comes. -/
theorem QueueStep.receives_one (details : ReceivedDetails) (hactive : row.state = .active)
    (processes : Claimant → Option Process) :
    QueueStep fl cfg ⟨0, Rows.one id row, processes, {}⟩ (.statement (.markReceived id details 0))
      ⟨0, Rows.one id (receivedMerged details 0 row), processes, {}⟩ := by
  have hstep : QueueStep fl cfg ⟨0, Rows.one id row, processes, {}⟩ (.statement (.markReceived id details 0)) _ :=
    .statement _ trivial
  have hrun : (Op.markReceived id details 0).run (Rows.one id row) = Rows.one id (receivedMerged details 0 row) :=
    (Op.run_merge rfl Rows.one_self hactive).trans (Rows.one_update _)
  have hmerged : (receivedMerged details 0 row).state = .active := hactive
  rwa [hrun, Past.none_one hmerged] at hstep

variable (fl cfg) in
/-- The row is staged before any tick. -/
theorem exampleStaged_leads {P : Queue → Event → Prop} {processes : Claimant → Option Process}
    (hboot : Queue.Leads fl cfg P .empty ⟨0, fun _ => none, processes, {}⟩)
    (hbytes : ∀ σ : Queue, σ.past = {} → P σ (.statement (.upsertBytes "0x01" exampleBytes none 0)))
    (hreceived : ∀ σ : Queue, σ.past = {} → P σ (.statement (.markReceived "0x01" exampleReceipt 0))) :
    Queue.Leads fl cfg P .empty (exampleStaged processes) := by
  have hactive : (bytesInserted exampleBytes 0).state = .active := rfl
  have hbuffered : Queue.Leads fl cfg P .empty ⟨0, Rows.one "0x01" (bytesInserted exampleBytes 0), processes, {}⟩ :=
    hboot.step (.buffers_one cfg fl exampleBytes none processes) (hbytes _ rfl)
  exact hbuffered.step (.receives_one cfg fl exampleReceipt hactive processes) (hreceived _ rfl)

/-- A process at rest, with one staged intent. -/
def exampleAlone : Queue :=
  exampleStaged (Function.update (fun _ => none) "a" (some { drainedAt := 0 }))

variable (fl cfg) in
theorem exampleAlone_leads {P : Queue → Event → Prop} (hboot : ∀ σ, P σ (.boot "a"))
    (hbytes : ∀ σ : Queue, σ.past = {} → P σ (.statement (.upsertBytes "0x01" exampleBytes none 0)))
    (hreceived : ∀ σ : Queue, σ.past = {} → P σ (.statement (.markReceived "0x01" exampleReceipt 0))) :
    Queue.Leads fl cfg P .empty exampleAlone := by
  apply exampleStaged_leads cfg fl _ hbytes hreceived
  have ha : QueueStep fl cfg .empty (.boot "a") _ := .boot "a" rfl
  exact Relation.ReflTransGen.single ⟨_, hboot _, ha⟩

/-- The row as the first tick of that process claims it, and as it is after its upload. -/
def exampleHeld : Row := claimed "a" 0 600000 exampleRow

def exampleUpload : UploadResult := ⟨"0xb10b", exampleBlobId, 9⟩

def exampleUploaded : Row := uploaded exampleUpload 0 exampleHeld

/-- The row once its store is recorded, and as a first failure of its return leg finds it. -/
def exampleStored : Row := stored "0xd16e57" 0 exampleUploaded

def exampleFreed : Row :=
  { exampleStored with
    ledgered := true
    bytes := none }

def exampleReturnFailure : Failure := .storeError (Failure.error "execution reverted").text .post

/-- The run that the first tick starts. -/
def exampleRun : Run :=
  startedRun .exact exampleConfig 0 (claimedRow "a" 0 600000 exampleRow "0x01") "0xab" exampleCommitment

/-- The queue once the process "a" has claimed the row and stands at `proc`. -/
def exampleHolding (processes : Claimant → Option Process) (proc : Process) : Queue :=
  ⟨0, Rows.one "0x01" exampleHeld, Function.update processes "a" (some proc), {}⟩

/-- A process whose first tick has started its run. -/
structure ExampleStarted (proc : Process) : Prop where
  runs : proc.runs = Function.update (fun _ => none) 0 (some exampleRun)
  ticks : proc.ticks = Function.update (fun _ => none) 0 (some ⟨0, .starting [] [0]⟩)
  inProcess : proc.inProcess = Function.update (fun _ => false) "0x01" true
  stopped : proc.stopped = false
  tickStartedAt : proc.tickStartedAt = some 0
  drainedAt : proc.drainedAt = 0

/-- The first tick of the process "a". -/
theorem exampleRun_starts (processes : Claimant → Option Process) (ha : processes "a" = some { drainedAt := 0 }) :
    ∃ proc, ExampleStarted proc ∧ Queue.Leads .exact exampleConfig (Prompt { drainedAt := 0 } "a" 0 0)
      (exampleStaged processes) (exampleHolding processes proc) := by
  have hp : (exampleStaged processes).processes "a" = some { drainedAt := 0 } := ha
  have hdue : due 0 "a" exampleRow = true := by decide
  have hlive : exampleRow.deadline.any (· ≤ 0) = false := by decide
  obtain ⟨proc, htick, hruns, hticks, hslots, hstopped, hticked, hdrained⟩ :=
    Queue.tick_one exampleConfig .exact (k := 0) (r := 0) (c := exampleCommitment) hp rfl rfl rfl rfl rfl rfl
      hdue (by decide) hlive (by decide) rfl (by decide)
  exact ⟨proc, ⟨hruns, hticks, hslots, hstopped, hticked, hdrained⟩, htick⟩

/-- The first tick of the process alone. -/
theorem exampleRun_leads :
    ∃ proc, Queue.Leads .exact exampleConfig (Prompt { drainedAt := 0 } "a" 0 0) exampleAlone
        { exampleAlone with
          rows := Rows.one "0x01" exampleHeld
          processes := Function.update exampleAlone.processes "a" (some proc) } ∧
      proc.runs = Function.update (fun _ => none) 0 (some exampleRun) ∧
      proc.ticks = Function.update (fun _ => none) 0 (some ⟨0, .starting [] [0]⟩) := by
  obtain ⟨proc, hstarted, htick⟩ :=
    exampleRun_starts (Function.update (fun _ => none) "a" (some { drainedAt := 0 })) rfl
  exact ⟨proc, htick, hstarted.runs, hstarted.ticks⟩

/-- That run, up to its upload and up to the record of its store, and from there to the failure of its return leg. -/
theorem exampleRun_served {C : Call → Prop} (hC : ∀ c : Call, (∀ id digest, c ≠ .persistStore id digest) →
    (∀ id text, c ≠ .markDead id text) → C c) :
    (∃ next, Served C 0 (store .exact exampleConfig exampleRun.row "0xab" (some exampleCommitment))
      (Rows.one "0x01" exampleHeld) {} (.await (.writeBlob "0x01" [7] 1) next) (Rows.one "0x01" exampleHeld) {}) ∧
    ∃ next, Served C 0 (store .exact exampleConfig exampleRun.row "0xab" (some exampleCommitment))
      (Rows.one "0x01" exampleHeld) {} (.await (.persistStore "0x01" "0xd16e57") next) (Rows.one "0x01" exampleUploaded)
      { uploaded := Function.update (fun _ => false) "0x01" true } ∧
    ∀ past, Served C 0 (next (.ok ())) (Rows.one "0x01" exampleStored) past (.fail exampleReturnFailure)
      (Rows.one "0x01" exampleFreed) past := by
  have h0 : Served C 0 (store .exact exampleConfig exampleRun.row "0xab" (some exampleCommitment))
      (Rows.one "0x01" exampleHeld) {} _ (Rows.one "0x01" exampleHeld) {} := .start
  have h1 := h0.read (c := .systemState) (.ok ⟨1000, 1, 1, 53⟩) (by apply hC <;> simp) trivial rfl rfl rfl
  have h2 := h1.read (c := .ensureWal) (.ok ()) (by apply hC <;> simp) trivial rfl rfl rfl
  have h3 := h2.read (c := .recordHop "0x01" .received { sender := some "0xab" }) (.ok ())
      (by apply hC <;> simp) trivial
    rfl rfl rfl
  have h4 := h3.read (c := .fetchBytes "0x01") (.ok (some [7])) (by apply hC <;> simp) rfl rfl rfl rfl
  have h5 := h4.read (c := .writeBlob "0x01" [7] 1) (.ok ⟨exampleBlobId, "0xb10b", 9⟩) (by apply hC <;> simp) trivial
    rfl rfl rfl
  have h6 := h5.read (c := .systemState) (.ok ⟨1000, 1, 1, 53⟩) (by apply hC <;> simp) trivial rfl rfl rfl
  have h7 := h6.write (c := .persistUpload "0x01" exampleUpload) (.ok ()) (by apply hC <;> simp) trivial rfl rfl rfl
  have h8 := h7.read (c := .recordHop "0x01" .storedWalrus _) (.ok ()) (by apply hC <;> simp) trivial rfl rfl rfl
  have h9 := h8.read (c := .executeStore "0x01" "0xab" "0xb10b" 3600000) (.ok "0xd16e57") (by apply hC <;> simp) trivial
    rfl rfl rfl
  have h10 := h9.read (c := .waitForTransaction "0xd16e57") (.ok ()) (by apply hC <;> simp) trivial rfl rfl rfl
  refine ⟨⟨_, h4⟩, ⟨_, h10, fun past => ?_⟩⟩
  show Served C 0 ?start _ past _ _ past
  have k0 : Served C 0 ?start (Rows.one "0x01" exampleStored) past ?start (Rows.one "0x01" exampleStored) past := .start
  have k1 := k0.read (c := .recordHop "0x01" .recordedSui _) (.ok ()) (by apply hC <;> simp) trivial rfl rfl rfl
  have k2 := k1.read (c := .recordLedger "0x01" _) (.ok true) (by apply hC <;> simp) trivial rfl rfl rfl
  have k3 := k2.write (c := .markLedgered "0x01") (.ok ()) (by apply hC <;> simp) trivial rfl rfl rfl
  have k4 := k3.write (c := .freeBytes "0x01") (.ok ()) (by apply hC <;> simp) trivial rfl rfl rfl
  have k5 := k4.read (c := .quoteLzFee "0x01" exampleBlobId 9 40161) (.error (.error "no peer"))
    (by apply hC <;> simp) trivial rfl rfl rfl
  exact k5.read (c := .evmConfirmExecution "0x01" _) (.error (.error "execution reverted"))
    (by apply hC <;> simp) trivial rfl rfl rfl

/-! ## A run that fails -/

def exampleFailure : Failure := .error "timeout"

/-- The row once the failure of its first run is handled. -/
def exampleRetriedRow : Row := rescheduled 1 4000 exampleFailure.text 0 exampleHeld

def exampleRetrying (processes : Claimant → Option Process) (proc : Process) : Queue :=
  ⟨0, Rows.one "0x01" exampleRetriedRow,
    Function.update processes "a" (some (proc.handled 0 exampleRun 0 exampleFailure)), {}⟩

/-- A process whose first run has failed; its tick is still open. -/
structure ExampleHandled (proc : Process) : Prop where
  runs : proc.runs = Function.update (fun _ => none) 0 (some (exampleRun.handled 0 exampleFailure))
  ticks : proc.ticks = Function.update (fun _ => none) 0 (some ⟨0, .starting [] [0]⟩)
  inProcess : proc.inProcess = fun _ => false
  stopped : proc.stopped = false
  tickStartedAt : proc.tickStartedAt = some 0
  drainedAt : proc.drainedAt = 0

theorem ExampleStarted.handled {proc : Process} (h : ExampleStarted proc) :
    ExampleHandled (proc.handled 0 exampleRun 0 exampleFailure) where
  runs := by
    show Function.update (Function.update proc.runs 0 _) 0 _ = _
    rw [h.runs, Function.update_idem, Function.update_idem]
  ticks := h.ticks
  inProcess := by
    show Function.update proc.inProcess "0x01" false = _
    rw [h.inProcess, Function.update_idem, Function.update_eq_self_iff]
  stopped := h.stopped
  tickStartedAt := h.tickStartedAt
  drainedAt := h.drainedAt

/-- No run is under way then, and no failure is still to be handled. -/
theorem exampleRetrying_idle {processes : Claimant → Option Process} {proc : Process} (hproc : ExampleStarted proc)
    (hothers : ∀ q procq, q ≠ "a" → processes q = some procq → ∀ r, procq.runs r = none) {q : Claimant}
    {procq : Process} {r : Nat} {run : Run} (hq : (exampleRetrying processes proc).processes q = some procq)
    (hr : procq.runs r = some run) : ¬run.Executing ∧ ∀ err since, run.handling ≠ .handling err since := by
  obtain ⟨rfl, rfl⟩ | ⟨hne, hold⟩ := Table.set_some.mp hq
  · rw [hproc.handled.runs] at hr
    obtain ⟨rfl, rfl⟩ | ⟨-, hr⟩ := Table.set_some.mp hr
    · exact ⟨exampleRun.settle_not_executing 0 (.error exampleFailure), fun err since => nofun⟩
    · cases hr
  · rw [hothers q procq hne hold r] at hr
    cases hr

/-- The first run, up to where its bytes cannot be read. -/
theorem exampleRun_unread : Served (fun c => ∀ id text, c ≠ .markDead id text) 0
    (store .exact exampleConfig exampleRun.row "0xab" (some exampleCommitment)) (Rows.one "0x01" exampleHeld) {}
    (.fail exampleFailure) (Rows.one "0x01" exampleHeld) {} := by
  have h0 : Served (fun c => ∀ id text, c ≠ .markDead id text) 0
      (store .exact exampleConfig exampleRun.row "0xab" (some exampleCommitment)) (Rows.one "0x01" exampleHeld) {}
      _ (Rows.one "0x01" exampleHeld) {} := .start
  have h1 := h0.read (c := .systemState) (.ok ⟨1000, 1, 1, 53⟩) (fun _ _ => Call.noConfusion) trivial rfl rfl rfl
  have h2 := h1.read (c := .ensureWal) (.ok ()) (fun _ _ => Call.noConfusion) trivial rfl rfl rfl
  have h3 := h2.read (c := .recordHop "0x01" .received { sender := some "0xab" }) (.ok ())
    (fun _ _ => Call.noConfusion) trivial rfl rfl rfl
  exact h3.read (c := .fetchBytes "0x01") (.error exampleFailure) (fun _ _ => Call.noConfusion) trivial rfl rfl rfl

/-- The bytes of the first run cannot be read: the run fails, and its handler leaves the row to a later tick. -/
theorem exampleRun_fails {P : Queue → Event → Prop} {processes : Claimant → Option Process} {proc : Process}
    (hruns : proc.runs = Function.update (fun _ => none) 0 (some exampleRun))
    (hothers : ∀ q procq, q ≠ "a" → processes q = some procq → ∀ r, procq.runs r = none)
    (hresume : ∀ σ, P σ (.resume "a" 0)) (hcall : ∀ σ c, (∀ id text, c ≠ .markDead id text) → P σ (.call "a" 0 c))
    (hhandle : ∀ σ : Queue, (∀ q r id, ¬σ.Executes q r id) → P σ (.handle "a" 0)) :
    Queue.Leads .exact exampleConfig P (exampleHolding processes proc) (exampleRetrying processes proc) := by
  have hp : (exampleHolding processes proc).processes "a" = some proc := by
    simp only [exampleHolding, Function.update_self]
  have hr : proc.runs 0 = some exampleRun := by
    rw [hruns]
    rfl
  let failing : Run := { exampleRun with work := .answered (.fail exampleFailure) }
  let σ : Queue := exampleHolding processes (proc.setRun 0 failing)
  have hserved : Queue.Leads .exact exampleConfig P (exampleHolding processes proc) σ := by
    have hleads := Queue.serves exampleConfig .exact hp hr rfl exampleRun_unread hresume hcall
    rwa [show Function.update (exampleHolding processes proc).processes "a" (some (proc.setRun 0 failing)) =
      σ.processes from Function.update_idem ..] at hleads
  have hσ : σ.processes "a" = some (proc.setRun 0 failing) := by
    simp only [σ, exampleHolding, Function.update_self]
  obtain ⟨hfail, hhandled⟩ := Queue.fails exampleConfig .exact hσ (proc.setRun_self 0 failing) rfl rfl
  have hover : ∀ q r id, ¬Queue.Executes
      { σ with processes := Function.update σ.processes "a" (some ((proc.setRun 0 failing).failed 0 failing 0
        exampleFailure)) } q r id := by
    rintro q r id ⟨procq, run, hq, hrun, -, hexec⟩
    obtain ⟨rfl, rfl⟩ | ⟨hne, hold⟩ := Table.set_some.mp hq
    · obtain ⟨rfl, rfl⟩ | ⟨hne, hold⟩ := Table.set_some.mp hrun
      · exact failing.settle_not_executing 0 (.error exampleFailure) hexec
      · have hold : Function.update proc.runs 0 (some failing) r = some run := hold
        rw [Function.update_of_ne hne, hruns, Function.update_of_ne hne] at hold
        cases hold
    · have hold : Function.update processes "a" _ q = some procq := hold
      rw [Function.update_of_ne hne] at hold
      rw [hothers q procq hne hold r] at hrun
      cases hrun
  have hproc : (proc.setRun 0 failing).handled 0 failing 0 exampleFailure =
      proc.handled 0 exampleRun 0 exampleFailure := by
    simp only [Process.handled, Process.failed, Process.setRun, Function.update_idem]
    rfl
  let op := attemptFailed exampleConfig exampleRun.row (.failed exampleFailure) 0
  have hrows : op.run (Rows.one "0x01" exampleHeld) = Rows.one "0x01" exampleRetriedRow := by
    have hop : op = .reschedule "0x01" 1 4000 exampleFailure.text 0 := rfl
    rw [hop, Op.run_update rfl Rows.one_self rfl]
    exact Rows.one_update _
  have hend : Queue.Leads .exact exampleConfig P (exampleHolding processes proc)
      ⟨0, op.run (Rows.one "0x01" exampleHeld), Function.update (Function.update processes "a"
        (some (proc.setRun 0 failing))) "a" (some ((proc.setRun 0 failing).handled 0 failing 0 exampleFailure)),
        ({} : Past).judged (op.run (Rows.one "0x01" exampleHeld))⟩ :=
    (hserved.step hfail (hresume σ)).step hhandled (hhandle _ hover)
  rwa [hproc, hrows, Past.judged_one _ rfl, Function.update_idem] at hend

end Bosphor.Relayer

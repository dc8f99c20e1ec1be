import Bosphor.Relayer.OneIntent

/-!
# The limit of the return leg

A failed attempt of the return leg is to be retried up to a limit of its own,
and a stored intent is not to be given up before. The row of a stored intent is
dead-lettered only after that many failures of the return leg, and never
expires, in every run in which nothing else is counted or decided against it:
no attempt fails before its store is recorded, only return legs fail
afterwards, and neither the reaper nor the pipeline's own checks meet a stored
row (`return_limit`). The reaper looks at the deadline alone
(`expired_after_store`).
-/

namespace Bosphor.Relayer

open StagedIntentStore

variable {fl : Rounding} {cfg : Config} {σ τ : Queue} {e : Event} {p : Claimant} {proc proc' : Process}
  {rows rows' : Rows} {past' : Past} {id : IntentId} {n : Nat}

/-- What is counted against the store of an intent: nothing beyond `n` attempts, and the unhandled failures of its
return leg. -/
structure Process.Counted (id : IntentId) (n : Nat) (proc : Process) : Prop where
  snapshots : ∀ k tick, proc.ticks k = some tick → ∀ s ∈ tick.rows, s.intentId = id → s.attempts ≤ n
  racing : ∀ r run, proc.runs r = some run → run.row.intentId = id → run.handling = .racing → run.row.attempts ≤ n
  failed : ∀ r run err since, proc.runs r = some run → run.row.intentId = id → run.handling = .handling err since →
    err.isPost = true → run.row.attempts + 1 ≤ n

/-- No attempt of the intent has been counted, and no failure of its return leg is unhandled. -/
def Queue.Unfailed (σ : Queue) (id : IntentId) (row : Row) : Prop :=
  row.attempts = 0 ∧ ∀ p proc, σ.processes p = some proc →
    (∀ k tick, proc.ticks k = some tick → ∀ s ∈ tick.rows, s.intentId = id → s.attempts = 0) ∧
    ∀ r run, proc.runs r = some run → run.row.intentId = id →
      (run.handling = .racing → run.row.attempts = 0) ∧
      ∀ err since, run.handling = .handling err since → err.isPost = false

/-- The steps that hold nothing but its return leg against a stored intent. -/
def ReturnLegOnly : Queue → Event → Prop
  | σ, .call _ _ (.persistStore id _) => ∀ row, σ.rows id = some row → row.storeDigest = none → σ.Unfailed id row
  | σ, .call _ _ (.markDead id _) => ∀ row, σ.rows id = some row → row.storeDigest = none
  | σ, .handle p r => ∀ proc run err since row, σ.processes p = some proc → proc.runs r = some run →
      run.handling = .handling err since → σ.rows run.row.intentId = some row → row.storeDigest ≠ none →
        err.isPost = true
  | σ, .statement (.expireDue now) => ∀ id row, σ.rows id = some row → row.storeDigest ≠ none → overdue now row = false
  | σ, .statement (.expireUnreceived cutoff _) => ∀ id row, σ.rows id = some row → row.storeDigest ≠ none →
      unreceived cutoff row = false
  | _, _ => True

/-! ## Statements -/

/-- What a statement can do to a row that is stored afterwards. -/
structure StoredWrite (op : Op) (k : IntentId) (r r' : Row) : Prop where
  digest : r.storeDigest ≠ none ∨ ∃ d now, op = .persistStore k d now
  attempts : r'.attempts = r.attempts ∨ ∃ nextAt text now, op = .reschedule k r'.attempts nextAt text now
  expired : r'.state = .expired → r.state = .expired ∨ op.Expires r
  dead : r'.state = .dead → r.state = .dead ∨ ∃ text now, op = .markDead k text now

theorem RowWrite.stored {op : Op} {k : IntentId} {r r' : Row} (h : RowWrite op k r r')
    (hstored : r'.storeDigest ≠ none) :
    StoredWrite op k r r' where
  digest := by
    obtain hsame | ⟨-, hop⟩ := h.digest
    · exact Or.inl (hsame ▸ hstored)
    · exact Or.inr hop
  attempts := h.attempts
  expired hexp := by
    cases h.state with
    | kept h => exact Or.inl (h ▸ hexp)
    | done now hop h => rw [h] at hexp; cases hexp
    | dead text now hop h => rw [h] at hexp; cases hexp
    | expired hop h => exact Or.inr hop
  dead hdead := by
    cases h.state with
    | kept h => exact Or.inl (h ▸ hdead)
    | done now hop h => rw [h] at hdead; cases hdead
    | dead text now hop h => exact Or.inr ⟨text, now, hop⟩
    | expired hop h => rw [h] at hdead; cases hdead

theorem StagedIntentStore.Op.write_stored {op : Op} {k : IntentId} {latest : Option Row} {r' : Row}
    (h : op.statement.write rows k latest = some (some r')) (hstored : r'.storeDigest ≠ none) :
    ∃ r, latest = some r ∧ StoredWrite op k r r' := by
  obtain ⟨-, hfresh⟩ | ⟨r, hr, hwrite⟩ := Op.write_row h
  · exact absurd hfresh.storeDigest hstored
  · exact ⟨r, hr, hwrite.stored hstored⟩

/-- The reaper goes for no stored row. -/
theorem ReturnLegOnly.spares {op : Op} (h : ReturnLegOnly σ (.statement op)) {row : Row} (hrow : σ.rows id = some row)
    (hstored : row.storeDigest ≠ none) : ¬op.Expires row := by
  intro hexpires
  unfold Op.Expires at hexpires
  split at hexpires
  · rw [h id row hrow hstored] at hexpires
    cases hexpires
  · rw [h id row hrow hstored] at hexpires
    cases hexpires
  · exact hexpires

/-! ## What a process counts -/

theorem Process.Counted.mono (h : proc.Counted id n) {m : Nat} (hle : n ≤ m) : proc.Counted id m where
  snapshots k tick hk s hs hid := (h.snapshots k tick hk s hs hid).trans hle
  racing r run hr hid hrace := (h.racing r run hr hid hrace).trans hle
  failed r run err since hr hid hhandling hpost := (h.failed r run err since hr hid hhandling hpost).trans hle

theorem Process.Counted.booted (now : Nat) : Process.Counted id n { drainedAt := now } where
  snapshots k tick hk := by cases hk
  racing r run hr := by cases hr
  failed r run err since hr := by cases hr

theorem Process.Counted.setTick (h : proc.Counted id n) (k : Nat) {tick : Tick}
    (htick : ∀ s ∈ tick.rows, s.intentId = id → s.attempts ≤ n) : (proc.setTick k tick).Counted id n where
  snapshots i t hi := by
    obtain ⟨rfl, rfl⟩ | ⟨-, hold⟩ := Table.set_some.mp hi
    · exact htick
    · exact h.snapshots i t hold
  racing := h.racing
  failed := h.failed

theorem Process.Counted.endTick (h : proc.Counted id n) (k : Nat) (tick : Tick) :
    (proc.endTick k tick).Counted id n where
  snapshots i t hi := h.snapshots i t (Table.remove_some.mp hi).2
  racing := h.racing
  failed := h.failed

theorem Process.Counted.setRun (h : proc.Counted id n) (r : Nat) {run : Run}
    (hrace : run.row.intentId = id → run.handling = .racing → run.row.attempts ≤ n)
    (hfailed : ∀ err since, run.row.intentId = id → run.handling = .handling err since → err.isPost = true →
      run.row.attempts + 1 ≤ n) : (proc.setRun r run).Counted id n where
  snapshots := h.snapshots
  racing i u hi := by
    obtain ⟨rfl, rfl⟩ | ⟨-, hold⟩ := Table.set_some.mp hi
    · exact hrace
    · exact h.racing i u hold
  failed i u err since hi := by
    obtain ⟨rfl, rfl⟩ | ⟨-, hold⟩ := Table.set_some.mp hi
    · exact hfailed err since
    · exact h.failed i u err since hold

/-- A failure of the return leg is counted before it is handled. -/
theorem Past.settled_failures (past : Past) (id : IntentId) (rest : Program Booking) :
    past.returnFailures id ≤ (past.settled id rest).returnFailures id ∧
      ∀ e, Work.of rest = .settled (.error e) → (AttemptError.failed e).isPost = true →
        past.returnFailures id + 1 ≤ (past.settled id rest).returnFailures id := by
  unfold Past.settled
  split
  · rename_i message
    have hcount : Function.update past.returnFailures id (past.returnFailures id + 1) id = past.returnFailures id + 1 :=
      Function.update_self ..
    refine ⟨?_, fun e _ _ => hcount.ge⟩
    show past.returnFailures id ≤ Function.update past.returnFailures id (past.returnFailures id + 1) id
    omega
  · rename_i hother
    refine ⟨le_rfl, fun e hof hpost => ?_⟩
    cases rest with
    | done b => cases hof
    | await c next => cases hof
    | fail e' =>
      cases hof
      cases e with
      | error message => cases hpost
      | storeError message phase =>
        cases phase with
        | pre => cases hpost
        | post => exact absurd rfl (hother message)

theorem Past.settled_le (past : Past) (id other : IntentId) (rest : Program Booking) :
    past.returnFailures id ≤ (past.settled other rest).returnFailures id := by
  by_cases hid : id = other
  · subst hid
    exact (past.settled_failures id rest).1
  · unfold Past.settled
    split
    · exact (Function.update_of_ne hid ..).ge
    · exact le_rfl

/-- A process's own step only adds to the failures of a return leg. -/
theorem ProcessStep.failures_le (hstep : ProcessStep fl cfg σ p proc e proc' rows' past') (id : IntentId) :
    σ.past.returnFailures id ≤ past'.returnFailures id := by
  cases hstep with
  | @resume r run rest hr hwork => exact Past.settled_le ..
  | @call r run c next a landed hr hwork hanswer hlanded =>
    cases landed with
    | false => exact le_rfl
    | true =>
      show σ.past.returnFailures id ≤ (σ.past.called c).returnFailures id
      unfold Past.called
      split <;> exact le_rfl
  | _ => exact le_rfl

/-- A process counts no more than the failures of the return leg and what the table counts. -/
theorem ProcessStep.counted (hstep : ProcessStep fl cfg σ p proc e proc' rows' past')
    (hrow : ∀ row, σ.rows id = some row → row.attempts ≤ σ.past.returnFailures id)
    (h : proc.Counted id (σ.past.returnFailures id)) : proc'.Counted id (past'.returnFailures id) := by
  have hle := hstep.failures_le id
  let m := σ.past.returnFailures id
  cases hstep with
  | stop => exact ⟨h.snapshots, h.racing, h.failed⟩
  | tick k hk hstopped hmay =>
    have hticks : (proc.setTick k ⟨σ.now, .draining⟩).Counted id m := h.setTick k fun s hs => by cases hs
    exact ⟨hticks.snapshots, hticks.racing, hticks.failed⟩
  | @drain k tick skipped picked hk hphase hpicked =>
    have hticks : (proc.setTick k ⟨tick.startedAt,
        .drained (drainAnswer (drainRows σ.rows p tick.startedAt cfg.leaseMs picked) picked)⟩).Counted id m := by
      refine h.setTick k fun s hs hid => ?_
      obtain ⟨hmem, hs⟩ := mem_drainAnswer.mp hs
      rw [drainRows_picked hmem] at hs
      obtain ⟨row, hr, hclaimed⟩ := Option.map_eq_some_iff.mp hs
      have hattempts : s.attempts = (claimed p tick.startedAt cfg.leaseMs row).attempts :=
        congrArg Row.attempts hclaimed.symm
      rw [hattempts]
      exact hrow row (hid ▸ hr)
    exact ⟨hticks.snapshots, hticks.racing, hticks.failed⟩
  | tickFails => exact h.endTick _ _
  | finish => exact h.endTick _ _
  | @resumeTick k tick rows hk hphase =>
    have hsub := (scan_rows cfg tick.startedAt tick.startedAt proc.inProcess rows []).1.subset
    refine h.setTick k fun s hs hid => h.snapshots k tick hk s ?_ hid
    simpa only [Tick.rows, hphase, List.map_nil, List.nil_append] using hsub hs
  | @commitment k tick row rest ready c hk hphase =>
    have hsub := (scan_rows cfg tick.startedAt tick.startedAt proc.inProcess rest (takeUp row c ready)).1.trans
      ((takeUp_rows row c ready).append_right rest)
    refine h.setTick k fun s hs hid => h.snapshots k tick hk s ?_ hid
    simpa only [Tick.rows, hphase, List.append_assoc, List.singleton_append] using hsub.subset hs
  | @start k tick ready rest runs r hk hphase hr =>
    have hready : ready.row ∈ tick.rows := by simp [Tick.rows, hphase]
    have hruns : (proc.setRun r ⟨ready.row, ready.sender, ready.commitment, σ.now,
        .answered (store fl cfg ready.row ready.sender ready.commitment), .racing⟩).Counted id m :=
      h.setRun r (fun hid _ => h.snapshots k tick hk _ hready hid) fun err since _ hhandling => by cases hhandling
    have hticks := hruns.setTick k fun s (hs : s ∈ (⟨tick.startedAt, .starting rest (r :: runs)⟩ : Tick).rows) hid => by
      apply h.snapshots k tick hk s _ hid
      simp only [Tick.rows, hphase, List.map_cons, List.mem_cons] at hs ⊢
      exact Or.inr hs
    exact ⟨hticks.snapshots, hticks.racing, hticks.failed⟩
  | @call r run c next a landed hr hwork hanswer hlanded =>
    have hruns : (proc.setRun r { run with work := .answered (next a) }).Counted id m :=
      h.setRun r (h.racing r run hr) fun err since => h.failed r run err since hr
    exact hruns.mono hle
  | @resume r run rest hr hwork =>
    have hsettled := Past.settled_failures σ.past run.row.intentId rest
    have hkept : ∀ w : Work, (proc.setRun r { run with work := w }).Counted id m := fun w =>
      h.setRun r (h.racing r run hr) fun err since => h.failed r run err since hr
    unfold Process.resumeRun
    cases hof : Work.of rest with
    | awaiting c next => exact (hkept _).mono hle
    | answered rest => exact (hkept _).mono hle
    | settled result =>
      have hruns : (proc.setRun r (run.settle σ.now result)).Counted id
          ((σ.past.settled run.row.intentId rest).returnFailures id) := by
        obtain ⟨-, hdone⟩ | ⟨hrace, failure, rfl, hdone⟩ | ⟨hrace, hdone⟩ := run.settle_handling σ.now result
        · apply (h.mono hle).setRun r
          · intro _ hnow
            rw [hdone] at hnow
            cases hnow
          · intro err since _ hnow
            rw [hdone] at hnow
            cases hnow
        · apply (h.mono hle).setRun r
          · intro _ hnow
            rw [hdone] at hnow
            cases hnow
          · intro err since hid hnow hpost
            rw [hdone] at hnow
            cases hnow
            have hattempts := h.racing r run hr hid hrace
            have hcounted := hsettled.2 failure hof hpost
            rw [show run.row.intentId = id from hid] at hcounted ⊢
            show run.row.attempts + 1 ≤ _
            omega
        · apply (h.mono hle).setRun r
          · intro _ hnow
            exact absurd (hdone ▸ hnow) hrace
          · intro err since hid hnow hpost
            exact (h.failed r run err since hr hid (hdone ▸ hnow) hpost).trans hle
      exact ⟨hruns.snapshots, hruns.racing, hruns.failed⟩
  | @timeout r run hr hrace hlate =>
    refine h.setRun r (fun _ hrace => by cases hrace) fun err since _ hhandling hpost => ?_
    cases hhandling
    cases hpost
  | @handle r run err since hr hhandling =>
    exact h.setRun r (fun _ hrace => by cases hrace) fun err since _ hhandling => by cases hhandling
  | @handleFails r run err since hr hhandling =>
    exact h.setRun r (fun _ hrace => by cases hrace) fun err since _ hhandling => by cases hhandling

/-! ## Runs of the queue -/

/-- Against a stored intent, no more is counted than the failures of its return leg. -/
def Counts (σ : Queue) : Prop :=
  ∀ id row, σ.rows id = some row → row.storeDigest ≠ none → row.attempts ≤ σ.past.returnFailures id ∧
    ∀ p proc, σ.processes p = some proc → proc.Counted id (σ.past.returnFailures id)

/-- How the row of an intent that was stored ends: not by its deadline, and by no fewer failures than the limit. -/
structure WithinLimit (cfg : Config) (r r' : Row) (failures : Nat) : Prop where
  expired : r'.state = .expired → r.state = .expired
  dead : r'.state = .dead → r.state = .dead ∨ cfg.returnMaxAttempts ≤ failures

theorem WithinLimit.of_state {r r' : Row} (h : r'.state = r.state) (failures : Nat) :
    WithinLimit cfg r r' failures where
  expired hexp := h ▸ hexp
  dead hdead := Or.inl (h ▸ hdead)

/-- The row before a step that leaves a stored one. -/
structure Before (cfg : Config) (σ : Queue) (id : IntentId) (row' : Row) (failures : Nat) : Prop where
  row : ∃ row, σ.rows id = some row ∧ row.attempts ≤ σ.past.returnFailures id ∧ row'.attempts ≤ failures ∧
    (row.storeDigest ≠ none → WithinLimit cfg row row' failures)
  counted : ∀ p proc, σ.processes p = some proc → proc.Counted id (σ.past.returnFailures id)

theorem Queue.Unfailed.counted {row : Row} (h : σ.Unfailed id row) (hp : σ.processes p = some proc) (n : Nat) :
    proc.Counted id n := by
  obtain ⟨hsnapshots, hruns⟩ := h.2 p proc hp
  refine ⟨fun k tick hk s hs hid => ?_, fun r run hr hid hrace => ?_, fun r run err since hr hid hhandling hpost => ?_⟩
  · rw [hsnapshots k tick hk s hs hid]
    exact Nat.zero_le n
  · rw [(hruns r run hr hid).1 hrace]
    exact Nat.zero_le n
  · rw [(hruns r run hr hid).2 err since hhandling] at hpost
    cases hpost

/-- A call of the pipeline that leaves a stored row. -/
theorem Before.call (h : Counts σ) {r : Nat} {c : Call} (hcond : ReturnLegOnly σ (.call p r c)) {op : Op}
    (hop : c.op σ.now = some op) {row' : Row} (hw : op.statement.write σ.rows id (σ.rows id) = some (some row'))
    (hstored : row'.storeDigest ≠ none) {failures : Nat} (hle : σ.past.returnFailures id ≤ failures) :
    Before cfg σ id row' failures := by
  obtain ⟨row, hrow, hdigest, hattempts, hexpired, hdead⟩ := Op.write_stored hw hstored
  have hcount : row'.attempts = row.attempts := by
    obtain hsame | ⟨nextAt, text, now, hre⟩ := hattempts
    · exact hsame
    · subst hre
      cases c <;> cases hop
  have hend : row.storeDigest ≠ none → WithinLimit cfg row row' failures := by
    intro hold
    refine ⟨fun hexp => ?_, fun hd => ?_⟩
    · obtain hsame | hexpires := hexpired hexp
      · exact hsame
      · exact absurd hexpires (Call.op_keeps_active hop)
    · obtain hsame | ⟨text, now, hre⟩ := hdead hd
      · exact Or.inl hsame
      · subst hre
        -- the pipeline's own checks meet no stored row
        cases c with
        | markDead id' text' =>
          cases hop
          exact absurd (hcond row hrow) hold
        | _ => cases hop
  by_cases hold : row.storeDigest = none
  · obtain hne | ⟨d, now, hre⟩ := hdigest
    · exact absurd hold hne
    · subst hre
      cases c with
      | persistStore id' d' =>
        cases hop
        have hfresh := hcond row hrow hold
        refine ⟨⟨row, hrow, ?_, ?_, hend⟩, fun q procq hq => hfresh.counted hq _⟩
        · rw [hfresh.1]
          exact Nat.zero_le _
        · rw [hcount, hfresh.1]
          exact Nat.zero_le _
      | _ => cases hop
  · obtain ⟨hbound, hcounted⟩ := h id row hrow hold
    exact ⟨⟨row, hrow, hbound, hcount ▸ hbound.trans hle, hend⟩, hcounted⟩

/-- A handler that leaves a stored row: it was stored before, and a return leg failed. -/
theorem Before.handle (h : Counts σ) (hp : σ.processes p = some proc) {r : Nat} {run : Run} {err : AttemptError}
    {since : Nat} (hr : proc.runs r = some run) (hhandling : run.handling = .handling err since)
    (hcond : ReturnLegOnly σ (.handle p r)) {row' : Row}
    (hw : (attemptFailed cfg run.row err since).statement.write σ.rows id (σ.rows id) = some (some row'))
    (hstored : row'.storeDigest ≠ none) {failures : Nat} (hle : σ.past.returnFailures id ≤ failures) :
    Before cfg σ id row' failures := by
  have hfailed : ∀ row, σ.rows id = some row → row.storeDigest ≠ none → run.row.intentId = id →
      err.isPost = true ∧ run.row.attempts + 1 ≤ σ.past.returnFailures id := by
    intro row hrow hold hid
    have hpost := hcond proc run err since row hp hr hhandling (hid ▸ hrow) hold
    exact ⟨hpost, ((h id row hrow hold).2 p proc hp).failed r run err since hr hid hhandling hpost⟩
  obtain ⟨-, nextAt, text, hop⟩ | ⟨hexhausted, text, hop⟩ := attemptFailed_cases cfg run.row err since
  · rw [hop] at hw
    obtain ⟨row, hrow, hold | ⟨d, now, hre⟩, hattempts, hexpired, hdead⟩ := Op.write_stored hw hstored
    · obtain ⟨hbound, hcounted⟩ := h id row hrow hold
      refine ⟨⟨row, hrow, hbound, ?_, fun _ => ⟨fun hexp => ?_, fun hd => ?_⟩⟩, hcounted⟩
      · obtain hsame | ⟨nextAt', text', now, hre⟩ := hattempts
        · exact hsame ▸ hbound.trans hle
        · rw [Op.reschedule.injEq] at hre
          have hcount := (hfailed row hrow hold hre.1).2
          omega
      · exact (hexpired hexp).resolve_right False.elim
      · obtain hsame | ⟨text', now, hre⟩ := hdead hd
        · exact Or.inl hsame
        · cases hre
    · cases hre
  · rw [hop] at hw
    obtain ⟨row, hrow, hold | ⟨d, now, hre⟩, hattempts, hexpired, hdead⟩ := Op.write_stored hw hstored
    · obtain ⟨hbound, hcounted⟩ := h id row hrow hold
      refine ⟨⟨row, hrow, hbound, ?_, fun _ => ⟨fun hexp => ?_, fun hd => ?_⟩⟩, hcounted⟩
      · obtain hsame | ⟨nextAt', text', now, hre⟩ := hattempts
        · exact hsame ▸ hbound.trans hle
        · cases hre
      · exact (hexpired hexp).resolve_right False.elim
      · obtain hsame | ⟨text', now, hre⟩ := hdead hd
        · exact Or.inl hsame
        · -- the limit of the return leg is what the attempts have reached
          rw [Op.markDead.injEq] at hre
          obtain ⟨hpost, hcount⟩ := hfailed row hrow hold hre.1
          unfold attemptsLeft at hexhausted
          rw [hpost, if_pos rfl] at hexhausted
          exact Or.inr (by omega)
    · cases hre

/-- A row that is stored, and that the step leaves as it counts. -/
theorem Before.same (h : Counts σ) {row row' : Row} (hrow : σ.rows id = some row) (hold : row.storeDigest ≠ none)
    (hattempts : row'.attempts = row.attempts) (hstate : row'.state = row.state) {failures : Nat}
    (hle : σ.past.returnFailures id ≤ failures) : Before cfg σ id row' failures := by
  obtain ⟨hbound, hcounted⟩ := h id row hrow hold
  exact ⟨⟨row, hrow, hbound, hattempts ▸ hbound.trans hle, fun _ => .of_state hstate _⟩, hcounted⟩

theorem ProcessStep.before (hstep : ProcessStep fl cfg σ p proc e proc' rows' past') (hp : σ.processes p = some proc)
    (h : Counts σ) (hcond : ReturnLegOnly σ e) {row' : Row} (hrow' : rows' id = some row')
    (hstored : row'.storeDigest ≠ none) : Before cfg σ id row' (past'.returnFailures id) := by
  have hle := hstep.failures_le id
  obtain hsame | ⟨k, tick, skipped, picked, -, -, -, hdrain⟩ | ⟨r, c, op, rfl, hop, hrun⟩ |
    ⟨r, run, err, since, rfl, hr, hhandling, hrun⟩ := hstep.table
  · exact .same h (hsame ▸ hrow') hstored rfl rfl hle
  · rw [hdrain] at hrow'
    by_cases hmem : id ∈ picked
    · rw [drainRows_picked hmem] at hrow'
      obtain ⟨row, hrow, hclaimed⟩ := Option.map_eq_some_iff.mp hrow'
      subst hclaimed
      refine .same h hrow hstored ?_ ?_ hle
      · rfl
      · rfl
    · rw [drainRows_other hmem] at hrow'
      exact .same h hrow' hstored rfl rfl hle
  · rw [hrun] at hrow'
    obtain hsame | hw := op.run_cases σ.rows id
    · exact .same h (hsame ▸ hrow') hstored rfl rfl hle
    · exact .call h hcond hop (hrow' ▸ hw) hstored hle
  · rw [hrun] at hrow'
    obtain hsame | hw := (attemptFailed cfg run.row err since).run_cases σ.rows id
    · exact .same h (hsame ▸ hrow') hstored rfl rfl hle
    · exact .handle h hp hr hhandling hcond (hrow' ▸ hw) hstored hle

/-- A statement from outside that leaves a stored row: neither settles it nor counts against it. -/
theorem Before.statement (h : Counts σ) {op : Op} (hop : Op.Outside op) (hcond : ReturnLegOnly σ (.statement op))
    {row' : Row} (hrow' : op.run σ.rows id = some row') (hstored : row'.storeDigest ≠ none) :
    Before cfg σ id row' (σ.past.returnFailures id) := by
  obtain hsame | hw := op.run_cases σ.rows id
  · exact .same h (hsame ▸ hrow') hstored rfl rfl le_rfl
  · rw [hrow'] at hw
    obtain ⟨row, hrow, hold | ⟨d, now, hre⟩, hattempts, hexpired, hdead⟩ := Op.write_stored hw hstored
    · obtain ⟨hbound, hcounted⟩ := h id row hrow hold
      refine ⟨⟨row, hrow, hbound, ?_, fun _ => ⟨fun hexp => ?_, fun hd => ?_⟩⟩, hcounted⟩
      · obtain hsame | ⟨nextAt, text, now, hre⟩ := hattempts
        · exact hsame ▸ hbound
        · subst hre
          exact hop.elim
      · obtain hsame | hexpires := hexpired hexp
        · exact hsame
        · exact absurd hexpires (hcond.spares hrow hold)
      · obtain hsame | ⟨text, now, hre⟩ := hdead hd
        · exact Or.inl hsame
        · subst hre
          exact hop.elim
    · subst hre
      exact hop.elim

/-- What a step keeps, and what it does to a stored row. -/
theorem QueueStep.limited (hstep : QueueStep fl cfg σ e τ) (h : Counts σ) (hcond : ReturnLegOnly σ e) {row' : Row}
    (hrow' : τ.rows id = some row') (hstored : row'.storeDigest ≠ none) :
    Before cfg σ id row' (τ.past.returnFailures id) ∧
      ∀ p proc, τ.processes p = some proc → proc.Counted id (τ.past.returnFailures id) := by
  cases hstep with
  | advance now hle =>
    have hbefore : Before cfg σ id row' (σ.past.returnFailures id) := .same h hrow' hstored rfl rfl le_rfl
    exact ⟨hbefore, hbefore.counted⟩
  | boot q hq =>
    have hbefore : Before cfg σ id row' (σ.past.returnFailures id) := .same h hrow' hstored rfl rfl le_rfl
    refine ⟨hbefore, fun q' procq hq' => ?_⟩
    obtain ⟨rfl, rfl⟩ | ⟨-, hold⟩ := Table.set_some.mp hq'
    · exact Process.Counted.booted σ.now
    · exact hbefore.counted q' procq hold
  | crash q =>
    have hbefore : Before cfg σ id row' (σ.past.returnFailures id) := .same h hrow' hstored rfl rfl le_rfl
    exact ⟨hbefore, fun q' procq hq' => hbefore.counted q' procq (Table.remove_some.mp hq').2⟩
  | own hq hown =>
    have hbefore := hown.before hq h hcond hrow' hstored
    have hattempts : ∀ row, σ.rows id = some row → row.attempts ≤ σ.past.returnFailures id := by
      intro row hrow
      obtain ⟨row₀, hrow₀, hbound, -⟩ := hbefore.row
      rw [hrow₀, Option.some.injEq] at hrow
      exact hrow ▸ hbound
    refine ⟨hbefore, fun q' procq hq' => ?_⟩
    obtain ⟨rfl, rfl⟩ | ⟨-, hold⟩ := Table.set_some.mp hq'
    · exact hown.counted hattempts (hbefore.counted _ _ hq)
    · exact (hbefore.counted q' procq hold).mono (hown.failures_le id)
  | statement op hop =>
    have hcount : ((σ.past.deleted (op.run σ.rows)).judged (op.run σ.rows)).returnFailures id =
        σ.past.returnFailures id := by
      show (if op.run σ.rows id = none then 0 else σ.past.returnFailures id) = _
      have hpresent : op.run σ.rows id ≠ none := fun hnone => Option.some_ne_none row' (hrow'.symm.trans hnone)
      rw [if_neg hpresent]
    have hbefore : Before cfg σ id row' (σ.past.returnFailures id) := .statement h hop hcond hrow' hstored
    rw [hcount]
    exact ⟨hbefore, hbefore.counted⟩

theorem QueueStep.counts (hstep : QueueStep fl cfg σ e τ) (h : Counts σ) (hcond : ReturnLegOnly σ e) : Counts τ := by
  intro id row' hrow' hstored
  obtain ⟨⟨⟨row, -, -, hbound, -⟩, -⟩, hcounted⟩ := hstep.limited h hcond hrow' hstored
  exact ⟨hbound, hcounted⟩

/-- While nothing but its return leg is held against a stored intent, its row does not expire, and is dead-lettered
only after the limit of the return leg. -/
theorem return_limit (hrun : Queue.Leads fl cfg ReturnLegOnly .empty σ) (hcond : ReturnLegOnly σ e)
    (hstep : QueueStep fl cfg σ e τ) {row row' : Row} (hrow : σ.rows id = some row) (hstored : row.storeDigest ≠ none)
    (hrow' : τ.rows id = some row') :
    (row'.state = .expired → row.state = .expired) ∧
      (row'.state = .dead → row.state = .dead ∨ cfg.returnMaxAttempts ≤ τ.past.returnFailures id) := by
  have hempty : Counts .empty := fun id row hrow => by cases hrow
  have hcounts : Counts σ := hrun.keeps (fun _ _ _ h hP hstep => hstep.counts h hP) hempty
  have hstored' : row'.storeDigest ≠ none := (hstep.keeps_results hrow hrow').digest hstored
  obtain ⟨⟨row₀, hrow₀, -, -, hlimit⟩, -⟩ := (hstep.limited hcounts hcond hrow' hstored').1
  rw [hrow, Option.some.injEq] at hrow₀
  subst hrow₀
  exact ⟨(hlimit hstored).expired, (hlimit hstored).dead⟩

/-! ## A stored intent -/

/-- The steps of a tick hold nothing against a stored intent. -/
theorem Prompt.returnLegOnly {k t : Nat} (hstep : Prompt proc p k t σ e) : ReturnLegOnly σ e := by
  cases hstep <;> trivial

/-- The calls of a return leg. -/
def Call.OfReturn (c : Call) : Prop := (∀ id digest, c ≠ .persistStore id digest) ∧ ∀ id text, c ≠ .markDead id text

theorem Call.OfReturn.returnLegOnly {c : Call} (h : c.OfReturn) (σ : Queue) (r : Nat) :
    ReturnLegOnly σ (.call p r c) := by
  cases c with
  | persistStore id digest => exact absurd rfl (h.1 id digest)
  | markDead id text => exact absurd rfl (h.2 id text)
  | _ => trivial

def examplePast : Past where
  uploaded := Function.update (fun _ => false) "0x01" true
  recorded := Function.update (fun _ => false) "0x01" true

/-- The first run of an intent once its store is recorded. -/
def exampleRecorded (proc : Process) (rest : Program Booking) : Queue where
  now := 0
  rows := Rows.one "0x01" exampleStored
  processes := Function.update exampleAlone.processes "a"
    (some (proc.setRun 0 { exampleRun with work := .answered rest }))
  past := examplePast

/-- The first run of an intent, up to its record; its return leg is about to fail. -/
theorem exampleRecorded_leads :
    ∃ proc rest, Queue.Leads .exact exampleConfig ReturnLegOnly .empty (exampleRecorded proc rest) ∧
      Served Call.OfReturn 0 rest (Rows.one "0x01" exampleStored) examplePast (.fail exampleReturnFailure)
        (Rows.one "0x01" exampleFreed) examplePast := by
  obtain ⟨proc, htick, hruns, hticks⟩ := exampleRun_leads
  obtain ⟨-, next, hserved, hreturn⟩ := exampleRun_served (C := Call.OfReturn) fun c h h' => ⟨h, h'⟩
  let started : Queue :=
    { exampleAlone with
      rows := Rows.one "0x01" exampleHeld
      processes := Function.update exampleAlone.processes "a" (some proc) }
  have hstarted : Queue.Leads .exact exampleConfig ReturnLegOnly .empty started :=
    (exampleAlone_leads exampleConfig .exact (fun _ => trivial) (fun _ _ => trivial) fun _ _ => trivial).trans
      (htick.mono fun σ e hP => hP.returnLegOnly)
  have hp : started.processes "a" = some proc := rfl
  have hr : proc.runs 0 = some exampleRun := by
    rw [hruns]
    rfl
  let recording : Run := { exampleRun with work := .answered (.await (.persistStore "0x01" "0xd16e57") next) }
  let σ : Queue :=
    { started with
      rows := Rows.one "0x01" exampleUploaded
      processes := Function.update started.processes "a" (some (proc.setRun 0 recording))
      past := { uploaded := Function.update (fun _ => false) "0x01" true } }
  have hserve : Queue.Leads .exact exampleConfig ReturnLegOnly .empty σ :=
    hstarted.trans (Queue.serves exampleConfig .exact hp hr rfl hserved (fun _ => trivial) fun σ c hc =>
      hc.returnLegOnly σ 0)
  have hrecording : (proc.setRun 0 recording).runs 0 = some recording := proc.setRun_self 0 _
  have hσ : σ.processes "a" = some (proc.setRun 0 recording) := rfl
  obtain ⟨hresume, hcall⟩ := Queue.serve exampleConfig .exact hσ hrecording rfl (.ok ()) trivial
  have hnone : ∀ q, q ≠ "a" → σ.processes q = none := fun q hne => by
    simp only [σ, started, exampleAlone, exampleStaged, Function.update_of_ne hne]
  refine ⟨proc, next (.ok ()), ?_, hreturn _⟩
  have hend := (hserve.step hresume trivial).step hcall ?_
  · have hrows : (Call.persistStore "0x01" "0xd16e57").run 0 (Rows.one "0x01" exampleUploaded) =
        Rows.one "0x01" exampleStored := (Op.run_update rfl Rows.one_self rfl).trans (Rows.one_update _)
    have hprocess : (proc.setRun 0 recording).setRun 0 { recording with work := .answered (next (.ok ())) } =
        proc.setRun 0 { exampleRun with work := .answered (next (.ok ())) } :=
      congrArg (fun runs => { proc with runs := runs }) (Function.update_idem ..)
    have hpast : (Past.called { uploaded := Function.update (fun _ => false) "0x01" true }
        (.persistStore "0x01" "0xd16e57")).judged (Rows.one "0x01" exampleStored) = examplePast :=
      Past.judged_one _ rfl
    have hstate : exampleRecorded proc (next (.ok ())) = ⟨0, (Call.persistStore "0x01" "0xd16e57").run 0
        (Rows.one "0x01" exampleUploaded), Function.update σ.processes "a" (some ((proc.setRun 0 recording).setRun 0
        { recording with work := .answered (next (.ok ())) })), (Past.called
        { uploaded := Function.update (fun _ => false) "0x01" true } (.persistStore "0x01" "0xd16e57")).judged
        ((Call.persistStore "0x01" "0xd16e57").run 0 (Rows.one "0x01" exampleUploaded))⟩ := by
      rw [hrows, hprocess, hpast]
      simp only [exampleRecorded, σ, started, Function.update_idem]
    exact hstate ▸ hend
  · intro row hrow _
    have hone : Rows.one "0x01" exampleUploaded "0x01" = some row := hrow
    obtain ⟨-, rfl⟩ := Rows.one_some hone
    refine ⟨rfl, fun q procq hq => ?_⟩
    obtain ⟨rfl, rfl⟩ | ⟨hne, hold⟩ := Table.set_some.mp hq
    · refine ⟨fun k tick hk s hs _ => ?_, fun r run hrun _ => ?_⟩
      · have hone : Function.update (fun _ => none) 0 (some ⟨0, .starting [] [0]⟩) k = some tick := hticks ▸ hk
        obtain ⟨-, rfl⟩ | ⟨-, habsent⟩ := Table.set_some.mp hone
        · cases hs
        · cases habsent
      · obtain ⟨-, rfl⟩ | ⟨-, hrun⟩ := Table.set_some.mp hrun
        · exact ⟨fun _ => rfl, fun err since hhandling => by cases hhandling⟩
        · obtain ⟨-, rfl⟩ | ⟨hne, hrun⟩ := Table.set_some.mp hrun
          · exact ⟨fun _ => rfl, fun err since hhandling => by cases hhandling⟩
          · rw [hruns, Function.update_of_ne hne] at hrun
            cases hrun
    · rw [hnone q hne] at hold
      cases hold

/-- The return leg of that run fails for the first time: the failure is counted, and the row is left to a later tick. -/
theorem return_limit_stored : ∃ σ τ : Queue, QueueStep .exact exampleConfig σ (.handle "a" 0) τ ∧
    σ.rows "0x01" = some exampleFreed ∧ τ.past.returnFailures "0x01" = 1 ∧
    ∃ row', τ.rows "0x01" = some row' ∧ row'.attempts = 1 ∧
      (row'.state = .expired → exampleFreed.state = .expired) ∧
      (row'.state = .dead → exampleFreed.state = .dead ∨ 20 ≤ τ.past.returnFailures "0x01") := by
  obtain ⟨proc, rest, hrun, hserved⟩ := exampleRecorded_leads
  let recorded : Run := { exampleRun with work := .answered rest }
  let failing : Run := { exampleRun with work := .answered (.fail exampleReturnFailure) }
  let standing : Process := (proc.setRun 0 recorded).setRun 0 failing
  let σ : Queue :=
    { exampleRecorded proc rest with
      rows := Rows.one "0x01" exampleFreed
      processes := Function.update (exampleRecorded proc rest).processes "a" (some standing) }
  have hfailing : Queue.Leads .exact exampleConfig ReturnLegOnly .empty σ := by
    have hp : (exampleRecorded proc rest).processes "a" = some (proc.setRun 0 recorded) := rfl
    exact hrun.trans (Queue.serves exampleConfig .exact hp (proc.setRun_self 0 recorded) rfl hserved (fun _ => trivial)
      fun σ c hc => hc.returnLegOnly σ 0)
  have hp : σ.processes "a" = some standing := rfl
  obtain ⟨hsettle, hhandle⟩ :=
    Queue.fails exampleConfig .exact hp ((proc.setRun 0 recorded).setRun_self 0 failing) rfl rfl
  let failed : Queue :=
    { σ with
      processes := Function.update σ.processes "a" (some (standing.failed 0 failing 0 exampleReturnFailure))
      past := examplePast.settled "0x01" (.fail exampleReturnFailure) }
  have hfailed : Queue.Leads .exact exampleConfig ReturnLegOnly .empty failed := hfailing.step hsettle trivial
  have hleg : ReturnLegOnly failed (.handle "a" 0) := by
    intro procq run err since row hq hr hhandling _ _
    have hq : some (standing.failed 0 failing 0 exampleReturnFailure) = some procq := hq
    cases hq
    have hr : some (failing.failed 0 exampleReturnFailure) = some run := hr
    cases hr
    cases hhandling
    rfl
  have hone : Rows.one "0x01" exampleFreed "0x01" = some exampleFreed := Rows.one_self
  have hrow : failed.rows "0x01" = some exampleFreed := hone
  have hstored : exampleFreed.storeDigest ≠ none := Option.some_ne_none _
  let text := exampleReturnFailure.text
  let op := attemptFailed exampleConfig exampleRun.row (.failed exampleReturnFailure) 0
  let τ : Queue :=
    { σ with
      rows := op.run σ.rows
      processes := Function.update σ.processes "a" (some (standing.handled 0 failing 0 exampleReturnFailure))
      past := failed.past.judged (op.run σ.rows) }
  have hrow' : τ.rows "0x01" = some (rescheduled 1 4000 text 0 exampleFreed) := by
    have hop : op = .reschedule "0x01" 1 4000 text 0 := rfl
    show op.run (Rows.one "0x01" exampleFreed) "0x01" = _
    rw [hop, Op.run_update rfl Rows.one_self rfl]
    exact Function.update_self ..
  have hstep : QueueStep .exact exampleConfig failed (.handle "a" 0) τ := hhandle
  obtain ⟨hexpired, hdead⟩ := return_limit (e := .handle "a" 0) hfailed hleg hstep hrow hstored hrow'
  exact ⟨failed, τ, hstep, hrow, rfl, _, hrow', rfl, hexpired, hdead⟩

/-- The reaper expires an intent that is stored. -/
theorem expired_after_store : ∃ σ τ, Queue.Leads .exact exampleConfig (fun _ _ => True) .empty σ ∧
    QueueStep .exact exampleConfig σ (.statement (.expireDue 3600001)) τ ∧ ∃ row row', σ.rows "0x01" = some row ∧
      row.storeDigest ≠ none ∧ row.state = .active ∧ τ.rows "0x01" = some row' ∧ row'.state = .expired := by
  obtain ⟨proc, rest, hrun, -⟩ := exampleRecorded_leads
  let late : Queue := { exampleRecorded proc rest with now := 3600001 }
  have hlate : QueueStep .exact exampleConfig (exampleRecorded proc rest) (.advance 3600001) late :=
    .advance 3600001 (Nat.zero_le _)
  have hrow : Rows.one "0x01" exampleStored "0x01" = some exampleStored := Rows.one_self
  have hdue : overdue 3600001 exampleStored = true := by decide
  have hexpired : (Op.expireDue 3600001).run late.rows "0x01" = some (expired 3600001 exampleStored) := by
    have hw : (Op.expireDue 3600001).statement.write late.rows "0x01" (late.rows "0x01") =
        some (some (expired 3600001 exampleStored)) := rewrite_some.mpr ⟨exampleStored, hrow, hdue, rfl⟩
    unfold Op.run
    rw [hw, Option.getD_some]
  exact ⟨late, _, (hrun.mono fun _ _ _ => trivial).step hlate trivial, .statement _ trivial, exampleStored, _, hrow,
    Option.some_ne_none _, rfl, hexpired, rfl⟩

end Bosphor.Relayer

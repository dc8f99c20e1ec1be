import Bosphor.Relayer.Slots
import Bosphor.Relayer.OneIntent

/-!
# Overlapping ticks

The watchdog lets a tick of a process start while an older one is suspended.
The older one goes on with the rows it claimed, which the newer one may have
stored in the meantime. That does no harm in every run in which a tick takes up
a row only if its snapshot is no older than the table's upload and digest, and
starts a run only if no other tick has taken up the intent
(`overlapping_ticks`). A tick suspended between its check and its start is
enough for one intent to be run twice (`ticks_overlap`).
-/

namespace Bosphor.Relayer

open StagedIntentStore Async

variable {fl : Rounding} {cfg : Config}

/-- Whether the call buys a Walrus upload. -/
def Call.Uploads : Call → Prop
  | .writeBlob _ _ _ => True
  | _ => False

/-- Whether the call records the store on Sui. -/
def Call.Records : Call → Prop
  | .executeStore _ _ _ _ => True
  | _ => False

/-- What only one process, and the world around it, can do. -/
def Event.Of (p : Claimant) : Event → Prop
  | .advance _ | .statement _ => True
  | .boot q | .crash q | .stop q | .tick q _ | .drain q _ _ | .tickFails q _ | .resumeTick q _ | .commitment q _ |
    .start q _ _ _ | .finish q _ | .call q _ _ | .resume q _ | .timeout q _ | .handle q _ | .handleFails q _ => q = p

/-- The snapshot has the upload and the digest that the table has. -/
def Current (rows : Rows) (s : StagedIntentRow) : Prop :=
  ∃ row, rows s.intentId = some row ∧ s.walrusObjectId = row.walrusObjectId ∧ s.storeDigest = row.storeDigest

/-- The row that the loop takes up next, if any, is current. -/
def Scan.Current (rows : Rows) : Scan → Prop
  | .ask row _ _ => Bosphor.Relayer.Current rows row
  | .start _ => True

/-- The steps that never work from a stale snapshot, nor for an intent that another tick is about to run. -/
def Orderly (cfg : Config) : Queue → Event → Prop
  | σ, .resumeTick p k => ∀ proc tick rows, σ.processes p = some proc → proc.ticks k = some tick →
      tick.phase = .drained rows → (scan cfg tick.startedAt proc.inProcess rows []).Current σ.rows
  | σ, .commitment p k => ∀ proc tick row rest ready c, σ.processes p = some proc → proc.ticks k = some tick →
      tick.phase = .asking row rest ready →
        (scan cfg tick.startedAt proc.inProcess rest (takeUp row c ready)).Current σ.rows
  | σ, .start p k _ ready => ∀ proc i tick, σ.processes p = some proc → i ≠ k → proc.ticks i = some tick →
      ∀ s ∈ tick.taken, s.intentId ≠ ready.row.intentId
  | σ, .statement op => ∀ id, σ.rows id = none → op.run σ.rows id ≠ none →
      σ.past.uploaded id = false ∧ σ.past.recorded id = false
  | _, _ => True

/-! ## The table -/

variable {rows rows' : Rows} {past past' : Past} {p : Claimant} {proc proc' : Process} {σ τ : Queue} {e : Event}

/-- The snapshot has what was persisted. -/
def Knows (past : Past) (s : StagedIntentRow) : Prop :=
  (past.uploaded s.intentId = true → s.walrusObjectId ≠ none) ∧ (past.recorded s.intentId = true → s.storeDigest ≠ none)

/-- The table has what was persisted, as long as it has the row. -/
def Persisted (rows : Rows) (past : Past) : Prop := ∀ id row, rows id = some row → Knows past ⟨row, id⟩

theorem Current.knows {s : StagedIntentRow} (h : Current rows s) (hrows : Persisted rows past) : Knows past s := by
  obtain ⟨row, hrow, hupload, hdigest⟩ := h
  have hknows := hrows s.intentId row hrow
  exact ⟨fun hup => hupload ▸ hknows.1 hup, fun hrec => hdigest ▸ hknows.2 hrec⟩

theorem KeepsResults.knows {r r' : Row} (h : KeepsResults r r') {id : IntentId} (hknows : Knows past ⟨r, id⟩) :
    Knows past ⟨r', id⟩ :=
  ⟨fun hup => h.upload (hknows.1 hup), fun hrec => h.digest (hknows.2 hrec)⟩

/-- A statement that inserts no row of an intent that was persisted. -/
theorem Persisted.run (h : Persisted rows past) (op : Op)
    (hinsert : ∀ id, rows id = none → op.run rows id ≠ none → past.uploaded id = false ∧ past.recorded id = false) :
    Persisted (op.run rows) past := by
  intro id row' hrow'
  obtain hsame | hw := op.run_cases rows id
  · exact h id row' (hsame ▸ hrow')
  · rw [hrow'] at hw
    obtain hnone | ⟨row, hrow, hkeep⟩ := Op.write_results hw
    · obtain ⟨hup, hrec⟩ := hinsert id hnone (hrow' ▸ Option.some_ne_none _)
      unfold Knows
      rw [hup, hrec]
      exact ⟨Bool.noConfusion, Bool.noConfusion⟩
    · exact hkeep.knows (h id row hrow)

theorem Persisted.update (h : Persisted rows past) (op : Op) (hop : ¬op.Inserts) : Persisted (op.run rows) past :=
  h.run op fun _ hnone hne => absurd (Op.run_none hop hnone) hne

theorem Persisted.drain (h : Persisted rows past) (now leaseMs : Nat) (picked : List IntentId) :
    Persisted (drainRows rows p now leaseMs picked) past := by
  intro id row' hrow'
  by_cases hmem : id ∈ picked
  · rw [drainRows_picked hmem] at hrow'
    obtain ⟨row, hrow, hclaimed⟩ := Option.map_eq_some_iff.mp hrow'
    subst hclaimed
    exact h id row hrow
  · rw [drainRows_other hmem] at hrow'
    exact h id row' hrow'

/-- A call that landed leaves what it persisted in the table. -/
theorem Persisted.called (h : Persisted rows past) (c : Call) (now : Nat) :
    Persisted (c.run now rows) (past.called c) := by
  have hrun : Persisted (c.run now rows) past := by
    unfold Call.run
    cases hop : c.op now with
    | none => exact h
    | some op => exact h.update op (Call.op_inserts hop)
  cases c with
  | persistUpload id up =>
    intro k row' hrow'
    refine ⟨fun hup => ?_, (hrun k row' hrow').2⟩
    by_cases hk : k = id
    · subst hk
      have hset := (Op.run_self (.persistUpload k up now) rfl rows).symm.trans hrow'
      obtain ⟨r, -, rfl⟩ := Option.map_eq_some_iff.mp hset
      exact Option.some_ne_none _
    · have hsame : (past.called (.persistUpload id up)).uploaded k = past.uploaded k := Function.update_of_ne hk ..
      exact (hrun k row' hrow').1 (hsame ▸ hup)
  | persistStore id digest =>
    intro k row' hrow'
    refine ⟨(hrun k row' hrow').1, fun hrec => ?_⟩
    by_cases hk : k = id
    · subst hk
      have hset := (Op.run_self (.persistStore k digest now) rfl rows).symm.trans hrow'
      obtain ⟨r, -, rfl⟩ := Option.map_eq_some_iff.mp hset
      exact Option.some_ne_none _
    · have hsame : (past.called (.persistStore id digest)).recorded k = past.recorded k := Function.update_of_ne hk ..
      exact (hrun k row' hrow').2 (hsame ▸ hrec)
  | _ => exact hrun

/-! ## The process -/

/-- The rows that a tick has taken up know what was persisted, and so do the rows it takes up next. -/
theorem scan_knows {now startedAt : Nat} {inProcess : IntentId → Bool} {snapshots : List StagedIntentRow}
    {ready : List Ready} (hcurrent : (scan cfg now inProcess snapshots ready).Current rows)
    (hrows : Persisted rows past) (hready : ∀ s ∈ ready.map (·.row), Knows past s) :
    ∀ s ∈ (⟨startedAt, (scan cfg now inProcess snapshots ready).phase⟩ : Tick).taken, Knows past s := by
  obtain hscan | ⟨row, rest, hscan, -, -⟩ := scan_cases cfg now inProcess snapshots ready
  · rw [hscan]
    exact hready
  · rw [hscan] at hcurrent ⊢
    intro s hs
    obtain hs | hs := List.mem_append.mp hs
    · exact hready s hs
    · rw [List.mem_singleton.mp hs]
      exact Current.knows hcurrent hrows

/-- Each run has its slot to itself, and each row taken up knows what was persisted. -/
structure Guarded (fl : Rounding) (cfg : Config) (past : Past) (proc : Process) : Prop
    extends Slotted (fun _ => True) proc where
  follows : proc.Follows fl cfg
  knows : ∀ k tick, proc.ticks k = some tick → ∀ s ∈ tick.taken, Knows past s

theorem Past.settled_uploaded (past : Past) (id : IntentId) (rest : Program Booking) :
    (past.settled id rest).uploaded = past.uploaded ∧ (past.settled id rest).recorded = past.recorded := by
  unfold Past.settled
  split <;> exact ⟨rfl, rfl⟩

theorem Knows.settled {s : StagedIntentRow} (h : Knows past s) (id : IntentId) (rest : Program Booking) :
    Knows (past.settled id rest) s := by
  unfold Knows
  rw [(past.settled_uploaded id rest).1, (past.settled_uploaded id rest).2]
  exact h

/-- A call for another intent persists nothing of this one. -/
theorem Knows.called {s row : StagedIntentRow} (h : Knows past s) {c : Call}
    (hcall : StepCall row c ∨ c.DeadLetter row.intentId) (hother : row.intentId ≠ s.intentId) :
    Knows (past.called c) s := by
  cases c with
  | persistUpload id up =>
    obtain ⟨hid, -⟩ | ⟨text, hdead⟩ := hcall
    · subst hid
      have hsame : (past.called (.persistUpload row.intentId up)).uploaded s.intentId = past.uploaded s.intentId :=
        Function.update_of_ne hother.symm ..
      exact ⟨fun hup => h.1 (hsame ▸ hup), h.2⟩
    · cases hdead
  | persistStore id digest =>
    obtain ⟨hid, -⟩ | ⟨text, hdead⟩ := hcall
    · subst hid
      have hsame : (past.called (.persistStore row.intentId digest)).recorded s.intentId = past.recorded s.intentId :=
        Function.update_of_ne hother.symm ..
      exact ⟨h.1, fun hrec => h.2 (hsame ▸ hrec)⟩
    · cases hdead
  | _ => exact h

theorem Guarded.setTick (h : Guarded fl cfg past proc) {k : Nat} {tick : Tick}
    (hslots : Slotted (fun _ => True) (proc.setTick k tick)) (hknows : ∀ s ∈ tick.taken, Knows past s) :
    Guarded fl cfg past (proc.setTick k tick) :=
  { hslots with
    follows := h.follows
    knows := fun i t hi => by
      obtain ⟨rfl, rfl⟩ | ⟨-, hold⟩ := Table.set_some.mp hi
      · exact hknows
      · exact h.knows i t hold }

/-- A process's own step, from a state where its snapshots and its starts are in order. -/
theorem ProcessStep.guarded (hstep : ProcessStep fl cfg σ p proc e proc' rows' past') (hp : σ.processes p = some proc)
    (horderly : Orderly cfg σ e) (hrows : Persisted σ.rows σ.past) (h : Guarded fl cfg σ.past proc) :
    Persisted rows' past' ∧ Guarded fl cfg past' proc' := by
  have hfollows := hstep.follows h.follows
  cases hstep with
  | stop => exact ⟨hrows, { h with }⟩
  | tick k hk hstopped hmay =>
    have hslots : Slotted (fun _ => True) (proc.setTick k ⟨σ.now, .draining⟩) :=
      h.toSlotted.putTick List.nodup_nil rfl fun _ _ _ _ hfresh => hfresh
    exact ⟨hrows, { h.setTick hslots (fun s hs => by cases hs) with }⟩
  | @drain k tick skipped picked hk hphase hpicked =>
    have hslots : Slotted (fun _ => True) (proc.setTick k ⟨tick.startedAt,
        .drained (drainAnswer (drainRows σ.rows p tick.startedAt cfg.leaseMs picked) picked)⟩) :=
      h.toSlotted.putTick (hpicked.nodup.sublist (drainAnswer_ids _ picked)) rfl fun _ _ _ _ hfresh => hfresh
    exact ⟨hrows.drain _ _ _, { h.setTick hslots (fun s hs => by cases hs) with }⟩
  | tickFails hk hphase =>
    exact ⟨hrows, { h.toSlotted.endTick _ _ with
      follows := h.follows, knows := fun i t hi => h.knows i t (Table.remove_some.mp hi).2 }⟩
  | finish hk hphase hruns =>
    exact ⟨hrows, { h.toSlotted.endTick _ _ with
      follows := h.follows, knows := fun i t hi => h.knows i t (Table.remove_some.mp hi).2 }⟩
  | resumeTick hk hphase =>
    have hcurrent := horderly proc _ _ hp hk hphase
    exact ⟨hrows, h.setTick (h.toSlotted.resumeTick hk hphase)
      (scan_knows hcurrent hrows fun s hs => by cases hs)⟩
  | @commitment k tick row rest ready c hk hphase =>
    have hcurrent := horderly proc tick row rest ready c hp hk hphase
    have hready : ∀ s ∈ (takeUp row c ready).map (·.row), Knows σ.past s := by
      intro s hs
      apply h.knows k tick hk
      simpa only [Tick.taken, hphase] using (takeUp_rows row c ready).subset hs
    exact ⟨hrows, h.setTick (h.toSlotted.commitment hk hphase c) (scan_knows hcurrent hrows hready)⟩
  | @start k tick ready rest runs r hk hphase hr =>
    have hslots : Slotted (fun _ => True)
        ((proc.startRun fl cfg r σ.now ready).setTick k ⟨tick.startedAt, .starting rest (r :: runs)⟩) :=
      h.toSlotted.start hk hphase trivial (fun i t hne hi _ => horderly proc i t hp hne hi) σ.now
    refine ⟨hrows, { hslots with follows := hfollows, knows := fun i t hi s hs => ?_ }⟩
    obtain ⟨rfl, rfl⟩ | ⟨-, hold⟩ := Table.set_some.mp hi
    · apply h.knows _ tick hk
      simp only [Tick.taken, hphase, List.map_cons, List.mem_cons]
      exact Or.inr hs
    · exact h.knows i t hold s hs
  | @call r run c next a landed hr hwork hanswer hlanded =>
    have hexec : run.Executing := Run.executing_awaiting hwork
    have hslots : Slotted (fun _ => True) (proc.setRun r { run with work := .answered (next a) }) :=
      h.toSlotted.setRun hr rfl fun _ => hexec
    cases landed with
    | false => exact ⟨hrows, { hslots with follows := hfollows, knows := h.knows }⟩
    | true =>
      refine ⟨hrows.called c σ.now, { hslots with follows := hfollows, knows := fun k tick hk s hs => ?_ }⟩
      exact (h.knows k tick hk s hs).called ((h.follows r run hr).call hwork).1
        (h.taken k tick hk trivial s hs r run hr hexec)
  | @resume r run rest hr hwork =>
    have hslots := h.toSlotted.resumeRun hr hwork σ.now
    refine ⟨fun id row hrow => (hrows id row hrow).settled _ _,
      { hslots with follows := hfollows, knows := fun k tick hk s hs => ?_ }⟩
    apply Knows.settled
    apply h.knows k tick _ s hs
    rwa [← proc.resumeRun_ticks r run rest σ.now]
  | timeout hr hrace hlate =>
    exact ⟨hrows, { h.toSlotted.setHandling hr _ with follows := hfollows, knows := h.knows }⟩
  | @handle r run err since hr hhandling =>
    refine ⟨?_, { h.toSlotted.setHandling hr _ with follows := hfollows, knows := h.knows }⟩
    obtain ⟨-, nextAt, text, hop⟩ | ⟨-, text, hop⟩ := attemptFailed_cases cfg run.row err since
    · rw [hop]
      exact hrows.update (.reschedule ..) id
    · rw [hop]
      exact hrows.update (.markDead ..) id
  | handleFails hr hhandling =>
    exact ⟨hrows, { h.toSlotted.setHandling hr _ with follows := hfollows, knows := h.knows }⟩

/-! ## Runs of the queue -/

/-- What holds while the process `p` is alone and its ticks are in order. -/
structure Tidy (fl : Rounding) (cfg : Config) (p : Claimant) (σ : Queue) : Prop where
  persisted : Persisted σ.rows σ.past
  guarded : ∀ q proc, σ.processes q = some proc → q = p ∧ Guarded fl cfg σ.past proc

/-- A process that was just booted. -/
theorem Guarded.booted (now : Nat) : Guarded fl cfg past { drainedAt := now } :=
  have hslots : Slotted (fun _ => True) { drainedAt := now } := Slotted.booted now
  { hslots with
    follows := fun r run hr => by cases hr
    knows := fun k tick hk => by cases hk }

theorem QueueStep.tidy (h : Tidy fl cfg p σ) (hof : e.Of p) (horderly : Orderly cfg σ e)
    (hstep : QueueStep fl cfg σ e τ) : Tidy fl cfg p τ := by
  cases hstep with
  | advance now hle => exact ⟨h.persisted, h.guarded⟩
  | boot q hq =>
    refine ⟨h.persisted, fun q' proc hq' => ?_⟩
    obtain ⟨rfl, rfl⟩ | ⟨-, hold⟩ := Table.set_some.mp hq'
    · exact ⟨hof, Guarded.booted σ.now⟩
    · exact h.guarded q' proc hold
  | crash q => exact ⟨h.persisted, fun q' proc hq' => h.guarded q' proc (Table.remove_some.mp hq').2⟩
  | @own q proc _ proc' rows past hq hown =>
    obtain ⟨rfl, hguarded⟩ := h.guarded q proc hq
    obtain ⟨hrows, hproc⟩ := hown.guarded hq horderly h.persisted hguarded
    refine ⟨hrows, fun q' proc'' hq' => ?_⟩
    obtain ⟨rfl, rfl⟩ | ⟨hne, hold⟩ := Table.set_some.mp hq'
    · exact ⟨rfl, hproc⟩
    · exact absurd (h.guarded q' proc'' hold).1 hne
  | statement op hop =>
    refine ⟨h.persisted.run op horderly, fun q proc hq => ?_⟩
    obtain ⟨rfl, hproc⟩ := h.guarded q proc hq
    exact ⟨rfl, { hproc with knows := hproc.knows }⟩

/-- A run that starts from a snapshot that knows what was persisted does none of it again. -/
theorem Knows.store {row : StagedIntentRow} (h : Knows past row) (sender : String)
    (commitment : Option IntentCommitment) :
    (past.uploaded row.intentId = true → Calls (fun c => ¬c.Uploads) (store fl cfg row sender commitment)) ∧
      (past.recorded row.intentId = true → Calls (fun c => ¬c.Records) (store fl cfg row sender commitment)) := by
  have hcalls := (store_stores fl cfg row sender commitment).calls
  refine ⟨fun hup => hcalls.mono fun c hc hspend => ?_, fun hrec => hcalls.mono fun c hc hspend => ?_⟩
  · cases c with
    | writeBlob id blob epochs =>
      obtain ⟨-, hnone⟩ | ⟨text, hdead⟩ := hc
      · exact h.1 hup hnone
      · cases hdead
    | _ => exact hspend
  · cases c with
    | executeStore id sender walrusObjectId deadlineMs =>
      obtain ⟨-, hnone⟩ | ⟨text, hdead⟩ := hc
      · exact h.2 hrec hnone
      · cases hdead
    | _ => exact hspend

/-- Ticks of one process that never act on a stale check: no intent has two runs, and no run repeats what was
persisted before it started. -/
theorem overlapping_ticks (hrun : Queue.Leads fl cfg (fun σ e => e.Of p ∧ Orderly cfg σ e) .empty τ) :
    (∀ r r' id, τ.Executes p r id → τ.Executes p r' id → r = r') ∧
      ∀ k r ready υ, QueueStep fl cfg τ (.start p k r ready) υ →
        (τ.past.uploaded ready.row.intentId = true →
          Calls (fun c => ¬c.Uploads) (store fl cfg ready.row ready.sender ready.commitment)) ∧
        (τ.past.recorded ready.row.intentId = true →
          Calls (fun c => ¬c.Records) (store fl cfg ready.row ready.sender ready.commitment)) := by
  have hempty : Tidy fl cfg p .empty := by
    refine ⟨fun id row hrow => ?_, fun q proc hq => ?_⟩
    · cases hrow
    · cases hq
  have hend : Tidy fl cfg p τ := hrun.keeps (fun σ e υ h hP hstep => hstep.tidy h hP.1 hP.2) hempty
  refine ⟨?_, fun k r ready υ hstart => ?_⟩
  · intro r r' id ⟨proc, run, hp, hr, hid, hexec⟩ ⟨proc', run', hp', hr', hid', hexec'⟩
    rw [hp, Option.some.injEq] at hp'
    subst hp'
    exact (hend.guarded p proc hp).2.unique r run r' run' hr hexec hr' hexec' (hid.trans hid'.symm)
  · cases hstart with
    | own hp hown =>
      cases hown with
      | @start _ tick _ rest runs _ hk hphase hr =>
        have htaken : ready.row ∈ tick.taken := by simp [Tick.taken, hphase]
        exact ((hend.guarded p _ hp).2.knows k tick hk _ htaken).store _ _

/-! ## A tick suspended between its check and its start -/

theorem Prompt.of {k t : Nat} (hstep : Prompt proc p k t σ e) : e.Of p := by
  cases hstep <;> rfl

/-- A tick that goes through is in order when no other of the process has a run to start. -/
theorem Prompt.orderly {k t : Nat} (hstep : Prompt proc p k t σ e)
    (hticks : ∀ i tick, proc.ticks i = some tick → tick.taken = []) : Orderly cfg σ e := by
  cases hstep with
  | tick => trivial
  | drain => trivial
  | @resumeTick pr tick rows hp hk hphase hrows =>
    intro pr' tick' rows' hp' hk' hphase'
    rw [hp, Option.some.injEq] at hp'
    subst hp'
    rw [hk, Option.some.injEq] at hk'
    subst hk'
    rw [hphase, TickPhase.drained.injEq] at hphase'
    subst hphase'
    obtain hscan | ⟨row, rest, hscan, -, hsub⟩ := scan_cases cfg tick.startedAt pr.inProcess rows []
    · rw [hscan]
      trivial
    · rw [hscan]
      exact ⟨row.toRow, hrows row (hsub.subset List.mem_cons_self), rfl, rfl⟩
  | commitment hp hk hphase =>
    intro pr' tick' row rest ready c hp' hk' hphase'
    rw [hp, Option.some.injEq] at hp'
    subst hp'
    rw [hk, Option.some.injEq] at hk'
    subst hk'
    rw [hphase, TickPhase.asking.injEq] at hphase'
    obtain ⟨rfl, rfl, rfl⟩ := hphase'
    trivial
  | start hp hk hothers hstart hrow hclaim hlease hactive =>
    intro pr i tick hp' hi htick
    rw [hp, Option.some.injEq] at hp'
    subst hp'
    rw [hothers i hi] at htick
    rw [hticks i tick htick]
    exact fun s hs => absurd hs List.not_mem_nil

/-- While the run of a first tick goes on, the watchdog lets a second tick claim the row again: it passes the intent
over, and the one run stays the only one. -/
theorem overlapping_ticks_met : ∃ (τ : Queue) (proc : Process), τ.processes "a" = some proc ∧
    proc.ticks 0 = some ⟨0, .starting [] [0]⟩ ∧ proc.ticks 1 = some ⟨240000, .starting [] []⟩ ∧
    τ.Executes "a" 0 "0x01" ∧ ∀ r, τ.Executes "a" r "0x01" → r = 0 := by
  let P : Queue → Event → Prop := fun σ e => e.Of "a" ∧ Orderly exampleConfig σ e
  let processes := exampleAlone.processes
  obtain ⟨proc, hstarted, htick⟩ := exampleRun_starts processes rfl
  have hstaged : Queue.Leads .exact exampleConfig P .empty exampleAlone :=
    exampleAlone_leads exampleConfig .exact (fun _ => ⟨rfl, trivial⟩)
      (fun σ hpast => ⟨trivial, fun _ _ _ => by simp [hpast]⟩) fun σ hpast => ⟨trivial, fun _ _ _ => by simp [hpast]⟩
  have hrunning : Queue.Leads .exact exampleConfig P .empty (exampleHolding processes proc) :=
    hstaged.trans (htick.mono fun σ e hP => ⟨hP.of, hP.orderly fun _ _ => nofun⟩)
  let late : Queue := { exampleHolding processes proc with now := 240000 }
  have hlate : QueueStep .exact exampleConfig (exampleHolding processes proc) (.advance 240000) late :=
    .advance 240000 (Nat.zero_le _)
  have hp : late.processes "a" = some proc := rfl
  have hmay : mayTick exampleConfig 240000 proc.tickStartedAt = true := by
    rw [hstarted.tickStartedAt]
    decide
  have htaken : proc.inProcess "0x01" = true := by
    rw [hstarted.inProcess]
    rfl
  have hfree : proc.ticks 1 = none := by
    rw [hstarted.ticks]
    rfl
  have hrow : Rows.one "0x01" exampleHeld "0x01" = some exampleHeld := Rows.one_self
  have hpicked : Oldest (due 240000 "a") ∅ 20 (Rows.one "0x01" exampleHeld) ["0x01"] := .one (by decide) (by decide)
  obtain ⟨proc', hscans, hticks, hruns, -⟩ := Queue.tick_scans exampleConfig .exact hp hfree hstarted.stopped hmay
    hpicked hrow (scan_passes (by decide) htaken)
  have hstarting : ∀ i tick, proc.ticks i = some tick → tick.taken = [] := by
    intro i tick hi
    rw [hstarted.ticks] at hi
    obtain ⟨-, rfl⟩ | ⟨-, hi⟩ := Table.set_some.mp hi
    · rfl
    · cases hi
  let τ : Queue :=
    { late with
      rows := drainRows late.rows "a" 240000 600000 ["0x01"]
      processes := Function.update late.processes "a" (some proc') }
  have hlead : Queue.Leads .exact exampleConfig P .empty τ :=
    (hrunning.step hlate ⟨trivial, trivial⟩).trans (hscans.mono fun σ e hP => ⟨hP.of, hP.orderly hstarting⟩)
  have hrun : proc'.runs 0 = some exampleRun := by
    rw [hruns, hstarted.runs]
    rfl
  have hexec : τ.Executes "a" 0 "0x01" := ⟨proc', exampleRun, rfl, hrun, rfl, Run.executing_answered rfl⟩
  refine ⟨τ, proc', rfl, ?_, ?_, hexec, fun r hr => (overlapping_ticks hlead).1 r 0 "0x01" hr hexec⟩
  · rw [hticks, hstarted.ticks]
    rfl
  · rw [hticks]
    rfl

/-- A tick suspended after its in-process check starts a second run of an intent that a later tick has begun to run. -/
theorem ticks_overlap :
    ∃ τ, Queue.Leads .exact exampleConfig (fun _ e => e.Of "a") .empty τ ∧
      ∃ r r' id, τ.Executes "a" r id ∧ τ.Executes "a" r' id ∧ r ≠ r' := by
  have hp : exampleAlone.processes "a" = some { drainedAt := 0 } := rfl
  have hstaged := exampleAlone_leads exampleConfig .exact (P := fun _ e => e.Of "a") (fun _ => rfl) (fun _ _ => trivial)
    fun _ _ => trivial
  let atA (now at' : Nat) (proc : Process) : Queue :=
    { exampleAlone with
      now := now
      rows := Rows.one "0x01" (claimed "a" at' 600000 exampleRow)
      processes := Function.update exampleAlone.processes "a" (some proc) }
  have hreplace : ∀ pr pr' : Process, Function.update (Function.update exampleAlone.processes "a" (some pr)) "a"
      (some pr') = Function.update exampleAlone.processes "a" (some pr') := fun _ _ => Function.update_idem ..
  -- the first tick claims the row and asks for its commitment
  have hpicked : Oldest (due 0 "a") ∅ 20 (Rows.one "0x01" exampleRow) ["0x01"] := .one (by decide) (by decide)
  obtain ⟨asking, hasks, hticks, hruns, hslots, hstop, hticked, -⟩ := Queue.tick_asks exampleConfig .exact (k := 0) hp
    rfl rfl rfl rfl hpicked rfl (by decide) (by decide)
  rw [show exampleAlone.rows = Rows.one "0x01" exampleRow from rfl, drainRows_one] at hasks
  have hasked : Queue.Leads .exact exampleConfig (fun _ e => e.Of "a") .empty (atA 0 0 asking) :=
    hstaged.trans (hasks.mono fun σ e hP => hP.of)
  have hadvance : QueueStep .exact exampleConfig (atA 0 0 asking) (.advance 240000) (atA 240000 0 asking) :=
    .advance 240000 (Nat.zero_le _)
  -- the watchdog lets a second tick claim the row and run it
  have hp' : (atA 240000 0 asking).processes "a" = some asking := rfl
  have hmay : mayTick exampleConfig 240000 (some 0) = true := by decide
  have hdue : due 240000 "a" (claimed "a" 0 600000 exampleRow) = true := by decide
  have hlive : (claimed "a" 0 600000 exampleRow).deadline.any (· ≤ 240000) = false := by decide
  obtain ⟨running, hsecond, hruns', hticks', -⟩ := Queue.tick_one exampleConfig .exact (k := 1) (r := 0)
    (c := exampleCommitment) hp' (by rw [hticks]; rfl) (by rw [hruns]) hstop (by rw [hticked]; exact hmay)
    (by rw [hslots]) rfl hdue (by decide) hlive (by decide) rfl (by decide)
  have hraced : Queue.Leads .exact exampleConfig (fun _ e => e.Of "a") .empty (atA 240000 240000 running) := by
    have hleads := (hasked.step hadvance trivial).trans (hsecond.mono fun σ e hP => hP.of)
    rwa [show Function.update (atA 240000 0 asking).processes "a" (some running) = _ from hreplace asking running]
      at hleads
  -- the first tick learns the commitment and runs the row it claimed
  let ready : Ready := ⟨claimedRow "a" 0 600000 exampleRow "0x01", "0xab", some exampleCommitment⟩
  have hask : running.ticks 0 = some ⟨0, .asking ready.row [] []⟩ := by
    rw [hticks', hticks]
    rfl
  have hfree : running.runs 1 = none := by
    rw [hruns', hruns]
    rfl
  have htakes : QueueStep .exact exampleConfig (atA 240000 240000 running) (.commitment "a" 0)
      (atA 240000 240000 (running.takenUp 0 0 ready)) := by
    have hrunning : (atA 240000 240000 running).processes "a" = some running := rfl
    have hstep := Queue.tick_takes exampleConfig .exact hrunning hask (c := exampleCommitment) rfl (by decide)
    rwa [show Function.update (atA 240000 240000 running).processes "a" _ = _ from hreplace running _] at hstep
  have hstarts : QueueStep .exact exampleConfig (atA 240000 240000 (running.takenUp 0 0 ready)) (.start "a" 0 1 ready)
      (atA 240000 240000 (running.started .exact exampleConfig 0 1 0 240000 ready)) := by
    have hstep := Queue.tick_runs exampleConfig .exact (atA 240000 240000 running) running "a" 0 0 ready hfree
    rwa [show Function.update (atA 240000 240000 running).processes "a" (some (running.takenUp 0 0 ready)) = _ from
      hreplace running _, show Function.update (atA 240000 240000 running).processes "a"
        (some (running.started _ _ 0 1 0 _ ready)) = _ from hreplace running _] at hstep
  let first := startedRun .exact exampleConfig 240000
    (claimedRow "a" 240000 600000 (claimed "a" 0 600000 exampleRow) "0x01") "0xab" exampleCommitment
  let both := running.started .exact exampleConfig 0 1 0 240000 ready
  have hfirst : both.runs 0 = some first := by
    have hkept : both.runs 0 = running.runs 0 := rfl
    rw [hkept, hruns']
    rfl
  refine ⟨_, (hraced.step htakes rfl).step hstarts rfl, 0, 1, "0x01", ?_, ?_, by decide⟩
  · exact ⟨both, first, rfl, hfirst, rfl, Run.executing_answered rfl⟩
  · exact ⟨both, _, rfl, rfl, rfl, Run.executing_answered rfl⟩

end Bosphor.Relayer

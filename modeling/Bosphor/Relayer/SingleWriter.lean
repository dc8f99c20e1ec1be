import Bosphor.Relayer.OneIntent
import Bosphor.Relayer.Slots

/-!
# One writer for an intent

The claim lease is to keep two processes, and two runs of one process, from
storing the same intent at once. It does in every run in which a failed attempt
is rescheduled only once its own work has ended, a tick starts a run only under
the claim that its process made last, and every claim of a process reaches the
rows it is running (`single_writer`). A timer that fires while the work goes on
is enough for two processes to store one intent (`stored_twice`).
-/

namespace Bosphor.Relayer

open StagedIntentStore

variable {fl : Rounding} {cfg : Config}

/-- No intent is stored by two pipelines at once. -/
def Queue.SingleWriter (σ : Queue) : Prop :=
  ∀ p r p' r' id, σ.Executes p r id → σ.Executes p' r' id → p = p' ∧ r = r'

/-- Every live process claims at least once per lease period. -/
def Punctual (cfg : Config) : Queue → Event → Prop
  | σ, .advance now => ∀ p proc, σ.processes p = some proc → now ≤ proc.drainedAt + cfg.leaseMs
  | σ, .drain p k _ => ∀ proc tick, σ.processes p = some proc → proc.ticks k = some tick →
      σ.now ≤ tick.startedAt + cfg.leaseMs
  | _, _ => True

/-- An active row that the process is running is due, not locked, and among the oldest of a batch. -/
def Reaches (cfg : Config) (σ : Queue) (p : Claimant) (now : Nat) (skipped : Set IntentId) (id : IntentId) : Prop :=
  ∀ row, σ.rows id = some row → row.state = .active → due now p row = true ∧ id ∉ skipped ∧
    ∃ older : List IntentId, older.length ≤ cfg.batchSize ∧ ∀ k r, σ.rows k = some r → due now p r = true →
      k ∉ skipped → r.createdAt ≤ row.createdAt → k ∈ older

/-- The steps that leave every pipeline under its lease. -/
def Sheltered (cfg : Config) : Queue → Event → Prop
  | σ, .handle p r => ∀ proc run err since, σ.processes p = some proc → proc.runs r = some run →
      run.handling = .handling err since → attemptsLeft cfg run.row err →
        ∀ p' r', ¬σ.Executes p' r' run.row.intentId
  | σ, .start p k _ ready => ∀ proc tick, σ.processes p = some proc → proc.ticks k = some tick →
      tick.startedAt = proc.drainedAt ∧ ∃ row, σ.rows ready.row.intentId = some row ∧ row.claimedBy = some p ∧
        row.leaseExpiresAt = ready.row.leaseExpiresAt
  | σ, .drain p k skipped => ∀ proc tick, σ.processes p = some proc → proc.ticks k = some tick →
      ∀ r id, σ.Executes p r id → Reaches cfg σ p tick.startedAt skipped id
  | σ, .tick p _ => ∀ proc k tick, σ.processes p = some proc → proc.ticks k = some tick → tick.startedAt ≠ σ.now
  | σ, .statement (.purgeTerminal cutoff) => ∀ id row, σ.rows id = some row → purgeable cutoff row = true →
      ∀ p r, ¬σ.Executes p r id
  | _, _ => True

/-! ## The invariant -/

/-- The row of `id` is claimed by `p`, until `lease` while it is active. -/
def Held (rows : Rows) (p : Claimant) (lease : Nat) (id : IntentId) : Prop :=
  ∃ row, rows id = some row ∧ row.claimedBy = some p ∧ (row.state = .active → row.leaseExpiresAt = some lease)

/-- What holds of a live process: its runs are under its lease, and only the tick that claimed last may start one. -/
structure Leased (cfg : Config) (now : Nat) (rows : Rows) (p : Claimant) (proc : Process) : Prop
    extends Slotted (· = proc.drainedAt) proc where
  punctual : now ≤ proc.drainedAt + cfg.leaseMs
  held : ∀ r run, proc.runs r = some run → run.Executing → Held rows p (proc.drainedAt + cfg.leaseMs) run.row.intentId
  clock : ∀ k tick, proc.ticks k = some tick → tick.startedAt ≤ now
  distinct : ∀ k tick k' tick', proc.ticks k = some tick → proc.ticks k' = some tick' →
    tick.startedAt = tick'.startedAt → k = k'
  leases : ∀ k tick, proc.ticks k = some tick → ∀ s ∈ tick.rows, s.leaseExpiresAt = some (tick.startedAt + cfg.leaseMs)

def LeasedQueue (cfg : Config) (σ : Queue) : Prop :=
  ∀ p proc, σ.processes p = some proc → Leased cfg σ.now σ.rows p proc

theorem LeasedQueue.singleWriter {σ : Queue} (h : LeasedQueue cfg σ) : σ.SingleWriter := by
  intro p r p' r' id ⟨proc, run, hp, hr, hid, hexec⟩ ⟨proc', run', hp', hr', hid', hexec'⟩
  obtain ⟨row, hrow, hclaim, -⟩ := (h p proc hp).held r run hr hexec
  obtain ⟨row', hrow', hclaim', -⟩ := (h p' proc' hp').held r' run' hr' hexec'
  rw [hid] at hrow
  rw [hid', hrow, Option.some.injEq] at hrow'
  subst hrow'
  rw [hclaim, Option.some.injEq] at hclaim'
  subst hclaim'
  rw [hp, Option.some.injEq] at hp'
  subst hp'
  exact ⟨rfl, (h p proc hp).unique r run r' run' hr hexec hr' hexec' (hid.trans hid'.symm)⟩

/-! ## The table -/

variable {now : Nat} {rows rows' : Rows} {p : Claimant} {proc : Process}

/-- A lease is kept when the time stays within it and the rows that run keep their claim. -/
theorem Leased.table (h : Leased cfg now rows p proc) {now' : Nat} (hle : now ≤ now')
    (htime : now' ≤ proc.drainedAt + cfg.leaseMs)
    (hheld : ∀ r run, proc.runs r = some run → run.Executing →
      Held rows p (proc.drainedAt + cfg.leaseMs) run.row.intentId →
      Held rows' p (proc.drainedAt + cfg.leaseMs) run.row.intentId) : Leased cfg now' rows' p proc :=
  { h with
    punctual := htime
    held := fun r run hr hexec => hheld r run hr hexec (h.held r run hr hexec)
    clock := fun k tick hk => (h.clock k tick hk).trans hle }

/-- A statement that touches no claim keeps what is held. -/
theorem Held.run {lease : Nat} {id : IntentId} (h : Held rows p lease id) {op : Op} (hop : op.Neutral) :
    Held (op.run rows) p lease id := by
  obtain ⟨row, hrow, hclaim, hlease⟩ := h
  obtain hsame | hw := op.run_cases rows id
  · exact ⟨row, hsame.trans hrow, hclaim, hlease⟩
  · obtain ⟨hnone, -⟩ | ⟨r, r', hr, hr', hkeep⟩ := Op.write_claim hop hw
    · rw [hrow] at hnone
      cases hnone
    · rw [hrow, Option.some.injEq] at hr
      subst hr
      refine ⟨r', hr', hkeep.claimedBy.trans hclaim, fun ha => ?_⟩
      rw [hkeep.leaseExpiresAt]
      exact hlease (hkeep.active ha)

/-- A statement on another intent's row. -/
theorem Held.reschedule {lease : Nat} {id other : IntentId} (h : Held rows p lease id) (hne : id ≠ other)
    (attempts nextAt : Nat) (text : String) (t : Nat) :
    Held ((Op.reschedule other attempts nextAt text t).run rows) p lease id := by
  obtain ⟨row, hrow, hclaim, hlease⟩ := h
  refine ⟨row, ?_, hclaim, hlease⟩
  obtain hsame | hw := (Op.reschedule other attempts nextAt text t).run_cases rows id
  · exact hsame.trans hrow
  · exact absurd (updateRow_some.mp hw).1 hne

/-- A row that is not purged is as it was. -/
theorem Held.purge {lease : Nat} {id : IntentId} (h : Held rows p lease id) {cutoff : Nat}
    (hkeep : ∀ row, rows id = some row → purgeable cutoff row ≠ true) :
    Held ((Op.purgeTerminal cutoff).run rows) p lease id := by
  obtain ⟨row, hrow, hclaim, hlease⟩ := h
  refine ⟨row, ?_, hclaim, hlease⟩
  obtain hsame | hw := (Op.purgeTerminal cutoff).run_cases rows id
  · exact hsame.trans hrow
  · obtain ⟨r, hr, hpurge, -⟩ := purge_some.mp hw
    exact absurd hpurge (hkeep r hr)

/-- Another process's claim leaves a row that is held until the claim's time or later. -/
theorem Held.drain {lease : Nat} {id : IntentId} (h : Held rows p lease id) {q : Claimant} (hne : q ≠ p) {t : Nat}
    (ht : t ≤ lease) {skipped : Set IntentId} {limit : Nat} {picked : List IntentId}
    (hpicked : Oldest (due t q) skipped limit rows picked) (leaseMs : Nat) :
    Held (drainRows rows q t leaseMs picked) p lease id := by
  obtain ⟨row, hrow, hclaim, hlease⟩ := h
  refine ⟨row, ?_, hclaim, hlease⟩
  rw [drainRows_other, hrow]
  intro hmem
  obtain ⟨r, hr, hdue⟩ := hpicked.found id hmem
  rw [hrow, Option.some.injEq] at hr
  subst hr
  have hactive : row.state = .active := due_active hdue
  simp only [due, hclaim, hlease hactive, Option.isNone_some, Bool.false_or, Option.any_some, Bool.and_eq_true,
    Bool.or_eq_true, beq_iff_eq, Option.some.injEq, decide_eq_true_eq] at hdue
  obtain heq | hlt := hdue.2
  · exact hne heq.symm
  · omega

/-- The oldest of a batch are claimed. -/
theorem Reaches.picked {σ : Queue} {skipped : Set IntentId} {id : IntentId} {t : Nat}
    (h : Reaches cfg σ p t skipped id) {row : Row} (hrow : σ.rows id = some row) (hactive : row.state = .active)
    {picked : List IntentId} (hpicked : Oldest (due t p) skipped cfg.batchSize σ.rows picked) : id ∈ picked := by
  obtain ⟨hdue, hfree, older, hlen, hall⟩ := h row hrow hactive
  by_contra hmem
  obtain ⟨hfull, hbefore⟩ := hpicked.full id row hrow hdue hfree hmem
  -- the whole batch and the row itself are among the older ones
  have hsub : (id :: picked) ⊆ older := by
    intro k hk
    obtain rfl | hk := List.mem_cons.mp hk
    · exact hall _ row hrow hdue hfree le_rfl
    · obtain ⟨r, hr, hrdue⟩ := hpicked.found k hk
      exact hall k r hr hrdue (hpicked.unskipped k hk) (hbefore k hk r hr)
  have hlong : (id :: picked).length ≤ older.length :=
    (List.subperm_of_subset (List.nodup_cons.mpr ⟨hmem, hpicked.nodup⟩) hsub).length_le
  simp only [List.length_cons] at hlong
  omega

/-! ## The process -/

/-- A process that was just booted holds nothing. -/
theorem Leased.booted (now : Nat) (rows : Rows) (p : Claimant) : Leased cfg now rows p { drainedAt := now } :=
  have hslots : Slotted (· = now) { drainedAt := now } := Slotted.booted now
  { hslots with
    punctual := Nat.le_add_right ..
    held := fun r run hr => by cases hr
    clock := fun k tick hk => by cases hk
    distinct := fun k tick k' tick' hk => by cases hk
    leases := fun k tick hk => by cases hk }

/-- A tick that goes on keeps its time, and some of its rows. -/
theorem Leased.setTick (h : Leased cfg now rows p proc) {k : Nat} {tick tick' : Tick} (hk : proc.ticks k = some tick)
    (hstart : tick'.startedAt = tick.startedAt) (hrows : tick'.rows ⊆ tick.rows)
    (hslots : Slotted (· = proc.drainedAt) (proc.setTick k tick')) : Leased cfg now rows p (proc.setTick k tick') :=
  { hslots with
    punctual := h.punctual
    held := h.held
    clock := fun i t hi => by
      obtain ⟨rfl, rfl⟩ | ⟨-, hold⟩ := Table.set_some.mp hi
      · rw [hstart]
        exact h.clock _ tick hk
      · exact h.clock i t hold
    distinct := fun i t j u hi hj heq => by
      obtain ⟨rfl, rfl⟩ | ⟨-, hiold⟩ := Table.set_some.mp hi
      · obtain ⟨rfl, rfl⟩ | ⟨-, hjold⟩ := Table.set_some.mp hj
        · rfl
        · exact h.distinct _ tick j u hk hjold (hstart ▸ heq)
      · obtain ⟨rfl, rfl⟩ | ⟨-, hjold⟩ := Table.set_some.mp hj
        · exact h.distinct i t _ tick hiold hk (hstart ▸ heq)
        · exact h.distinct i t j u hiold hjold heq
    leases := fun i t hi s hs => by
      obtain ⟨rfl, rfl⟩ | ⟨-, hold⟩ := Table.set_some.mp hi
      · rw [hstart]
        exact h.leases _ tick hk s (hrows hs)
      · exact h.leases i t hold s hs }

theorem Leased.endTick (h : Leased cfg now rows p proc) (k : Nat) (tick : Tick) :
    Leased cfg now rows p (proc.endTick k tick) :=
  { h.toSlotted.endTick k tick with
    punctual := h.punctual
    held := h.held
    clock := fun i t hi => h.clock i t (Table.remove_some.mp hi).2
    distinct := fun i t j u hi hj => h.distinct i t j u (Table.remove_some.mp hi).2 (Table.remove_some.mp hj).2
    leases := fun i t hi => h.leases i t (Table.remove_some.mp hi).2 }

/-- A new tick, at a time when no other started. -/
theorem Leased.newTick (h : Leased cfg now rows p proc) {k : Nat} (hk : proc.ticks k = none)
    (hother : ∀ k' tick, proc.ticks k' = some tick → tick.startedAt ≠ now) :
    Leased cfg now rows p { proc.setTick k ⟨now, .draining⟩ with tickStartedAt := some now } :=
  have hslots : Slotted (· = proc.drainedAt) (proc.setTick k ⟨now, .draining⟩) :=
    h.toSlotted.putTick List.nodup_nil rfl fun _ _ _ _ hfresh => hfresh
  { hslots with
    punctual := h.punctual
    held := h.held
    clock := fun i t hi => by
      obtain ⟨rfl, rfl⟩ | ⟨-, hold⟩ := Table.set_some.mp hi
      · exact le_rfl
      · exact h.clock i t hold
    distinct := fun i t j u hi hj heq => by
      obtain ⟨rfl, rfl⟩ | ⟨-, hiold⟩ := Table.set_some.mp hi
      · obtain ⟨rfl, rfl⟩ | ⟨-, hjold⟩ := Table.set_some.mp hj
        · rfl
        · exact absurd heq.symm (hother j u hjold)
      · obtain ⟨rfl, rfl⟩ | ⟨-, hjold⟩ := Table.set_some.mp hj
        · exact absurd heq (hother i t hiold)
        · exact h.distinct i t j u hiold hjold heq
    leases := fun i t hi s hs => by
      obtain ⟨rfl, rfl⟩ | ⟨-, hold⟩ := Table.set_some.mp hi
      · cases hs
      · exact h.leases i t hold s hs }

/-- A run replaced by one of the same row that executes only if it did. -/
theorem Leased.setRun (h : Leased cfg now rows p proc) {r : Nat} {run run' : Run} (hr : proc.runs r = some run)
    (hrow : run'.row = run.row) (hexec : run'.Executing → run.Executing) :
    Leased cfg now rows p (proc.setRun r run') :=
  { h.toSlotted.setRun hr hrow hexec with
    punctual := h.punctual
    held := fun i u hi hu => by
      obtain ⟨rfl, rfl⟩ | ⟨-, hold⟩ := Table.set_some.mp hi
      · rw [hrow]
        exact h.held _ run hr (hexec hu)
      · exact h.held i u hold hu
    clock := h.clock
    distinct := h.distinct
    leases := h.leases }

theorem Leased.resumeRun (h : Leased cfg now rows p proc) {r : Nat} {run : Run} {rest : Program Booking}
    (hr : proc.runs r = some run) (hwork : run.work = .answered rest) (t : Nat) :
    Leased cfg now rows p (proc.resumeRun r run rest t) := by
  have hexec : run.Executing := Run.executing_answered hwork
  have hslots := h.toSlotted.resumeRun hr hwork t
  unfold Process.resumeRun at hslots ⊢
  cases hof : Work.of rest with
  | settled result =>
    rw [hof] at hslots
    have hset : Leased cfg now rows p (proc.setRun r (run.settle t result)) :=
      h.setRun hr rfl fun hover => absurd hover (run.settle_not_executing t result)
    exact { hslots with
      punctual := hset.punctual, held := hset.held, clock := hset.clock
      distinct := hset.distinct, leases := hset.leases }
  | awaiting c next => exact h.setRun hr rfl fun _ => hexec
  | answered rest => exact h.setRun hr rfl fun _ => hexec

/-- A run that starts under the process's last claim. -/
theorem Leased.start (h : Leased cfg now rows p proc) {k r : Nat} {tick : Tick} {ready : Ready} {rest : List Ready}
    {runs : List Nat} (hk : proc.ticks k = some tick) (hphase : tick.phase = .starting (ready :: rest) runs)
    (hdrained : tick.startedAt = proc.drainedAt)
    (hclaim : ∃ row, rows ready.row.intentId = some row ∧ row.claimedBy = some p ∧
      row.leaseExpiresAt = ready.row.leaseExpiresAt) (t : Nat) :
    Leased cfg now rows p
      ((proc.startRun fl cfg r t ready).setTick k ⟨tick.startedAt, .starting rest (r :: runs)⟩) := by
  have hmem : ready.row ∈ tick.rows := by simp [Tick.rows, hphase]
  have hheld : Held rows p (proc.drainedAt + cfg.leaseMs) ready.row.intentId := by
    obtain ⟨row, hrow, hby, hlease⟩ := hclaim
    refine ⟨row, hrow, hby, fun _ => ?_⟩
    rw [hlease, h.leases k tick hk _ hmem, hdrained]
  -- no other tick claimed last
  have hslots : Slotted (· = proc.drainedAt)
      ((proc.startRun fl cfg r t ready).setTick k ⟨tick.startedAt, .starting rest (r :: runs)⟩) :=
    h.toSlotted.start hk hphase hdrained
      (fun i u hne hi hlast => absurd (h.distinct i u k tick hi hk (hlast.trans hdrained.symm)) hne) t
  have hticks : Leased cfg now rows p (proc.setTick k ⟨tick.startedAt, .starting rest (r :: runs)⟩) :=
    h.setTick hk rfl (by simp [Tick.rows, hphase]) (h.toSlotted.started hk hphase r)
  exact
    { hslots with
      punctual := h.punctual
      held := fun i u hi hu => by
        obtain ⟨-, rfl⟩ | ⟨-, hold⟩ := Table.set_some.mp hi
        · exact hheld
        · exact h.held i u hold hu
      clock := hticks.clock
      distinct := hticks.distinct
      leases := hticks.leases }

/-- The process's own claim renews the lease of every row it runs. -/
theorem Leased.drain {σ : Queue} (h : Leased cfg σ.now σ.rows p proc) {k : Nat} {tick : Tick}
    (hk : proc.ticks k = some tick) {skipped : Set IntentId} {picked : List IntentId}
    (hpicked : Oldest (due tick.startedAt p) skipped cfg.batchSize σ.rows picked)
    (htime : σ.now ≤ tick.startedAt + cfg.leaseMs)
    (hreach : ∀ r run, proc.runs r = some run → run.Executing →
      Reaches cfg σ p tick.startedAt skipped run.row.intentId) :
    Leased cfg σ.now (drainRows σ.rows p tick.startedAt cfg.leaseMs picked) p
      { proc.setTick k ⟨tick.startedAt,
          .drained (drainAnswer (drainRows σ.rows p tick.startedAt cfg.leaseMs picked) picked)⟩ with
        drainedAt := tick.startedAt } :=
  have hnodup := hpicked.nodup.sublist (drainAnswer_ids (drainRows σ.rows p tick.startedAt cfg.leaseMs picked) picked)
  have hslots : Slotted (· = tick.startedAt) (proc.setTick k ⟨tick.startedAt,
      .drained (drainAnswer (drainRows σ.rows p tick.startedAt cfg.leaseMs picked) picked)⟩) :=
    h.toSlotted.putTick hnodup rfl fun i t hne hi hlast => absurd (h.distinct i t k tick hi hk hlast) hne
  { hslots with
    punctual := htime
    held := fun r run hr hexec => by
      obtain ⟨row, hrow, hclaim, -⟩ := h.held r run hr hexec
      by_cases hactive : row.state = .active
      · have hmem := (hreach r run hr hexec).picked hrow hactive hpicked
        refine ⟨claimed p tick.startedAt cfg.leaseMs row, ?_, rfl, fun _ => rfl⟩
        rw [drainRows_picked hmem, hrow, Option.map_some]
      · refine ⟨row, ?_, hclaim, fun ha => absurd ha hactive⟩
        rw [drainRows_other, hrow]
        intro hmem
        obtain ⟨r', hr', hdue⟩ := hpicked.found _ hmem
        rw [hrow, Option.some.injEq] at hr'
        subst hr'
        exact hactive (due_active hdue)
    clock := fun i t hi => by
      obtain ⟨rfl, rfl⟩ | ⟨-, hold⟩ := Table.set_some.mp hi
      · exact h.clock _ tick hk
      · exact h.clock i t hold
    distinct := fun i t j u hi hj heq => by
      obtain ⟨rfl, rfl⟩ | ⟨-, hiold⟩ := Table.set_some.mp hi
      · obtain ⟨rfl, rfl⟩ | ⟨-, hjold⟩ := Table.set_some.mp hj
        · rfl
        · exact h.distinct _ tick j u hk hjold heq
      · obtain ⟨rfl, rfl⟩ | ⟨-, hjold⟩ := Table.set_some.mp hj
        · exact h.distinct i t _ tick hiold hk heq
        · exact h.distinct i t j u hiold hjold heq
    leases := fun i t hi s hs => by
      obtain ⟨rfl, rfl⟩ | ⟨-, hold⟩ := Table.set_some.mp hi
      · obtain ⟨hmem, hrow⟩ := mem_drainAnswer.mp hs
        rw [drainRows_picked hmem] at hrow
        obtain ⟨r, -, hr⟩ := Option.map_eq_some_iff.mp hrow
        rw [← hr]
        rfl
      · exact h.leases i t hold s hs }

/-! ## The steps -/

variable {σ τ : Queue} {e : Event} {past' : Past} {proc' : Process}

/-- What a process's own step leaves of the rows another process holds. -/
theorem ProcessStep.held (hstep : ProcessStep fl cfg σ p proc e proc' rows' past') (hp : σ.processes p = some proc)
    (hclock : ∀ k tick, proc.ticks k = some tick → tick.startedAt ≤ σ.now) (hsheltered : Sheltered cfg σ e)
    {q : Claimant} {lease r : Nat} {id : IntentId} (hexec : σ.Executes q r id) (hlease : σ.now ≤ lease)
    (hother : ∀ k skipped, e = .drain p k skipped → q ≠ p) (h : Held σ.rows q lease id) : Held rows' q lease id := by
  cases hstep with
  | stop | tick | tickFails | resumeTick | commitment | start | finish | resume | timeout | handleFails => exact h
  | drain skipped picked hk hphase hpicked =>
    exact h.drain (hother _ _ rfl).symm ((hclock _ _ hk).trans hlease) hpicked _
  | @call _ _ c _ a landed hr hwork hanswer hlanded =>
    split
    · unfold Call.run
      cases hop : c.op σ.now with
      | none => exact h
      | some op => exact h.run (Call.op_neutral hop)
    · exact h
  | @handle _ run err since hr hhandling =>
    obtain ⟨hleft, nextAt, text, hop⟩ | ⟨-, text, hop⟩ := attemptFailed_cases cfg run.row err since
    · rw [hop]
      refine h.reschedule (fun heq => ?_) _ _ _ _
      subst heq
      exact hsheltered proc run err since hp hr hhandling hleft q r hexec
    · rw [hop]
      exact h.run trivial

/-- A statement from outside leaves the rows that are held. -/
theorem Held.statement {op : Op} (hop : Op.Outside op) (hsheltered : Sheltered cfg σ (.statement op)) {q : Claimant}
    {lease r : Nat} {id : IntentId} (hexec : σ.Executes q r id) (h : Held σ.rows q lease id) :
    Held (op.run σ.rows) q lease id := by
  cases op with
  | purgeTerminal cutoff => exact h.purge fun row hrow hpurge => hsheltered id row hrow hpurge q r hexec
  | upsertBytes | markReceived | rescheduleByteRecovery | markLedgered | expireDue | expireUnreceived =>
    exact h.run trivial
  | drainDue | persistUpload | persistStore | markReturned | freeBytes | markDone | markDead | reschedule =>
    exact hop.elim

/-- The process's own step keeps its lease. -/
theorem ProcessStep.leased (hstep : ProcessStep fl cfg σ p proc e proc' rows' past') (hp : σ.processes p = some proc)
    (hpunctual : Punctual cfg σ e) (hsheltered : Sheltered cfg σ e) (h : Leased cfg σ.now σ.rows p proc) :
    Leased cfg σ.now rows' p proc' := by
  have hexec : ∀ r run, proc.runs r = some run → run.Executing → σ.Executes p r run.row.intentId :=
    fun r run hr hrun => ⟨proc, run, hp, hr, rfl, hrun⟩
  have htable : (∀ k skipped, e ≠ .drain p k skipped) → Leased cfg σ.now rows' p proc := fun hdrain =>
    h.table le_rfl h.punctual fun r run hr hrun hheld =>
      hstep.held hp h.clock hsheltered (hexec r run hr hrun) h.punctual (fun k s he => absurd he (hdrain k s)) hheld
  cases hstep with
  | stop => exact { h with }
  | tick k hk hstopped hmay => exact h.newTick hk fun k' tick hk' => hsheltered proc k' tick hp hk'
  | drain skipped picked hk hphase hpicked =>
    exact h.drain hk hpicked (hpunctual proc _ hp hk) fun r run hr hrun =>
      hsheltered proc _ hp hk r _ (hexec r run hr hrun)
  | tickFails hk hphase => exact h.endTick _ _
  | finish hk hphase hruns => exact h.endTick _ _
  | @resumeTick k tick rows hk hphase =>
    have hrows := (scan_rows cfg tick.startedAt tick.startedAt proc.inProcess rows []).1.subset
    refine h.setTick hk rfl ?_ (h.toSlotted.resumeTick hk hphase)
    simpa only [Tick.rows, hphase, List.map_nil, List.nil_append] using hrows
  | @commitment k tick row rest ready c hk hphase =>
    have hrows := (scan_rows cfg tick.startedAt tick.startedAt proc.inProcess rest (takeUp row c ready)).1.trans
      ((takeUp_rows row c ready).append_right rest)
    refine h.setTick hk rfl ?_ (h.toSlotted.commitment hk hphase c)
    simpa only [Tick.rows, hphase, List.append_assoc, List.singleton_append] using hrows.subset
  | start r hk hphase hr =>
    obtain ⟨hdrained, hclaim⟩ := hsheltered proc _ hp hk
    exact h.start hk hphase hdrained hclaim σ.now
  | @call r run c next a landed hr hwork hanswer hlanded =>
    have hrun : run.Executing := Run.executing_awaiting hwork
    exact (htable fun _ _ => Event.noConfusion).setRun hr rfl fun _ => hrun
  | resume hr hwork => exact h.resumeRun hr hwork σ.now
  | timeout hr hrace hlate => exact h.setRun hr rfl id
  | handle hr hhandling => exact (htable fun _ _ => Event.noConfusion).setRun hr rfl id
  | handleFails hr hhandling => exact h.setRun hr rfl id

/-- A step that is punctual and sheltered keeps every process under its lease. -/
theorem QueueStep.leased (h : LeasedQueue cfg σ) (hpunctual : Punctual cfg σ e) (hsheltered : Sheltered cfg σ e)
    (hstep : QueueStep fl cfg σ e τ) : LeasedQueue cfg τ := by
  intro q procq hq
  cases hstep with
  | advance now hle =>
    have hold := h q procq hq
    exact hold.table hle (hpunctual q procq hq) fun r run hr hexec hheld => hheld
  | boot p hp =>
    obtain ⟨rfl, rfl⟩ | ⟨-, hold⟩ := Table.set_some.mp hq
    · exact Leased.booted σ.now σ.rows _
    · exact h q procq hold
  | crash p => exact h q procq (Table.remove_some.mp hq).2
  | @own p proc _ proc' rows past hp hown =>
    obtain ⟨rfl, rfl⟩ | ⟨hne, hold⟩ := Table.set_some.mp hq
    · exact hown.leased hp hpunctual hsheltered (h _ _ hp)
    · have hlease := h q procq hold
      exact hlease.table le_rfl hlease.punctual fun r run hr hexec hheld =>
        hown.held hp (h p proc hp).clock hsheltered ⟨procq, run, hold, hr, rfl, hexec⟩ hlease.punctual
          (fun _ _ _ => hne) hheld
  | statement op hop =>
    have hlease := h q procq hq
    exact hlease.table le_rfl hlease.punctual fun r run hr hexec hheld =>
      hheld.statement hop hsheltered ⟨procq, run, hq, hr, rfl, hexec⟩

/-- Every process claims once per lease period and every step is sheltered: no intent has two writers. -/
theorem single_writer (hrun : Queue.Leads fl cfg (fun σ e => Punctual cfg σ e ∧ Sheltered cfg σ e) .empty τ) :
    τ.SingleWriter := by
  have hstart : LeasedQueue cfg .empty := fun p proc hp => by cases hp
  have hend : LeasedQueue cfg τ := hrun.keeps (fun _ _ _ h hP hstep => hstep.leased h hP.1 hP.2) hstart
  exact hend.singleWriter

/-- The steps of a tick that goes through are punctual, and sheltered if the process neither ticked nor ran. -/
theorem Prompt.sheltered {k t : Nat} (hstep : Prompt proc p k t σ e) (hticks : ∀ i, proc.ticks i = none)
    (hruns : ∀ r, proc.runs r = none) : Punctual cfg σ e ∧ Sheltered cfg σ e := by
  cases hstep with
  | tick hp =>
    refine ⟨trivial, fun pr i tick hp' hi => ?_⟩
    rw [hp, Option.some.injEq] at hp'
    subst hp'
    rw [hticks] at hi
    cases hi
  | drain hp hk hstart hnow hnone =>
    refine ⟨fun pr tick hp' hk' => ?_, fun pr tick hp' hk' r id ⟨pr', run, hp'', hr, _⟩ => ?_⟩
    · rw [hp, Option.some.injEq] at hp'
      subst hp'
      rw [hk, Option.some.injEq] at hk'
      subst hk'
      omega
    · rw [hp, Option.some.injEq] at hp''
      subst hp''
      rw [hnone, hruns] at hr
      cases hr
  | resumeTick => exact ⟨trivial, trivial⟩
  | commitment => exact ⟨trivial, trivial⟩
  | start hp hk hothers hstart hrow hclaim hlease hactive =>
    refine ⟨trivial, fun pr tick hp' hk' => ?_⟩
    rw [hp, Option.some.injEq] at hp'
    subst hp'
    rw [hk, Option.some.injEq] at hk'
    subst hk'
    exact ⟨hstart, _, hrow, hclaim, hlease⟩

/-- Two processes at rest, with one staged intent. -/
def exampleBoth : Claimant → Option Process :=
  Function.update (Function.update (fun _ => none) "a" (some { drainedAt := 0 })) "b" (some { drainedAt := 0 })

def exampleTwo : Queue := exampleStaged exampleBoth

variable (fl cfg) in
theorem exampleTwo_leads {P : Queue → Event → Prop} (hboot : ∀ σ p, P σ (.boot p))
    (hbytes : ∀ σ : Queue, σ.past = {} → P σ (.statement (.upsertBytes "0x01" exampleBytes none 0)))
    (hreceived : ∀ σ : Queue, σ.past = {} → P σ (.statement (.markReceived "0x01" exampleReceipt 0))) :
    Queue.Leads fl cfg P .empty exampleTwo := by
  apply exampleStaged_leads cfg fl _ hbytes hreceived
  have ha : QueueStep fl cfg .empty (.boot "a")
      { Queue.empty with processes := Function.update Queue.empty.processes "a" (some { drainedAt := 0 }) } :=
    .boot "a" rfl
  have hb : QueueStep fl cfg
      { Queue.empty with processes := Function.update Queue.empty.processes "a" (some { drainedAt := 0 }) }
      (.boot "b") _ := .boot "b" rfl
  exact (Relation.ReflTransGen.single ⟨_, hboot _ _, ha⟩).tail ⟨_, hboot _ _, hb⟩

theorem exampleBoth_fresh {q : Claimant} {procq : Process} (hq : exampleBoth q = some procq) :
    procq = { drainedAt := 0 } := by
  obtain ⟨-, hq⟩ | ⟨-, hq⟩ := Table.set_some.mp hq
  · exact hq
  · obtain ⟨-, hq⟩ | ⟨-, hq⟩ := Table.set_some.mp hq
    · exact hq
    · cases hq

/-- The run of one process fails and is rescheduled, and the other process takes the intent up. -/
theorem single_writer_passed : ∃ τ : Queue,
    (∃ proc run, τ.processes "a" = some proc ∧ proc.runs 0 = some run ∧ run.row.intentId = "0x01") ∧
    τ.Executes "b" 0 "0x01" ∧ τ.SingleWriter := by
  let P : Queue → Event → Prop := fun σ e => Punctual exampleConfig σ e ∧ Sheltered exampleConfig σ e
  obtain ⟨proc, hstarted, htick⟩ := exampleRun_starts exampleBoth rfl
  have hstaged : Queue.Leads .exact exampleConfig P .empty exampleTwo :=
    exampleTwo_leads .exact exampleConfig (fun _ _ => ⟨trivial, trivial⟩) (fun _ _ => ⟨trivial, trivial⟩) fun _ _ =>
      ⟨trivial, trivial⟩
  have hrunning := hstaged.trans (htick.mono fun σ e hP => hP.sheltered (fun _ => rfl) (fun _ => rfl))
  have hfailed : Queue.Leads .exact exampleConfig P .empty (exampleRetrying exampleBoth proc) := by
    refine hrunning.trans (exampleRun_fails hstarted.runs (fun q procq _ hq r => ?_) (fun _ => ⟨trivial, trivial⟩)
      (fun _ c _ => by cases c <;> exact ⟨trivial, trivial⟩) fun σ hidle => ⟨trivial, ?_⟩)
    · rw [exampleBoth_fresh hq]
    · exact fun _ run _ _ _ _ _ _ p' r' => hidle p' r' run.row.intentId
  let late : Queue := { exampleRetrying exampleBoth proc with now := 4000 }
  have hlate : QueueStep .exact exampleConfig (exampleRetrying exampleBoth proc) (.advance 4000) late :=
    .advance 4000 (Nat.zero_le _)
  have hpunctual : Punctual exampleConfig (exampleRetrying exampleBoth proc) (.advance 4000) := by
    intro q procq _
    show 4000 ≤ procq.drainedAt + 600000
    omega
  have hb : late.processes "b" = some { drainedAt := 0 } := rfl
  have hdue : due 4000 "b" exampleRetriedRow = true := by decide
  have hlive : exampleRetriedRow.deadline.any (· ≤ 4000) = false := by decide
  obtain ⟨proc', hsecond, hruns', -⟩ := Queue.tick_one exampleConfig .exact (k := 0) (r := 0)
    (c := exampleCommitment) hb rfl rfl rfl rfl rfl rfl hdue (by decide) hlive (by decide) rfl (by decide)
  have hlead := (hfailed.step hlate ⟨hpunctual, trivial⟩).trans
    (hsecond.mono fun σ e hP => hP.sheltered (fun _ => rfl) (fun _ => rfl))
  have hrun' : proc'.runs 0 = some _ := hruns' ▸ Function.update_self ..
  have hrun : (proc.handled 0 exampleRun 0 exampleFailure).runs 0 = some (exampleRun.handled 0 exampleFailure) :=
    (proc.failed 0 exampleRun 0 exampleFailure).setRun_self 0 _
  exact ⟨_, ⟨_, _, rfl, hrun, rfl⟩, ⟨proc', _, rfl, hrun', rfl, Run.executing_answered rfl⟩, single_writer hlead⟩

/-- A timer fires while the work behind it goes on: the attempt is rescheduled, and another process takes it up. -/
theorem stored_twice :
    ∃ τ, Queue.Leads .exact exampleConfig (Punctual exampleConfig) .empty τ ∧ ¬τ.SingleWriter := by
  let P := Punctual exampleConfig
  have ha : exampleTwo.processes "a" = some { drainedAt := 0 } := rfl
  obtain ⟨proc, hfirst, hruns, -, -, -, -, hdrained⟩ := Queue.tick_one exampleConfig .exact (k := 0) (r := 0)
    (c := exampleCommitment) ha rfl rfl rfl rfl rfl rfl (by decide) (by decide) (by decide) (by decide) rfl (by decide)
  have hstaged := exampleTwo_leads .exact exampleConfig (P := P) (fun _ _ => trivial) (fun _ _ => trivial)
      fun _ _ => trivial
  have hrun : proc.runs 0 = some _ := hruns ▸ Function.update_self ..
  let run := startedRun .exact exampleConfig 0 (claimedRow "a" 0 600000 exampleRow "0x01") "0xab" exampleCommitment
  let text := AttemptError.timeout.text exampleConfig
  let held := claimed "a" 0 600000 exampleRow
  let nextAt := 120000 + min (exampleConfig.backoffBaseMs * 2 ^ 1) exampleConfig.backoffCapMs
  let retried := rescheduled 1 nextAt text 120000 held
  let handling := proc.setRun 0 { run with handling := .handling .timeout 120000 }
  let handled := handling.setRun 0 { run with handling := .finished }
  let base (now : Nat) (row : Row) : Queue := { exampleTwo with now := now, rows := Rows.one "0x01" row }
  let withA (σ : Queue) (proc : Process) : Queue :=
    { σ with processes := Function.update σ.processes "a" (some proc) }
  -- the timer of "a" fires two minutes after its start, and its handler reschedules the row for four seconds later
  have hlate : QueueStep .exact exampleConfig (withA (base 0 held) proc) (.advance 120000)
      (withA (base 120000 held) proc) := .advance 120000 (Nat.zero_le _)
  have htimeout : QueueStep .exact exampleConfig (withA (base 120000 held) proc) (.timeout "a" 0)
      (withA (base 120000 held) handling) := by
    have hafter : run.startedAt + exampleConfig.attemptTimeoutMs ≤ 120000 := by decide
    exact QueueStep.own_at (base 120000 held) (.timeout hrun rfl hafter)
  have hhandle : QueueStep .exact exampleConfig (withA (base 120000 held) handling) (.handle "a" 0)
      (withA (base 120000 retried) handled) := by
    have hop : attemptFailed exampleConfig run.row .timeout 120000 = .reschedule "0x01" 1 nextAt text 120000 := rfl
    have hrows : (attemptFailed exampleConfig run.row .timeout 120000).run (Rows.one "0x01" held) =
        Rows.one "0x01" retried := by
      rw [hop, Op.run_update rfl Rows.one_self rfl]
      exact Rows.one_update _
    have hstep : QueueStep .exact exampleConfig (withA (base 120000 held) handling) (.handle "a" 0) _ :=
      QueueStep.own_at (base 120000 held) (.handle (handling.setRun_self 0 _) rfl)
    rwa [hrows, Past.judged_one _ rfl] at hstep
  have hretry : QueueStep .exact exampleConfig (withA (base 120000 retried) handled) (.advance 124000)
      (withA (base 124000 retried) handled) := .advance 124000 (by show 120000 ≤ 124000; omega)
  have hb : (withA (base 124000 retried) handled).processes "b" = some { drainedAt := 0 } := rfl
  obtain ⟨proc', hsecond, hruns', -⟩ := Queue.tick_one exampleConfig .exact (k := 0) (r := 0)
    (c := exampleCommitment) hb
    rfl rfl rfl rfl rfl rfl rfl (by decide) rfl (by decide) rfl (by decide)
  have hrun' : proc'.runs 0 = some _ := hruns' ▸ Function.update_self ..
  have hidle : ∀ now row pr q procq, (withA (base 0 row) pr).processes q = some procq → now ≤ 600000 →
      now ≤ procq.drainedAt + exampleConfig.leaseMs := by
    intro now row pr q procq hq hnow
    show now ≤ procq.drainedAt + 600000
    omega
  have hstarted : Queue.Leads .exact exampleConfig P .empty (withA (base 0 held) proc) :=
    hstaged.trans (hfirst.mono fun σ e hP => (hP.sheltered (fun _ => rfl) fun _ => rfl).1)
  have hfired := (hstarted.step hlate fun q procq hq => hidle 120000 held proc q procq hq (by omega)).step htimeout
    trivial
  have hretried := (hfired.step hhandle trivial).step hretry fun q procq hq =>
    hidle 124000 retried handled q procq hq (by omega)
  have hlead := hretried.trans (hsecond.mono fun σ e hP => (hP.sheltered (fun _ => rfl) fun _ => rfl).1)
  refine ⟨_, hlead, fun hsingle => ?_⟩
  have hexec := hsingle "a" 0 "b" 0 "0x01"
    ⟨handled, { run with handling := .finished }, rfl, handling.setRun_self 0 _, rfl, Run.executing_answered rfl⟩
    ⟨proc', _, rfl, hrun', rfl, Run.executing_answered rfl⟩
  exact absurd hexec.1 (by decide)

end Bosphor.Relayer

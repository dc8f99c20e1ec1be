import Bosphor.Relayer.OneIntent

/-!
# The verdict on an intent

A row that is dead-lettered or expired is settled for good, and nothing more is
spent on its intent. That is so in every run in which an intent is given up only
when no pipeline executes for it but the one that gives it up, the reaper meets
no row whose failure is about to be dead-lettered, and no run is started for an
intent that was given up (`verdict_final`). Neither the statements nor the
pipeline look at the row's state: the reaper is enough for an upload to be
bought for an expired intent (`upload_after_expiry`).
-/

namespace Bosphor.Relayer

open StagedIntentStore Async

variable {fl : Rounding} {cfg : Config} {σ τ : Queue} {e : Event} {p : Claimant} {proc proc' : Process} {rows' : Rows}
  {past' : Past} {id : IntentId}

/-- Whether the call buys an upload for the intent, records its store, or sends its return. -/
def Call.Spends (id : IntentId) : Call → Prop
  | .writeBlob k _ _ => k = id
  | .executeStore k _ _ _ => k = id
  | .lzSendProof k _ _ _ _ => k = id
  | .evmConfirmExecution k _ => k = id
  | .solanaConfirmExecution k _ _ => k = id
  | _ => False

/-- `dead` or `expired`. -/
def Row.GivenUp (r : Row) : Prop := r.state = .dead ∨ r.state = .expired

/-- Every failure of the intent that is still to be handled is one to retry. -/
def Queue.Retrying (cfg : Config) (σ : Queue) (id : IntentId) : Prop :=
  ∀ p proc r run err since, σ.processes p = some proc → proc.runs r = some run → run.row.intentId = id →
    run.handling = .handling err since → attemptsLeft cfg run.row err

/-- The steps that give an intent up only when nothing is under way for it, and take up none that was given up. -/
def Deliberate (cfg : Config) : Queue → Event → Prop
  | σ, .start _ _ _ ready => σ.past.condemned ready.row.intentId = false
  | σ, .handle p r => ∀ proc run err since, σ.processes p = some proc → proc.runs r = some run →
      run.handling = .handling err since → ¬attemptsLeft cfg run.row err → ∀ p' r', ¬σ.Executes p' r' run.row.intentId
  | σ, .call p r (.markDead id _) => ∀ p' r', σ.Executes p' r' id → p' = p ∧ r' = r
  | σ, .statement op => ∀ id row, σ.rows id = some row → op.Expires row →
      (∀ p r, ¬σ.Executes p r id) ∧ σ.Retrying cfg id
  | _, _ => True

/-! ## Verdicts -/

/-- The past knows of every row that is given up. -/
def Verdicts (rows : Rows) (past : Past) : Prop :=
  ∀ id row, rows id = some row → row.GivenUp → past.condemned id = true

theorem Past.judged_iff (past : Past) (rows : Rows) :
    (past.judged rows).condemned id = true ↔ past.condemned id = true ∨ ∃ row, rows id = some row ∧ row.GivenUp := by
  show (past.condemned id || (rows id).any fun r => r.state == .dead || r.state == .expired) = true ↔ _
  rw [Bool.or_eq_true]
  refine or_congr_right ?_
  cases h : rows id with
  | none => simp
  | some row => simp [Row.GivenUp]

theorem Verdicts.judged (past : Past) (rows : Rows) : Verdicts rows (past.judged rows) :=
  fun _ row hrow hgiven => (past.judged_iff rows).mpr (Or.inr ⟨row, hrow, hgiven⟩)

/-- Judging a table whose verdicts are known changes nothing. -/
theorem Verdicts.known {rows : Rows} {past : Past} (h : Verdicts rows past) :
    (past.judged rows).condemned id = true ↔ past.condemned id = true := by
  rw [past.judged_iff rows]
  refine ⟨fun hc => ?_, Or.inl⟩
  obtain hold | ⟨row, hrow, hgiven⟩ := hc
  · exact hold
  · exact h id row hrow hgiven

/-- A row given up by a statement: it was dead-lettered, or expired by the reaper. -/
theorem Op.run_givenUp {op : Op} {rows : Rows} {row' : Row} (hrow' : op.run rows id = some row')
    (hgiven : row'.GivenUp) :
    (∃ row, rows id = some row ∧ row'.state = row.state) ∨
      ((∃ text now, op = .markDead id text now) ∧ row'.state = .dead) ∨
      ((∃ row, rows id = some row ∧ op.Expires row) ∧ row'.state = .expired) := by
  obtain hsame | hw := op.run_cases rows id
  · exact Or.inl ⟨row', hsame ▸ hrow', rfl⟩
  rw [hrow'] at hw
  obtain ⟨-, hfresh⟩ | ⟨row, hrow, hwrite⟩ := Op.write_row hw
  · rw [Row.GivenUp, hfresh.state] at hgiven
    simp at hgiven
  · cases hwrite.state with
    | kept h => exact Or.inl ⟨row, hrow, h⟩
    | done now hop h =>
      rw [Row.GivenUp, h] at hgiven
      simp at hgiven
    | dead text now hop h => exact Or.inr (Or.inl ⟨⟨text, now, hop⟩, h⟩)
    | expired hop h => exact Or.inr (Or.inr ⟨⟨row, hrow, hop⟩, h⟩)

/-! ## Runs -/

/-- A run that goes by the verdicts: for a condemned intent it makes no more calls, for an expired one it is over. -/
structure Run.Heeds (cfg : Config) (rows : Rows) (past : Past) (run : Run) : Prop where
  doomed : run.Executing → past.condemned run.row.intentId = true → Calls (fun _ => False) run.work.program
  racing : run.handling = .racing → run.Executing
  expired : ∀ row, rows run.row.intentId = some row → row.state = .expired →
    ¬run.Executing ∧ ∀ err since, run.handling = .handling err since → attemptsLeft cfg run.row err

/-- What holds of the queue when every step is deliberate. -/
structure Heeding (cfg : Config) (σ : Queue) : Prop where
  verdicts : Verdicts σ.rows σ.past
  runs : ∀ p proc r run, σ.processes p = some proc → proc.runs r = some run → run.Heeds cfg σ.rows σ.past

variable {run : Run} {rows : Rows} {past : Past}

/-- A run that is left alone heeds the verdicts that are none of its business, or that came when it was over. -/
theorem Run.Heeds.table (h : run.Heeds cfg rows past)
    (hcondemned : past'.condemned run.row.intentId = true → past.condemned run.row.intentId = true ∨ ¬run.Executing)
    (hexpired : ∀ row', rows' run.row.intentId = some row' → row'.state = .expired →
      (∃ row, rows run.row.intentId = some row ∧ row.state = .expired) ∨
        ¬run.Executing ∧ ∀ err since, run.handling = .handling err since → attemptsLeft cfg run.row err) :
    run.Heeds cfg rows' past' where
  doomed hexec hcond := by
    obtain hold | hover := hcondemned hcond
    · exact h.doomed hexec hold
    · exact absurd hexec hover
  racing := h.racing
  expired row' hrow' hexp := by
    obtain ⟨row, hrow, hold⟩ | hover := hexpired row' hrow' hexp
    · exact h.expired row hrow hold
    · exact hover

/-- A run whose failure is no longer to be handled. -/
theorem Run.Heeds.finished (h : run.Heeds cfg rows past) :
    Run.Heeds cfg rows past { run with handling := .finished } where
  doomed := h.doomed
  racing hrace := by cases hrace
  expired row hrow hexp := ⟨(h.expired row hrow hexp).1, fun err since hhandling => by cases hhandling⟩

/-- A run whose timer fires: it was executing, so the row is not expired. -/
theorem Run.Heeds.timeout (h : run.Heeds cfg rows past) (hrace : run.handling = .racing) (since : Nat) :
    Run.Heeds cfg rows past { run with handling := .handling .timeout since } where
  doomed := h.doomed
  racing hrace' := by cases hrace'
  expired row hrow hexp := absurd (h.racing hrace) (h.expired row hrow hexp).1

/-- A run whose program goes on. -/
theorem Run.Heeds.work (h : run.Heeds cfg rows past) (hexec : run.Executing) {work : Work}
    (hprogram : work.program = run.work.program) (hwork : ∀ result, work ≠ .settled result) :
    Run.Heeds cfg rows past { run with work := work } where
  doomed _ hcond := by
    show Calls (fun _ => False) work.program
    rw [hprogram]
    exact h.doomed hexec hcond
  racing _ := hwork
  expired row hrow hexp := absurd hexec (h.expired row hrow hexp).1

/-- A run that settles: its row is not expired, for it was executing. -/
theorem Run.Heeds.settle (h : run.Heeds cfg rows past) (hexec : run.Executing) (now : Nat)
    (result : Except Failure Booking) : Run.Heeds cfg rows past (run.settle now result) where
  doomed hexec' := absurd hexec' (run.settle_not_executing now result)
  racing hrace := by
    obtain ⟨-, hend⟩ | ⟨-, e, -, hend⟩ | ⟨hne, hend⟩ := run.settle_handling now result
    · rw [hend] at hrace
      cases hrace
    · rw [hend] at hrace
      cases hrace
    · exact absurd (hend.symm.trans hrace) hne
  expired row hrow hexp := absurd hexec (h.expired row hrow hexp).1

/-- A run that was left alone by a statement: its intent was not given up while it was under way. -/
theorem Run.Heeds.op (h : run.Heeds cfg rows past) (hverdicts : Verdicts rows past) {op : Op}
    (hpast : ∀ id, past'.condemned id = past.condemned id)
    (hdead : ∀ text now, op = .markDead run.row.intentId text now → ¬run.Executing)
    (hexpires : ∀ row, rows run.row.intentId = some row → op.Expires row →
      ¬run.Executing ∧ ∀ err since, run.handling = .handling err since → attemptsLeft cfg run.row err) :
    run.Heeds cfg (op.run rows) (past'.judged (op.run rows)) := by
  apply h.table
  · intro hcond
    rw [past'.judged_iff, hpast] at hcond
    obtain hold | ⟨row', hrow', hgiven⟩ := hcond
    · exact Or.inl hold
    obtain ⟨row, hrow, hstate⟩ | ⟨⟨text, now, hop⟩, -⟩ | ⟨⟨row, hrow, hexp⟩, -⟩ := Op.run_givenUp hrow' hgiven
    · rw [Row.GivenUp, hstate] at hgiven
      exact Or.inl (hverdicts _ row hrow hgiven)
    · exact Or.inr (hdead text now hop)
    · exact Or.inr (hexpires row hrow hexp).1
  · intro row' hrow' hexp
    obtain ⟨row, hrow, hstate⟩ | ⟨-, hdied⟩ | ⟨⟨row, hrow, hdue⟩, -⟩ := Op.run_givenUp hrow' (Or.inr hexp)
    · exact Or.inl ⟨row, hrow, hstate.symm.trans hexp⟩
    · rw [hexp] at hdied
      cases hdied
    · exact Or.inr (hexpires row hrow hdue)

/-! ## Steps -/

theorem Past.called_condemned (past : Past) (c : Call) (id : IntentId) :
    (past.called c).condemned id = past.condemned id := by
  cases c <;> rfl

theorem Past.settled_condemned (past : Past) (k : IntentId) (rest : Program Booking) (id : IntentId) :
    (past.settled k rest).condemned id = past.condemned id := by
  unfold Past.settled
  split <;> rfl

theorem Call.op_markDead {c : Call} {now t : Nat} {text : String} (h : c.op now = some (.markDead id text t)) :
    c.DeadLetter id := by
  cases c with
  | markDead k text' =>
    cases h
    exact ⟨text, rfl⟩
  | _ => cases h

/-- The state of a row that is claimed is as it was. -/
theorem drainRows_state {now leaseMs : Nat} {picked : List IntentId} {row' : Row}
    (hrow' : drainRows rows p now leaseMs picked id = some row') :
    ∃ row, rows id = some row ∧ row'.state = row.state := by
  by_cases hmem : id ∈ picked
  · rw [drainRows_picked hmem] at hrow'
    obtain ⟨row, hrow, hclaimed⟩ := Option.map_eq_some_iff.mp hrow'
    exact ⟨row, hrow, hclaimed ▸ rfl⟩
  · rw [drainRows_other hmem] at hrow'
    exact ⟨row', hrow', rfl⟩

theorem ProcessStep.verdicts (hstep : ProcessStep fl cfg σ p proc e proc' rows' past') (h : Verdicts σ.rows σ.past) :
    Verdicts rows' past' := by
  cases hstep with
  | stop | tick | tickFails | resumeTick | commitment | start | finish | timeout | handleFails => exact h
  | drain skipped picked hk hphase hpicked =>
    intro id row' hrow' hgiven
    obtain ⟨row, hrow, hstate⟩ := drainRows_state hrow'
    rw [Row.GivenUp, hstate] at hgiven
    exact h id row hrow hgiven
  | call a landed hr hwork hanswer hlanded =>
    cases landed with
    | false => exact h
    | true => exact Verdicts.judged _ _
  | resume hr hwork =>
    intro id row hrow hgiven
    rw [Past.settled_condemned]
    exact h id row hrow hgiven
  | handle hr hhandling => exact Verdicts.judged _ _

/-- What a step of a process leaves of a run that it is not about, or whose failure it handles. -/
theorem ProcessStep.heeds_other (hstep : ProcessStep fl cfg σ p proc e proc' rows' past')
    (hp : σ.processes p = some proc)
    (h : Heeding cfg σ) (hcond : Deliberate cfg σ e) {q : Claimant} {procq : Process} {i : Nat}
    (hq : σ.processes q = some procq) (hi : procq.runs i = some run) (hother : ∀ c, e = .call p i c → q ≠ p) :
    run.Heeds cfg rows' past' := by
  have hrun := h.runs q procq i run hq hi
  cases hstep with
  | stop | tick | tickFails | resumeTick | commitment | start | finish | timeout | handleFails => exact hrun
  | drain skipped picked hk hphase hpicked =>
    apply hrun.table Or.inl
    intro row' hrow' hexp
    obtain ⟨row, hrow, hstate⟩ := drainRows_state hrow'
    exact Or.inl ⟨row, hrow, hstate.symm.trans hexp⟩
  | @call r run' c next a landed hr hwork hanswer hlanded =>
    cases landed with
    | false => exact hrun
    | true =>
      show run.Heeds cfg (((c.op σ.now).map fun op => op.run σ.rows).getD σ.rows) _
      unfold Call.run
      cases hop : c.op σ.now with
      | none =>
        refine hrun.table (fun hc => ?_) fun row' hrow' hexp => Or.inl ⟨row', hrow', hexp⟩
        have hknown : Verdicts σ.rows (σ.past.called c) := fun id row hrow hgiven =>
          (σ.past.called_condemned c id).trans (h.verdicts id row hrow hgiven)
        exact Or.inl ((σ.past.called_condemned c _).symm.trans (hknown.known.mp hc))
      | some op =>
        refine hrun.op h.verdicts (σ.past.called_condemned c) (fun text now hdead hexec => ?_) fun row hrow hexp =>
          absurd hexp (Call.op_keeps_active hop)
        -- the dead letter comes from the only pipeline that executes for the intent
        subst hdead
        obtain ⟨text', rfl⟩ := Call.op_markDead hop
        obtain ⟨rfl, rfl⟩ := hcond q i ⟨procq, run, hq, hi, rfl, hexec⟩
        exact hother _ rfl rfl
  | resume hr hwork =>
    exact hrun.table (fun hc => Or.inl ((Past.settled_condemned ..).symm.trans hc)) fun row' hrow' hexp =>
      Or.inl ⟨row', hrow', hexp⟩
  | @handle r run' err since hr hhandling =>
    refine hrun.op h.verdicts (fun _ => rfl) (fun text now hdead hexec => ?_) fun row hrow hexp => ?_
    · obtain ⟨-, nextAt, text', hop⟩ | ⟨hexhausted, text', hop⟩ := attemptFailed_cases cfg run'.row err since
      · rw [hop] at hdead
        cases hdead
      · rw [hop, Op.markDead.injEq] at hdead
        exact hcond proc run' err since hp hr hhandling hexhausted q i ⟨procq, run, hq, hi, hdead.1.symm, hexec⟩
    · obtain ⟨-, nextAt, text', hop⟩ | ⟨-, text', hop⟩ := attemptFailed_cases cfg run'.row err since
      · rw [hop] at hexp
        exact hexp.elim
      · rw [hop] at hexp
        exact hexp.elim

/-- A run whose call is answered: its row was not expired, and after a dead letter it makes no more calls. -/
theorem Run.Heeds.answer (h : run.Heeds cfg σ.rows σ.past) (hverdicts : Verdicts σ.rows σ.past)
    (hfollows : run.Follows fl cfg) {c : Call} {next : Except Failure c.Answer → Program Booking}
    (hwork : run.work = .awaiting c next) (a : Except Failure c.Answer) (landed : Bool) :
    Run.Heeds cfg (if landed then c.run σ.now σ.rows else σ.rows)
      (if landed then (σ.past.called c).judged (c.run σ.now σ.rows) else σ.past)
      { run with work := .answered (next a) } := by
  have hexec : run.Executing := Run.executing_awaiting hwork
  have hexpired : ∀ row, σ.rows run.row.intentId = some row → row.state ≠ .expired :=
    fun row hrow hexp => (h.expired row hrow hexp).1 hexec
  have hfree : σ.past.condemned run.row.intentId ≠ true := by
    intro hc
    have hcalls := h.doomed hexec hc
    rw [hwork] at hcalls
    exact hcalls.1
  have hsame : Run.Heeds cfg σ.rows σ.past { run with work := .answered (next a) } :=
    ⟨fun _ hc => absurd hc hfree, fun _ => Run.executing_answered rfl, fun row hrow hexp => absurd hexp
      (hexpired row hrow)⟩
  cases landed with
  | false => exact hsame
  | true =>
    show Run.Heeds cfg (((c.op σ.now).map fun op => op.run σ.rows).getD σ.rows)
      ((σ.past.called c).judged (((c.op σ.now).map fun op => op.run σ.rows).getD σ.rows)) _
    cases hop : c.op σ.now with
    | none =>
      refine hsame.table (fun hc => ?_) fun row' hrow' hexp => Or.inl ⟨row', hrow', hexp⟩
      have hknown : Verdicts σ.rows (σ.past.called c) := fun id row hrow hgiven =>
        (σ.past.called_condemned c id).trans (hverdicts id row hrow hgiven)
      exact Or.inl ((σ.past.called_condemned c _).symm.trans (hknown.known.mp hc))
    | some op =>
      refine ⟨fun _ hc => ?_, fun _ => Run.executing_answered rfl, fun row' hrow' hexp => ?_⟩
      · rw [Past.judged_iff, Past.called_condemned] at hc
        obtain hold | ⟨row', hrow', hgiven⟩ := hc
        · exact absurd hold hfree
        obtain ⟨row, hrow, hstate⟩ | ⟨⟨text, now, hdead⟩, -⟩ | ⟨⟨row, -, hexp⟩, -⟩ := Op.run_givenUp hrow' hgiven
        · rw [Row.GivenUp, hstate] at hgiven
          exact absurd (hverdicts _ row hrow hgiven) hfree
        · subst hdead
          exact (hfollows.call hwork).2 (Call.op_markDead hop) a
        · exact absurd hexp (Call.op_keeps_active hop)
      · obtain ⟨row, hrow, hstate⟩ | ⟨-, hdied⟩ | ⟨⟨row, -, hdue⟩, -⟩ := Op.run_givenUp hrow' (Or.inr hexp)
        · exact absurd (hstate.symm.trans hexp) (hexpired row hrow)
        · rw [hexp] at hdied
          cases hdied
        · exact absurd hdue (Call.op_keeps_active hop)

/-- The runs of the process that made a step. -/
theorem ProcessStep.heeds (hstep : ProcessStep fl cfg σ p proc e proc' rows' past') (hp : σ.processes p = some proc)
    (h : Heeding cfg σ) (hfollows : proc.Follows fl cfg) (hcond : Deliberate cfg σ e) {r : Nat}
    (hr' : proc'.runs r = some run) : run.Heeds cfg rows' past' := by
  have hother : ∀ i u, proc.runs i = some u → (∀ c, e ≠ .call p i c) → u.Heeds cfg rows' past' := fun i u hi hne =>
    hstep.heeds_other hp h hcond hp hi fun c he => absurd he (hne c)
  cases hstep with
  | stop | tick | tickFails | resumeTick | commitment | finish | drain =>
    exact hother r run hr' fun c => Event.noConfusion
  | @start k tick ready rest runs i hk hphase hi =>
    obtain ⟨rfl, rfl⟩ | ⟨-, hold⟩ := Table.set_some.mp hr'
    · have hfree : σ.past.condemned ready.row.intentId = false := hcond
      refine ⟨fun _ hc => ?_, fun _ => Run.executing_answered rfl, fun row hrow hexp => ?_⟩
      · rw [hfree] at hc
        cases hc
      · have hknown := h.verdicts _ row hrow (Or.inr hexp)
        rw [hfree] at hknown
        cases hknown
    · exact hother r run hold fun c => Event.noConfusion
  | @call i u c next a landed hi hwork hanswer hlanded =>
    obtain ⟨rfl, rfl⟩ | ⟨hne, hold⟩ := Table.set_some.mp hr'
    · exact (h.runs p proc _ u hp hi).answer h.verdicts (hfollows _ u hi) hwork a landed
    · exact hother r run hold fun c' he => hne (by cases he; rfl)
  | @resume i u rest hi hwork =>
    have hexec : u.Executing := Run.executing_answered hwork
    have hu : u.Heeds cfg σ.rows (σ.past.settled u.row.intentId rest) := hother i u hi fun c => Event.noConfusion
    have hprogram : (Work.of rest).program = u.work.program := by
      rw [Work.of_program, hwork]
      rfl
    unfold Process.resumeRun at hr'
    split at hr'
    · obtain ⟨rfl, rfl⟩ | ⟨-, hold⟩ := Table.set_some.mp hr'
      · exact hu.settle hexec σ.now _
      · exact hother r run hold fun c => Event.noConfusion
    · rename_i hunsettled
      obtain ⟨rfl, rfl⟩ | ⟨-, hold⟩ := Table.set_some.mp hr'
      · exact hu.work hexec hprogram fun result hsettled => hunsettled result hsettled
      · exact hother r run hold fun c => Event.noConfusion
  | @timeout i u hi hrace hlate =>
    obtain ⟨rfl, rfl⟩ | ⟨-, hold⟩ := Table.set_some.mp hr'
    · exact (h.runs p proc _ u hp hi).timeout hrace σ.now
    · exact hother r run hold fun c => Event.noConfusion
  | @handle i u err since hi hhandling =>
    obtain ⟨rfl, rfl⟩ | ⟨-, hold⟩ := Table.set_some.mp hr'
    · exact (hother _ u hi fun c => Event.noConfusion).finished
    · exact hother r run hold fun c => Event.noConfusion
  | @handleFails i u err since hi hhandling =>
    obtain ⟨rfl, rfl⟩ | ⟨-, hold⟩ := Table.set_some.mp hr'
    · exact (hother _ u hi fun c => Event.noConfusion).finished
    · exact hother r run hold fun c => Event.noConfusion

theorem QueueStep.heeds (hstep : QueueStep fl cfg σ e τ) (h : Heeding cfg σ)
    (hfollows : ∀ p proc, σ.processes p = some proc → proc.Follows fl cfg) (hcond : Deliberate cfg σ e) :
    Heeding cfg τ := by
  cases hstep with
  | advance now hle => exact ⟨h.verdicts, h.runs⟩
  | boot q hq =>
    refine ⟨h.verdicts, fun q' procq r run hq' hr => ?_⟩
    obtain ⟨rfl, rfl⟩ | ⟨-, hold⟩ := Table.set_some.mp hq'
    · cases hr
    · exact h.runs q' procq r run hold hr
  | crash q => exact ⟨h.verdicts, fun q' procq r run hq' hr => h.runs q' procq r run (Table.remove_some.mp hq').2 hr⟩
  | @own q proc _ proc' rows' past' hq hown =>
    refine ⟨hown.verdicts h.verdicts, fun q' procq r run hq' hr => ?_⟩
    obtain ⟨rfl, rfl⟩ | ⟨hne, hold⟩ := Table.set_some.mp hq'
    · exact hown.heeds hq h (hfollows _ _ hq) hcond hr
    · exact hown.heeds_other hq h hcond hold hr fun _ _ => hne
  | statement op hop =>
    refine ⟨Verdicts.judged _ _, fun q procq r run hq hr => ?_⟩
    refine (h.runs q procq r run hq hr).op h.verdicts (fun _ => rfl) (fun text now hdead => ?_) fun row hrow hexp => ?_
    · subst hdead
      exact hop.elim
    · obtain ⟨hidle, hretry⟩ := hcond _ row hrow hexp
      exact ⟨fun hexec => hidle q r ⟨procq, run, hq, hr, rfl, hexec⟩, fun err since hhandling =>
        hretry q procq r run err since hq hr rfl hhandling⟩

/-! ## The verdict is final -/

theorem Queue.Leads.heeding (hrun : Queue.Leads fl cfg (Deliberate cfg) .empty σ) :
    Heeding cfg σ ∧ ∀ p proc, σ.processes p = some proc → proc.Follows fl cfg := by
  refine hrun.keeps (I := fun σ => Heeding cfg σ ∧ ∀ p proc, σ.processes p = some proc → proc.Follows fl cfg)
    (fun _ _ _ h hP hstep => ⟨hstep.heeds h.1 h.2 hP, hstep.follows h.2⟩) ⟨⟨?_, ?_⟩, ?_⟩
  · intro id row hrow
    cases hrow
  · intro p proc r run hp
    cases hp
  · intro p proc hp
    cases hp

/-- A condemned intent stays condemned. -/
theorem QueueStep.condemned (hstep : QueueStep fl cfg σ e τ) (h : σ.past.condemned id = true) :
    τ.past.condemned id = true := by
  cases hstep with
  | advance | boot | crash => exact h
  | statement op hop => exact (Past.judged_iff _ _).mpr (Or.inl h)
  | own hp hown =>
    cases hown with
    | stop | tick | drain | tickFails | resumeTick | commitment | start | finish | timeout | handleFails => exact h
    | call a landed hr hwork hanswer hlanded =>
      cases landed with
      | false => exact h
      | true => exact (Past.judged_iff _ _).mpr (Or.inl ((Past.called_condemned ..).trans h))
    | resume hr hwork => exact (Past.settled_condemned ..).trans h
    | handle hr hhandling => exact (Past.judged_iff _ _).mpr (Or.inl h)

/-- A call is made for an intent that is not condemned. -/
theorem Heeding.calls (h : Heeding cfg σ) (hfollows : ∀ p proc, σ.processes p = some proc → proc.Follows fl cfg)
    {r : Nat} {c : Call} (hstep : QueueStep fl cfg σ (.call p r c) τ) :
    ∃ row : StagedIntentRow, σ.past.condemned row.intentId ≠ true ∧ (StepCall row c ∨ c.DeadLetter row.intentId) := by
  cases hstep with
  | own hp hown =>
    cases hown with
    | @call _ run _ next a landed hr hwork hanswer hlanded =>
      refine ⟨run.row, fun hcondemned => ?_, ((hfollows p _ hp r run hr).call hwork).1⟩
      have hcalls := (h.runs p _ r run hp hr).doomed (Run.executing_awaiting hwork) hcondemned
      rw [hwork] at hcalls
      exact hcalls.1

theorem StepCall.spends {row : StagedIntentRow} {c : Call} (h : StepCall row c ∨ c.DeadLetter row.intentId)
    (hspends : c.Spends id) : row.intentId = id := by
  obtain h | ⟨text, rfl⟩ := h
  · unfold Call.Spends at hspends
    split at hspends
    · exact h.1.symm.trans hspends
    · exact h.1.symm.trans hspends
    · exact h.1.symm.trans hspends
    · exact h.1.symm.trans hspends
    · exact h.1.symm.trans hspends
    · exact hspends.elim
  · exact hspends.elim

/-- A statement on a row that was given up: the row stays as it is, or is settled over again. -/
theorem Op.run_settled {op : Op} {rows : Rows} {row row' : Row} (hrow : rows id = some row) (hgiven : row.GivenUp)
    (hrow' : op.run rows id = some row') :
    row'.state = row.state ∨ (∃ now, op = .markDone id now) ∨ row.state = .expired ∧ ∃ text now,
      op = .markDead id text now := by
  obtain hsame | hw := op.run_cases rows id
  · rw [hsame, hrow, Option.some.injEq] at hrow'
    exact Or.inl (hrow' ▸ rfl)
  rw [hrow', hrow] at hw
  obtain ⟨hnone, -⟩ | ⟨r, hr, hwrite⟩ := Op.write_row hw
  · cases hnone
  rw [Option.some.injEq] at hr
  subst hr
  cases hwrite.state with
  | kept h => exact Or.inl h
  | done now hop h => exact Or.inr (Or.inl ⟨now, hop⟩)
  | dead text now hop h =>
    obtain hdead | hexp := hgiven
    · exact Or.inl (h.trans hdead.symm)
    · exact Or.inr (Or.inr ⟨hexp, text, now, hop⟩)
  | expired hop h =>
    rw [Row.GivenUp, hop.active] at hgiven
    simp at hgiven

/-- The state of a row that was given up does not change. -/
theorem QueueStep.settled (hstep : QueueStep fl cfg σ e τ) (h : Heeding cfg σ)
    (hfollows : ∀ p proc, σ.processes p = some proc → proc.Follows fl cfg) (hcond : Deliberate cfg σ e) {row row' : Row}
    (hrow : σ.rows id = some row) (hgiven : row.GivenUp) (hrow' : τ.rows id = some row') : row'.state = row.state := by
  have hcondemned : σ.past.condemned id = true := h.verdicts id row hrow hgiven
  have hsame : σ.rows id = some row' → row'.state = row.state := fun hold => by
    rw [hrow, Option.some.injEq] at hold
    rw [hold]
  have hwhole := hstep
  cases hstep with
  | advance | boot | crash => exact hsame hrow'
  | statement op hop =>
    obtain hkept | ⟨now, rfl⟩ | ⟨-, text, now, rfl⟩ := Op.run_settled hrow hgiven hrow'
    · exact hkept
    · exact hop.elim
    · exact hop.elim
  | @own q proc _ proc' rows' past' hq hown =>
    obtain heq | ⟨_, tick, skipped, picked, -, -, -, hdrain⟩ | ⟨r, c, op, rfl, hop, hrun⟩ |
      ⟨r, run, err, since, rfl, hr, hhandling, hrun⟩ := hown.table
    · exact hsame (heq ▸ hrow')
    · obtain ⟨row₀, hrow₀, hstate⟩ := drainRows_state (hdrain ▸ hrow')
      rw [hrow, Option.some.injEq] at hrow₀
      exact hrow₀ ▸ hstate
    · -- the pipeline makes no call for a condemned intent
      obtain ⟨s, hfree, hcall⟩ := h.calls hfollows hwhole
      obtain hkept | ⟨now, rfl⟩ | ⟨-, text, now, rfl⟩ := Op.run_settled hrow hgiven (hrun ▸ hrow')
      · exact hkept
      · obtain rfl := Call.op_markDone hop
        obtain hmine | ⟨text, hletter⟩ := hcall
        · exact absurd (hmine ▸ hcondemned) hfree
        · cases hletter
      · obtain ⟨text', rfl⟩ := Call.op_markDead hop
        obtain hmine | ⟨text, hletter⟩ := hcall
        · exact hmine.elim
        · rw [Call.markDead.injEq] at hletter
          exact absurd (hletter.1 ▸ hcondemned) hfree
    · obtain hkept | ⟨now, hdone⟩ | ⟨hexp, text, now, hdead⟩ := Op.run_settled hrow hgiven (hrun ▸ hrow')
      · exact hkept
      · obtain ⟨-, nextAt, text, hop⟩ | ⟨-, text, hop⟩ := attemptFailed_cases cfg run.row err since
        · rw [hop] at hdone
          cases hdone
        · rw [hop] at hdone
          cases hdone
      · obtain ⟨-, nextAt, text', hop⟩ | ⟨hexhausted, text', hop⟩ := attemptFailed_cases cfg run.row err since
        · rw [hop] at hdead
          cases hdead
        · -- a failure still to be handled after its row expired is one to retry
          rw [hop, Op.markDead.injEq] at hdead
          have hretry := ((h.runs q proc r run hq hr).expired row (hdead.1 ▸ hrow) hexp).2 err since hhandling
          exact absurd hretry hexhausted

/-- When every step is deliberate, nothing is spent on an intent after its row was dead-lettered or expired, and the
row stays what it is. -/
theorem verdict_final {σ₀ : Queue} (hrun₀ : Queue.Leads fl cfg (Deliberate cfg) .empty σ₀) {row₀ : Row}
    (hrow₀ : σ₀.rows id = some row₀) (hgiven₀ : row₀.GivenUp) (hrun : Queue.Leads fl cfg (Deliberate cfg) σ₀ σ)
    (hcond : Deliberate cfg σ e) (hstep : QueueStep fl cfg σ e τ) :
    (∀ p r c, e = .call p r c → ¬c.Spends id) ∧
      ∀ row row', σ.rows id = some row → row.GivenUp → τ.rows id = some row' → row'.state = row.state := by
  have hwhole : Queue.Leads fl cfg (Deliberate cfg) .empty σ := hrun₀.trans hrun
  obtain ⟨hheeds, hfollows⟩ := hwhole.heeding
  have hcondemned : σ.past.condemned id = true :=
    hrun.keeps (I := fun σ => σ.past.condemned id = true) (fun _ _ _ h _ hstep => hstep.condemned h)
      (hrun₀.heeding.1.verdicts id row₀ hrow₀ hgiven₀)
  refine ⟨fun p r c he hspends => ?_, fun row row' hrow hgiven hrow' =>
    hstep.settled hheeds hfollows hcond hrow hgiven hrow'⟩
  subst he
  obtain ⟨s, hfree, hcall⟩ := hheeds.calls hfollows hstep
  rw [StepCall.spends hcall hspends] at hfree
  exact hfree hcondemned

/-! ## An expired intent -/

variable (fl cfg) in
/-- The reaper's pass over a table with one overdue row. -/
theorem Queue.expires_one {row : Row} {now : Nat} (hrows : σ.rows = Rows.one id row) (hdue : overdue now row = true) :
    QueueStep fl cfg σ (.statement (.expireDue now))
      { σ with
        rows := Rows.one id (expired now row)
        past := (σ.past.deleted (Rows.one id (expired now row))).judged (Rows.one id (expired now row)) } := by
  have hrun : (Op.expireDue now).run (Rows.one id row) = Rows.one id (expired now row) := by
    refine (Op.run_write ?_ fun k hk => ?_).trans (Rows.one_update _)
    · exact rewrite_some.mpr ⟨row, Rows.one_self, hdue, rfl⟩
    · show rewrite (overdue now) (expired now) (Rows.one id row k) = none
      rw [show Rows.one id row k = none from Function.update_of_ne hk ..]
      rfl
  have hstep : QueueStep fl cfg σ (.statement (.expireDue now)) _ := .statement _ trivial
  rwa [hrows, hrun] at hstep

/-- No active row is of a condemned intent. -/
def Queue.Unjudged (σ : Queue) : Prop :=
  ∀ id row, σ.rows id = some row → row.state = .active → σ.past.condemned id = false

/-- The steps of a tick are deliberate while no active row is of a condemned intent. -/
theorem Prompt.deliberate {k t : Nat} (hlead : Queue.Leads fl cfg (Prompt proc p k t) σ τ) (h : σ.Unjudged) :
    Queue.Leads fl cfg (Deliberate cfg) σ τ := by
  have hkept : Queue.Leads fl cfg (Deliberate cfg) σ τ ∧ τ.Unjudged := by
    induction hlead with
    | refl => exact ⟨.refl, h⟩
    | @tail υ ω _ hlast ih =>
      obtain ⟨hlead, hfree⟩ := ih
      obtain ⟨e, hprompt, hstep⟩ := hlast
      refine ⟨hlead.step hstep ?_, ?_⟩
      · cases hprompt with
        | start hp hk hothers hstart hrow hclaim hlease hactive => exact hfree _ _ hrow hactive
        | _ => trivial
      · cases hstep with
        | own hp hown =>
          cases hprompt with
          | drain =>
            cases hown with
            | drain skipped picked hk hphase hpicked =>
              intro id row' hrow' hactive
              obtain ⟨row, hrow, hstate⟩ := drainRows_state hrow'
              exact hfree id row hrow (hstate.symm.trans hactive)
          | tick | resumeTick | commitment | start =>
            cases hown
            exact hfree
        | advance | boot | crash | statement => cases hprompt
  exact hkept.1

/-- Every call is deliberate but a dead letter. -/
theorem Call.deliberate {c : Call} {r : Nat} (hc : ∀ id text, c ≠ .markDead id text) :
    Deliberate cfg σ (.call p r c) := by
  cases c with
  | markDead id text => exact absurd rfl (hc id text)
  | _ => trivial

/-- The table of the process alone. -/
def exampleProcesses : Claimant → Option Process := Function.update (fun _ => none) "a" (some { drainedAt := 0 })

/-- The row of an intent whose first run failed, past its deadline. -/
def exampleGone : Row := expired 3600001 exampleRetriedRow

/-- The queue once that row is expired. -/
def exampleEnded (proc : Process) : Queue where
  now := 3600001
  rows := Rows.one "0x01" exampleGone
  processes := Function.update exampleProcesses "a" (some (proc.handled 0 exampleRun 0 exampleFailure))
  past := (Past.deleted {} (Rows.one "0x01" exampleGone)).judged (Rows.one "0x01" exampleGone)

theorem exampleEnded_leads : ∃ proc, ExampleStarted proc ∧
    Queue.Leads .exact exampleConfig (Deliberate exampleConfig) .empty (exampleEnded proc) := by
  have hothers : ∀ q procq, q ≠ "a" → exampleProcesses q = some procq → ∀ r, procq.runs r = none := by
    intro q procq hne hq
    rw [show exampleProcesses q = none from Function.update_of_ne hne ..] at hq
    cases hq
  have hstaged : Queue.Leads .exact exampleConfig (Deliberate exampleConfig) .empty (exampleStaged exampleProcesses) :=
    exampleAlone_leads exampleConfig .exact (fun _ => trivial) (fun _ _ _ _ _ h => h.elim) fun _ _ _ _ _ h => h.elim
  obtain ⟨proc, hproc, htick⟩ := exampleRun_starts exampleProcesses rfl
  have hstarted := hstaged.trans (Prompt.deliberate htick fun _ _ _ _ => rfl)
  have hfailed : Queue.Leads .exact exampleConfig (Deliberate exampleConfig) .empty
      (exampleRetrying exampleProcesses proc) :=
    hstarted.trans (exampleRun_fails hproc.runs hothers (fun _ => trivial) (fun _ _ => Call.deliberate)
      fun σ hover _ _ _ _ _ _ _ _ q r => hover q r _)
  let late : Queue := { exampleRetrying exampleProcesses proc with now := 3600001 }
  have hlate : QueueStep .exact exampleConfig (exampleRetrying exampleProcesses proc) (.advance 3600001) late :=
    .advance 3600001 (Nat.zero_le _)
  have hdue : overdue 3600001 exampleRetriedRow = true := by decide
  have hexpire : QueueStep .exact exampleConfig late (.statement (.expireDue 3600001)) (exampleEnded proc) :=
    Queue.expires_one .exact exampleConfig rfl hdue
  have hidle : Deliberate exampleConfig late (.statement (.expireDue 3600001)) := by
    intro id row hrow hexp
    refine ⟨fun q r hexec => ?_, fun q procq r run err since hq hr hid hhandling => ?_⟩
    · obtain ⟨procq, run, hq, hr, -, hexec⟩ := hexec
      exact (exampleRetrying_idle hproc hothers hq hr).1 hexec
    · exact absurd hhandling ((exampleRetrying_idle hproc hothers hq hr).2 err since)
  exact ⟨proc, hproc, (hfailed.step hlate trivial).step hexpire hidle⟩

/-- An intent that comes after it. -/
def exampleLater : ReceivedDetails := { exampleReceipt with deadline := 7200000 }

def exampleLaterRow : Row := receivedMerged exampleLater 3600001 (bytesInserted exampleBytes 3600001)

def exampleStagedTwo (row : Row) : Rows := Rows.two "0x01" exampleGone "0x02" row

def exampleReady (proc : Process) (past : Past) : Queue :=
  { exampleEnded proc with rows := exampleStagedTwo exampleLaterRow, past := past }

/-- The later intent is staged. -/
theorem exampleReady_leads (proc : Process) : ∃ past, past.condemned "0x02" = false ∧
    Queue.Leads .exact exampleConfig (Deliberate exampleConfig) (exampleEnded proc) (exampleReady proc past) := by
  let bytesIn : Rows := exampleStagedTwo (bytesInserted exampleBytes 3600001)
  let staged : Rows := exampleStagedTwo exampleLaterRow
  have hinsert : (Op.upsertBytes "0x02" exampleBytes none 3600001).run (exampleEnded proc).rows = bytesIn :=
    Op.run_insert rfl rfl
  have hmerge : (Op.markReceived "0x02" exampleLater 3600001).run bytesIn = staged :=
    (Op.run_merge rfl Rows.two_second rfl).trans (Rows.two_update _)
  let past : Past := ((exampleEnded proc).past.deleted bytesIn).judged bytesIn
  let buffered : Queue := { exampleEnded proc with rows := bytesIn, past := past }
  have hbytes : QueueStep .exact exampleConfig (exampleEnded proc)
      (.statement (.upsertBytes "0x02" exampleBytes none 3600001)) _ := .statement _ trivial
  rw [hinsert] at hbytes
  have hreceived : QueueStep .exact exampleConfig buffered (.statement (.markReceived "0x02" exampleLater 3600001)) _ :=
    .statement _ trivial
  rw [show (Op.markReceived "0x02" exampleLater 3600001).run buffered.rows = staged from hmerge] at hreceived
  exact ⟨(past.deleted staged).judged staged, rfl,
    (Queue.Leads.step .refl hbytes fun _ _ _ h => h.elim).step hreceived fun _ _ _ h => h.elim⟩

/-- The run of the later intent. -/
def exampleNext : Run :=
  startedRun .exact exampleConfig 3600001 (claimedRow "a" 3600001 600000 exampleLaterRow "0x02") "0xab"
    exampleCommitment

def exampleTaken : Rows := exampleStagedTwo (claimed "a" 3600001 600000 exampleLaterRow)

/-- The next tick of the process starts it; the run that failed stands as it was. -/
theorem exampleReady_starts {proc : Process} (hproc : ExampleStarted proc) {past : Past}
    (hfree : past.condemned "0x02" = false) :
    ∃ running : Process, running.runs 0 = some (exampleRun.handled 0 exampleFailure) ∧
      running.runs 1 = some exampleNext ∧
      Queue.Leads .exact exampleConfig (Deliberate exampleConfig) (exampleReady proc past)
        { exampleReady proc past with
          rows := exampleTaken
          processes := Function.update (exampleReady proc past).processes "a" (some running) } := by
  obtain ⟨idle, hdone, hat⟩ : ∃ idle, ExampleHandled idle ∧ proc.handled 0 exampleRun 0 exampleFailure = idle :=
    ⟨_, hproc.handled, rfl⟩
  have hp : (exampleReady proc past).processes "a" = some idle := congrArg some hat
  have hunjudged : (exampleReady proc past).Unjudged := by
    intro id row hrow hactive
    obtain ⟨rfl, rfl⟩ | ⟨-, rfl, rfl⟩ := Rows.two_some hrow
    · exact hfree
    · cases hactive
  have hpicked : Oldest (due 3600001 "a") ∅ exampleConfig.batchSize (exampleStagedTwo exampleLaterRow) ["0x02"] :=
    .two (by decide) (by decide) (by decide)
  have hrow : exampleStagedTwo exampleLaterRow "0x02" = some exampleLaterRow := Rows.two_second
  have hlive : exampleLaterRow.deadline.any (· ≤ 3600001) = false := by decide
  have hmay : mayTick exampleConfig 3600001 (some 0) = true := by decide
  obtain ⟨running, htick, hruns, -⟩ := Queue.tick_starts exampleConfig .exact (k := 1) (r := 1)
    (c := exampleCommitment) hp (by rw [hdone.ticks]; rfl) (by rw [hdone.runs]; rfl) hdone.stopped
    (by rw [hdone.tickStartedAt]; exact hmay) (by rw [hdone.inProcess]) hpicked hrow hlive
    (by decide) rfl (by decide)
  refine ⟨running, ?_, hruns ▸ Function.update_self .., ?_⟩
  · rw [hruns, Function.update_of_ne Nat.zero_ne_one, hdone.runs]
    rfl
  · have hleads := Prompt.deliberate htick hunjudged
    rwa [show drainRows (exampleReady proc past).rows "a" (exampleReady proc past).now exampleConfig.leaseMs ["0x02"] =
      exampleTaken from drainRows_two (by decide) ..] at hleads

/-- That run, up to its upload. -/
theorem exampleNext_served (past : Past) : ∃ next past', Served (fun c => ∀ id text, c ≠ .markDead id text) 3600001
    (store .exact exampleConfig exampleNext.row "0xab" (some exampleCommitment)) exampleTaken past
    (.await (.writeBlob "0x02" [7] 1) next) exampleTaken past' := by
  have h0 : Served (fun c => ∀ id text, c ≠ .markDead id text) 3600001
      (store .exact exampleConfig exampleNext.row "0xab" (some exampleCommitment)) exampleTaken past _ exampleTaken
      past := .start
  obtain ⟨_, h1⟩ := h0.look (c := .systemState) (.ok ⟨1000, 1, 1, 53⟩) (fun _ _ => Call.noConfusion) trivial rfl
  obtain ⟨_, h2⟩ := h1.look (c := .ensureWal) (.ok ()) (fun _ _ => Call.noConfusion) trivial rfl
  obtain ⟨_, h3⟩ := h2.look (c := .recordHop "0x02" .received { sender := some "0xab" }) (.ok ())
    (fun _ _ => Call.noConfusion) trivial rfl
  obtain ⟨past', h4⟩ := h3.look (c := .fetchBytes "0x02") (.ok (some [7])) (fun _ _ => Call.noConfusion) rfl rfl
  exact ⟨_, past', h4⟩

/-- The first run of an intent has failed and its row has expired; the process buys the upload of the next intent, and
nothing for the first. -/
theorem verdict_final_expired : ∃ σ τ : Queue,
    (∃ proc run next, σ.processes "a" = some proc ∧ proc.runs 0 = some run ∧ run.row.intentId = "0x01" ∧
      ¬run.Executing ∧ proc.runs 1 = some next ∧ next.row.intentId = "0x02" ∧ next.Executing) ∧
    QueueStep .exact exampleConfig σ (.call "a" 1 (.writeBlob "0x02" [7] 1)) τ ∧
      (¬(Call.writeBlob "0x02" [7] 1).Spends "0x01") ∧ ∃ row', τ.rows "0x01" = some row' ∧ row'.state = .expired := by
  obtain ⟨proc, hproc, hended⟩ := exampleEnded_leads
  obtain ⟨past, hfree, hstaged⟩ := exampleReady_leads proc
  obtain ⟨running, hfirst, hr, hstarted⟩ := exampleReady_starts hproc hfree
  obtain ⟨next, past', hserved⟩ := exampleNext_served past
  let started : Queue :=
    { exampleReady proc past with
      rows := exampleTaken
      processes := Function.update (exampleReady proc past).processes "a" (some running) }
  have hat : started.processes "a" = some running := by
    simp only [started, Function.update_self]
  let uploading : Run := { exampleNext with work := .answered (.await (.writeBlob "0x02" [7] 1) next) }
  let served : Queue :=
    { started with
      processes := Function.update started.processes "a" (some (running.setRun 1 uploading))
      past := past' }
  have hserve : Queue.Leads .exact exampleConfig (Deliberate exampleConfig) started served :=
    Queue.serves exampleConfig .exact hat hr rfl hserved (fun _ => trivial) fun _ _ => Call.deliberate
  have hp : served.processes "a" = some (running.setRun 1 uploading) := by
    simp only [served, Function.update_self]
  obtain ⟨hresume, hcall⟩ := Queue.serve exampleConfig .exact hp (running.setRun_self 1 uploading) rfl
    (.ok ⟨exampleBlobId, "0xb10b", 9⟩) trivial
  have hgone : (exampleEnded proc).rows "0x01" = some exampleGone := by
    show Rows.one "0x01" exampleGone "0x01" = _
    exact Rows.one_self
  have hexpired : exampleGone.GivenUp := Or.inr rfl
  have htaken : exampleTaken "0x01" = some exampleGone := by
    unfold exampleTaken exampleStagedTwo
    exact Rows.two_first (by decide)
  have hserved : Queue.Leads .exact exampleConfig (Deliberate exampleConfig) (exampleEnded proc) served :=
    (hstaged.trans hstarted).trans hserve
  let waiting : Run := { uploading with work := .awaiting (.writeBlob "0x02" [7] 1) next }
  let bought : Process := (running.setRun 1 uploading).setRun 1 waiting
  let σ : Queue := { served with processes := Function.update served.processes "a" (some bought) }
  have hrun : Queue.Leads .exact exampleConfig (Deliberate exampleConfig) (exampleEnded proc) σ :=
    hserved.step hresume trivial
  obtain ⟨hspends, hkept⟩ := verdict_final (e := .call "a" 1 (.writeBlob "0x02" [7] 1)) hended hgone hexpired hrun
    trivial hcall
  have hsettled : ¬(exampleRun.handled 0 exampleFailure).Executing :=
    exampleRun.settle_not_executing 0 (.error exampleFailure)
  have hσ : σ.processes "a" = some bought := by
    simp only [σ, Function.update_self]
  have hruns : bought.runs 0 = some (exampleRun.handled 0 exampleFailure) := hfirst
  exact ⟨σ, _, ⟨bought, _, waiting, hσ, hruns, rfl, hsettled, Process.setRun_self .., rfl,
    Run.executing_awaiting rfl⟩, hcall, hspends "a" 1 _ rfl, exampleGone, htaken,
    hkept exampleGone exampleGone htaken hexpired htaken⟩

/-- The reaper expires the row of an intent on its way, and its upload is bought afterwards. -/
theorem upload_after_expiry :
    ∃ σ τ, Queue.Leads .exact exampleConfig (fun _ _ => True) .empty σ ∧
      (∃ row, σ.rows "0x01" = some row ∧ row.state = .expired) ∧
      QueueStep .exact exampleConfig σ (.call "a" 0 (.writeBlob "0x01" [7] 1)) τ := by
  obtain ⟨proc, htick, hruns, -⟩ := exampleRun_leads
  obtain ⟨⟨next, hserved⟩, -⟩ := exampleRun_served (C := fun _ => True) fun _ _ _ => trivial
  let started : Queue :=
    { exampleAlone with
      rows := Rows.one "0x01" exampleHeld
      processes := Function.update exampleAlone.processes "a" (some proc) }
  have hstarted : Queue.Leads .exact exampleConfig (fun _ _ => True) .empty started :=
    (exampleAlone_leads exampleConfig .exact (fun _ => trivial) (fun _ _ => trivial) fun _ _ => trivial).trans
      (htick.mono fun _ _ _ => trivial)
  have hr : proc.runs 0 = some exampleRun := by
    rw [hruns]
    rfl
  let uploading : Run := { exampleRun with work := .answered (.await (.writeBlob "0x01" [7] 1) next) }
  let σ (now : Nat) (row : Row) (past : Past) : Queue :=
    { started with
      now := now
      rows := Rows.one "0x01" row
      processes := Function.update started.processes "a" (some (proc.setRun 0 uploading))
      past := past }
  have hserve : Queue.Leads .exact exampleConfig (fun _ _ => True) .empty (σ 0 exampleHeld {}) :=
    hstarted.trans (Queue.serves exampleConfig .exact rfl hr rfl hserved (fun _ => trivial) fun _ _ _ => trivial)
  have hlate : QueueStep .exact exampleConfig (σ 0 exampleHeld {}) (.advance 3600001) (σ 3600001 exampleHeld {}) :=
    .advance 3600001 (Nat.zero_le _)
  have hdue : overdue 3600001 exampleHeld = true := by decide
  let gone : Rows := Rows.one "0x01" (expired 3600001 exampleHeld)
  let past : Past := (Past.deleted {} gone).judged gone
  have hexpire : QueueStep .exact exampleConfig (σ 3600001 exampleHeld {}) (.statement (.expireDue 3600001))
      (σ 3600001 (expired 3600001 exampleHeld) past) := Queue.expires_one .exact exampleConfig rfl hdue
  have hrun := (hserve.step hlate trivial).step hexpire trivial
  have hp : (σ 3600001 (expired 3600001 exampleHeld) past).processes "a" = some (proc.setRun 0 uploading) := rfl
  obtain ⟨hresume, hcall⟩ := Queue.serve exampleConfig .exact hp (proc.setRun_self 0 uploading) rfl
    (.ok ⟨exampleBlobId, "0xb10b", 9⟩) trivial
  have hrow : Rows.one "0x01" (expired 3600001 exampleHeld) "0x01" = some (expired 3600001 exampleHeld) := Rows.one_self
  exact ⟨_, _, hrun.step hresume trivial, ⟨expired 3600001 exampleHeld, hrow, rfl⟩, hcall⟩

end Bosphor.Relayer

import Bosphor.Lib.Result
import Bosphor.Relayer.QueueEffects

/-!
# In-process slots

A process gives every intent it runs a slot, and a tick passes over the rows
whose slot is taken. The check and the start are apart, so what it is worth
depends on which ticks may start a run: `Slotted fresh` is for a process whose
runs are started by the ticks that began at a `fresh` time alone. Then every
run has its slot to itself.
-/

namespace Bosphor.Relayer

/-- The slots of a process: each run holds its own, and no fresh tick has taken up a row that is run. -/
structure Slotted (fresh : Nat → Prop) (proc : Process) : Prop where
  slot : ∀ r run, proc.runs r = some run → run.Executing → proc.inProcess run.row.intentId = true
  unique : ∀ r run r' run', proc.runs r = some run → run.Executing → proc.runs r' = some run' → run'.Executing →
    run.row.intentId = run'.row.intentId → r = r'
  nodup : ∀ k tick, proc.ticks k = some tick → (tick.rows.map (·.intentId)).Nodup
  taken : ∀ k tick, proc.ticks k = some tick → fresh tick.startedAt → ∀ s ∈ tick.taken,
    ∀ r run, proc.runs r = some run → run.Executing → run.row.intentId ≠ s.intentId

namespace Slotted

variable {fresh fresh' : Nat → Prop} {proc : Process} {fl : Rounding} {cfg : Config}

theorem booted (now : Nat) : Slotted fresh { drainedAt := now } where
  slot r run hr := by cases hr
  unique r run r' run' hr := by cases hr
  nodup k tick hk := by cases hk
  taken k tick hk := by cases hk

/-- A tick replaced: it keeps some of its rows, and takes up only rows that no run of the process has. -/
theorem setTick (h : Slotted fresh proc) {k : Nat} {tick tick' : Tick} (hk : proc.ticks k = some tick)
    (hstart : tick'.startedAt = tick.startedAt) (hrows : tick'.rows.Sublist tick.rows)
    (htaken : ∀ s ∈ tick'.taken, s ∈ tick.taken ∨ proc.inProcess s.intentId = false) :
    Slotted fresh (proc.setTick k tick') where
  slot := h.slot
  unique := h.unique
  nodup i t hi := by
    obtain ⟨rfl, rfl⟩ | ⟨-, hold⟩ := Table.set_some.mp hi
    · exact (h.nodup _ tick hk).sublist (hrows.map _)
    · exact h.nodup i t hold
  taken i t hi hfresh s hs r run hr hexec := by
    obtain ⟨rfl, rfl⟩ | ⟨-, hold⟩ := Table.set_some.mp hi
    · obtain hs | hfree := htaken s hs
      · exact h.taken _ tick hk (hstart ▸ hfresh) s hs r run hr hexec
      · intro heq
        rw [← heq, h.slot r run hr hexec] at hfree
        cases hfree
    · exact h.taken i t hold hfresh s hs r run hr hexec

/-- A tick put in that has taken up no row; of the others, none is fresh that was not. -/
theorem putTick (h : Slotted fresh proc) {k : Nat} {tick : Tick} (hnodup : (tick.rows.map (·.intentId)).Nodup)
    (hnone : tick.taken = []) (hfresh : ∀ i t, i ≠ k → proc.ticks i = some t → fresh' t.startedAt → fresh t.startedAt) :
    Slotted fresh' (proc.setTick k tick) where
  slot := h.slot
  unique := h.unique
  nodup i t hi := by
    obtain ⟨rfl, rfl⟩ | ⟨-, hold⟩ := Table.set_some.mp hi
    · exact hnodup
    · exact h.nodup i t hold
  taken i t hi hnew s hs := by
    obtain ⟨rfl, rfl⟩ | ⟨hne, hold⟩ := Table.set_some.mp hi
    · rw [hnone] at hs
      cases hs
    · exact h.taken i t hold (hfresh i t hne hold hnew) s hs

theorem endTick (h : Slotted fresh proc) (k : Nat) (tick : Tick) : Slotted fresh (proc.endTick k tick) where
  slot := h.slot
  unique := h.unique
  nodup i t hi := h.nodup i t (Table.remove_some.mp hi).2
  taken i t hi := h.taken i t (Table.remove_some.mp hi).2

/-- A run replaced by one of the same row that executes only if it did. -/
theorem setRun (h : Slotted fresh proc) {r : Nat} {run run' : Run} (hr : proc.runs r = some run)
    (hrow : run'.row = run.row) (hexec : run'.Executing → run.Executing) : Slotted fresh (proc.setRun r run') where
  slot i u hi hu := by
    obtain ⟨rfl, rfl⟩ | ⟨-, hold⟩ := Table.set_some.mp hi
    · rw [hrow]
      exact h.slot _ run hr (hexec hu)
    · exact h.slot i u hold hu
  unique i u j v hi hu hj hv heq := by
    obtain ⟨rfl, rfl⟩ | ⟨-, hiold⟩ := Table.set_some.mp hi
    · obtain ⟨rfl, rfl⟩ | ⟨-, hjold⟩ := Table.set_some.mp hj
      · rfl
      · exact h.unique _ run j v hr (hexec hu) hjold hv (hrow ▸ heq)
    · obtain ⟨rfl, rfl⟩ | ⟨-, hjold⟩ := Table.set_some.mp hj
      · exact h.unique i u _ run hiold hu hr (hexec hv) (hrow ▸ heq)
      · exact h.unique i u j v hiold hu hjold hv heq
  nodup := h.nodup
  taken k tick hk hfresh s hs i u hi hu := by
    obtain ⟨rfl, rfl⟩ | ⟨-, hold⟩ := Table.set_some.mp hi
    · rw [hrow]
      exact h.taken k tick hk hfresh s hs _ run hr (hexec hu)
    · exact h.taken k tick hk hfresh s hs i u hold hu

theorem setHandling (h : Slotted fresh proc) {r : Nat} {run : Run} (hr : proc.runs r = some run) (handling : Handling) :
    Slotted fresh (proc.setRun r { run with handling := handling }) := h.setRun hr rfl id

/-- A run that settles gives up its slot: it was the only one of its intent. -/
theorem settle (h : Slotted fresh proc) {r : Nat} {run run' : Run} (hr : proc.runs r = some run)
    (hexec : run.Executing) (hrow : run'.row = run.row) (hover : ¬run'.Executing) :
    Slotted fresh { proc.setRun r run' with inProcess := Function.update proc.inProcess run.row.intentId false } :=
  { h.setRun hr hrow fun h => absurd h hover with
    slot := fun i u hi hu => by
      obtain ⟨-, rfl⟩ | ⟨hne, hold⟩ := Table.set_some.mp hi
      · exact absurd hu hover
      · have hother : u.row.intentId ≠ run.row.intentId := fun heq => hne (h.unique i u r run hold hu hr hexec heq)
        exact (Function.update_of_ne hother ..).trans (h.slot i u hold hu) }

theorem resumeRun (h : Slotted fresh proc) {r : Nat} {run : Run} {rest : Program Booking}
    (hr : proc.runs r = some run) (hwork : run.work = .answered rest) (t : Nat) :
    Slotted fresh (proc.resumeRun r run rest t) := by
  have hexec : run.Executing := Run.executing_answered hwork
  unfold Process.resumeRun
  cases Work.of rest with
  | settled result => exact h.settle hr hexec rfl (run.settle_not_executing t result)
  | awaiting c next => exact h.setRun hr rfl fun _ => hexec
  | answered rest => exact h.setRun hr rfl fun _ => hexec

/-- A tick that has started the first of the rows it took up. -/
theorem started (h : Slotted fresh proc) {k : Nat} {tick : Tick} {ready : Ready} {rest : List Ready} {runs : List Nat}
    (hk : proc.ticks k = some tick) (hphase : tick.phase = .starting (ready :: rest) runs) (r : Nat) :
    Slotted fresh (proc.setTick k ⟨tick.startedAt, .starting rest (r :: runs)⟩) := by
  refine h.setTick hk ?_ ?_ fun s hs => ?_
  · rfl
  · simp [Tick.rows, hphase]
  · simp only [Tick.taken, hphase, List.map_cons, List.mem_cons] at hs ⊢
    exact Or.inl (Or.inr hs)

/-- A run that a fresh tick starts, when no other fresh tick has taken up its intent. -/
theorem start (h : Slotted fresh proc) {k r : Nat} {tick : Tick} {ready : Ready} {rest : List Ready} {runs : List Nat}
    (hk : proc.ticks k = some tick) (hphase : tick.phase = .starting (ready :: rest) runs)
    (hfresh : fresh tick.startedAt)
    (hothers : ∀ i t, i ≠ k → proc.ticks i = some t → fresh t.startedAt → ∀ s ∈ t.taken,
      s.intentId ≠ ready.row.intentId) (t : Nat) :
    Slotted fresh ((proc.startRun fl cfg r t ready).setTick k ⟨tick.startedAt, .starting rest (r :: runs)⟩) := by
  have htaken : ready.row ∈ tick.taken := by simp [Tick.taken, hphase]
  have hnodup := h.nodup k tick hk
  simp only [Tick.rows, hphase, List.map_cons, List.nodup_cons] at hnodup
  have hfree : ∀ i u, proc.runs i = some u → u.Executing → u.row.intentId ≠ ready.row.intentId :=
    fun i u hi hu => h.taken k tick hk hfresh _ htaken i u hi hu
  have hslot : ∀ id, proc.inProcess id = true → Function.update proc.inProcess ready.row.intentId true id = true := by
    intro id hid
    by_cases heq : id = ready.row.intentId
    · subst heq
      exact Function.update_self ..
    · rw [Function.update_of_ne heq]
      exact hid
  have hticks := h.started hk hphase r
  exact
    { hticks with
      slot := fun i u hi hu => by
        obtain ⟨-, rfl⟩ | ⟨-, hold⟩ := Table.set_some.mp hi
        · exact Function.update_self ..
        · exact hslot _ (h.slot i u hold hu)
      unique := fun i u j v hi hu hj hv heq => by
        obtain ⟨rfl, rfl⟩ | ⟨-, hiold⟩ := Table.set_some.mp hi
        · obtain ⟨rfl, rfl⟩ | ⟨-, hjold⟩ := Table.set_some.mp hj
          · rfl
          · exact absurd heq.symm (hfree j v hjold hv)
        · obtain ⟨rfl, rfl⟩ | ⟨-, hjold⟩ := Table.set_some.mp hj
          · exact absurd heq (hfree i u hiold hu)
          · exact h.unique i u j v hiold hu hjold hv heq
      taken := fun i u hi hlast s hs j run hj hexec => by
        obtain ⟨-, rfl⟩ | ⟨-, hjold⟩ := Table.set_some.mp hj
        · -- the other rows of this tick are of other intents
          obtain ⟨rfl, rfl⟩ | ⟨hne, hiold⟩ := Table.set_some.mp hi
          · intro heq
            have hs : s.intentId ∈ (rest.map (·.row)).map (·.intentId) := List.mem_map_of_mem hs
            rw [← heq] at hs
            exact hnodup.1 hs
          · exact (hothers i u hne hiold hlast s hs).symm
        · exact hticks.taken i u hi hlast s hs j run hjold hexec }

variable {rows : List StagedIntentRow} {k : Nat} {tick : Tick}

/-- A tick that looks through the rows it claimed. -/
theorem resumeTick (h : Slotted fresh proc) (hk : proc.ticks k = some tick) (hphase : tick.phase = .drained rows) :
    Slotted fresh (proc.setTick k ⟨tick.startedAt, (scan cfg tick.startedAt proc.inProcess rows []).phase⟩) := by
  obtain ⟨hsub, htaken⟩ := scan_rows cfg tick.startedAt tick.startedAt proc.inProcess rows []
  refine h.setTick hk rfl ?_ fun s hs => ?_
  · simpa only [Tick.rows, hphase, List.map_nil, List.nil_append] using hsub
  · obtain hnil | hfree := htaken s hs
    · cases hnil
    · exact Or.inr hfree

/-- A tick that goes on once a commitment is known. -/
theorem commitment (h : Slotted fresh proc) {row : StagedIntentRow} {rest : List StagedIntentRow} {ready : List Ready}
    (hk : proc.ticks k = some tick) (hphase : tick.phase = .asking row rest ready) (c : Option IntentCommitment) :
    Slotted fresh (proc.setTick k
      ⟨tick.startedAt, (scan cfg tick.startedAt proc.inProcess rest (takeUp row c ready)).phase⟩) := by
  obtain ⟨hsub, htaken⟩ := scan_rows cfg tick.startedAt tick.startedAt proc.inProcess rest (takeUp row c ready)
  have hup := takeUp_rows row c ready
  refine h.setTick hk rfl ?_ fun s hs => ?_
  · have hrest := hsub.trans (hup.append_right rest)
    simpa only [Tick.rows, hphase, List.append_assoc, List.singleton_append] using hrest
  · obtain hready | hfree := htaken s hs
    · exact Or.inl (by simpa only [Tick.taken, hphase] using hup.subset hready)
    · exact Or.inr hfree

end Slotted

end Bosphor.Relayer

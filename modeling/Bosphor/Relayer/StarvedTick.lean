import Bosphor.Lib.OldestFirst
import Bosphor.Relayer.OneIntent

/-!
# Starved ticks

A tick claims a batch of the oldest due rows, and only then leaves out what it
cannot run: rows whose deadline has passed, rows that run here already, and
intents without a known sender. The claim's own conditions keep rows without a
receipt or bytes out of the batch, so that a backlog of them starves nothing;
of the rows left out behind the limit a batch of older ones starves a row that
could run. A tick that meets no errors starts a store exactly if fewer of them
than the batch size stand at or before a row that it can run
(`tick_starts_iff`).
-/

namespace Bosphor.Relayer

open StagedIntentStore

variable (fl : Rounding) (cfg : Config) (known : IntentId → Option IntentCommitment)

/-! ## A tick to its end -/

/-- The loop of a tick over its rows, with what the lifecycle store knows. -/
def tickReady (now : Nat) (inProcess : IntentId → Bool) : List StagedIntentRow → List Ready → List Ready
  | [], ready => ready
  | row :: rest, ready =>
    if ready.length ≥ cfg.storeConcurrency then ready
    else if inProcess row.intentId then tickReady now inProcess rest ready
    else if !row.received || (!row.hasBytes && row.walrusObjectId.isNone) then tickReady now inProcess rest ready
    else if row.deadline.any (· ≤ now) then tickReady now inProcess rest ready
    else tickReady now inProcess rest (takeUp row (known row.intentId) ready)

/-- What is still to be taken up where a scan has come to. -/
def Scan.ready (now : Nat) (inProcess : IntentId → Bool) : Scan → List Ready
  | .ask row rest ready => tickReady cfg known now inProcess rest (takeUp row (known row.intentId) ready)
  | .start ready => ready

theorem scan_ready (now : Nat) (inProcess : IntentId → Bool) (rows : List StagedIntentRow) (ready : List Ready) :
    (scan cfg now inProcess rows ready).ready cfg known now inProcess =
      tickReady cfg known now inProcess rows ready := by
  induction rows generalizing ready with
  | nil => rfl
  | cons row rest ih =>
    unfold scan tickReady
    split
    · rfl
    · split
      · exact ih ready
      · split
        · exact ih ready
        · split
          · exact ih ready
          · rfl

/-- An intent whose sender the lifecycle store knows. -/
def Known (id : IntentId) : Prop := ∃ c sender, known id = some c ∧ c.sender = some sender ∧ sender ≠ ""

/-- A row that a tick takes up. -/
structure Takeable (now : Nat) (inProcess : IntentId → Bool) (row : StagedIntentRow) : Prop where
  free : inProcess row.intentId = false
  ready : (!row.received || (!row.hasBytes && row.walrusObjectId.isNone)) = false
  pending : row.deadline.any (· ≤ now) = false
  named : Known known row.intentId

variable {fl cfg known} {now : Nat} {inProcess : IntentId → Bool}

theorem takeUp_known {row : StagedIntentRow} (h : Known known row.intentId) (ready : List Ready) :
    takeUp row (known row.intentId) ready ≠ [] := by
  obtain ⟨c, sender, hc, hsender, hnamed⟩ := h
  have htake : takeUp row (known row.intentId) ready = ready ++ [⟨row, sender, some c⟩] := by
    simp only [takeUp, hc, Option.bind_some, hsender, if_neg hnamed]
  rw [htake]
  exact List.append_ne_nil_of_right_ne_nil _ (by simp)

theorem takeUp_unknown {row : StagedIntentRow} (h : ¬Known known row.intentId) (ready : List Ready) :
    takeUp row (known row.intentId) ready = ready := by
  unfold takeUp
  split
  · rename_i sender hsender
    obtain ⟨c, hc, hsender⟩ := Option.bind_eq_some_iff.mp hsender
    split
    · rfl
    · rename_i hnamed
      exact absurd ⟨c, sender, hc, hsender, hnamed⟩ h
  · rfl

theorem takeUp_keeps (row : StagedIntentRow) {ready : List Ready} (h : ready ≠ []) :
    takeUp row (known row.intentId) ready ≠ [] := by
  by_cases hknown : Known known row.intentId
  · exact takeUp_known hknown ready
  · rwa [takeUp_unknown hknown]

/-- What was taken up stays taken up. -/
theorem tickReady_keeps {rows : List StagedIntentRow} {ready : List Ready} (h : ready ≠ []) :
    tickReady cfg known now inProcess rows ready ≠ [] := by
  induction rows generalizing ready with
  | nil => exact h
  | cons row rest ih =>
    unfold tickReady
    split
    · exact h
    · split
      · exact ih h
      · split
        · exact ih h
        · split
          · exact ih h
          · exact ih (takeUp_keeps row h)

/-- A tick takes something up exactly if it is given something to take up. -/
theorem tickReady_ne_nil (hconcurrency : 0 < cfg.storeConcurrency) {rows : List StagedIntentRow} :
    tickReady cfg known now inProcess rows [] ≠ [] ↔ ∃ row ∈ rows, Takeable known now inProcess row := by
  have hcount : ¬([] : List Ready).length ≥ cfg.storeConcurrency := Nat.not_le_of_lt hconcurrency
  induction rows with
  | nil => simp [tickReady]
  | cons row rest ih =>
    rw [tickReady, if_neg hcount, List.exists_mem_cons_iff]
    refine Iff.trans ?_ (or_congr Iff.rfl ih)
    split
    · rename_i hbusy
      exact ⟨Or.inr, fun h => h.resolve_left fun ht => by simp [ht.free] at hbusy⟩
    · rename_i hfree
      split
      · rename_i hlacks
        exact ⟨Or.inr, fun h => h.resolve_left fun ht => by simp [ht.ready] at hlacks⟩
      · rename_i hready
        split
        · rename_i hpast
          exact ⟨Or.inr, fun h => h.resolve_left fun ht => by simp [ht.pending] at hpast⟩
        · rename_i hopen
          by_cases hknown : Known known row.intentId
          · have htake : Takeable known now inProcess row :=
              ⟨Bool.eq_false_of_not_eq_true hfree, Bool.eq_false_of_not_eq_true hready,
                Bool.eq_false_of_not_eq_true hopen, hknown⟩
            exact ⟨fun _ => Or.inl htake, fun _ => tickReady_keeps (takeUp_known hknown [])⟩
          · rw [takeUp_unknown hknown]
            exact ⟨Or.inr, fun h => h.resolve_left fun ht => hknown ht.named⟩

/-- With no concurrency nothing is taken up. -/
theorem tickReady_idle (hconcurrency : cfg.storeConcurrency = 0) (rows : List StagedIntentRow) :
    tickReady cfg known now inProcess rows [] = [] := by
  cases rows with
  | nil => rfl
  | cons row rest => simp [tickReady, hconcurrency]

/-! ## A tick that meets no errors -/

/-- The steps of the tick `k` of `p`, apart from those that fail; the rows in `locked` are locked when it claims. -/
def TickEvent (p : Claimant) (k : Nat) (locked : Set IntentId) : Event → Prop
  | .drain q i skipped => q = p ∧ i = k ∧ skipped = locked
  | .resumeTick q i | .commitment q i | .start q i _ _ => q = p ∧ i = k
  | _ => False

variable (fl cfg known) in
/-- A step of the tick, while nothing else happens; a commitment that it asks for is what the lifecycle store knows. -/
inductive TickStep (p : Claimant) (k : Nat) (locked : Set IntentId) (σ τ : Queue) : Prop
  | step {e : Event} (h : QueueStep fl cfg σ e τ) (he : TickEvent p k locked e)
    (hknown : ∀ proc tick row rest ready, σ.processes p = some proc → proc.ticks k = some tick →
      tick.phase = .asking row rest ready → ∃ proc', τ.processes p = some proc' ∧ proc'.ticks k = some ⟨tick.startedAt,
        (scan cfg tick.startedAt proc.inProcess rest (takeUp row (known row.intentId) ready)).phase⟩)

variable (fl cfg known) in
/-- The tick comes to start what it took up, and however it goes, once it has started all of it that is at least one
store. -/
structure StartsOne (p : Claimant) (k : Nat) (locked : Set IntentId) (σ : Queue) : Prop where
  comes : ∃ τ proc tick ready, Relation.ReflTransGen (TickStep fl cfg known p k locked) σ τ ∧
    τ.processes p = some proc ∧
    proc.ticks k = some tick ∧ tick.phase = .starting ready [] ∧ ready ≠ []
  starts : ∀ τ proc tick runs, Relation.ReflTransGen (TickStep fl cfg known p k locked) σ τ →
    τ.processes p = some proc →
    proc.ticks k = some tick → tick.phase = .starting [] runs → runs ≠ []

/-- A row that the tick can run: due and unleased or its own, its deadline not passed, its sender known, and not
running here. -/
structure Runnable (known : IntentId → Option IntentCommitment) (p : Claimant) (now : Nat) (inProcess : IntentId → Bool)
    (rows : Rows) (id : IntentId) : Prop where
  free : inProcess id = false
  named : Known known id
  due : ∃ r, rows id = some r ∧ due now p r = true ∧ r.deadline.any (· ≤ now) = false

/-- What the batch is taken from: the due rows that are not locked. -/
def claimable (p : Claimant) (now : Nat) (locked : Set IntentId) (rows : Rows) : Set IntentId :=
  {id | id ∉ locked ∧ ∃ r, rows id = some r ∧ due now p r = true}

def createdAt (rows : Rows) (id : IntentId) : Nat := (rows id).elim 0 (·.createdAt)

theorem createdAt_some {rows : Rows} {id : IntentId} {r : Row} (h : rows id = some r) :
    createdAt rows id = r.createdAt := by
  rw [createdAt, h]
  rfl

/-- The claim answers with a batch. -/
theorem oldest_batch {p : Claimant} {locked : Set IntentId} {limit : Nat} {rows : Rows} {picked : List IntentId} :
    Oldest (due now p) locked limit rows picked ↔
      Batch (createdAt rows) (claimable p now locked rows) limit picked := by
  constructor
  · intro h
    refine ⟨h.nodup, h.length_le, fun id hid => ⟨h.unskipped id hid, h.found id hid⟩, ?_, fun id hid hleft => ?_⟩
    · refine h.ordered.imp_of_mem fun {i j} hi hj hij => ?_
      obtain ⟨r, hr, -⟩ := h.found i hi
      obtain ⟨r', hr', -⟩ := h.found j hj
      rw [createdAt_some hr, createdAt_some hr']
      exact hij r r' hr hr'
    · obtain ⟨hfree, r, hr, hdue⟩ := hid
      obtain ⟨hfull, hbefore⟩ := h.full id r hr hdue hfree hleft
      refine ⟨hfull, fun j hj => ?_⟩
      obtain ⟨r', hr', -⟩ := h.found j hj
      rw [createdAt_some hr, createdAt_some hr']
      exact hbefore j hj r' hr'
  · intro h
    refine ⟨h.nodup, h.length_le, fun id hid => (h.mem id hid).2, fun id hid => (h.mem id hid).1, ?_,
      fun id r hr hdue hfree hleft => ?_⟩
    · refine h.ordered.imp fun {i j} hij r r' hr hr' => ?_
      rwa [createdAt_some hr, createdAt_some hr'] at hij
    · obtain ⟨hfull, hbefore⟩ := h.full id ⟨hfree, r, hr, hdue⟩ hleft
      refine ⟨hfull, fun j hj r' hr' => ?_⟩
      have hle := hbefore j hj
      rwa [createdAt_some hr, createdAt_some hr'] at hle

/-- The rows that the tick takes up, of those that its claim picked. -/
def tookUp (cfg : Config) (known : IntentId → Option IntentCommitment) (p : Claimant) (now : Nat)
    (inProcess : IntentId → Bool) (rows : Rows) (picked : List IntentId) : List Ready :=
  tickReady cfg known now inProcess (drainAnswer (drainRows rows p now cfg.leaseMs picked) picked) []

theorem tookUp_ne_nil {p : Claimant} {rows : Rows} {picked : List IntentId} (hconcurrency : 0 < cfg.storeConcurrency)
    (hpicked : ∀ id ∈ picked, ∃ r, rows id = some r ∧ due now p r = true) :
    tookUp cfg known p now inProcess rows picked ≠ [] ↔ ∃ id ∈ picked, Runnable known p now inProcess rows id := by
  rw [tookUp, tickReady_ne_nil hconcurrency]
  constructor
  · rintro ⟨s, hs, htake⟩
    obtain ⟨hmem, hrow⟩ := mem_drainAnswer.mp hs
    obtain ⟨r, hr, hdue⟩ := hpicked _ hmem
    rw [drainRows_picked hmem, hr, Option.map_some, Option.some.injEq] at hrow
    refine ⟨s.intentId, hmem, htake.free, htake.named, r, hr, hdue, ?_⟩
    have hopen := htake.pending
    rwa [← hrow] at hopen
  · rintro ⟨id, hmem, hfree, hnamed, r, hr, hdue, hopen⟩
    refine ⟨claimedRow p now cfg.leaseMs r id, mem_drainAnswer.mpr ⟨hmem, ?_⟩, hfree, ?_, hopen, hnamed⟩
    · show drainRows rows p now cfg.leaseMs picked id = _
      rw [drainRows_picked hmem, hr]
      rfl
    · obtain ⟨hreceived, hb | hw⟩ := due_ready hdue
      · simp [claimedRow, claimed, hreceived, StagedIntentRow.hasBytes, hb]
      · obtain ⟨w, hw⟩ := Option.isSome_iff_exists.mp hw
        simp [claimedRow, claimed, hreceived, hw]

/-! ## Its steps -/

variable {σ τ : Queue} {p : Claimant} {k : Nat} {locked : Set IntentId} {rows : Rows} {proc : Process}

variable (cfg known) in
/-- Where a tick stands that began at `now` with these rows running and this table. -/
def Stands (p : Claimant) (now : Nat) (inProcess : IntentId → Bool) (rows : Rows) (locked : Set IntentId) (τ : Queue)
    (proc : Process) : TickPhase → Prop
  | .draining => proc.inProcess = inProcess ∧ τ.rows = rows
  | .drained claimed => proc.inProcess = inProcess ∧ ∃ picked, Oldest (due now p) locked cfg.batchSize rows picked ∧
      claimed = drainAnswer (drainRows rows p now cfg.leaseMs picked) picked
  | .asking row rest ready => proc.inProcess = inProcess ∧ ∃ picked,
    Oldest (due now p) locked cfg.batchSize rows picked ∧
      tickReady cfg known now inProcess rest (takeUp row (known row.intentId) ready) =
        tookUp cfg known p now inProcess rows picked
  | .starting ready runs => ∃ picked, Oldest (due now p) locked cfg.batchSize rows picked ∧
      (tookUp cfg known p now inProcess rows picked ≠ [] → ready ≠ [] ∨ runs ≠ [])

variable (cfg known) in
/-- The tick is under way. -/
def Goes (p : Claimant) (k now : Nat) (inProcess : IntentId → Bool) (rows : Rows) (locked : Set IntentId)
    (τ : Queue) : Prop :=
  ∃ proc phase, τ.processes p = some proc ∧ proc.ticks k = some ⟨now, phase⟩ ∧
    Stands cfg known p now inProcess rows locked τ proc phase

theorem Scan.stands {s : Scan} {picked : List IntentId} (hpicked : Oldest (due now p) locked cfg.batchSize rows picked)
    (hslots : proc.inProcess = inProcess)
    (hready : s.ready cfg known now inProcess = tookUp cfg known p now inProcess rows picked) :
    Stands cfg known p now inProcess rows locked τ proc s.phase := by
  cases s with
  | ask row rest ready => exact ⟨hslots, picked, hpicked, hready⟩
  | start ready =>
    refine ⟨picked, hpicked, fun h => Or.inl ?_⟩
    rwa [← hready] at h

/-- Each step of the tick keeps to what it will have taken up. -/
theorem Goes.step (h : Goes cfg known p k now inProcess rows locked σ) (hstep : TickStep fl cfg known p k locked σ τ) :
    Goes cfg known p k now inProcess rows locked τ := by
  obtain ⟨proc, phase, hp, hk, hstands⟩ := h
  obtain ⟨hqueue, he, hknown⟩ := hstep
  cases hqueue with
  | advance => exact he.elim
  | boot => exact he.elim
  | crash => exact he.elim
  | statement => exact he.elim
  | own hq hown =>
    cases hown with
    | drain skipped picked hi hphase hpicked =>
      obtain ⟨rfl, rfl, rfl⟩ := he
      obtain rfl := Option.some.inj (hp.symm.trans hq)
      obtain rfl := Option.some.inj (hk.symm.trans hi)
      obtain rfl : phase = .draining := hphase
      obtain ⟨hslots, hrows⟩ := hstands
      rw [hrows] at hpicked ⊢
      exact ⟨_, _, Function.update_self .., Process.setTick_self .., hslots, picked, hpicked, rfl⟩
    | resumeTick hi hphase =>
      obtain ⟨rfl, rfl⟩ := he
      obtain rfl := Option.some.inj (hp.symm.trans hq)
      obtain rfl := Option.some.inj (hk.symm.trans hi)
      obtain rfl : phase = .drained _ := hphase
      obtain ⟨hslots, picked, hpicked, rfl⟩ := hstands
      refine ⟨_, _, Function.update_self .., Process.setTick_self .., ?_⟩
      rw [hslots]
      exact Scan.stands hpicked hslots (scan_ready cfg known now inProcess _ _)
    | commitment c hi hphase =>
      obtain ⟨rfl, rfl⟩ := he
      obtain rfl := Option.some.inj (hp.symm.trans hq)
      obtain rfl := Option.some.inj (hk.symm.trans hi)
      obtain ⟨proc', hp', hk'⟩ := hknown _ _ _ _ _ hp hk hphase
      obtain rfl : phase = .asking _ _ _ := hphase
      obtain ⟨hslots, picked, hpicked, hready⟩ := hstands
      refine ⟨proc', _, hp', hk', ?_⟩
      have hsame := Option.some.inj (hp'.symm.trans (Function.update_self ..))
      have hslots' : proc'.inProcess = inProcess := by
        rw [hsame]
        exact hslots
      rw [hslots]
      exact Scan.stands hpicked hslots' ((scan_ready cfg known now inProcess _ _).trans hready)
    | start r hi hphase hr =>
      obtain ⟨rfl, rfl⟩ := he
      obtain rfl := Option.some.inj (hp.symm.trans hq)
      obtain rfl := Option.some.inj (hk.symm.trans hi)
      obtain rfl : phase = .starting _ _ := hphase
      obtain ⟨picked, hpicked, -⟩ := hstands
      exact ⟨_, _, Function.update_self .., Process.setTick_self .., picked, hpicked, fun _ => Or.inr (by simp)⟩
    | _ => exact he.elim

/-- So does the tick as a whole. -/
theorem Goes.steps (h : Goes cfg known p k now inProcess rows locked σ)
    (hrun : Relation.ReflTransGen (TickStep fl cfg known p k locked) σ τ) :
    Goes cfg known p k now inProcess rows locked τ := by
  induction hrun with
  | refl => exact h
  | tail _ hlast ih => exact ih.step hlast

variable (fl cfg known locked) in
/-- A tick whose commitments are answered comes to start what it takes up. -/
theorem tick_scans (rest : List StagedIntentRow) {ready : List Ready} (hp : σ.processes p = some proc)
    (hk : proc.ticks k = some ⟨now, (scan cfg now proc.inProcess rest ready).phase⟩) :
    ∃ τ proc', Relation.ReflTransGen (TickStep fl cfg known p k locked) σ τ ∧ τ.processes p = some proc' ∧
      proc'.ticks k = some ⟨now, .starting (tickReady cfg known now proc.inProcess rest ready) []⟩ := by
  induction rest generalizing σ proc ready with
  | nil => exact ⟨σ, proc, .refl, hp, hk⟩
  | cons row rest ih =>
    unfold scan at hk
    unfold tickReady
    split at hk
    · rename_i hfull
      rw [if_pos hfull]
      exact ⟨σ, proc, .refl, hp, hk⟩
    · rename_i hfull
      rw [if_neg hfull]
      split at hk
      · rename_i hbusy
        rw [if_pos hbusy]
        exact ih hp hk
      · rename_i hfree
        rw [if_neg hfree]
        split at hk
        · rename_i hlacks
          rw [if_pos hlacks]
          exact ih hp hk
        · rename_i hready
          rw [if_neg hready]
          split at hk
          · rename_i hpast
            rw [if_pos hpast]
            exact ih hp hk
          · rename_i hopen
            rw [if_neg hopen]
            obtain ⟨τ, hstep, hp'⟩ : ∃ τ, QueueStep fl cfg σ (.commitment p k) τ ∧ τ.processes p = some (proc.setTick k
                ⟨now, (scan cfg now proc.inProcess rest (takeUp row (known row.intentId) ready)).phase⟩) :=
              ⟨_, .own hp (.commitment (known row.intentId) hk rfl), Function.update_self ..⟩
            have htick : TickStep fl cfg known p k locked σ τ := by
              refine .step hstep ⟨rfl, rfl⟩ fun proc₁ tick row₁ rest₁ ready₁ hp₁ hk₁ hphase₁ => ?_
              obtain rfl := Option.some.inj (hp.symm.trans hp₁)
              obtain rfl := Option.some.inj (hk.symm.trans hk₁)
              cases hphase₁
              exact ⟨_, hp', Process.setTick_self ..⟩
            obtain ⟨υ, proc', hrun, hυ, hk'⟩ := ih hp' (Process.setTick_self proc k _)
            exact ⟨υ, proc', .head htick hrun, hυ, hk'⟩

/-- A step of a tick that waits for no commitment. -/
theorem TickStep.of_phase {e : Event} (h : QueueStep fl cfg σ e τ) (he : TickEvent p k locked e)
    (hp : σ.processes p = some proc) {tick : Tick} (hk : proc.ticks k = some tick)
    (hphase : ∀ row rest ready, tick.phase ≠ .asking row rest ready) : TickStep fl cfg known p k locked σ τ := by
  refine .step h he fun proc₁ tick₁ row rest ready hp₁ hk₁ hasking => ?_
  obtain rfl := Option.some.inj (hp.symm.trans hp₁)
  obtain rfl := Option.some.inj (hk.symm.trans hk₁)
  exact absurd hasking (hphase row rest ready)

variable (fl known) in
/-- Whatever the claim picks, the tick comes to start what it takes up of it. -/
theorem tick_comes (hp : σ.processes p = some proc) (hk : proc.ticks k = some ⟨now, .draining⟩) {picked : List IntentId}
    (hpicked : Oldest (due now p) locked cfg.batchSize σ.rows picked) :
    ∃ τ proc', Relation.ReflTransGen (TickStep fl cfg known p k locked) σ τ ∧ τ.processes p = some proc' ∧
      proc'.ticks k = some ⟨now, .starting (tookUp cfg known p now proc.inProcess σ.rows picked) []⟩ := by
  let answer := drainAnswer (drainRows σ.rows p now cfg.leaseMs picked) picked
  obtain ⟨σ₁, proc₁, hdrain, hp₁, hk₁, hslots₁⟩ : ∃ σ₁ proc₁, QueueStep fl cfg σ (.drain p k locked) σ₁ ∧
      σ₁.processes p = some proc₁ ∧ proc₁.ticks k = some ⟨now, .drained answer⟩ ∧ proc₁.inProcess = proc.inProcess :=
    ⟨_, _, .own hp (.drain locked picked hk rfl hpicked), Function.update_self .., Process.setTick_self .., rfl⟩
  obtain ⟨σ₂, proc₂, hresume, hp₂, hk₂, hslots₂⟩ : ∃ σ₂ proc₂, QueueStep fl cfg σ₁ (.resumeTick p k) σ₂ ∧
      σ₂.processes p = some proc₂ ∧ proc₂.ticks k = some ⟨now, (scan cfg now proc₁.inProcess answer []).phase⟩ ∧
      proc₂.inProcess = proc₁.inProcess :=
    ⟨_, _, .own hp₁ (.resumeTick hk₁ rfl), Function.update_self .., Process.setTick_self .., rfl⟩
  have hfirst : TickStep fl cfg known p k locked σ σ₁ :=
    .of_phase hdrain ⟨rfl, rfl, rfl⟩ hp hk fun _ _ _ => TickPhase.noConfusion
  have hsecond : TickStep fl cfg known p k locked σ₁ σ₂ :=
    .of_phase hresume ⟨rfl, rfl⟩ hp₁ hk₁ fun _ _ _ => TickPhase.noConfusion
  rw [← hslots₂] at hk₂
  obtain ⟨τ, proc', hrun, hp', hk'⟩ := tick_scans fl cfg known locked answer hp₂ hk₂
  rw [hslots₂, hslots₁] at hk'
  exact ⟨τ, proc', .head hfirst (.head hsecond hrun), hp', hk'⟩

/-! ## Whether it starts one -/

/-- A row that the tick can run is claimed: it is not locked, and fewer than a batch of those that it cannot run stand
at or before it. -/
def Unobstructed (cfg : Config) (known : IntentId → Option IntentCommitment) (p : Claimant) (now : Nat)
    (inProcess : IntentId → Bool) (rows : Rows) (locked : Set IntentId) : Prop :=
  0 < cfg.storeConcurrency ∧ ∃ id ∉ locked, Runnable known p now inProcess rows id ∧
    Batch.Near (createdAt rows) (claimable p now locked rows)
      {j | Runnable known p now inProcess rows j} cfg.batchSize id

/-- Everything that the claim may pick has something to take up exactly if a row is unobstructed. -/
theorem tookUp_iff : (∀ picked, Oldest (due now p) locked cfg.batchSize rows picked →
    tookUp cfg known p now inProcess rows picked ≠ []) ↔ Unobstructed cfg known p now inProcess rows locked := by
  rcases Nat.eq_zero_or_pos cfg.storeConcurrency with hidle | hconcurrency
  · refine ⟨fun hall => ?_, fun h => absurd h.1 (by omega)⟩
    obtain ⟨picked, hpicked⟩ := Batch.exists_batch (createdAt rows) (claimable p now locked rows) cfg.batchSize
    exact absurd (tickReady_idle hidle _) (hall picked (oldest_batch.mpr hpicked))
  · have hmeets : (∀ picked, Oldest (due now p) locked cfg.batchSize rows picked →
        tookUp cfg known p now inProcess rows picked ≠ []) ↔
        ∀ picked, Batch (createdAt rows) (claimable p now locked rows) cfg.batchSize picked →
          ∃ id ∈ picked, id ∈ {j | Runnable known p now inProcess rows j} := by
      refine forall_congr' fun picked => ?_
      rw [oldest_batch]
      exact forall_congr' fun h => tookUp_ne_nil hconcurrency fun id hid => (h.mem id hid).2
    rw [hmeets, Batch.meets_iff]
    constructor
    · rintro ⟨id, hid, hrunnable, hnear⟩
      exact ⟨hconcurrency, id, hid.1, hrunnable, hnear⟩
    · rintro ⟨-, id, hfree, hrunnable, hnear⟩
      obtain ⟨r, hr, hdue, -⟩ := hrunnable.due
      exact ⟨id, ⟨hfree, r, hr, hdue⟩, hrunnable, hnear⟩

/-- A tick starts a store if a row is unobstructed, -/
theorem startsOne_of_unobstructed (hp : σ.processes p = some proc) (hk : proc.ticks k = some ⟨now, .draining⟩)
    (h : Unobstructed cfg known p now proc.inProcess σ.rows locked) : StartsOne fl cfg known p k locked σ := by
  have hall := tookUp_iff.mpr h
  constructor
  · obtain ⟨picked, hpicked⟩ := Batch.exists_batch (createdAt σ.rows) (claimable p now locked σ.rows) cfg.batchSize
    obtain ⟨τ, proc', hrun, hp', hk'⟩ := tick_comes fl known hp hk (oldest_batch.mpr hpicked)
    exact ⟨τ, proc', _, _, hrun, hp', hk', rfl, hall picked (oldest_batch.mpr hpicked)⟩
  · intro τ proc' tick runs hrun hp' hk' hphase
    have hgoes : Goes cfg known p k now proc.inProcess σ.rows locked σ := ⟨proc, _, hp, hk, rfl, rfl⟩
    obtain ⟨proc₁, phase, hp₁, hk₁, hstands⟩ := hgoes.steps hrun
    obtain rfl := Option.some.inj (hp'.symm.trans hp₁)
    obtain rfl := Option.some.inj (hk'.symm.trans hk₁)
    obtain rfl : phase = .starting [] runs := hphase
    obtain ⟨picked, hpicked, hready⟩ := hstands
    exact (hready (hall picked hpicked)).resolve_left fun hnone => hnone rfl

/-- and only then. -/
theorem unobstructed_of_startsOne (hp : σ.processes p = some proc) (hk : proc.ticks k = some ⟨now, .draining⟩)
    (h : StartsOne fl cfg known p k locked σ) : Unobstructed cfg known p now proc.inProcess σ.rows locked := by
  rw [← tookUp_iff]
  intro picked hpicked hnone
  obtain ⟨τ, proc', hrun, hp', hk'⟩ := tick_comes fl known hp hk hpicked
  rw [hnone] at hk'
  exact h.starts τ proc' _ _ hrun hp' hk' rfl rfl

/-- A tick that meets no errors starts a store whenever some row is runnable, exactly if then a runnable row is not
locked and has fewer than a batch of unrunnable ones at or before it. -/
theorem tick_starts_iff (hp : σ.processes p = some proc) (hk : proc.ticks k = some ⟨now, .draining⟩) :
    ((∃ id, Runnable known p now proc.inProcess σ.rows id) → StartsOne fl cfg known p k locked σ) ↔
      ((∃ id, Runnable known p now proc.inProcess σ.rows id) →
        Unobstructed cfg known p now proc.inProcess σ.rows locked) := by
  constructor
  · intro h hsome
    exact unobstructed_of_startsOne hp hk (h hsome)
  · intro h hsome
    exact startsOne_of_unobstructed hp hk (h hsome)

/-! ## A starved tick -/

/-- A process whose first tick has just begun. -/
def exampleTicking : Process := { drainedAt := 0, ticks := Function.update (fun _ => none) 0 (some ⟨0, .draining⟩) }

def exampleTicks (rows : Rows) : Queue := ⟨0, rows, Function.update (fun _ => none) "a" (some exampleTicking), {}⟩

theorem exampleTicks_begun (rows : Rows) : (exampleTicks rows).processes "a" = some exampleTicking := by
  simp only [exampleTicks, Function.update_self]

theorem exampleTicking_draining : exampleTicking.ticks 0 = some ⟨0, .draining⟩ := by
  simp only [exampleTicking, Function.update_self]

/-- The one intent that the lifecycle store knows. -/
def exampleKnown (id : IntentId) : Option IntentCommitment := if id = "0x01" then some exampleCommitment else none

theorem exampleKnown_known : Known exampleKnown "0x01" := ⟨exampleCommitment, "0xab", rfl, rfl, by decide⟩

theorem exampleKnown_only {id : IntentId} (h : Known exampleKnown id) : id = "0x01" := by
  obtain ⟨c, sender, hc, -⟩ := h
  by_contra hother
  rw [exampleKnown, if_neg hother] at hc
  cases hc

/-- Intents whose sender is not known. -/
def unknownIds (n : Nat) : List IntentId := (List.range n).map toString

/-- They were created before the one whose sender is. -/
def starvedRows (n : Nat) : Rows := fun id =>
  if id = "0x01" then some { exampleRow with createdAt := 1 } else if id ∈ unknownIds n then some exampleRow else none

theorem starvedRows_known (n : Nat) : starvedRows n "0x01" = some { exampleRow with createdAt := 1 } := if_pos rfl

theorem starvedRows_some {n : Nat} {id : IntentId} {r : Row} (h : starvedRows n id = some r) :
    id = "0x01" ∨ id ∈ unknownIds n := by
  unfold starvedRows at h
  split at h
  · rename_i hid
    exact Or.inl hid
  · split at h
    · rename_i hid
      exact Or.inr hid
    · cases h

theorem starvedRows_runnable (n : Nat) : Runnable exampleKnown "a" 0 exampleTicking.inProcess (starvedRows n) "0x01" :=
  ⟨rfl, exampleKnown_known, _, starvedRows_known n, by decide, by decide⟩

/-- One fewer of them than a batch leaves room for the intent that can run. -/
theorem tick_starts_iff_one :
    StartsOne .exact exampleConfig exampleKnown "a" 0 ∅ (exampleTicks (starvedRows 19)) := by
  have hrunnable := starvedRows_runnable 19
  refine (tick_starts_iff (exampleTicks_begun _) exampleTicking_draining).mpr (fun _ => ?_) ⟨"0x01", hrunnable⟩
  refine ⟨by decide, "0x01", Set.notMem_empty _, hrunnable, fun l hnodup hall => ?_⟩
  have hunknown : l ⊆ unknownIds 19 := by
    intro id hid
    obtain ⟨⟨-, r, hr, -⟩, hnot, -⟩ := hall id hid
    obtain rfl | hmem := starvedRows_some hr
    · exact absurd hrunnable hnot
    · exact hmem
  calc l.length
      ≤ (unknownIds 19).length := (hnodup.subperm hunknown).length_le
    _ < exampleConfig.batchSize := by decide

/-- A batch of intents without a sender starves a row that could run. -/
theorem tick_starved : Runnable exampleKnown "a" 0 exampleTicking.inProcess (starvedRows 20) "0x01" ∧
    ¬StartsOne .exact exampleConfig exampleKnown "a" 0 ∅ (exampleTicks (starvedRows 20)) := by
  have hunknown : ∀ id ∈ unknownIds 20, id ≠ "0x01" := by decide
  have hrows : ∀ id ∈ unknownIds 20, starvedRows 20 id = some exampleRow := by
    intro id hid
    rw [starvedRows, if_neg (hunknown id hid), if_pos hid]
  refine ⟨starvedRows_runnable 20, fun h => ?_⟩
  have hclear : Unobstructed exampleConfig exampleKnown "a" 0 exampleTicking.inProcess (starvedRows 20) ∅ :=
    unobstructed_of_startsOne (exampleTicks_begun _) exampleTicking_draining h
  obtain ⟨-, id, -, hrunnable, hnear⟩ := hclear
  obtain rfl := exampleKnown_only hrunnable.named
  have hshort : (unknownIds 20).length < exampleConfig.batchSize := hnear (unknownIds 20) (by decide) fun id hid => by
    refine ⟨⟨Set.notMem_empty _, exampleRow, hrows id hid, by decide⟩, fun hrun => ?_, ?_⟩
    · exact hunknown id hid (exampleKnown_only hrun.named)
    · rw [createdAt_some (hrows id hid), createdAt_some (starvedRows_known 20)]
      decide
  exact absurd hshort (by decide)

end Bosphor.Relayer

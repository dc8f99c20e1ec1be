import Bosphor.Lib.Result
import Bosphor.Relayer.QueueEffects

/-!
# What the store pipeline calls

Each step of `store` calls only for its own intent, and only for what the row
it was given does not have yet (`StepCall`): a row with an upload is not
uploaded again, a row with a digest is not recorded again, a returned row sends
nothing. Dead-lettering the row is the last call of a pipeline (`store_stores`).
A run of the queue stays on the program that it was started with
(`Queue.Leads.follows`).
-/

namespace Bosphor.Relayer

open StagedIntentStore Async

/-- What the steps of the pipeline may call for a row. -/
def StepCall (row : StagedIntentRow) : Call → Prop
  | .readCommittedStorageEpochs id | .evmGetEscrow id | .getAccountInfo id | .recordHop id _ _ | .recordLedger id _ |
    .markLedgered id | .freeBytes id | .markDone id => id = row.intentId
  | .fetchBytes id | .writeBlob id _ _ | .persistUpload id _ => id = row.intentId ∧ row.walrusObjectId = none
  | .executeStore id _ _ _ | .persistStore id _ => id = row.intentId ∧ row.storeDigest = none
  | .quoteLzFee id _ _ _ | .lzSendProof id _ _ _ _ | .evmConfirmExecution id _ | .solanaConfirmExecution id _ _ |
    .markReturned id => id = row.intentId ∧ row.returned = false
  | .markDead _ _ => False
  | .systemState | .getPrices | .ensureWal | .waitForTransaction _ => True

/-- What the store epochs are resolved by. -/
def EpochsCall (row : StagedIntentRow) : Call → Prop
  | .readCommittedStorageEpochs id => id = row.intentId
  | .systemState => True
  | _ => False

theorem EpochsCall.step {row : StagedIntentRow} {c : Call} (h : EpochsCall row c) : StepCall row c := by
  cases c <;> first | exact h | exact h.elim

/-- What the guard may read. -/
def GuardCall (row : StagedIntentRow) : Call → Prop
  | .evmGetEscrow id | .getAccountInfo id => id = row.intentId
  | .getPrices | .systemState => True
  | _ => False

theorem GuardCall.step {row : StagedIntentRow} {c : Call} (h : GuardCall row c) : StepCall row c := by
  cases c <;> first | exact h | exact h.elim

/-- The call neither reads what the pipeline decides by, nor uploads, nor records. -/
def Call.Quiet : Call → Prop
  | .readCommittedStorageEpochs _ | .evmGetEscrow _ | .getAccountInfo _ | .getPrices | .fetchBytes _ | .writeBlob _ _ _ |
    .persistUpload _ _ | .executeStore _ _ _ _ | .persistStore _ _ => False
  | _ => True

/-- What the steps around the upload and the record may call. -/
def QuietCall (row : StagedIntentRow) (c : Call) : Prop := StepCall row c ∧ c.Quiet

/-- The call reads an escrow. -/
def Call.ReadsEscrow : Call → Prop
  | .evmGetEscrow _ | .getAccountInfo _ => True
  | _ => False

/-- What the pipeline may call past the guard. -/
def WorkCall (row : StagedIntentRow) (c : Call) : Prop := StepCall row c ∧ ¬c.ReadsEscrow

theorem QuietCall.work {row : StagedIntentRow} {c : Call} (h : QuietCall row c) : WorkCall row c := by
  refine ⟨h.1, ?_⟩
  cases c <;> first | exact id | exact h.2.elim

/-- The dead letter of an intent. -/
def Call.DeadLetter (id : IntentId) (c : Call) : Prop := ∃ text, c = .markDead id text

/-- A program that works on a row, and stops once it has dead-lettered it. -/
structure Stores {α : Type} (row : StagedIntentRow) (p : Program α) : Prop where
  calls : Calls (fun c => StepCall row c ∨ c.DeadLetter row.intentId) p
  last : Last (Call.DeadLetter row.intentId) p

variable {fl : Rounding} {cfg : Config} {row : StagedIntentRow} {α β : Type}

theorem StepCall.not_deadLetter {c : Call} (h : StepCall row c) : ¬c.DeadLetter row.intentId := by
  rintro ⟨text, rfl⟩
  exact h

theorem Stores.of_calls {p : Program α} (hp : Calls (StepCall row) p) : Stores row p where
  calls := hp.mono fun _ h => Or.inl h
  last := Calls.last (hp.mono fun _ h => h.not_deadLetter)

theorem Stores.bind {p : Program α} {f : α → Program β} (hp : Calls (StepCall row) p) (hf : ∀ a, Stores row (f a)) :
    Stores row (p >>= f) where
  calls := Calls.bind (hp.mono fun _ h => Or.inl h) fun a => (hf a).calls
  last := Calls.bind_last (hp.mono fun _ h => h.not_deadLetter) fun a => (hf a).last

/-- The row is dead-lettered, and that is all. -/
theorem Stores.deadLetter (text : String) (b : β) :
    Stores row (call (.markDead row.intentId text) >>= fun _ => pure b) where
  calls := Calls.bind (calls_call (Or.inr ⟨text, rfl⟩)) fun _ => trivial
  last := last_call fun _ => trivial

/-- The call that marks a row done. -/
theorem Call.op_markDone {c : Call} {id : IntentId} {now t : Nat} (h : c.op now = some (.markDone id t)) :
    c = .markDone id := by
  cases c with
  | markDone k =>
    cases h
    rfl
  | _ => cases h

/-! ## The steps -/

theorem trackHop_calls (hop : IntentHop) (details : HopDetails) :
    Calls (QuietCall row) (trackHop row.intentId hop details) :=
  Calls.tryCatch (calls_call ⟨rfl, trivial⟩) fun _ => trivial

theorem committedEpochs_calls : Calls (EpochsCall row) (committedEpochs row) := by
  unfold committedEpochs
  split
  · exact calls_pure _
  · exact Calls.tryCatch (Calls.bind (calls_call rfl) fun _ => calls_pure _) fun _ => calls_pure _

theorem walrusResolveStoreEpochs_calls (committed : Option Nat) :
    Calls (EpochsCall row) (walrusResolveStoreEpochs cfg committed) := by
  unfold walrusResolveStoreEpochs
  split
  · exact calls_pure _
  · refine Calls.bind (calls_call trivial) fun sys => ?_
    split <;> trivial

theorem storeEpochs_calls : Calls (EpochsCall row) (storeEpochs cfg row) := by
  unfold storeEpochs
  refine Calls.bind committedEpochs_calls fun committed => ?_
  refine Calls.bind (walrusResolveStoreEpochs_calls committed) fun resolution => ?_
  cases resolution with
  | accepted epochs source => exact calls_pure _
  | rejected reason =>
    simp only
    split <;> trivial

theorem getEscrow_calls : Calls (GuardCall row) (getEscrow cfg row.intentId row.srcEid) := by
  unfold getEscrow
  split
  · refine Calls.bind ?_ fun found => ?_
    · unfold solanaGetEscrow
      split
      · exact Calls.tryCatch (Calls.bind (calls_call rfl) fun _ => calls_pure _) fun _ => calls_pure _
      · exact calls_pure _
    · split
      · split <;> trivial
      · trivial
  · refine Calls.bind ?_ fun found => ?_
    · exact Calls.tryCatch (Calls.bind (calls_call rfl) fun _ => calls_pure _) fun _ => calls_pure _
    · split
      · split
        · trivial
        · split <;> trivial
      · trivial

theorem breakEvenCheck_calls (escrow : EscrowInfo) (sizeBytes epochs : Nat) :
    Calls (GuardCall row) (breakEvenCheck fl cfg escrow sizeBytes epochs) := by
  unfold breakEvenCheck
  refine Calls.bind (calls_call trivial) fun prices => ?_
  refine Calls.bind ?_ fun cost => ?_
  · unfold estimateWalCostFrost
    refine Calls.bind (calls_call trivial) fun state => ?_
    split <;> trivial
  · split <;> trivial

theorem breakEvenGuard_calls (epochs : Nat) : Calls (GuardCall row) (breakEvenGuard fl cfg row epochs) := by
  unfold breakEvenGuard
  split
  · refine Calls.bind getEscrow_calls fun found => ?_
    split
    · refine Calls.bind (breakEvenCheck_calls _ _ _) fun decision => ?_
      split <;> trivial
    · trivial
  · trivial

theorem upload_calls (hnone : row.walrusObjectId = none) (bytes : List UInt8) (epochs : Nat) :
    Calls (WorkCall row) (upload row.intentId bytes epochs) := by
  unfold upload
  split
  · trivial
  · refine Calls.bind (Calls.tryCatch (calls_call ⟨⟨rfl, hnone⟩, id⟩) fun err => ?_) fun result => ?_
    · split
      · exact calls_call ⟨⟨rfl, hnone⟩, id⟩
      · trivial
    · exact Calls.bind (Calls.tryCatch (Calls.bind (calls_call ⟨trivial, id⟩) fun _ => trivial) fun _ => trivial)
        fun _ => trivial

theorem uploadStep_calls (epochs : Nat) : Calls (WorkCall row) (uploadStep row epochs) := by
  unfold uploadStep
  cases hnone : row.walrusObjectId with
  | some objectId => trivial
  | none =>
    refine Calls.bind (calls_call ⟨⟨rfl, hnone⟩, id⟩) fun found => ?_
    split
    · refine Calls.bind (upload_calls hnone _ _) fun info => ?_
      exact Calls.bind (calls_call ⟨⟨rfl, hnone⟩, id⟩) fun _ => trivial
    · trivial

theorem recordStep_calls (sender : String) (commitment : Option IntentCommitment) (walrusObjectId : String) :
    Calls (WorkCall row) (recordStep row sender commitment walrusObjectId) := by
  unfold recordStep
  cases hnone : row.storeDigest with
  | some digest => trivial
  | none =>
    refine Calls.bind (Calls.tryCatch ?_ fun err => ?_) fun digest => ?_
    · refine Calls.bind (calls_call ⟨⟨rfl, hnone⟩, id⟩) fun digest => ?_
      exact Calls.bind (calls_call ⟨trivial, id⟩) fun _ => trivial
    · split <;> trivial
    · exact Calls.bind (calls_call ⟨⟨rfl, hnone⟩, id⟩) fun _ => trivial

theorem ledgerStep_calls (entry : CompletedStore) : Calls (QuietCall row) (ledgerStep cfg row entry) := by
  unfold ledgerStep
  split
  · exact Calls.tryCatch (Calls.bind (calls_call ⟨rfl, trivial⟩) fun _ => calls_call ⟨rfl, trivial⟩) fun _ => trivial
  · trivial

theorem lzReturn_calls (hopen : row.returned = false) (walrusBlobId : String) (endEpoch dstEid : Nat) :
    Calls (QuietCall row) (lzReturn row.intentId walrusBlobId endEpoch dstEid) := by
  unfold lzReturn
  refine Calls.bind (calls_call ⟨⟨rfl, hopen⟩, trivial⟩) fun fee => ?_
  exact Calls.bind (calls_call ⟨⟨rfl, hopen⟩, trivial⟩) fun digest => trackHop_calls _ _

theorem canonicalBlobId_calls (walrusBlobId : String) : Calls (QuietCall row) (canonicalBlobId walrusBlobId) := by
  unfold canonicalBlobId
  split <;> trivial

theorem returnToEvm_calls (hopen : row.returned = false) (walrusBlobId : String) (endEpoch : Nat) :
    Calls (QuietCall row) (returnToEvm cfg row.intentId walrusBlobId endEpoch) := by
  unfold returnToEvm
  refine Calls.tryCatch (lzReturn_calls hopen _ _ _) fun _ => ?_
  refine Calls.bind (canonicalBlobId_calls _) fun field => ?_
  exact Calls.bind (calls_call ⟨⟨rfl, hopen⟩, trivial⟩) fun digest => trackHop_calls _ _

theorem returnToSolana_calls (hopen : row.returned = false) (walrusBlobId : String) (endEpoch : Nat) :
    Calls (QuietCall row) (returnToSolana cfg row.intentId walrusBlobId endEpoch) := by
  unfold returnToSolana
  refine Calls.tryCatch (lzReturn_calls hopen _ _ _) fun _ => ?_
  have hconfirm : Calls (QuietCall row) (canonicalBlobId walrusBlobId >>= fun field => do
      let sig ← call (.solanaConfirmExecution row.intentId field endEpoch)
      trackHop row.intentId .proofSent { txHash := some sig }
      trackHop row.intentId .confirmed { txHash := some sig }) := by
    refine Calls.bind (canonicalBlobId_calls _) fun field => ?_
    refine Calls.bind (calls_call ⟨⟨rfl, hopen⟩, trivial⟩) fun sig => ?_
    exact Calls.bind (trackHop_calls _ _) fun _ => trackHop_calls _ _
  split
  · trivial
  · exact hconfirm

theorem returnStep_calls (up : UploadResult) : Calls (QuietCall row) (returnStep cfg row up) := by
  unfold returnStep
  cases hopen : row.returned with
  | true => trivial
  | false =>
    refine Calls.bind (Calls.tryCatch ?_ fun _ => trivial) fun _ => calls_call ⟨⟨rfl, hopen⟩, trivial⟩
    split
    · exact returnToSolana_calls hopen _ _
    · exact returnToEvm_calls hopen _ _

theorem fulfil_calls (sender : String) (commitment : Option IntentCommitment) (epochs : Nat) :
    Calls (WorkCall row) (fulfil cfg row sender commitment epochs) := by
  have hquiet : ∀ {p : Program Unit}, Calls (QuietCall row) p → Calls (WorkCall row) p :=
    fun hp => hp.mono fun _ => QuietCall.work
  unfold fulfil
  refine Calls.bind (calls_call ⟨trivial, id⟩) fun _ => ?_
  refine Calls.bind (hquiet (trackHop_calls _ _)) fun _ => ?_
  refine Calls.bind (uploadStep_calls _) fun up => ?_
  refine Calls.bind (hquiet (trackHop_calls _ _)) fun _ => ?_
  refine Calls.bind (recordStep_calls _ _ _) fun digest => ?_
  refine Calls.bind (hquiet (trackHop_calls _ _)) fun _ => ?_
  refine Calls.bind (hquiet (ledgerStep_calls _)) fun _ => ?_
  refine Calls.bind (calls_call ⟨rfl, id⟩) fun _ => ?_
  exact Calls.bind (hquiet (returnStep_calls _)) fun _ => calls_call ⟨rfl, id⟩

variable (fl cfg row) in
/-- The pipeline works on its row, or dead-letters it. -/
theorem store_stores (sender : String) (commitment : Option IntentCommitment) :
    Stores row (store fl cfg row sender commitment) := by
  unfold store
  dsimp only
  split
  · exact Stores.deadLetter _ _
  · refine Stores.bind (storeEpochs_calls.mono fun _ => EpochsCall.step) fun resolution => ?_
    cases resolution with
    | error reason => exact Stores.deadLetter _ _
    | ok epochs =>
      refine Stores.bind ((breakEvenGuard_calls epochs).mono fun _ => GuardCall.step) fun verdict => ?_
      cases verdict with
      | error reason => exact Stores.deadLetter _ _
      | ok decision =>
        exact Stores.bind ((fulfil_calls _ _ _).mono fun _ => And.left) fun _ => Stores.of_calls (calls_pure _)

/-! ## Runs -/

/-- The program that a run has before it. -/
def Work.program : Work → Program Booking
  | .awaiting c next => .await c next
  | .answered rest => rest
  | .settled (.ok b) => .done b
  | .settled (.error e) => .fail e

theorem Work.of_program (p : Program Booking) : (Work.of p).program = p := by
  cases p <;> rfl

/-- The run is somewhere in the pipeline that it was started with. -/
def Run.Follows (fl : Rounding) (cfg : Config) (run : Run) : Prop :=
  ∃ h, Async.Leads (store fl cfg run.row run.sender run.commitment) h run.work.program

/-- The run is where answers of which `T` holds have led its pipeline. -/
def Run.LedBy (fl : Rounding) (cfg : Config) (T : History Call Call.Answer Failure → Prop) (run : Run) : Prop :=
  ∃ h, Async.Leads (store fl cfg run.row run.sender run.commitment) h run.work.program ∧ T h

theorem Run.Follows.stores {run : Run} (h : run.Follows fl cfg) : Stores run.row run.work.program := by
  obtain ⟨hist, hlead⟩ := h
  have hstore := store_stores fl cfg run.row run.sender run.commitment
  exact ⟨hlead.calls hstore.calls, hlead.last hstore.last⟩

/-- The call that a run awaits. -/
theorem Run.Follows.call {run : Run} (h : run.Follows fl cfg) {c : Call}
    {next : Except Failure c.Answer → Program Booking} (hwork : run.work = .awaiting c next) :
    (StepCall run.row c ∨ c.DeadLetter run.row.intentId) ∧
      (c.DeadLetter run.row.intentId → ∀ r, Calls (fun _ => False) (next r)) := by
  have hstores := h.stores
  rw [hwork] at hstores
  exact ⟨hstores.calls.1, fun hdead r => (hstores.last r).1 hdead⟩

variable {T T' : History Call Call.Answer Failure → Prop}

theorem Run.LedBy.mono {run : Run} (h : run.LedBy fl cfg T) (hT : ∀ h, T h → T' h) : run.LedBy fl cfg T' := by
  obtain ⟨hist, hlead, hhist⟩ := h
  exact ⟨hist, hlead, hT hist hhist⟩

/-- A run whose work goes on where it was. -/
theorem Run.LedBy.work {run run' : Run} (h : run.LedBy fl cfg T) (hrow : run'.row = run.row)
    (hsender : run'.sender = run.sender) (hcommitment : run'.commitment = run.commitment)
    (hwork : run'.work.program = run.work.program) : run'.LedBy fl cfg T := by
  obtain ⟨hist, hlead, hhist⟩ := h
  refine ⟨hist, ?_, hhist⟩
  rwa [hrow, hsender, hcommitment, hwork]

/-- A run whose call is answered. -/
theorem Run.LedBy.answer {run : Run} (h : run.LedBy fl cfg T) {c : Call}
    {next : Except Failure c.Answer → Program Booking} (hwork : run.work = .awaiting c next)
    (r : Except Failure c.Answer)
    (hT : ∀ h, T h → T (h ++ [⟨c, r⟩])) : Run.LedBy fl cfg T { run with work := .answered (next r) } := by
  obtain ⟨hist, hlead, hhist⟩ := h
  rw [hwork] at hlead
  exact ⟨_, hlead.answer r, hT hist hhist⟩

variable {σ τ : Queue} {p : Claimant} {proc proc' : Process} {e : Event} {rows' : Rows} {past' : Past}
  {P : Queue → Event → Prop}

def Process.Follows (fl : Rounding) (cfg : Config) (proc : Process) : Prop :=
  ∀ r run, proc.runs r = some run → run.Follows fl cfg

def Process.LedBy (fl : Rounding) (cfg : Config) (T : History Call Call.Answer Failure → Prop)
    (proc : Process) : Prop :=
  ∀ r run, proc.runs r = some run → run.LedBy fl cfg T

theorem Process.LedBy.setRun (h : proc.LedBy fl cfg T) (r : Nat) {run : Run} (hrun : run.LedBy fl cfg T) :
    (proc.setRun r run).LedBy fl cfg T := by
  intro i u hi
  obtain ⟨rfl, rfl⟩ | ⟨-, hold⟩ := Table.set_some.mp hi
  · exact hrun
  · exact h i u hold

theorem ProcessStep.ledBy (hstep : ProcessStep fl cfg σ p proc e proc' rows' past') (hnil : T [])
    (hanswer : ∀ h (c : Call) (a : Except Failure c.Answer), c.Answers σ.rows a → T h → T (h ++ [⟨c, a⟩]))
    (h : proc.LedBy fl cfg T) : proc'.LedBy fl cfg T := by
  cases hstep with
  | stop | tick | drain | tickFails | resumeTick | commitment | finish => exact h
  | start r hk hphase hr => exact h.setRun r ⟨[], .start, hnil⟩
  | call a landed hr hwork hanswers hlanded =>
    exact h.setRun _ ((h _ _ hr).answer hwork a fun hist => hanswer hist _ a hanswers)
  | @resume r run rest hr hwork =>
    have hrun : run.LedBy fl cfg T := h r run hr
    have hprogram : (Work.of rest).program = run.work.program := by
      rw [Work.of_program, hwork]
      rfl
    unfold Process.resumeRun
    split
    · rename_i result hsettled
      rw [hsettled] at hprogram
      exact h.setRun r (hrun.work rfl rfl rfl hprogram)
    · exact h.setRun r (hrun.work rfl rfl rfl hprogram)
  | timeout hr hrace hlate => exact h.setRun _ ((h _ _ hr).work rfl rfl rfl rfl)
  | handle hr hhandling => exact h.setRun _ ((h _ _ hr).work rfl rfl rfl rfl)
  | handleFails hr hhandling => exact h.setRun _ ((h _ _ hr).work rfl rfl rfl rfl)

/-- What a step keeps of what the runs were told, if the answers of the table do. -/
theorem QueueStep.ledBy (hstep : QueueStep fl cfg σ e τ) (hnil : T [])
    (hanswer : ∀ h (c : Call) (a : Except Failure c.Answer), c.Answers σ.rows a → T h → T (h ++ [⟨c, a⟩]))
    (h : ∀ p proc, σ.processes p = some proc → proc.LedBy fl cfg T) :
    ∀ p proc, τ.processes p = some proc → proc.LedBy fl cfg T := by
  intro q procq hq
  cases hstep with
  | advance | statement => exact h q procq hq
  | boot p hp =>
    obtain ⟨rfl, rfl⟩ | ⟨-, hold⟩ := Table.set_some.mp hq
    · intro r run hr
      cases hr
    · exact h q procq hold
  | crash p => exact h q procq (Table.remove_some.mp hq).2
  | own hp hown =>
    obtain ⟨rfl, rfl⟩ | ⟨-, hold⟩ := Table.set_some.mp hq
    · exact hown.ledBy hnil hanswer (h _ _ hp)
    · exact h q procq hold

theorem Process.follows_iff : proc.Follows fl cfg ↔ proc.LedBy fl cfg fun _ => True := by
  simp only [Process.Follows, Process.LedBy, Run.Follows, Run.LedBy, and_true]

theorem ProcessStep.follows (hstep : ProcessStep fl cfg σ p proc e proc' rows' past') (h : proc.Follows fl cfg) :
    proc'.Follows fl cfg := by
  rw [Process.follows_iff] at h ⊢
  exact hstep.ledBy trivial (fun _ _ _ _ _ => trivial) h

theorem QueueStep.follows (hstep : QueueStep fl cfg σ e τ)
    (h : ∀ p proc, σ.processes p = some proc → proc.Follows fl cfg) :
    ∀ p proc, τ.processes p = some proc → proc.Follows fl cfg := by
  simp only [Process.follows_iff] at h ⊢
  exact hstep.ledBy trivial (fun _ _ _ _ _ => trivial) h

/-- Every run of the queue follows the pipeline. -/
theorem Queue.Leads.follows (hrun : Queue.Leads fl cfg P .empty τ) (hp : τ.processes p = some proc) :
    proc.Follows fl cfg := by
  have hempty : ∀ p proc, Queue.empty.processes p = some proc → proc.Follows fl cfg := fun p proc hp => by cases hp
  have hend : ∀ p proc, τ.processes p = some proc → proc.Follows fl cfg :=
    hrun.keeps (I := fun σ => ∀ p proc, σ.processes p = some proc → proc.Follows fl cfg)
      (fun _ _ _ h _ hstep => hstep.follows h) hempty
  exact hend p proc hp

end Bosphor.Relayer

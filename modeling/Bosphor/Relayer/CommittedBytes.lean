import Bosphor.Lib.Host
import Bosphor.Lib.ReadCommitted
import Bosphor.Relayer.ByteRecovery
import Bosphor.Relayer.OneIntent
import Bosphor.Relayer.StoreGrounds

/-!
# Only committed bytes are uploaded

Any number of deliveries and recovery sweeps, beside the processes of the store
queue and the lifecycle records. A program may fail at any call, though what
it called for may have been done, or vanish. Bytes are staged by ingest alone;
everything else runs the statements of the queue, in any order.

A pipeline checks the blob id of the row that its tick claimed, and fetches the
bytes later, which another ingest may have replaced by then. They are bound to
the commitment all the same: every row with bytes holds some that are
(`Staged`), so long as a commitment, once recorded, stays (`only_committed_uploaded`).
-/

namespace Bosphor.Relayer.CommittedBytes

open Async StagedIntentStore
open ReadCommitted (opened_update)

/-- The lifecycle records, the queue, and the intake programs under way. -/
structure Site where
  records : IntentId → Option IntentLifecycleRecord
  queue : Queue
  intakes : Nat → Option (Session IntakeCall IntakeCall.Answer Unit Unit)

def Site.empty : Site := ⟨fun _ => none, .empty, fun _ => none⟩

/-- The two ways that bytes come in. What a delivery is answered is not followed. -/
inductive Starts (cfg : IngestConfig) (rcfg : RecoveryConfig) : Intake Unit → Prop
  | delivery (id : IntentId) (bytes : List UInt8) (appId : Option String) :
    Starts cfg rcfg (deliver cfg id bytes appId >>= fun _ => pure ())
  | recovery : Starts cfg rcfg (recoverMissingBytes cfg rcfg)

/-- The statement that a call runs on `staged_intent`. -/
def intakeOp (now : Nat) : IntakeCall → Option Op
  | .ingest (.upsert id blob maxStagedBytes now) => some (.upsertBytes id blob maxStagedBytes now)
  | .rescheduleByteRecovery id nextAt => some (.rescheduleByteRecovery id nextAt now)
  | _ => none

variable (encodeBlob : List UInt8 → String)

/-- An answer to a call that leaves the table alone. -/
def Answers (σ : Site) : (c : IntakeCall) → Except Unit c.Answer → Prop
  | .ingest (.getCommitment id), .ok c => c = getCommitment (σ.records id)
  | .ingest .now, .ok now => now = σ.queue.now
  | .ingest .stagedBytesTotal, .ok total => total = stagedBytesTotal σ.queue.rows
  | .ingest (.stagedBytesTotalExcluding id), .ok total => total = stagedBytesTotalExcluding σ.queue.rows id
  | .ingest (.encodeBlob bytes), .ok blobId => blobId = encodeBlob bytes
  | .ingest (.upsert ..), .ok wrote => wrote = false
  | .claimForByteRecovery now graceMs limit, .ok candidates =>
    ClaimForByteRecovery now graceMs limit σ.queue.rows (candidates.map (·.intentId)) ∧
      ∀ c ∈ candidates, (σ.queue.rows c.intentId).bind (·.committedBlobId) = some c.committedBlobId
  | _, _ => True

/-- An answer to a call whose statement was run, whether or not it says so. -/
def Wrote : (c : IntakeCall) → Except Unit c.Answer → Prop
  | .ingest (.upsert ..), .ok wrote => wrote = true
  | _, _ => True

variable (fl : Rounding) (cfg : Config) (icfg : IngestConfig) (rcfg : RecoveryConfig)

inductive Step : Site → Site → Prop
  /-- The processes of the queue, and the statements of all but ingest. -/
  | queue {σ e queue} (hstep : QueueStep fl cfg σ.queue e queue)
    (hforeign : ∀ id blob maxStagedBytes now, e ≠ .statement (.upsertBytes id blob maxStagedBytes now)) :
    Step σ { σ with queue := queue }
  /-- A hop is recorded, whatever its merge leaves of the record. -/
  | hop {σ} (id : IntentId) (record : IntentLifecycleRecord) :
    Step σ { σ with records := Function.update σ.records id (some record) }
  | start {σ p} (i : Nat) (hp : Starts icfg rcfg p) (hi : σ.intakes i = none) :
    Step σ { σ with intakes := Function.update σ.intakes i (some ⟨[], p⟩) }
  | answer {σ i told c next} (r : Except Unit c.Answer) (hi : σ.intakes i = some ⟨told, .await c next⟩)
    (hr : Answers encodeBlob σ c r) :
    Step σ { σ with intakes := Function.update σ.intakes i (some ⟨told ++ [⟨c, r⟩], next r⟩) }
  | write {σ i told c next op queue} (r : Except Unit c.Answer) (hi : σ.intakes i = some ⟨told, .await c next⟩)
    (hop : intakeOp σ.queue.now c = some op) (hstep : QueueStep fl cfg σ.queue (.statement op) queue) (hr : Wrote c r) :
    Step σ ⟨σ.records, queue, Function.update σ.intakes i (some ⟨told ++ [⟨c, r⟩], next r⟩)⟩
  | vanish {σ} (i : Nat) : Step σ { σ with intakes := Function.update σ.intakes i none }

/-- The commitments that were recorded are as they were. -/
def Steady (σ τ : Site) : Prop :=
  ∀ id c, getCommitment (σ.records id) = some c → ∃ c', getCommitment (τ.records id) = some c' ∧
    c'.committedBlobId = c.committedBlobId ∧ c'.size = c.size

/-- Some steps, each of which keeps the commitments. -/
abbrev Leads : Site → Site → Prop :=
  Relation.ReflTransGen fun σ τ => Step encodeBlob fl cfg icfg rcfg σ τ ∧ Steady σ τ

/-- The bytes are those that the intent is committed to. -/
def Committed (σ : Site) (id : IntentId) (bytes : List UInt8) : Prop :=
  ∃ c, getCommitment (σ.records id) = some c ∧ bytes.length = c.size ∧
    walrusBlobIdToField (encodeBlob bytes) = .ok (bufferFromHex c.committedBlobId)

/-- An answer that a program was given still stands. -/
def Stands (σ : Site) : (Σ c : IntakeCall, Except Unit c.Answer) → Prop
  | ⟨.ingest (.getCommitment id), .ok (some c)⟩ =>
    ∃ c', getCommitment (σ.records id) = some c' ∧ c'.committedBlobId = c.committedBlobId ∧ c'.size = c.size
  | ⟨.ingest (.encodeBlob bytes), .ok blobId⟩ => blobId = encodeBlob bytes
  | _ => True

/-- What a pipeline fetched is committed. -/
def Fetched (σ : Site) (told : Told) : Prop :=
  ∀ id bytes, ⟨.fetchBytes id, .ok (some bytes)⟩ ∈ told → Committed encodeBlob σ id bytes

/-- What holds throughout. -/
structure Sound (σ : Site) : Prop where
  /-- The bytes of a row are committed. -/
  staged : ∀ id r bytes, σ.queue.rows id = some r → r.bytes = some bytes → Committed encodeBlob σ id bytes
  intakes : ∀ i s, σ.intakes i = some s → (∀ x ∈ s.told, Stands encodeBlob σ x) ∧
    wp IntakeBinds (fun _ _ => True) s.told s.rest
  runs : ∀ p proc, σ.queue.processes p = some proc → proc.LedBy fl cfg (Fetched encodeBlob σ)

variable {encodeBlob fl cfg icfg rcfg} {σ τ : Site} {id : IntentId} {bytes : List UInt8}

/-! ## What stays -/

theorem Steady.of_records (h : τ.records = σ.records) : Steady σ τ := by
  intro id c hc
  rw [h]
  exact ⟨c, hc, rfl, rfl⟩

theorem Committed.mono (h : Committed encodeBlob σ id bytes) (hsteady : Steady σ τ) :
    Committed encodeBlob τ id bytes := by
  obtain ⟨c, hc, hsize, hfield⟩ := h
  obtain ⟨c', hc', hblob, hsize'⟩ := hsteady id c hc
  exact ⟨c', hc', hsize.trans hsize'.symm, by rw [hblob, hfield]⟩

theorem Stands.mono {x : Σ c : IntakeCall, Except Unit c.Answer} (h : Stands encodeBlob σ x) (hsteady : Steady σ τ) :
    Stands encodeBlob τ x := by
  unfold Stands at h ⊢
  split
  · obtain ⟨c, hc, hblob, hsize⟩ := h
    obtain ⟨c', hc', hblob', hsize'⟩ := hsteady _ _ hc
    exact ⟨c', hc', hblob'.trans hblob, hsize'.trans hsize⟩
  · exact h
  · trivial

/-- A true answer stands. -/
theorem Answers.stands {c : IntakeCall} {r : Except Unit c.Answer} (h : Answers encodeBlob σ c r) :
    Stands encodeBlob σ ⟨c, r⟩ := by
  unfold Stands
  split
  · rename_i hx
    cases hx
    exact ⟨_, Eq.symm h, rfl, rfl⟩
  · rename_i hx
    cases hx
    exact h
  · trivial

/-- The answer of a statement stands. -/
theorem intakeOp_stands {c : IntakeCall} {now : Nat} {op : Op} (hop : intakeOp now c = some op)
    (r : Except Unit c.Answer) :
    Stands encodeBlob σ ⟨c, r⟩ := by
  unfold Stands
  split
  · rename_i hx
    cases hx
    cases hop
  · rename_i hx
    cases hx
    cases hop
  · trivial

/-- What ingest has bound is committed, as long as what it was told stands. -/
theorem committed_of_boundTo {told : IntakeTold} {blob : StagedBytes} (h : BoundTo (ingestTold told) id blob)
    (hstands : ∀ x ∈ told, Stands encodeBlob σ x) : Committed encodeBlob σ id blob.bytes := by
  obtain ⟨c, hknown, hsize, hencoded, hmatches⟩ := h
  obtain ⟨c', hc', hblob, hsize'⟩ : Stands encodeBlob σ ⟨.ingest (.getCommitment id), .ok (some c)⟩ :=
    hstands _ (mem_ingestTold.mp hknown)
  have hid : blob.blobId = encodeBlob blob.bytes := hstands _ (mem_ingestTold.mp hencoded)
  refine ⟨c', hc', hsize.trans hsize'.symm, ?_⟩
  rw [hblob, ← hid]
  exact (blobIdMatches_iff.mp hmatches).2

/-! ## The rows -/

/-- Only `upsertBytes` brings bytes into a row. -/
theorem write_bytes {op : Op} (hop : ∀ id blob c now, op ≠ .upsertBytes id blob c now) {rows : Rows} {k : IntentId}
    {latest : Option Row} {r' : Row} (h : op.statement.write rows k latest = some (some r'))
    (hbytes : r'.bytes = some bytes) :
    ∃ r, latest = some r ∧ r.bytes = some bytes := by
  cases op with
  | upsertBytes id blob c now => exact absurd rfl (hop id blob c now)
  | markReceived =>
    obtain ⟨-, ⟨rfl, hv⟩ | ⟨r, rfl, -, hv⟩⟩ := upsert_some.mp h
    · cases hv
      cases hbytes
    · cases hv
      exact ⟨r, rfl, hbytes⟩
  | rescheduleByteRecovery | persistUpload | persistStore | markLedgered | markReturned | reschedule =>
    obtain ⟨-, r, rfl, -, hv⟩ := updateRow_some.mp h
    cases hv
    exact ⟨r, rfl, hbytes⟩
  | freeBytes | markDone | markDead =>
    obtain ⟨-, r, rfl, -, hv⟩ := updateRow_some.mp h
    cases hv
    cases hbytes
  | drainDue =>
    obtain ⟨r, rfl, -, hv⟩ := rewrite_some.mp h
    cases hv
    exact ⟨r, rfl, hbytes⟩
  | expireDue | expireUnreceived =>
    obtain ⟨r, rfl, -, hv⟩ := rewrite_some.mp h
    cases hv
    cases hbytes
  | purgeTerminal =>
    obtain ⟨r, -, -, hv⟩ := purge_some.mp h
    cases hv

/-- The bytes of a row were there before the step, or are those of the ingest that the step is of. -/
theorem step_bytes {q q' : Queue} {e : Event} (hstep : QueueStep fl cfg q e q') {k : IntentId} {r' : Row}
    (hr' : q'.rows k = some r') (hbytes : r'.bytes = some bytes) :
    (∃ r, q.rows k = some r ∧ r.bytes = some bytes) ∨
      ∃ blob c now, e = .statement (.upsertBytes k blob c now) ∧ bytes = blob.bytes := by
  obtain hsame | ⟨p, now, leaseMs, hclaimed⟩ | ⟨op, hop, hwrite⟩ := hstep.row_cases k
  · exact Or.inl ⟨r', hsame.symm.trans hr', hbytes⟩
  · obtain ⟨r, hr, hnew⟩ := Option.map_eq_some_iff.mp (hclaimed.symm.trans hr')
    rw [← hnew] at hbytes
    exact Or.inl ⟨r, hr, hbytes⟩
  · rw [hr'] at hwrite
    by_cases hupsert : ∃ id blob c now, op = .upsertBytes id blob c now
    · obtain ⟨id, blob, c, now, rfl⟩ := hupsert
      have he : e = .statement (.upsertBytes id blob c now) := hop.resolve_right fun hno => hno trivial
      obtain ⟨hk, ⟨-, hv⟩ | ⟨r, -, -, hv⟩⟩ := upsert_some.mp hwrite
      · cases hv
        cases hbytes
        rw [← hk] at he
        exact Or.inr ⟨blob, c, now, he, rfl⟩
      · cases hv
        cases hbytes
        rw [← hk] at he
        exact Or.inr ⟨blob, c, now, he, rfl⟩
    · exact Or.inl (write_bytes (fun id blob c now hop => hupsert ⟨id, blob, c, now, hop⟩) hwrite hbytes)

/-! ## The whole -/

theorem Sound.empty : Sound encodeBlob fl cfg .empty where
  staged id r bytes hr := by cases hr
  intakes i s hi := by cases hi
  runs p proc hp := by cases hp

theorem Fetched.mono {told : Told} (h : Fetched encodeBlob σ told) (hsteady : Steady σ τ) : Fetched encodeBlob τ told :=
  fun id bytes hmem => (h id bytes hmem).mono hsteady

/-- What holds before the commitments are added to holds after. -/
theorem Sound.steady (h : Sound encodeBlob fl cfg σ) (hqueue : τ.queue = σ.queue) (hintakes : τ.intakes = σ.intakes)
    (hsteady : Steady σ τ) : Sound encodeBlob fl cfg τ where
  staged id r bytes hr hbytes := (h.staged id r bytes (hqueue ▸ hr) hbytes).mono hsteady
  intakes i s hi := by
    obtain ⟨hstands, hwp⟩ := h.intakes i s (hintakes ▸ hi)
    exact ⟨fun x hx => (hstands x hx).mono hsteady, hwp⟩
  runs p proc hp r run hr := (h.runs p proc (hqueue ▸ hp) r run hr).mono fun told htold => htold.mono hsteady

/-- A step of the queue, whose ingest, if it is one, is of committed bytes. -/
theorem Sound.queue (h : Sound encodeBlob fl cfg σ) {e : Event} {q : Queue} (hstep : QueueStep fl cfg σ.queue e q)
    (hingest : ∀ k blob c now, e = .statement (.upsertBytes k blob c now) → Committed encodeBlob σ k blob.bytes) :
    Sound encodeBlob fl cfg { σ with queue := q } where
  staged k r bytes hr hbytes := by
    obtain ⟨r₀, hr₀, hbytes₀⟩ | ⟨blob, c, now, he, rfl⟩ := step_bytes hstep hr hbytes
    · exact h.staged k r₀ bytes hr₀ hbytes₀
    · exact hingest k blob c now he
  intakes := h.intakes
  runs := by
    refine hstep.ledBy (T := Fetched encodeBlob σ) (fun id bytes hmem => absurd hmem List.not_mem_nil) ?_ h.runs
    intro told c a hanswers htold id bytes hmem
    obtain hold | hnew := List.mem_append.mp hmem
    · exact htold id bytes hold
    · rw [List.mem_singleton] at hnew
      cases hnew
      obtain ⟨r, hr, hbytes⟩ := Option.bind_eq_some_iff.mp (Eq.symm hanswers)
      exact h.staged id r bytes hr hbytes

/-- An intake program goes on with an answer that stands. -/
theorem Sound.tell (h : Sound encodeBlob fl cfg σ) {i : Nat} {told : IntakeTold} {c : IntakeCall}
    {next : Except Unit c.Answer → Intake Unit} (hi : σ.intakes i = some ⟨told, .await c next⟩)
    {r : Except Unit c.Answer} (hr : Stands encodeBlob σ ⟨c, r⟩) :
    Sound encodeBlob fl cfg { σ with intakes := Function.update σ.intakes i (some ⟨told ++ [⟨c, r⟩], next r⟩) } where
  staged := h.staged
  intakes j s hj := by
    obtain ⟨-, hnew⟩ | ⟨-, hold⟩ := opened_update hj
    · cases hnew
      obtain ⟨hstands, -, hnext⟩ := h.intakes i _ hi
      refine ⟨fun x hx => ?_, hnext r⟩
      obtain hx | hx := List.mem_append.mp hx
      · exact hstands x hx
      · rw [List.mem_singleton.mp hx]
        exact hr
    · exact h.intakes j s hold
  runs := h.runs

theorem Starts.binds {p : Intake Unit} (h : Starts icfg rcfg p) : wp IntakeBinds (fun _ _ => True) [] p := by
  cases h with
  | delivery id bytes appId =>
    rw [wp_bind]
    refine wp_mono (deliver_binds id bytes appId) (fun _ _ h => h) fun h r _ => ?_
    cases r <;> trivial
  | recovery => exact recoverMissingBytes_binds

/-- One step keeps it, if it keeps the commitments. -/
theorem Step.sound (hstep : Step encodeBlob fl cfg icfg rcfg σ τ) (hsteady : Steady σ τ)
    (h : Sound encodeBlob fl cfg σ) :
    Sound encodeBlob fl cfg τ := by
  cases hstep with
  | queue hstep hforeign => exact h.queue hstep fun k blob c now he => absurd he (hforeign k blob c now)
  | hop id record => exact h.steady rfl rfl hsteady
  | start i hp hi =>
    refine ⟨h.staged, fun j s hj => ?_, h.runs⟩
    obtain ⟨-, hnew⟩ | ⟨-, hold⟩ := opened_update hj
    · cases hnew
      exact ⟨fun x hx => absurd hx List.not_mem_nil, hp.binds⟩
    · exact h.intakes j s hold
  | answer r hi hr => exact h.tell hi hr.stands
  | @write i told c next op queue r hi hop hqueue hr =>
    have hingest : ∀ k blob cap now, Event.statement op = .statement (.upsertBytes k blob cap now) →
        Committed encodeBlob σ k blob.bytes := by
      intro k blob cap now he
      obtain ⟨hstands, hbinds, -⟩ := h.intakes i _ hi
      cases he
      unfold intakeOp at hop
      split at hop
      · cases hop
        exact committed_of_boundTo hbinds hstands
      · cases hop
      · cases hop
    exact (h.queue hqueue hingest).tell (σ := { σ with queue := queue }) hi (intakeOp_stands hop r)
  | vanish i =>
    refine ⟨h.staged, fun j s hj => ?_, h.runs⟩
    obtain ⟨-, hnew⟩ | ⟨-, hold⟩ := opened_update hj
    · cases hnew
    · exact h.intakes j s hold

theorem Leads.sound (hrun : Leads encodeBlob fl cfg icfg rcfg .empty σ) : Sound encodeBlob fl cfg σ := by
  induction hrun with
  | refl => exact Sound.empty
  | tail _ hlast ih => exact hlast.1.sound hlast.2 ih

/-- The bytes that a pipeline passes to Walrus are those that its intent is committed to. -/
theorem only_committed_uploaded (encodeBlob : List UInt8 → String) (fl : Rounding) (cfg : Config) (icfg : IngestConfig)
    (rcfg : RecoveryConfig) (σ : Site) (hrun : Leads encodeBlob fl cfg icfg rcfg .empty σ) (p : Claimant)
    (proc : Process) (hp : σ.queue.processes p = some proc) (r : Nat) (run : Run) (hr : proc.runs r = some run)
    (id : IntentId) (bytes : List UInt8) (epochs : Nat) (next : Except Failure WalrusBlob → Program Booking)
    (hwork : run.work = .awaiting (.writeBlob id bytes epochs) next) :
    ∃ c, getCommitment (σ.records id) = some c ∧ bytes.length = c.size ∧
      walrusBlobIdToField (encodeBlob bytes) = .ok (bufferFromHex c.committedBlobId) := by
  obtain ⟨told, hlead, hfetched⟩ := hrun.sound.runs p proc hp r run hr
  have hwp := wp_leads (store_grounded fl cfg run.row run.sender run.commitment) hlead
  rw [hwork] at hwp
  obtain ⟨-, -, hbytes⟩ := hwp.1.1
  exact hfetched id bytes hbytes

/-! ## A delivery that is uploaded -/

/-- The queue goes on, with nothing ingested. -/
theorem Leads.queue {P : Queue → Event → Prop} {q : Queue} (hrun : Leads encodeBlob fl cfg icfg rcfg .empty σ)
    (hq : Queue.Leads fl cfg P σ.queue q) (hP : ∀ q e, P q e → ∀ op, e ≠ .statement op) :
    Leads encodeBlob fl cfg icfg rcfg .empty { σ with queue := q } := by
  induction hq with
  | refl => exact hrun
  | tail _ hlast ih =>
    obtain ⟨e, he, hstep⟩ := hlast
    exact ih.tail ⟨.queue hstep fun id blob c now => hP _ e he _, Steady.of_records rfl⟩

/-- A delivery goes on with an answer. -/
theorem Leads.answer {i : Nat} {told : IntakeTold} {c : IntakeCall} {next : Except Unit c.Answer → Intake Unit}
    (hrun : Leads encodeBlob fl cfg icfg rcfg .empty σ) (hi : σ.intakes i = some ⟨told, .await c next⟩)
    (r : Except Unit c.Answer) (hr : Answers encodeBlob σ c r) : Leads encodeBlob fl cfg icfg rcfg .empty
      { σ with intakes := Function.update σ.intakes i (some ⟨told ++ [⟨c, r⟩], next r⟩) } :=
  hrun.tail ⟨.answer r hi hr, Steady.of_records rfl⟩

def exampleRecord : IntentLifecycleRecord where
  intentId := "0x01"
  status := .submitted
  hops := []
  sender := some "0xab"
  committedBlobId := some exampleField
  size := some 1
  deadline := some 3600000
  createdAt := 0
  updatedAt := 0

/-- An encoder that takes everything for the same blob. -/
def exampleEncode (_ : List UInt8) : String := exampleBlobId

/-- The relayer with one intent recorded, and one delivery for it. -/
def exampleSite (rows : Rows) (told : IntakeTold) (rest : Intake Unit) : Site where
  records := Function.update (fun _ => none) "0x01" (some exampleRecord)
  queue := ⟨0, rows, Function.update (fun _ => none) "a" (some { drainedAt := 0 }), {}⟩
  intakes := Function.update (fun _ => none) 0 (some ⟨told, rest⟩)

theorem exampleSite_answer {rows : Rows} {told : IntakeTold} {c : IntakeCall}
    {next : Except Unit c.Answer → Intake Unit}
    (hrun : Leads exampleEncode .exact exampleConfig {} {} .empty (exampleSite rows told (.await c next)))
    (r : Except Unit c.Answer) (hr : Answers exampleEncode (exampleSite rows told (.await c next)) c r) :
    Leads exampleEncode .exact exampleConfig {} {} .empty (exampleSite rows (told ++ [⟨c, r⟩]) (next r)) := by
  have hnext := hrun.answer (i := 0) rfl r hr
  rwa [show ({ exampleSite rows told (.await c next) with
    intakes := Function.update (exampleSite rows told (.await c next)).intakes 0
      (some ⟨told ++ [⟨c, r⟩], next r⟩) } : Site) =
      exampleSite rows (told ++ [⟨c, r⟩]) (next r) from congrArg (Site.mk _ _) (Function.update_idem ..)] at hnext

/-- What is staged of the delivery. -/
def exampleDelivered : StagedBytes := ⟨[7], exampleBlobId, 1, none, some 3600000⟩

theorem exampleSite_write {told : IntakeTold} {next : Except Unit Bool → Intake Unit}
    (hrun : Leads exampleEncode .exact exampleConfig {} {} .empty (exampleSite (fun _ => none) told
      (.await (.ingest (.upsert "0x01" exampleDelivered (some 268435456) 0)) next))) :
    Leads exampleEncode .exact exampleConfig {} {} .empty
      (exampleSite (Rows.one "0x01" (bytesInserted exampleDelivered 0))
      (told ++ [⟨.ingest (.upsert "0x01" exampleDelivered (some 268435456) 0), .ok true⟩]) (next (.ok true))) := by
  have hstep : Step exampleEncode .exact exampleConfig {} {}
      (exampleSite (fun _ => none) told (.await
        (.ingest (.upsert "0x01" exampleDelivered (some 268435456) 0)) next)) _ :=
    .write (i := 0) (c := .ingest (.upsert "0x01" exampleDelivered (some 268435456) 0)) (.ok true) rfl rfl
      (QueueStep.buffers_one exampleConfig .exact exampleDelivered (some 268435456) _) rfl
  have hnext := hrun.tail ⟨hstep, Steady.of_records rfl⟩
  rwa [show (Function.update (exampleSite (fun _ => none) told
      (.await (.ingest (.upsert "0x01" exampleDelivered (some 268435456) 0)) next)).intakes 0 _) = _ from
    Function.update_idem ..] at hnext

/-- The delivery is staged. -/
theorem exampleSite_staged : ∃ told rest, Leads exampleEncode .exact exampleConfig {} {} .empty
    (exampleSite (Rows.one "0x01" (bytesInserted exampleDelivered 0)) told rest) := by
  let booted : Queue := ⟨0, fun _ => none, Function.update (fun _ => none) "a" (some { drainedAt := 0 }), {}⟩
  have hboot : Step exampleEncode .exact exampleConfig {} {} .empty ⟨fun _ => none, booted, fun _ => none⟩ :=
    .queue (.boot "a" rfl) fun _ _ _ _ => Event.noConfusion
  have hhop : Step exampleEncode .exact exampleConfig {} {} ⟨fun _ => none, booted, fun _ => none⟩
      ⟨Function.update (fun _ => none) "0x01" (some exampleRecord), booted, fun _ => none⟩ := .hop "0x01" exampleRecord
  have hnew : Steady ⟨fun _ => none, booted, fun _ => none⟩
      ⟨Function.update (fun _ => none) "0x01" (some exampleRecord), booted, fun _ => none⟩ := fun id c hc => by cases hc
  have hstart : Step exampleEncode .exact exampleConfig {} {}
      ⟨Function.update (fun _ => none) "0x01" (some exampleRecord), booted, fun _ => none⟩
      (exampleSite (fun _ => none) [] (deliver {} "0x01" [7] none >>= fun _ => pure ())) :=
    .start 0 (.delivery "0x01" [7] none) rfl
  have h0 : Leads exampleEncode .exact exampleConfig {} {} .empty
      (exampleSite (fun _ => none) [] (deliver {} "0x01" [7] none >>= fun _ => pure ())) :=
    ((Relation.ReflTransGen.single ⟨hboot, Steady.of_records rfl⟩).tail ⟨hhop, hnew⟩).tail
      ⟨hstart, Steady.of_records rfl⟩
  have hempty : 0 = stagedBytesTotal fun _ => none := finsum_zero.symm
  have h1 := exampleSite_answer (c := .ingest (.getCommitment "0x01")) h0 (.ok (some exampleCommitment)) rfl
  have h2 := exampleSite_answer (c := .ingest .now) h1 (.ok 0) rfl
  have h3 := exampleSite_answer (c := .ingest .stagedBytesTotal) h2 (.ok 0) hempty
  have h4 := exampleSite_answer (c := .ingest (.encodeBlob [7])) h3 (.ok exampleBlobId) rfl
  have h5 := exampleSite_answer (c := .ingest .now) h4 (.ok 0) rfl
  exact ⟨_, _, exampleSite_write h5⟩

/-- What is delivered, received and claimed is uploaded. -/
theorem only_committed_uploaded_one : ∃ σ proc run next, Leads exampleEncode .exact exampleConfig {} {} .empty σ ∧
    σ.queue.processes "a" = some proc ∧ proc.runs 0 = some run ∧ run.work = .awaiting (.writeBlob "0x01" [7] 1) next ∧
    ∃ c, getCommitment (σ.records "0x01") = some c ∧ ([7] : List UInt8).length = c.size ∧
      walrusBlobIdToField (exampleEncode [7]) = .ok (bufferFromHex c.committedBlobId) := by
  obtain ⟨told, rest, hstaged⟩ := exampleSite_staged
  have hreceived : Leads exampleEncode .exact exampleConfig {} {} .empty
      (exampleSite (Rows.one "0x01" exampleRow) told rest) :=
    hstaged.tail ⟨.queue (.receives_one exampleConfig .exact exampleReceipt
      (show (bytesInserted exampleDelivered 0).state = .active from rfl) _)
      fun _ _ _ _ => by simp, Steady.of_records rfl⟩
  obtain ⟨proc, htick, hruns, -⟩ := exampleRun_leads
  have hstarted := hreceived.queue htick fun q e he op => by cases he <;> exact Event.noConfusion
  obtain ⟨⟨next, hserved⟩, -⟩ := exampleRun_served (C := fun _ => True) fun _ _ _ => trivial
  have hr : proc.runs 0 = some exampleRun := by
    rw [hruns]
    rfl
  have hserves := Queue.serves exampleConfig .exact
    (σ := { exampleAlone with
      rows := Rows.one "0x01" exampleHeld
      processes := Function.update exampleAlone.processes "a" (some proc) })
    (P := fun _ e => ∀ op, e ≠ .statement op) (Function.update_self ..) hr rfl hserved
    (fun _ _ => Event.noConfusion) fun _ _ _ _ => Event.noConfusion
  have hready := hstarted.queue hserves fun q e he => he
  let uploading : Run := { exampleRun with work := .answered (.await (.writeBlob "0x01" [7] 1) next) }
  let ready : Queue := { exampleAlone with
    rows := Rows.one "0x01" exampleHeld
    processes := Function.update (Function.update exampleAlone.processes "a" (some proc)) "a"
      (some (proc.setRun 0 uploading)) }
  have hp : ready.processes "a" = some (proc.setRun 0 uploading) := rfl
  obtain ⟨hresume, -⟩ := Queue.serve exampleConfig .exact hp (proc.setRun_self 0 uploading) rfl
    (.ok ⟨exampleBlobId, "0xb10b", 9⟩) trivial
  have hend := hready.tail ⟨.queue hresume fun _ _ _ _ => Event.noConfusion, Steady.of_records rfl⟩
  let waiting : Run := { uploading with work := .awaiting (.writeBlob "0x01" [7] 1) next }
  have hrun : ((proc.setRun 0 uploading).setRun 0 waiting).runs 0 = some waiting := Process.setRun_self ..
  exact ⟨_, (proc.setRun 0 uploading).setRun 0 waiting, waiting, next, hend, rfl, hrun, rfl,
    only_committed_uploaded exampleEncode .exact exampleConfig {}
      {} _ hend "a" _ rfl 0 waiting hrun "0x01" [7] 1 next rfl⟩

end Bosphor.Relayer.CommittedBytes

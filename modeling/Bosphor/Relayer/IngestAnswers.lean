import Bosphor.Relayer.IntentIngest
import Bosphor.Relayer.OneIntent
import Bosphor.Relayer.StagingCap

/-!
# What ingest answers

An ingest reads the staged total, runs the statement that stages the bytes, and
if that wrote nothing sums the others' bytes again to say why; each sees the
table of its own moment, and the other statements of the store run in between.
The first read counts the intent's own bytes and does not look at its row, and
the last takes the want of room at its own moment for the reason of the
statement before it. Where no read is misled, the answer is true of some moment
of the call (`ingest_truthful`); otherwise an intent that is still pending may
be answered as one that is not (`ingest_misled`).
-/

namespace Bosphor.Relayer

open Async ReadCommitted StagedIntentStore

/-! ## A call over the table -/

/-- An ingest that is under way in a session of the store. -/
structure Admission (τ : Type) where
  db : Database τ IntentId Row
  program : Ingesting IngestResult
  /-- The tables since the call began. -/
  seen : Set Rows
  /-- The snapshot of its statement, once that wrote nothing. -/
  refused : Option Rows := none

/-- What a read of the table answers. -/
def IngestCall.Reads (rows : Rows) : (c : IngestCall) → c.Answer → Prop
  | .stagedBytesTotal, n => n = StagedIntentStore.stagedBytesTotal rows
  | .stagedBytesTotalExcluding id, n => n = StagedIntentStore.stagedBytesTotalExcluding rows id
  | .upsert .., _ => False
  | _, _ => True

inductive AdmissionEvent where
  | others
  | answered (c : IngestCall)
  | failed
  | began
  | locked
  | wrote
  | wroteNothing

variable {τ : Type} [DecidableEq τ]

/-- One step of an ingest in the session `t`, or of the other sessions. -/
inductive AdmissionStep (t : τ) (σ : Admission τ) : AdmissionEvent → Admission τ → Prop
  | others {db : Database τ IntentId Row} (h : Step statements σ.db db) (hown : db.opened t = σ.db.opened t) :
    AdmissionStep t σ .others { σ with db := db, seen := insert db.rows σ.seen }
  | answered {c : IngestCall} {next} (hprogram : σ.program = .await c next) (a : c.Answer) (ha : c.Reads σ.db.rows a) :
    AdmissionStep t σ (.answered c) { σ with program := next (.ok a) }
  | failed {c : IngestCall} {next} (hprogram : σ.program = .await c next) :
    AdmissionStep t σ .failed { σ with db := σ.db.rollback t, program := next (.error ()) }
  | began {id blob cap now next} (hprogram : σ.program = .await (.upsert id blob cap now) next)
    (hidle : σ.db.opened t = none) :
    AdmissionStep t σ .began { σ with db := σ.db.start t (Op.upsertBytes id blob cap now).statement }
  | locked {id blob cap now next} (hprogram : σ.program = .await (.upsert id blob cap now) next) {o : Open IntentId Row}
    (ho : σ.db.opened t = some o) (v : Option Row) (hfree : σ.db.Unlocked id)
    (htarget : o.statement.targets o.snapshot o.locked id)
    (hwrite : o.statement.write o.snapshot id (σ.db.rows id) = some v) :
    AdmissionStep t σ .locked { σ with db := σ.db.lock t o id v }
  -- a commit that reports an error has landed all the same
  | wrote {id blob cap now next} (hprogram : σ.program = .await (.upsert id blob cap now) next) {o : Open IntentId Row}
    (ho : σ.db.opened t = some o) (hlocked : o.locked ≠ []) (r : Except Unit Bool) (hr : r = .ok true ∨ r = .error ()) :
    AdmissionStep t σ .wrote
      { σ with db := σ.db.commit t o, program := next r, seen := insert (σ.db.commit t o).rows σ.seen }
  | wroteNothing {id blob cap now next} (hprogram : σ.program = .await (.upsert id blob cap now) next)
    {o : Open IntentId Row} (ho : σ.db.opened t = some o) (hlocked : o.locked = [])
    (hleft : ¬o.statement.targets o.snapshot [] id ∨
      σ.db.Unlocked id ∧ o.statement.write o.snapshot id (σ.db.rows id) = none) :
    AdmissionStep t σ .wroteNothing
      { σ with db := σ.db.rollback t, program := next (.ok false), refused := some o.snapshot }

/-! ## True answers -/

variable (cfg : IngestConfig) (id : IntentId) (bytes : List UInt8)

/-- The bytes do not fit next to those of the other intents. -/
def NoRoom (rows : Rows) : Prop := stagedBytesTotalExcluding rows id + bytes.length > cfg.maxStagedBytes

def Gone (rows : Rows) : Prop := ∃ r, rows id = some r ∧ r.Terminal

/-- There is no room for the bytes of an intent that is not settled. -/
def Backed (rows : Rows) : Prop := NoRoom cfg id bytes rows ∧ ¬Gone id rows

def HasStaged (rows : Rows) : Prop := ∃ r, rows id = some r ∧ r.bytes = some bytes

/-- The answer is true of a moment of the call. -/
structure Truthful (seen : Set Rows) (result : IngestResult) : Prop where
  backpressure : ∀ message, result = .rejected id .backpressure message → ∃ rows ∈ seen, Backed cfg id bytes rows
  gone : result = .rejected id .expired "intent is no longer pending on this relayer" → ∃ rows ∈ seen, Gone id rows
  stored : ∀ blobId size, result = .accepted id blobId size → ∃ rows ∈ seen, HasStaged id bytes rows

/-- What misleads a read. -/
inductive Misleads (σ : Admission τ) : AdmissionEvent → Prop
  -- the bytes fit, but the total has the intent's own staged bytes in it
  | own (hfits : ¬NoRoom cfg id bytes σ.db.rows)
    (hover : stagedBytesTotal σ.db.rows + bytes.length > cfg.maxStagedBytes) : Misleads σ (.answered .stagedBytesTotal)
  -- the row is settled, and the store is full
  | settled (hgone : Gone id σ.db.rows)
    (hover : stagedBytesTotal σ.db.rows + bytes.length > cfg.maxStagedBytes) : Misleads σ (.answered .stagedBytesTotal)
  | settledThen {k} (hgone : Gone id σ.db.rows) (hfull : NoRoom cfg id bytes σ.db.rows) :
    Misleads σ (.answered (.stagedBytesTotalExcluding k))
  -- the room that the statement wanted has come free
  | freed {k snapshot} (hrefused : snapshot ∈ σ.refused) (hfull : NoRoom cfg id bytes snapshot)
    (hfits : ¬NoRoom cfg id bytes σ.db.rows) : Misleads σ (.answered (.stagedBytesTotalExcluding k))

def Unmisled (σ : Admission τ) (e : AdmissionEvent) : Prop := ¬Misleads cfg id bytes σ e

/-! ## What it is told -/

/-- An answer that the call was given, as far as it is true of a moment of the call. -/
def ToldTruly (seen : Set Rows) (refused : Option Rows) : (Σ c : IngestCall, Except Unit c.Answer) → Prop
  | ⟨.stagedBytesTotal, .ok n⟩ => n + bytes.length > cfg.maxStagedBytes → ∃ rows ∈ seen, Backed cfg id bytes rows
  | ⟨.upsert _ _ _ _, .ok true⟩ => ∃ rows ∈ seen, HasStaged id bytes rows
  | ⟨.upsert _ _ _ _, .ok false⟩ => refused.isSome
  | ⟨.stagedBytesTotalExcluding _, .ok n⟩ =>
    (n + bytes.length > cfg.maxStagedBytes → ∃ rows ∈ seen, Backed cfg id bytes rows) ∧
      (n + bytes.length ≤ cfg.maxStagedBytes → ∃ rows ∈ seen, Gone id rows)
  | _ => True

/-- What ingest calls for: its own row, the bytes under the cap, and the second sum once the statement wrote nothing. -/
def IngestBinds (h : History IngestCall IngestCall.Answer Unit) : IngestCall → Prop
  | .upsert k blob cap _ => k = id ∧ blob.bytes = bytes ∧ blob.size = bytes.length ∧ cap = some cfg.maxStagedBytes
  | .stagedBytesTotalExcluding k => k = id ∧ ∃ blob cap now, ⟨.upsert id blob cap now, .ok false⟩ ∈ h
  | _ => True

/-- What an outcome of `upsertBytes` says. -/
def UpsertTrue (seen : Set Rows) : UpsertOutcome → Prop
  | .accepted => ∃ rows ∈ seen, HasStaged id bytes rows
  | .backpressure => ∃ rows ∈ seen, Backed cfg id bytes rows
  | .terminal => ∃ rows ∈ seen, Gone id rows

variable {cfg id bytes} {seen : Set Rows} {refused : Option Rows} {h : History IngestCall IngestCall.Answer Unit}

variable (cfg id seen refused) in
theorem upsertBytes_tells (blob : StagedBytes) (hbytes : blob.bytes = bytes) (hsize : blob.size = bytes.length) :
    wp (IngestBinds cfg id bytes) (fun h r => (∀ x ∈ h, ToldTruly cfg id bytes seen refused x) →
      ∀ outcome, r = .ok outcome → UpsertTrue cfg id bytes seen outcome) h
      (upsertBytes id blob (some cfg.maxStagedBytes)) := by
  unfold upsertBytes
  rw [wp_bind, ingestCall, wp_call]
  refine ⟨trivial, fun now => ?_⟩
  cases now with
  | error e =>
    intro _ outcome houtcome
    cases houtcome
  | ok now =>
    rw [andThen_ok, wp_bind, ingestCall, wp_call]
    refine ⟨⟨rfl, hbytes, hsize, rfl⟩, fun wrote => ?_⟩
    cases wrote with
    | error e =>
      intro _ outcome houtcome
      cases houtcome
    | ok wrote =>
      rw [andThen_ok]
      cases wrote with
      | true =>
        intro htold outcome houtcome
        cases houtcome
        exact htold ⟨.upsert id blob (some cfg.maxStagedBytes) now, .ok true⟩ (by simp)
      | false =>
        show wp _ _ _ (ingestCall (.stagedBytesTotalExcluding id) >>= fun total =>
          pure (if total + blob.size > cfg.maxStagedBytes then UpsertOutcome.backpressure else .terminal))
        rw [wp_bind, ingestCall, wp_call]
        refine ⟨⟨rfl, blob, some cfg.maxStagedBytes, now, by simp⟩, fun total => ?_⟩
        cases total with
        | error e =>
          intro _ outcome houtcome
          cases houtcome
        | ok total =>
          intro htold outcome houtcome
          have hsum := htold ⟨.stagedBytesTotalExcluding id, .ok total⟩ (by simp)
          rw [← Except.ok.inj houtcome, hsize]
          split
          · rename_i hover
            exact hsum.1 hover
          · rename_i hunder
            exact hsum.2 (Nat.le_of_not_gt hunder)

theorem Truthful.of_gone {message : String} (hgone : ∃ rows ∈ seen, Gone id rows) :
    Truthful cfg id bytes seen (.rejected id .expired message) where
  backpressure m hback := by cases hback
  gone _ := hgone
  stored _ _ hstored := by cases hstored

theorem Truthful.of_backed {message : String} (hback : ∃ rows ∈ seen, Backed cfg id bytes rows) :
    Truthful cfg id bytes seen (.rejected id .backpressure message) where
  backpressure _ _ := hback
  gone hgone := by cases hgone
  stored _ _ hstored := by cases hstored

theorem Truthful.of_staged {blobId : String} {size : Nat} (hstaged : ∃ rows ∈ seen, HasStaged id bytes rows) :
    Truthful cfg id bytes seen (.accepted id blobId size) where
  backpressure m hback := by cases hback
  gone hgone := by cases hgone
  stored _ _ _ := hstaged

/-- The other refusals say nothing of the table. -/
theorem Truthful.other {reason : IngestRejectReason} {message : String} (hreason : reason ≠ .backpressure)
    (hmessage : reason = .expired → message ≠ "intent is no longer pending on this relayer") :
    Truthful cfg id bytes seen (.rejected id reason message) where
  backpressure m hback := by
    cases hback
    exact absurd rfl hreason
  gone hgone := by
    cases hgone
    exact absurd rfl (hmessage rfl)
  stored _ _ hstored := by cases hstored

theorem stage_tells (hstaged : cfg.staged = true) (blobId : String) (appId : Option String) (deadline : Nat) :
    wp (IngestBinds cfg id bytes) (fun h r => (∀ x ∈ h, ToldTruly cfg id bytes seen refused x) →
      ∀ result, r = .ok result → Truthful cfg id bytes seen result) h
      (stage cfg id bytes blobId appId deadline) := by
  unfold stage
  rw [hstaged, if_pos rfl, wp_bind]
  have htells := upsertBytes_tells (h := h) cfg id seen refused
      ⟨bytes, blobId, bytes.length, appId, some deadline⟩ rfl rfl
  refine wp_mono htells (fun _ _ hc => hc) fun h r hr => ?_
  cases r with
  | error e =>
    intro _ result hresult
    cases hresult
  | ok outcome =>
    rw [andThen_ok]
    cases outcome with
    | terminal =>
      intro htold result hresult
      obtain rfl := Except.ok.inj hresult
      exact .of_gone (hr htold _ rfl)
    | backpressure =>
      intro htold result hresult
      obtain rfl := Except.ok.inj hresult
      exact .of_backed (hr htold _ rfl)
    | accepted =>
      intro htold result hresult
      obtain rfl := Except.ok.inj hresult
      exact .of_staged (hr htold _ rfl)

theorem bindBytes_tells (hstaged : cfg.staged = true) (appId : Option String) (commitment : IntentCommitment) :
    wp (IngestBinds cfg id bytes) (fun h r => (∀ x ∈ h, ToldTruly cfg id bytes seen refused x) →
      ∀ result, r = .ok result → Truthful cfg id bytes seen result) h
      (bindBytes cfg id bytes appId commitment) := by
  unfold bindBytes
  rw [wp_bind, ingestCall, wp_call]
  refine ⟨trivial, fun blobId => ?_⟩
  cases blobId with
  | error e =>
    intro _ result hresult
    cases hresult
  | ok blobId =>
    rw [andThen_ok]
    split
    · intro _ result hresult
      obtain rfl := Except.ok.inj hresult
      exact .other IngestRejectReason.noConfusion IngestRejectReason.noConfusion
    · exact stage_tells hstaged _ _ _

theorem admitBytes_tells (hstaged : cfg.staged = true) (appId : Option String) (commitment : IntentCommitment) :
    wp (IngestBinds cfg id bytes) (fun h r => (∀ x ∈ h, ToldTruly cfg id bytes seen refused x) →
      ∀ result, r = .ok result → Truthful cfg id bytes seen result) h
      (admitBytes cfg id bytes appId commitment) := by
  unfold admitBytes
  split
  · intro _ result hresult
    obtain rfl := Except.ok.inj hresult
    exact .other IngestRejectReason.noConfusion IngestRejectReason.noConfusion
  · rw [wp_bind, ingestCall, wp_call]
    refine ⟨trivial, fun now => ?_⟩
    cases now with
    | error e =>
      intro _ result hresult
      cases hresult
    | ok now =>
      rw [andThen_ok]
      split
      · intro _ result hresult
        obtain rfl := Except.ok.inj hresult
        exact .other IngestRejectReason.noConfusion fun _ => by decide
      · split
        · intro _ result hresult
          obtain rfl := Except.ok.inj hresult
          exact .other IngestRejectReason.noConfusion IngestRejectReason.noConfusion
        · split
          · intro _ result hresult
            obtain rfl := Except.ok.inj hresult
            exact .other IngestRejectReason.noConfusion IngestRejectReason.noConfusion
          · unfold shed
            rw [hstaged, if_pos rfl, wp_bind, wp_bind, ingestCall, wp_call]
            refine ⟨trivial, fun total => ?_⟩
            cases total with
            | error e =>
              intro _ result hresult
              cases hresult
            | ok total =>
              rw [andThen_ok]
              by_cases hover : total + bytes.length > cfg.maxStagedBytes
              · rw [if_pos hover]
                intro htold result hresult
                obtain rfl := Except.ok.inj hresult
                exact .of_backed (htold ⟨.stagedBytesTotal, .ok total⟩ (by simp) hover)
              · rw [if_neg hover]
                exact bindBytes_tells hstaged appId commitment

variable (cfg id bytes seen refused) in
/-- An ingest that is told the truth answers with it. -/
theorem ingest_tells (hstaged : cfg.staged = true) (appId : Option String) :
    wp (IngestBinds cfg id bytes) (fun h r => (∀ x ∈ h, ToldTruly cfg id bytes seen refused x) →
      ∀ result, r = .ok result → Truthful cfg id bytes seen result) []
      (ingest cfg id bytes appId) := by
  unfold ingest
  rw [wp_bind, ingestCall, wp_call]
  refine ⟨trivial, fun found => ?_⟩
  cases found with
  | error e =>
    intro _ result hresult
    cases hresult
  | ok found =>
    rw [andThen_ok]
    cases found with
    | none =>
      intro _ result hresult
      obtain rfl := Except.ok.inj hresult
      exact .other IngestRejectReason.noConfusion IngestRejectReason.noConfusion
    | some commitment => exact admitBytes_tells hstaged appId commitment

/-! ## Runs -/

theorem ToldTruly.mono {seen' : Set Rows} {refused' : Option Rows} (hseen : seen ⊆ seen')
    (hrefused : refused.isSome = true → refused'.isSome = true) {x : Σ c : IngestCall, Except Unit c.Answer}
    (h : ToldTruly cfg id bytes seen refused x) : ToldTruly cfg id bytes seen' refused' x := by
  obtain ⟨c, r⟩ := x
  cases r with
  | error e => cases c <;> trivial
  | ok a =>
    cases c with
    | stagedBytesTotal =>
      intro hover
      obtain ⟨rows, hrows, hback⟩ := h hover
      exact ⟨rows, hseen hrows, hback⟩
    | upsert k blob cap now =>
      cases a with
      | true =>
        obtain ⟨rows, hrows, hstaged⟩ := h
        exact ⟨rows, hseen hrows, hstaged⟩
      | false => exact hrefused h
    | stagedBytesTotalExcluding k =>
      refine ⟨fun hover => ?_, fun hunder => ?_⟩
      · obtain ⟨rows, hrows, hback⟩ := h.1 hover
        exact ⟨rows, hseen hrows, hback⟩
      · obtain ⟨rows, hrows, hgone⟩ := h.2 hunder
        exact ⟨rows, hseen hrows, hgone⟩
    | getCommitment k => trivial
    | now => trivial
    | encodeBlob blob => trivial

/-- What holds of a call under way. -/
structure Admitted (cfg : IngestConfig) (id : IntentId) (bytes : List UInt8) (appId : Option String) (t : τ)
    (σ : Admission τ) : Prop where
  current : σ.db.rows ∈ σ.seen
  own : ∀ o, σ.db.opened t = some o → ∃ blob cap now next, σ.program = .await (.upsert id blob cap now) next ∧
    o.statement = (Op.upsertBytes id blob cap now).statement ∧
    (o.locked = [] ∨ ∃ r, o.written id = some (some r) ∧ r.bytes = some bytes)
  left : ∀ snapshot ∈ σ.refused, NoRoom cfg id bytes snapshot ∨ ∃ rows ∈ σ.seen, Gone id rows
  told : ∃ h, Leads (ingest cfg id bytes appId) h σ.program ∧ ∀ x ∈ h, ToldTruly cfg id bytes σ.seen σ.refused x

variable {appId : Option String} {t : τ} {σ σ' : Admission τ}

omit [DecidableEq τ] in
/-- What was told, with one more answer. -/
theorem Admitted.tell (h : Admitted cfg id bytes appId t σ) {c : IngestCall} {next}
    (hprogram : σ.program = .await c next)
    (r : Except Unit c.Answer) {seen : Set Rows} {refused : Option Rows} (hseen : σ.seen ⊆ seen)
    (hrefused : σ.refused.isSome = true → refused.isSome = true) (hr : ToldTruly cfg id bytes seen refused ⟨c, r⟩) :
    ∃ h, Leads (ingest cfg id bytes appId) h (next r) ∧ ∀ x ∈ h, ToldTruly cfg id bytes seen refused x := by
  obtain ⟨told, hlead, htold⟩ := h.told
  rw [hprogram] at hlead
  refine ⟨told ++ [⟨c, r⟩], hlead.answer r, fun x hx => ?_⟩
  rcases List.mem_append.mp hx with hx | hx
  · exact (htold x hx).mono hseen hrefused
  · rw [List.mem_singleton.mp hx]
    exact hr

omit [DecidableEq τ] in
/-- A call that is awaited is one that ingest makes. -/
theorem Admitted.binds (hstaged : cfg.staged = true) (h : Admitted cfg id bytes appId t σ) {c : IngestCall} {next}
    (hprogram : σ.program = .await c next) :
    ∃ told, IngestBinds cfg id bytes told c ∧ ∀ x ∈ told, ToldTruly cfg id bytes σ.seen σ.refused x := by
  obtain ⟨told, hlead, htold⟩ := h.told
  have hwp := wp_leads (ingest_tells cfg id bytes σ.seen σ.refused hstaged appId) hlead
  rw [hprogram] at hwp
  exact ⟨told, hwp.1, htold⟩

/-- The statement that stages the bytes writes them. -/
theorem upsert_stages {blob : StagedBytes} {cap : Option Nat} {now : Nat} {rows : Rows} {latest v : Option Row}
    (h : (Op.upsertBytes id blob cap now).statement.write rows id latest = some v) :
    ∃ r, v = some r ∧ r.bytes = some blob.bytes := by
  obtain ⟨-, ⟨-, rfl⟩ | ⟨r, -, -, rfl⟩⟩ := upsert_some.mp h
  · exact ⟨_, rfl, rfl⟩
  · exact ⟨_, rfl, rfl⟩

/-- It leaves a row alone for want of room in its snapshot, or because the row is settled. -/
theorem upsert_left {blob : StagedBytes} {now : Nat} {snapshot rows : Rows} (hsize : blob.size = bytes.length)
    (h : ¬(Op.upsertBytes id blob (some cfg.maxStagedBytes) now).statement.targets snapshot [] id ∨
      (Op.upsertBytes id blob (some cfg.maxStagedBytes) now).statement.write snapshot id (rows id) = none) :
    NoRoom cfg id bytes snapshot ∨ Gone id rows := by
  rcases h with htarget | hwrite
  · refine Or.inl ?_
    by_contra hroom
    refine htarget ⟨rfl, fun cap hcap => ?_⟩
    cases hcap
    rw [hsize]
    exact Nat.le_of_not_gt hroom
  · refine Or.inr ?_
    have hcases : ∀ v, (Op.upsertBytes id blob (some cfg.maxStagedBytes) now).statement.write snapshot id
        (rows id) ≠ some v := by
      intro v hv
      rw [hwrite] at hv
      cases hv
    cases hrow : rows id with
    | none => exact absurd (upsert_some.mpr ⟨rfl, Or.inl ⟨hrow, rfl⟩⟩) (hcases _)
    | some r =>
      refine ⟨r, hrow, fun hactive => ?_⟩
      exact hcases _ (upsert_some.mpr ⟨rfl, Or.inr ⟨r, hrow, hactive, rfl⟩⟩)

omit [DecidableEq τ] in
/-- A call that is answered without a statement of its own has none under way. -/
theorem Admitted.no_statement (h : Admitted cfg id bytes appId t σ) {c : IngestCall} {next}
    (hprogram : σ.program = .await c next) {a : c.Answer} (ha : c.Reads σ.db.rows a) : σ.db.opened t = none := by
  by_contra hopen
  obtain ⟨o, ho⟩ := Option.ne_none_iff_exists'.mp hopen
  obtain ⟨blob, cap, now, next', hawaits, -⟩ := h.own o ho
  rw [hprogram] at hawaits
  cases hawaits
  exact ha

omit [DecidableEq τ] in
/-- What a read that is not misled tells. -/
theorem Admitted.reads (hstaged : cfg.staged = true) (h : Admitted cfg id bytes appId t σ) {c : IngestCall} {next}
    (hprogram : σ.program = .await c next) {a : c.Answer} (ha : c.Reads σ.db.rows a)
    (hfair : Unmisled cfg id bytes σ (.answered c)) : ToldTruly cfg id bytes σ.seen σ.refused ⟨c, .ok a⟩ := by
  obtain ⟨told, hbinds, htold⟩ := h.binds hstaged hprogram
  cases c with
  | getCommitment k => trivial
  | now => trivial
  | encodeBlob blob => trivial
  | upsert k blob cap now => exact ha.elim
  | stagedBytesTotal =>
    intro hover
    have hsum : a = StagedIntentStore.stagedBytesTotal σ.db.rows := ha
    rw [hsum] at hover
    have hfull : NoRoom cfg id bytes σ.db.rows := by
      by_contra hfits
      exact hfair (.own hfits hover)
    exact ⟨_, h.current, hfull, fun hgone => hfair (.settled hgone hover)⟩
  | stagedBytesTotalExcluding k =>
    obtain ⟨rfl, blob, cap, now, hmem⟩ := hbinds
    obtain rfl : a = StagedIntentStore.stagedBytesTotalExcluding σ.db.rows k := ha
    refine ⟨fun hfull => ⟨_, h.current, hfull, fun hgone => hfair (.settledThen hgone hfull)⟩, fun hunder => ?_⟩
    have hfits : ¬NoRoom cfg k bytes σ.db.rows := Nat.not_lt_of_le hunder
    obtain ⟨snapshot, hsnapshot⟩ := Option.isSome_iff_exists.mp (htold _ hmem)
    exact (h.left snapshot hsnapshot).resolve_left fun hfull => hfair (.freed hsnapshot hfull hfits)

/-- Each step keeps what holds of the call. -/
theorem Admitted.step (hstaged : cfg.staged = true) (h : Admitted cfg id bytes appId t σ) {e : AdmissionEvent}
    (hstep : AdmissionStep t σ e σ') (hfair : Unmisled cfg id bytes σ e) : Admitted cfg id bytes appId t σ' := by
  cases hstep with
  | @others db hdb hown =>
    have hseen : σ.seen ⊆ insert db.rows σ.seen := Set.subset_insert ..
    refine ⟨Set.mem_insert .., fun o ho => h.own o (hown ▸ ho), fun snapshot hs => ?_, ?_⟩
    · rcases h.left snapshot hs with hfull | ⟨rows, hrows, hgone⟩
      · exact Or.inl hfull
      · exact Or.inr ⟨rows, hseen hrows, hgone⟩
    · obtain ⟨told, hlead, htold⟩ := h.told
      exact ⟨told, hlead, fun x hx => (htold x hx).mono hseen fun hr => hr⟩
  | @answered c next hprogram a ha =>
    refine ⟨h.current, fun o ho => ?_, h.left,
      h.tell hprogram (.ok a) (Set.Subset.refl _) (fun hr => hr) (h.reads hstaged hprogram ha hfair)⟩
    exact absurd ho (by simp [h.no_statement hprogram ha])
  | @failed c next hprogram =>
    refine ⟨h.current, fun o ho => ?_, h.left, h.tell hprogram (.error ()) (Set.Subset.refl _) (fun hr => hr) ?_⟩
    · exact absurd (ho.symm.trans (σ.db.rollback_opened t)) (Option.some_ne_none _)
    · cases c <;> trivial
  | @began k blob cap now next hprogram hidle =>
    refine ⟨h.current, fun o ho => ?_, h.left, h.told⟩
    obtain rfl := Option.some.inj ((σ.db.start_opened t _).symm.trans ho)
    obtain ⟨told, ⟨rfl, -⟩, -⟩ := h.binds hstaged hprogram
    exact ⟨blob, cap, now, next, hprogram, rfl, Or.inl rfl⟩
  | @locked k blob cap now next hprogram o ho v hfree htarget hwrite =>
    refine ⟨h.current, fun o' ho' => ?_, h.left, h.told⟩
    obtain rfl := Option.some.inj ((σ.db.lock_opened t o k v).symm.trans ho')
    obtain ⟨blob', cap', now', next', hprogram', hstatement, -⟩ := h.own o ho
    rw [hprogram] at hprogram'
    cases hprogram'
    obtain ⟨told, ⟨-, hbytes, -⟩, -⟩ := h.binds hstaged hprogram
    rw [hstatement] at hwrite
    obtain ⟨r, rfl, hr⟩ := upsert_stages hwrite
    exact ⟨blob, cap, now, next, hprogram, hstatement, Or.inr ⟨r, o.lock_written_self .., hbytes ▸ hr⟩⟩
  | @wrote k blob cap now next hprogram o ho hlocked r hr =>
    have hseen : σ.seen ⊆ insert (σ.db.commit t o).rows σ.seen := Set.subset_insert ..
    refine ⟨Set.mem_insert .., fun o' ho' => ?_, fun snapshot hs => ?_, h.tell hprogram r hseen (fun hr => hr) ?_⟩
    · exact absurd (ho'.symm.trans (σ.db.commit_opened t o)) (Option.some_ne_none _)
    · rcases h.left snapshot hs with hfull | ⟨rows, hrows, hgone⟩
      · exact Or.inl hfull
      · exact Or.inr ⟨rows, hseen hrows, hgone⟩
    · rcases hr with rfl | rfl
      · obtain ⟨blob', cap', now', next', hprogram', hstatement, hnone | ⟨row, hwritten, hbytes⟩⟩ := h.own o ho
        · exact absurd hnone hlocked
        · refine ⟨_, Set.mem_insert .., row, ?_, hbytes⟩
          show (o.written id).getD (σ.db.rows id) = some row
          rw [hwritten]
          rfl
      · trivial
  | @wroteNothing k blob cap now next hprogram o ho hlocked hleft =>
    obtain ⟨blob', cap', now', next', hprogram', hstatement, -⟩ := h.own o ho
    rw [hprogram] at hprogram'
    cases hprogram'
    obtain ⟨told, ⟨-, -, hsize, rfl⟩, -⟩ := h.binds hstaged hprogram
    rw [hstatement] at hleft
    refine ⟨h.current, fun o' ho' => ?_, fun snapshot hs => ?_,
      h.tell hprogram (.ok false) (Set.Subset.refl _) (fun _ => rfl) rfl⟩
    · exact absurd (ho'.symm.trans (σ.db.rollback_opened t)) (Option.some_ne_none _)
    · cases hs
      rcases upsert_left hsize (hleft.imp_right And.right) with hfull | hgone
      · exact Or.inl hfull
      · exact Or.inr ⟨_, h.current, hgone⟩

/-- Some steps of a call and of the statements around it, each of which meets `P`. -/
abbrev Admission.Leads (P : Admission τ → AdmissionEvent → Prop) (t : τ) : Admission τ → Admission τ → Prop :=
  Relation.ReflTransGen fun σ σ' => ∃ e, P σ e ∧ AdmissionStep t σ e σ'

/-- An ingest that begins over any table, with any statements of other sessions under way. -/
def Admission.start (cfg : IngestConfig) (id : IntentId) (bytes : List UInt8) (appId : Option String)
    (db : Database τ IntentId Row) : Admission τ := ⟨db, ingest cfg id bytes appId, {db.rows}, none⟩

/-- If no read is misled, whatever runs in between, the answer of an ingest is true of a moment of its call. -/
theorem ingest_truthful (hstaged : cfg.staged = true) {db : Database τ IntentId Row} (hidle : db.opened t = none)
    (hrun : Admission.Leads (Unmisled cfg id bytes) t (.start cfg id bytes appId db) σ) {result : IngestResult}
    (hresult : σ.program = .done result) : Truthful cfg id bytes σ.seen result := by
  have hstart : Admitted cfg id bytes appId t (.start cfg id bytes appId db) := by
    refine ⟨rfl, fun o ho => ?_, fun snapshot hs => ?_, [], .start, fun x hx => absurd hx List.not_mem_nil⟩
    · exact absurd (ho.symm.trans hidle) (Option.some_ne_none _)
    · cases hs
  have hend : Admitted cfg id bytes appId t σ := by
    clear hresult
    induction hrun with
    | refl => exact hstart
    | tail _ hlast ih =>
      obtain ⟨e, hfair, hstep⟩ := hlast
      exact ih.step hstaged hstep hfair
  obtain ⟨told, hlead, htold⟩ := hend.told
  have hwp := wp_leads (ingest_tells cfg id bytes σ.seen σ.refused hstaged appId) hlead
  rw [hresult] at hwp
  exact hwp htold result rfl

/-! ## A live intent that is called dead -/

section

variable {P : Admission τ → AdmissionEvent → Prop} {σ₀ : Admission τ}

theorem Admission.Leads.answer (hrun : Admission.Leads P t σ₀ σ) {c : IngestCall} {next}
    (hprogram : σ.program = .await c next) (a : c.Answer) (ha : c.Reads σ.db.rows a) (hP : P σ (.answered c)) :
    Admission.Leads P t σ₀ { σ with program := next (.ok a) } := hrun.tail ⟨_, hP, .answered hprogram a ha⟩

/-- A statement on one row that another session runs meanwhile. -/
theorem Admission.Leads.meanwhile (hrun : Admission.Leads P t σ₀ σ) (hP : ∀ σ, P σ .others)
    (hcurrent : σ.db.rows ∈ σ.seen) (hidle : ∀ t, σ.db.opened t = none) {t' : τ} (ht : t' ≠ t) (op : Op) {k : IntentId}
    {v : Option Row} (htarget : op.statement.targets σ.db.rows [] k)
    (hwrite : op.statement.write σ.db.rows k (σ.db.rows k) = some v) :
    Admission.Leads P t σ₀ { σ with
      db := ⟨Function.update σ.db.rows k v, σ.db.opened⟩
      seen := insert (Function.update σ.db.rows k v) σ.seen } := by
  let o : Open IntentId Row := ⟨op.statement, σ.db.rows, [], fun _ => none⟩
  let started := σ.db.start t' op.statement
  let locked := started.lock t' o k v
  have hstart : Step statements σ.db started := .start op.statement ⟨op, rfl⟩ (hidle t')
  have hfree : started.Unlocked k := by
    intro u o' ho'
    rcases opened_update ho' with ⟨-, hnew⟩ | ⟨-, hold⟩
    · cases hnew
      rfl
    · exact absurd (hold.symm.trans (hidle u)) (Option.some_ne_none _)
  have hlock : Step statements started locked := .lock o k v (σ.db.start_opened t' _) hfree htarget hwrite
  have hcommit : Step statements locked (locked.commit t' (o.lock k v)) := .commit _ (started.lock_opened t' o k v)
  have hown : ∀ e, Function.update σ.db.opened t' e t = σ.db.opened t := fun e => Function.update_of_ne ht.symm ..
  have hclosed : (locked.commit t' (o.lock k v)).opened = σ.db.opened := by
    show Function.update (Function.update (Function.update σ.db.opened t' _) t' _) t' none = _
    rw [Function.update_idem, Function.update_idem, ← hidle t', Function.update_eq_self]
  have hrows : locked.commit t' (o.lock k v) = ⟨Function.update σ.db.rows k v, σ.db.opened⟩ := by
    rw [← hclosed, ← rows_update]
    rfl
  have hseen : insert σ.db.rows σ.seen = σ.seen := Set.insert_eq_of_mem hcurrent
  have h1 := Relation.ReflTransGen.tail hrun ⟨_, hP _, .others hstart (hown _)⟩
  have h2 := Relation.ReflTransGen.tail h1 ⟨_, hP _, .others hlock (Function.update_of_ne ht.symm ..)⟩
  have h3 := Relation.ReflTransGen.tail h2 ⟨_, hP _, .others hcommit (Function.update_of_ne ht.symm ..)⟩
  have hend : insert σ.db.rows (insert σ.db.rows σ.seen) = σ.seen := by rw [hseen, hseen]
  rw [hrows] at h3
  rwa [show started.rows = σ.db.rows from rfl, show locked.rows = σ.db.rows from rfl, hend] at h3

end

/-- A store with room for one byte. -/
def exampleIngest : IngestConfig := { maxStagedBytes := 1 }

/-- An ingest of a byte into the empty store. -/
def exampleAdmission : Admission Nat := .start exampleIngest "0x01" [7] none emptyStore

/-- What it stages. -/
def exampleOwn : StagedBytes := ⟨[7], exampleBlobId, 1, none, some 3600000⟩

def exampleStatement : Statement IntentId Row := (Op.upsertBytes "0x01" exampleOwn (some 1) 0).statement

/-- With one other row, the others' bytes are those of that row. -/
theorem excluding_one {k : IntentId} (hk : k ≠ id) (r : Row) :
    stagedBytesTotalExcluding (Function.update (fun _ => none) k (some r)) id = stagedSize (some r) := by
  have hfinite := finitelyMany_empty.update k (some r)
  have hown : Function.update (fun _ => none) k (some r) id = none := Function.update_of_ne hk.symm ..
  have htotal := stagedBytesTotal_eq hfinite id
  rw [hown, stagedSize_none, Nat.zero_add, stagedBytesTotal_update finitelyMany_empty rfl, stagedBytesTotal_empty,
    Nat.add_zero] at htotal
  exact htotal.symm

/-- A byte fits into the empty store. -/
theorem byte_targets {blob : StagedBytes} (hsize : blob.size = 1) (id : IntentId) :
    (Op.upsertBytes id blob (some 1) 0).statement.targets (fun _ => none) [] id := by
  refine ⟨rfl, fun cap hcap => ?_⟩
  cases hcap
  rw [excluding_empty, hsize]

theorem start_rollback {db : Database τ IntentId Row} {t : τ} {s : Statement IntentId Row}
    (hidle : db.opened t = none) :
    (db.start t s).rollback t = db := by
  rw [Database.rollback, Database.start, Function.update_idem, ← hidle, Function.update_eq_self]

/-- The byte of another intent. -/
def exampleOther : StagedBytes := ⟨[8], "other", 1, none, none⟩

def exampleOtherRow : Row := bytesInserted exampleOther 0

def exampleFull : Rows := Function.update (fun _ => none) "0x02" (some exampleOtherRow)

theorem exampleFull_total : stagedBytesTotalExcluding exampleFull "0x01" = 1 :=
  excluding_one (by decide) exampleOtherRow

theorem exampleFull_absent : exampleFull "0x01" = none := by
  rw [exampleFull, Function.update_of_ne (by decide)]

/-- The ingest before its second sum, with the other's byte in the store. -/
def exampleWaiting (next : Except Unit Nat → Ingesting IngestResult) : Admission Nat where
  db := ⟨exampleFull, fun _ => none⟩
  program := .await (.stagedBytesTotalExcluding "0x01") next
  seen := insert exampleFull {fun _ => none}
  refused := some exampleFull

/-- The ingest finds room; then another intent's byte takes it, and the statement writes nothing. What the call answers
is up to its second sum. -/
theorem exampleAdmission_refused {P : Admission Nat → AdmissionEvent → Prop}
    (hP : ∀ σ c, σ.db = emptyStore → σ.refused = none → P σ (.answered c)) (hothers : ∀ σ, P σ .others)
    (hbegan : ∀ σ, P σ .began) (hwrote : ∀ σ, P σ .wroteNothing) :
    ∃ next, Admission.Leads P 0 exampleAdmission (exampleWaiting next) ∧
      next (.ok (0 : Nat)) = .done (.rejected "0x01" .expired "intent is no longer pending on this relayer") ∧
      ∃ message, next (.ok (1 : Nat)) = .done (.rejected "0x01" .backpressure message) := by
  have h0 : Admission.Leads P 0 exampleAdmission exampleAdmission := .refl
  have h1 := h0.answer (c := .getCommitment "0x01") rfl (some exampleCommitment) trivial (hP _ _ rfl rfl)
  have h2 := h1.answer (c := .now) rfl (0 : Nat) trivial (hP _ _ rfl rfl)
  have h3 := h2.answer (c := .stagedBytesTotal) rfl (0 : Nat) stagedBytesTotal_empty.symm (hP _ _ rfl rfl)
  have h4 := h3.answer (c := .encodeBlob [7]) rfl exampleBlobId trivial (hP _ _ rfl rfl)
  have h5 := h4.answer (c := .now) rfl (0 : Nat) trivial (hP _ _ rfl rfl)
  obtain ⟨next, hnext⟩ : ∃ next : Except Unit Bool → Ingesting IngestResult, Admission.Leads P 0 exampleAdmission
      ⟨emptyStore, .await (.upsert "0x01" exampleOwn (some 1) 0) next, {fun _ => none}, none⟩ ∧
      ∃ next', next (.ok false) = .await (.stagedBytesTotalExcluding "0x01") next' ∧
      next' (.ok (0 : Nat)) = .done (.rejected "0x01" .expired "intent is no longer pending on this relayer") ∧
      ∃ message, next' (.ok (1 : Nat)) = .done (.rejected "0x01" .backpressure message) :=
    ⟨_, h5, _, rfl, rfl, _, rfl⟩
  obtain ⟨hrun, next', hrefused, hdone, message, hback⟩ := hnext
  have hother : Admission.Leads P 0 exampleAdmission
      ⟨⟨exampleFull, fun _ => none⟩, .await (.upsert "0x01" exampleOwn (some 1) 0) next,
        insert exampleFull {fun _ => none}, none⟩ :=
    Admission.Leads.meanwhile hrun hothers rfl (fun _ => rfl) Nat.one_ne_zero
      (.upsertBytes "0x02" exampleOther (some 1) 0) (byte_targets rfl _) (upsert_some.mpr ⟨rfl, Or.inl ⟨rfl, rfl⟩⟩)
  have hnoroom : ¬exampleStatement.targets exampleFull [] "0x01" := by
    intro htarget
    have hfits := htarget.2 1 rfl
    rw [exampleFull_total] at hfits
    exact absurd hfits (by decide)
  have hstarted := hother.tail ⟨.began, hbegan _, .began rfl rfl⟩
  have hleft := hstarted.tail
    ⟨.wroteNothing, hwrote _, .wroteNothing rfl (Database.start_opened ..) rfl (Or.inl hnoroom)⟩
  rw [start_rollback rfl, hrefused] at hleft
  exact ⟨next', hleft, hdone, message, hback⟩

/-- In the empty store no read is misled. -/
theorem unmisled_empty {σ : Admission Nat} (c : IngestCall) (hdb : σ.db = emptyStore) (hrefused : σ.refused = none) :
    Unmisled exampleIngest "0x01" [7] σ (.answered c) := by
  have hrows : σ.db.rows = fun _ => none := by
    rw [hdb]
    rfl
  rintro (⟨-, hover⟩ | ⟨-, hover⟩ | ⟨-, hfull⟩ | ⟨hsnapshot, -, -⟩)
  · rw [hrows, stagedBytesTotal_empty] at hover
    exact absurd hover (by decide)
  · rw [hrows, stagedBytesTotal_empty] at hover
    exact absurd hover (by decide)
  · rw [NoRoom, hrows, excluding_empty] at hfull
    exact absurd hfull (by decide)
  · rw [hrefused] at hsnapshot
    cases hsnapshot

/-- Another intent's byte takes the room before the statement and keeps it: the answer is want of room, and there is
none for this intent, which no table has. -/
theorem ingest_truthful_one : ∃ σ message, Admission.Leads (Unmisled exampleIngest "0x01" [7]) 0 exampleAdmission σ ∧
    σ.program = .done (.rejected "0x01" .backpressure message) ∧
    ∃ rows ∈ σ.seen, Backed exampleIngest "0x01" [7] rows := by
  obtain ⟨next, hrun, -, message, hback⟩ := exampleAdmission_refused (fun σ c => unmisled_empty c) (fun _ => nofun)
    (fun _ => nofun) fun _ => nofun
  have hfair : Unmisled exampleIngest "0x01" [7] (exampleWaiting next)
      (.answered (.stagedBytesTotalExcluding "0x01")) := by
    rintro (- | - | ⟨⟨r, hr, -⟩, -⟩ | ⟨-, -, hfits⟩)
    · have hr : exampleFull "0x01" = some r := hr
      rw [exampleFull_absent] at hr
      cases hr
    · refine hfits ?_
      show stagedBytesTotalExcluding exampleFull "0x01" + 1 > 1
      rw [exampleFull_total]
      decide
  have hsummed := Relation.ReflTransGen.tail hrun
    ⟨_, hfair, .answered (c := .stagedBytesTotalExcluding "0x01") rfl (1 : Nat) exampleFull_total.symm⟩
  exact ⟨_, message, hsummed, hback, (ingest_truthful rfl rfl hsummed hback).backpressure message rfl⟩

/-- Another intent's byte takes the room before the statement, and is freed before the second sum: the intent, whose
row no table has, is answered as one that is no longer pending. -/
theorem ingest_misled : ∃ σ : Admission Nat, Admission.Leads (fun _ _ => True) 0 exampleAdmission σ ∧
    σ.program = .done (.rejected "0x01" .expired "intent is no longer pending on this relayer") ∧
    ¬Truthful exampleIngest "0x01" [7] σ.seen
      (.rejected "0x01" .expired "intent is no longer pending on this relayer") := by
  obtain ⟨next, hleft, hdone, -⟩ := exampleAdmission_refused (P := fun _ _ => True) (fun _ _ _ _ => trivial)
    (fun _ => trivial) (fun _ => trivial) fun _ => trivial
  have hrow : exampleFull "0x02" = some exampleOtherRow := by rw [exampleFull, Function.update_self]
  let freed : Row := { exampleOtherRow with bytes := none, updatedAt := 0 }
  have hfreed : Admission.Leads (fun _ _ => True) 0 exampleAdmission
      ⟨⟨Function.update exampleFull "0x02" (some freed), fun _ => none⟩,
        .await (.stagedBytesTotalExcluding "0x01") next,
        insert (Function.update exampleFull "0x02" (some freed)) (insert exampleFull {fun _ => none}),
          some exampleFull⟩ :=
    Admission.Leads.meanwhile (σ := exampleWaiting next) hleft (fun _ => trivial) (Set.mem_insert ..) (fun _ => rfl)
      Nat.one_ne_zero
      (.freeBytes "0x02" 0) ⟨rfl, exampleOtherRow, hrow, rfl⟩
      (updateRow_some.mpr ⟨rfl, exampleOtherRow, hrow, rfl, rfl⟩)
  have hroom : stagedBytesTotalExcluding (Function.update exampleFull "0x02" (some freed)) "0x01" = 0 := by
    rw [exampleFull, Function.update_idem]
    exact excluding_one (by decide) freed
  have hsummed := hfreed.tail ⟨_, trivial, .answered (c := .stagedBytesTotalExcluding "0x01") rfl (0 : Nat) hroom.symm⟩
  refine ⟨_, hsummed, hdone, fun h => ?_⟩
  obtain ⟨rows, hrows, r, hr, -⟩ := h.gone rfl
  rcases hrows with hrows | hrows | hrows
  · rw [hrows, Function.update_of_ne (by decide), exampleFull_absent] at hr
    cases hr
  · rw [hrows, exampleFull_absent] at hr
    cases hr
  · rw [hrows] at hr
    cases hr

end Bosphor.Relayer

import Bosphor.Relayer.StoreGrounds
import Bosphor.Relayer.UploadGuard

/-!
# The ledger of profit and loss

The ledger that the relayer keeps in memory, one entry an intent, and the
attempts on one intent that book into it. A completion is booked for the
decision of the attempt that comes to its end, and only the attempt that made
the upload has one: an intent whose upload was approved is booked under that
decision in every run in which each mark of its row as done that lands is
answered, in an attempt that found no upload, before any entry
(`pnl_complete`). An attempt that resumes past the upload books nothing
(`pnl_incomplete`).
-/

namespace Bosphor.Relayer

open StagedIntentStore Async

/-- Outcome of an intent from the accounting's point of view. -/
inductive PnlStatus where
  | completed
  | skipped
  deriving DecidableEq

/-- One per-intent profit-and-loss record. -/
structure PnlEntry where
  intentId : IntentId
  status : PnlStatus
  collectedUsd : ℚ
  spentUsd : ℚ
  netUsd : ℚ
  timestampMs : Nat
  deriving DecidableEq

/-- The entries, by intent. -/
abbrev PnlLedger := IntentId → Option PnlEntry

namespace PnlLedger

variable (fl : Rounding)

/-- Record an intent's outcome: the first entry stays. -/
def record (ledger : PnlLedger) (entry : PnlEntry) : PnlLedger :=
  match ledger entry.intentId with
  | some _ => ledger
  | none =>
    Function.update ledger entry.intentId
      (some { entry with netUsd := fl.sub entry.collectedUsd entry.spentUsd })

/-- Book a completed intent and its P&L. -/
def recordCompletion (now : Nat) (ledger : PnlLedger) (intentId : IntentId) (collectedUsd spentUsd : ℚ) : PnlLedger :=
  ledger.record fl ⟨intentId, .completed, collectedUsd, spentUsd, 0, now⟩

/-- Book a skipped intent: zero spend, zero loss. -/
def recordSkip (now : Nat) (ledger : PnlLedger) (intentId : IntentId) : PnlLedger :=
  ledger.record fl ⟨intentId, .skipped, 0, 0, 0, now⟩

/-- What the end of a pipeline books. -/
def book (now : Nat) (ledger : PnlLedger) (intentId : IntentId) : Booking → PnlLedger
  | .nothing => ledger
  | .skip _ => ledger.recordSkip fl now intentId
  | .completion collectedUsd spentUsd => ledger.recordCompletion fl now intentId collectedUsd spentUsd

/-- The entry of an intent is that of a completed store under the decision. -/
def Books (ledger : PnlLedger) (id : IntentId) (d : BreakEvenDecision) : Prop :=
  ∃ entry, ledger id = some entry ∧ entry.intentId = id ∧ entry.status = .completed ∧
    entry.collectedUsd = d.escrowUsd ∧ entry.spentUsd = d.costUsd

variable {fl} {ledger : PnlLedger} {id : IntentId}

theorem record_first {entry : PnlEntry} (hfree : ledger entry.intentId = none) :
    ledger.record fl entry entry.intentId =
      some { entry with netUsd := fl.sub entry.collectedUsd entry.spentUsd } := by
  unfold record
  rw [hfree]
  exact Function.update_self ..

/-- An entry that is there stays. -/
theorem record_kept {entry kept : PnlEntry} (hkept : ledger id = some kept) :
    ledger.record fl entry id = some kept := by
  unfold record
  cases hfirst : ledger entry.intentId with
  | some first => exact hkept
  | none =>
    have hid : id ≠ entry.intentId := by
      rintro rfl
      rw [hkept] at hfirst
      cases hfirst
    show Function.update ledger entry.intentId _ id = some kept
    rw [Function.update_of_ne hid]
    exact hkept

theorem Books.book {d : BreakEvenDecision} (h : ledger.Books id d) (now : Nat) (b : Booking) :
    (ledger.book fl now id b).Books id d := by
  obtain ⟨entry, hentry, hwhose⟩ := h
  cases b with
  | nothing => exact ⟨entry, hentry, hwhose⟩
  | skip reason => exact ⟨entry, record_kept hentry, hwhose⟩
  | completion collectedUsd spentUsd => exact ⟨entry, record_kept hentry, hwhose⟩

theorem book_completion (now : Nat) (d : BreakEvenDecision) (hfree : ledger id = none) :
    (ledger.book fl now id (.of (some d))).Books id d :=
  ⟨_, record_first hfree, rfl, rfl, rfl, rfl⟩

end PnlLedger

/-! ## The attempts on one intent -/

/-- The staged rows and the ledger of a process, with its attempt on the intent. -/
structure Books where
  rows : Rows
  pnl : PnlLedger := fun _ => none
  attempt : Option Attempt := none
  /-- The attempt, as it stood, that persisted the last upload. -/
  uploader : Option Attempt := none

namespace Books

inductive Event where
  | start
  | answer (c : Call) (r : Except Failure c.Answer) (landed : Bool)
  | settle
  | leave
  | statement (op : Op)

/-- The statements of others: neither an upload's nor a completion's. -/
def Aside : Op → Prop
  | .persistUpload .. | .markDone .. => False
  | _ => True

/-- The attempt that made the last upload, after a call of `a` landed. -/
def uploaderAfter (a : Attempt) (c : Call) (uploader : Option Attempt) : Option Attempt :=
  match c with
  | .persistUpload .. => some a
  | _ => uploader

variable (fl : Rounding) (cfg : Config) (id : IntentId)

/-- One step. A call that reports an error may have landed; an attempt that came to its end books before anything
else is done. -/
inductive Step : Books → Event → Books → Prop
  | start {σ row} (sender : String) (commitment : Option IntentCommitment) (hidle : σ.attempt = none)
    (hrow : σ.rows id = some row) (hactive : row.state = .active) :
    Step σ .start { σ with attempt := some (.start fl cfg ⟨row, id⟩ sender commitment) }
  | answer {σ a c next} (now : Nat) (r : Except Failure c.Answer) (landed : Bool) (ha : σ.attempt = some a)
    (hrest : a.rest = .await c next) (hlanded : landed = true ∨ ∃ err, r = .error err) :
    Step σ (.answer c r landed)
      { σ with
        rows := if landed then c.run now σ.rows else σ.rows
        attempt := some { a with told := a.told ++ [⟨c, r⟩], rest := next r }
        uploader := if landed then uploaderAfter a c σ.uploader else σ.uploader }
  | settle {σ a b} (now : Nat) (ha : σ.attempt = some a) (hrest : a.rest = .done b) :
    Step σ .settle { σ with attempt := none, pnl := σ.pnl.book fl now id b }
  | leave {σ a} (ha : σ.attempt = some a) (hrest : ∀ b, a.rest ≠ .done b) : Step σ .leave { σ with attempt := none }
  | statement {σ} (op : Op) (hop : Aside op) : Step σ (.statement op) { σ with rows := op.run σ.rows }

/-- Some steps, each of which meets `C`. -/
abbrev Leads (C : Books → Event → Prop) : Books → Books → Prop :=
  Relation.ReflTransGen fun σ τ => ∃ e, C σ e ∧ Step fl cfg id σ e τ

/-- The decision that approved the last upload. -/
def Approved (σ : Books) (d : BreakEvenDecision) : Prop :=
  ∃ u, σ.uploader = some u ∧ Decided fl cfg u.row u.told (some d)

/-- Once the row is marked done, and no attempt is under way, the ledger holds the entry of a completed store under
the decision that approved its upload. -/
def Complete (σ : Books) : Prop :=
  σ.attempt = none → ∀ row, σ.rows id = some row → row.state = .done → ∀ d, Approved fl cfg σ d → σ.pnl.Books id d

/-- A mark as done that lands after an approved upload is answered, in an attempt that found no upload, before any
entry but its own. -/
def Timely (σ : Books) : Event → Prop
  | .answer (.markDone k) r landed => landed = true → ∀ d, Approved fl cfg σ d → σ.pnl.Books k d ∨
      r = .ok () ∧ σ.pnl k = none ∧ ∀ a, σ.attempt = some a → a.row.walrusObjectId = none
  | _ => True

variable {fl cfg id} {σ τ : Books} {e : Event}

/-- A row is done when it was before, or was marked so. -/
theorem run_done {op : Op} {rows : Rows} {row' : Row} (hrow' : op.run rows id = some row')
    (hdone : row'.state = .done) :
    (∃ row, rows id = some row ∧ row.state = .done) ∨ ∃ now, op = .markDone id now := by
  obtain hsame | hw := op.run_cases rows id
  · exact Or.inl ⟨row', hsame ▸ hrow', hdone⟩
  rw [hrow'] at hw
  obtain ⟨-, hfresh⟩ | ⟨row, hrow, hwrite⟩ := Op.write_row hw
  · rw [hfresh.state] at hdone
    cases hdone
  · cases hwrite.state with
    | kept h => exact Or.inl ⟨row, hrow, h ▸ hdone⟩
    | done now hop => exact Or.inr ⟨now, hop⟩
    | dead text now hop h =>
      rw [h] at hdone
      cases hdone
    | expired hop h =>
      rw [h] at hdone
      cases hdone

/-- An attempt that has marked its row done is to book the decision, unless that is booked. -/
def Settling (fl : Rounding) (cfg : Config) (id : IntentId) (σ : Books) (a : Attempt) : Prop :=
  (∃ r, ⟨.markDone id, r⟩ ∈ a.told) ∧ ∀ d, Approved fl cfg σ d → σ.pnl.Books id d ∨
    ⟨.markDone id, .ok ()⟩ ∈ a.told ∧ σ.pnl id = none ∧ ∃ up, ⟨.persistUpload id up, .ok ()⟩ ∈ a.told

/-- What holds of the books whatever happens. -/
structure Tracked (fl : Rounding) (cfg : Config) (id : IntentId) (σ : Books) : Prop where
  follows : ∀ a, σ.attempt = some a →
    a.row.intentId = id ∧ Async.Leads (store fl cfg a.row a.sender a.commitment) a.told a.rest
  uploader : ∀ a, σ.attempt = some a → (∃ up, ⟨.persistUpload id up, .ok ()⟩ ∈ a.told) →
    ∃ u t, σ.uploader = some u ∧ u.row = a.row ∧ a.told = u.told ++ t
  decided : ∀ u, σ.uploader = some u → ∃ decision, Decided fl cfg u.row u.told decision

/-- The end of an attempt, or what it stands on. -/
theorem Tracked.grounded (h : Tracked fl cfg id σ) {a : Attempt} (ha : σ.attempt = some a) :
    wp (Founded fl cfg a.row) (Ended fl cfg a.row) a.told a.rest :=
  wp_leads (store_grounded fl cfg a.row a.sender a.commitment) (h.follows a ha).2

/-- The uploader of an attempt that persisted an upload. -/
theorem Tracked.answer_uploader (h : Tracked fl cfg id σ) {a : Attempt} (ha : σ.attempt = some a) {c : Call}
    (r : Except Failure c.Answer) {landed : Bool} (hlanded : landed = true ∨ ∃ err, r = .error err)
    (hup : ∃ up, ⟨.persistUpload id up, .ok ()⟩ ∈ a.told ++ [⟨c, r⟩]) :
    ∃ u t, (if landed then uploaderAfter a c σ.uploader else σ.uploader) = some u ∧ u.row = a.row ∧
      a.told ++ [⟨c, r⟩] = u.told ++ t := by
  by_cases hlast : landed = true ∧ ∃ k up, c = .persistUpload k up
  · obtain ⟨rfl, k, up, rfl⟩ := hlast
    exact ⟨a, _, rfl, rfl, rfl⟩
  · have hsame : (if landed then uploaderAfter a c σ.uploader else σ.uploader) = σ.uploader := by
      cases landed with
      | false => rfl
      | true => cases c <;> first | rfl | exact absurd ⟨rfl, _, _, rfl⟩ hlast
    have hold : ∃ up, ⟨.persistUpload id up, .ok ()⟩ ∈ a.told := by
      obtain ⟨up, hmem⟩ := hup
      obtain hold | hnew := List.mem_append.mp hmem
      · exact ⟨up, hold⟩
      · rw [List.mem_singleton, Sigma.mk.injEq] at hnew
        obtain ⟨rfl, hr⟩ := hnew
        cases hr
        obtain rfl | ⟨err, herr⟩ := hlanded
        · exact absurd ⟨rfl, id, up, rfl⟩ hlast
        · cases herr
    obtain ⟨u, t, hu, hrow, htold⟩ := h.uploader a ha hold
    exact ⟨u, t ++ [⟨c, r⟩], hsame.trans hu, hrow, by rw [htold, List.append_assoc]⟩

/-- Whoever persists an upload has come to a decision. -/
theorem Tracked.answer_decided (h : Tracked fl cfg id σ) {a : Attempt} (ha : σ.attempt = some a) {c : Call}
    {next : Except Failure c.Answer → Program Booking} (hrest : a.rest = .await c next) {landed : Bool} {u : Attempt}
    (hu : (if landed then uploaderAfter a c σ.uploader else σ.uploader) = some u) :
    ∃ decision, Decided fl cfg u.row u.told decision := by
  have hfounded := h.grounded ha
  rw [hrest] at hfounded
  cases landed with
  | false => exact h.decided u hu
  | true =>
    cases c with
    | persistUpload k up =>
      cases hu
      exact hfounded.1.2 ⟨k, up, rfl⟩
    | _ => exact h.decided u hu

theorem Step.tracked (hstep : Step fl cfg id σ e τ) (h : Tracked fl cfg id σ) : Tracked fl cfg id τ := by
  cases hstep with
  | start sender commitment hidle hrow hactive =>
    refine ⟨fun a ha => ?_, fun a ha hup => ?_, h.decided⟩
    · cases ha
      exact ⟨rfl, .start⟩
    · cases ha
      obtain ⟨up, hup⟩ := hup
      exact absurd hup List.not_mem_nil
  | @answer a c next now r landed ha hrest hlanded =>
    refine ⟨fun a' ha' => ?_, fun a' ha' hup => ?_, fun u hu => h.answer_decided ha hrest hu⟩
    · cases ha'
      obtain ⟨hid, hlead⟩ := h.follows a ha
      rw [hrest] at hlead
      exact ⟨hid, hlead.answer r⟩
    · cases ha'
      exact h.answer_uploader ha r hlanded hup
  | settle now ha hrest => exact ⟨fun a ha => (by cases ha), fun a ha => (by cases ha), h.decided⟩
  | leave ha hrest => exact ⟨fun a ha => (by cases ha), fun a ha => (by cases ha), h.decided⟩
  | statement op hop => exact ⟨h.follows, h.uploader, h.decided⟩

/-- A process that starts has uploaded and booked nothing. -/
theorem Tracked.fresh (rows : Rows) : Tracked fl cfg id { rows := rows } :=
  ⟨fun a ha => (by cases ha), fun a ha => (by cases ha), fun u hu => (by cases hu)⟩

/-- What holds of the books when every mark as done is timely. -/
structure Kept (fl : Rounding) (cfg : Config) (id : IntentId) (σ : Books) : Prop extends Tracked fl cfg id σ where
  /-- An attempt whose row is done has marked it so. -/
  settling : ∀ a row, σ.attempt = some a → σ.rows id = some row → row.state = .done → Settling fl cfg id σ a
  complete : Complete fl cfg id σ

/-- While an attempt awaits a call, the row is not done. -/
theorem Kept.not_done (h : Kept fl cfg id σ) {a : Attempt} (ha : σ.attempt = some a) {c : Call}
    {next : Except Failure c.Answer → Program Booking} (hrest : a.rest = .await c next) {row : Row}
    (hrow : σ.rows id = some row) : row.state ≠ .done := by
  intro hdone
  have hfounded := h.grounded ha
  rw [hrest] at hfounded
  obtain ⟨⟨r, hmarked⟩, -⟩ := h.settling a row ha hrow hdone
  exact hfounded.1.1.1 id r hmarked

/-- Whatever a call other than a mark as done makes of the table, the row is not done. -/
theorem Kept.call_not_done (h : Kept fl cfg id σ) {a : Attempt} (ha : σ.attempt = some a) {c : Call}
    {next : Except Failure c.Answer → Program Booking} (hrest : a.rest = .await c next)
    (hc : c ≠ .markDone id) {now : Nat}
    {landed : Bool} {row' : Row} (hrow' : (if landed then c.run now σ.rows else σ.rows) id = some row') :
    row'.state ≠ .done := by
  cases landed with
  | false => exact h.not_done ha hrest hrow'
  | true =>
    replace hrow' : (((c.op now).map fun op => op.run σ.rows).getD σ.rows) id = some row' := hrow'
    cases hop : c.op now with
    | none =>
      rw [hop] at hrow'
      exact h.not_done ha hrest hrow'
    | some op =>
      rw [hop] at hrow'
      intro hdone
      obtain ⟨row, hrow, hold⟩ | ⟨t, rfl⟩ := run_done hrow' hdone
      · exact h.not_done ha hrest hrow hold
      · exact hc (Call.op_markDone hop)

/-- A mark as done that lands in time. -/
theorem Kept.answer_done (h : Kept fl cfg id σ) {a : Attempt} (ha : σ.attempt = some a)
    {next : Except Failure (Call.markDone id).Answer → Program Booking} (hrest : a.rest = .await (.markDone id) next)
    {r : Except Failure (Call.markDone id).Answer} (htimely : Timely fl cfg σ (.answer (.markDone id) r true))
    {d : BreakEvenDecision} (hd : Approved fl cfg σ d) :
    σ.pnl.Books id d ∨ ⟨.markDone id, .ok ()⟩ ∈ a.told ++ [⟨.markDone id, r⟩] ∧ σ.pnl id = none ∧
      ∃ up, ⟨.persistUpload id up, .ok ()⟩ ∈ a.told ++ [⟨.markDone id, r⟩] := by
  refine (htimely rfl d hd).imp_right fun hcond => ?_
  obtain ⟨rfl, hpnl, hfound⟩ := hcond
  refine ⟨List.mem_append_right _ (List.mem_singleton_self _), hpnl, ?_⟩
  have hfounded := h.grounded ha
  rw [hrest] at hfounded
  obtain ⟨up, hup⟩ := hfounded.1.1.2
  obtain ⟨hobject, -⟩ | ⟨-, hpersisted⟩ := hup
  · rw [hfound a ha] at hobject
    cases hobject
  · rw [(h.follows a ha).1] at hpersisted
    exact ⟨up, List.mem_append_left _ hpersisted⟩

/-- An attempt that comes to its end books its decision. -/
theorem Kept.settle (h : Kept fl cfg id σ) {a : Attempt} (ha : σ.attempt = some a) {b : Booking}
    (hrest : a.rest = .done b)
    (now : Nat) : Complete fl cfg id { σ with attempt := none, pnl := σ.pnl.book fl now id b } := by
  intro _ row hrow hdone d hd
  obtain ⟨-, hbooked⟩ := h.settling a row ha hrow hdone
  obtain hbooks | ⟨hmarked, hpnl, hup⟩ := hbooked d hd
  · exact hbooks.book now b
  have hended := h.grounded ha
  rw [hrest] at hended
  obtain hopen | ⟨decision, hdecision, rfl⟩ := hended
  · exact absurd hmarked (hopen id _)
  -- what the uploader had decided, the attempt still has
  obtain ⟨u, t, hu, hrow', htold⟩ := h.uploader a ha hup
  obtain ⟨u', hu', hdecided⟩ := hd
  obtain rfl : u = u' := Option.some.inj (hu.symm.trans hu')
  rw [hrow'] at hdecided
  have hsame := hdecided.append t
  rw [← htold] at hsame
  rw [hdecision.unique hsame]
  exact PnlLedger.book_completion now d hpnl

/-- An attempt that fails, or is given up, was not told that the row is done. -/
theorem Kept.leave (h : Kept fl cfg id σ) {a : Attempt} (ha : σ.attempt = some a) (hrest : ∀ b, a.rest ≠ .done b) :
    Complete fl cfg id { σ with attempt := none } := by
  intro _ row hrow hdone d hd
  obtain ⟨-, hbooked⟩ := h.settling a row ha hrow hdone
  obtain hbooks | ⟨hmarked, -⟩ := hbooked d hd
  · exact hbooks
  have hfounded := h.grounded ha
  cases hprogram : a.rest with
  | done b => exact absurd hprogram (hrest b)
  | fail err =>
    rw [hprogram] at hfounded
    exact absurd hmarked (hfounded id)
  | await c next =>
    rw [hprogram] at hfounded
    exact absurd hmarked (hfounded.1.1.1 id _)

theorem Step.kept (hstep : Step fl cfg id σ e τ) (htimely : Timely fl cfg σ e) (h : Kept fl cfg id σ) :
    Kept fl cfg id τ := by
  have htracked := hstep.tracked h.toTracked
  cases hstep with
  | start sender commitment hidle hrow hactive =>
    refine ⟨htracked, fun a row' ha hrow' hdone => ?_, fun hidle => (by cases hidle)⟩
    rw [show σ.rows id = some row' from hrow', Option.some.injEq] at hrow
    rw [hrow, hactive] at hdone
    cases hdone
  | @answer a c next now r landed ha hrest hlanded =>
    refine ⟨htracked, fun a' row' ha' hrow' hdone => ?_, fun hidle => (by cases hidle)⟩
    cases ha'
    by_cases hc : c = .markDone id
    · subst hc
      cases landed with
      | false => exact absurd hdone (h.not_done ha hrest hrow')
      | true => exact ⟨⟨r, List.mem_append_right _ (List.mem_singleton_self _)⟩,
        fun d hd => h.answer_done ha hrest htimely hd⟩
    · exact absurd hdone (h.call_not_done ha hrest hc hrow')
  | settle now ha hrest => exact ⟨htracked, fun a row ha => (by cases ha), h.settle ha hrest now⟩
  | leave ha hrest => exact ⟨htracked, fun a row ha => (by cases ha), h.leave ha hrest⟩
  | statement op hop =>
    refine ⟨htracked, fun a row' ha hrow' hdone => ?_, fun hidle row' hrow' hdone => ?_⟩
    · obtain ⟨row, hrow, hold⟩ | ⟨now, rfl⟩ := run_done hrow' hdone
      · exact h.settling a row ha hrow hold
      · exact hop.elim
    · obtain ⟨row, hrow, hold⟩ | ⟨now, rfl⟩ := run_done hrow' hdone
      · exact h.complete hidle row hrow hold
      · exact hop.elim

theorem Leads.tracked {C : Books → Event → Prop} (hrun : Leads fl cfg id C σ τ) (h : Tracked fl cfg id σ) :
    Tracked fl cfg id τ := by
  induction hrun with
  | refl => exact h
  | tail _ hlast ih =>
    obtain ⟨e, -, hstep⟩ := hlast
    exact hstep.tracked ih

theorem Leads.kept (hrun : Leads fl cfg id (Timely fl cfg) σ τ) (h : Kept fl cfg id σ) : Kept fl cfg id τ := by
  induction hrun with
  | refl => exact h
  | tail _ hlast ih =>
    obtain ⟨e, htimely, hstep⟩ := hlast
    exact hstep.kept htimely ih

/-- In every run whose marks as done are timely, an intent whose upload was approved is booked under that decision. -/
theorem pnl_complete (fl : Rounding) (cfg : Config) (id : IntentId) (rows : Rows) (σ : Books)
    (hrun : Leads fl cfg id (Timely fl cfg) { rows := rows } σ) : Complete fl cfg id σ := by
  have hfresh : Kept fl cfg id { rows := rows } := by
    refine ⟨.fresh rows, fun a row ha => (by cases ha), fun _ row hrow hdone d hd => ?_⟩
    obtain ⟨u, hu, -⟩ := hd
    cases hu
  exact (hrun.kept hfresh).complete

/-! ## An attempt that resumes past the upload -/

/-- Whether a call is answered. -/
def answered (o : Replies) (c : Call) : Bool :=
  match o c with
  | .ok _ => true
  | .error _ => false

/-- The table after the calls that `o` answers. -/
def ran (o : Replies) (now : Nat) (rows : Rows) (calls : List Call) : Rows :=
  calls.foldl (fun rows c => if answered o c then c.run now rows else rows) rows

variable (fl cfg id) in
/-- An attempt whose calls `o` answers, each of which lands if it is answered. -/
theorem plays (C : Books → Event → Prop) (o : Replies) (now : Nat) (p : Program Booking) (σ : Books) (a : Attempt)
    (ha : σ.attempt = some a) (hp : a.rest = p)
    (hC : ∀ σ' c, σ'.pnl = σ.pnl → (∀ a', σ'.attempt = some a' → a'.row = a.row) →
      C σ' (.answer c (o c) (answered o c))) :
    ∃ uploader, Leads fl cfg id C σ
      { σ with
        rows := ran o now σ.rows (trace o p)
        attempt := some { a with told := a.told ++ tale o p, rest := Async.ofExcept (result o p) }
        uploader := uploader } ∧
      ((∀ c ∈ trace o p, ∀ k up, c ≠ .persistUpload k up) → uploader = σ.uploader) := by
  induction p generalizing σ a with
  | done b =>
    refine ⟨σ.uploader, ?_, fun _ => rfl⟩
    rw [show a.told ++ tale o (.done b : Program Booking) = a.told from List.append_nil _]
    show Leads fl cfg id _ σ { σ with attempt := some { a with rest := .done b } }
    rw [← hp, ← ha]
  | fail err =>
    refine ⟨σ.uploader, ?_, fun _ => rfl⟩
    rw [show a.told ++ tale o (.fail err : Program Booking) = a.told from List.append_nil _]
    show Leads fl cfg id _ σ { σ with attempt := some { a with rest := .fail err } }
    rw [← hp, ← ha]
  | await c next ih =>
    have hlanded : answered o c = true ∨ ∃ err, o c = .error err := by
      unfold answered
      cases o c with
      | ok r => exact Or.inl rfl
      | error err => exact Or.inr ⟨err, rfl⟩
    have hstep : Step fl cfg id σ _ _ := .answer now (o c) (answered o c) ha hp hlanded
    have hcond : C σ (.answer c (o c) (answered o c)) := hC σ c rfl fun a' ha' => by
      rw [ha, Option.some.injEq] at ha'
      rw [ha']
    let a' : Attempt := { a with told := a.told ++ [⟨c, o c⟩], rest := next (o c) }
    let σ' : Books :=
      { σ with
        rows := if answered o c then c.run now σ.rows else σ.rows
        attempt := some a'
        uploader := if answered o c then uploaderAfter a c σ.uploader else σ.uploader }
    obtain ⟨uploader, hrun, hsame⟩ := ih (o c) σ' a' rfl rfl fun σ' c hpnl hrow => hC σ' c hpnl hrow
    refine ⟨uploader, .head ⟨_, hcond, hstep⟩ ?_, fun hno => ?_⟩
    · rw [show a'.told ++ tale o (next (o c)) = a.told ++ tale o (.await c next) from List.append_assoc ..] at hrun
      exact hrun
    · rw [hsame fun d hd => hno d (List.mem_cons_of_mem _ hd)]
      have hc := hno c List.mem_cons_self
      show (if answered o c then uploaderAfter a c σ.uploader else σ.uploader) = σ.uploader
      split
      · cases c <;> first | rfl | exact absurd rfl (hc _ _)
      · rfl

/-- An attempt starts with the program of its row. -/
theorem Step.start_as {row : Row} {sender : String} {commitment : Option IntentCommitment} {p : Program Booking}
    (hp : p = store fl cfg ⟨row, id⟩ sender commitment) (hidle : σ.attempt = none) (hrow : σ.rows id = some row)
    (hactive : row.state = .active) :
    Step fl cfg id σ .start { σ with attempt := some ⟨⟨row, id⟩, sender, commitment, [], p⟩ } := by
  subst hp
  exact .start sender commitment hidle hrow hactive

/-- An attempt that persisted its upload, and whose guard can only have approved it. -/
theorem Tracked.approved (h : Tracked fl cfg id σ) {a : Attempt} (ha : σ.attempt = some a)
    (hup : ∃ up, ⟨.persistUpload id up, .ok ()⟩ ∈ a.told)
    (happroved : ∀ decision, Decided fl cfg a.row a.told decision → ∃ d, decision = some d) :
    ∃ d, Approved fl cfg σ d := by
  obtain ⟨u, t, hu, hrow, htold⟩ := h.uploader a ha hup
  obtain ⟨decision, hdecided⟩ := h.decided u hu
  have hlater := hdecided.append t
  rw [← htold, hrow] at hlater
  obtain ⟨d, rfl⟩ := happroved decision hlater
  exact ⟨d, u, hu, hdecided⟩

variable {rows : Rows} {row row₂ row₃ : Row} {sender : String} {commitment : Option IntentCommitment}
  {err : Failure} {up : UploadResult} {b : Booking} {p p₂ : Program Booking}

/-- A row whose upload was approved in an attempt that failed after it, and that a second attempt completes: nothing is
booked for it. -/
theorem resumed_unbooked (o o₂ : Replies) (now now₂ : Nat) (op : Op)
    (hp : p = store fl cfg ⟨row, id⟩ sender commitment) (hp₂ : p₂ = store fl cfg ⟨row₂, id⟩ sender commitment)
    (hrow : rows id = some row) (hactive : row.state = .active) (hfails : result o p = .error err)
    (hpersists : ⟨.persistUpload id up, .ok ()⟩ ∈ tale o p)
    (happroved : ∀ decision, Decided fl cfg ⟨row, id⟩ (tale o p) decision → ∃ d, decision = some d) (hop : Aside op)
    (hrow₂ : op.run (ran o now rows (trace o p)) id = some row₂) (hactive₂ : row₂.state = .active)
    (hobject : row₂.walrusObjectId ≠ none) (hends : result o₂ p₂ = .ok .nothing)
    (hrow₃ : ran o₂ now₂ (op.run (ran o now rows (trace o p))) (trace o₂ p₂) id = some row₃)
    (hdone : row₃.state = .done) :
    ∃ σ, Leads fl cfg id (fun _ _ => True) { rows := rows } σ ∧ ¬Complete fl cfg id σ := by
  let rows₂ := op.run (ran o now rows (trace o p))
  -- the first attempt persists its upload, and fails
  let a₁ : Attempt := ⟨⟨row, id⟩, sender, commitment, [], p⟩
  obtain ⟨uploader, hplay, -⟩ := plays fl cfg id (fun _ _ => True) o now p
    { rows := rows, attempt := some a₁ } a₁ rfl rfl
    fun _ _ _ _ => trivial
  let failed : Attempt := { a₁ with told := tale o p, rest := .fail err }
  have hfailed : Leads fl cfg id (fun _ _ => True) { rows := rows }
      { rows := ran o now rows (trace o p), attempt := some failed, uploader := uploader } := by
    rw [hfails] at hplay
    exact .head ⟨_, trivial, .start_as hp rfl hrow hactive⟩ hplay
  obtain ⟨d, u, hu, hdecided⟩ := (Leads.tracked hfailed (.fresh rows)).approved rfl ⟨up, hpersists⟩ happroved
  -- the second one finds the upload, and comes to its end
  have hleft : Leads fl cfg id (fun _ _ => True) { rows := rows } { rows := rows₂, uploader := uploader } :=
    (hfailed.tail ⟨_, trivial, .leave rfl fun b hb => by cases hb⟩).tail ⟨_, trivial, .statement op hop⟩
  let a₂ : Attempt := ⟨⟨row₂, id⟩, sender, commitment, [], p₂⟩
  obtain ⟨uploader₂, hplay₂, hsame⟩ := plays fl cfg id (fun _ _ => True) o₂ now₂ p₂
    { rows := rows₂, attempt := some a₂, uploader := uploader } a₂ rfl rfl fun _ _ _ _ => trivial
  obtain rfl := hsame fun c hc k v hpersist => by
    have hcalls := (store_stores fl cfg ⟨row₂, id⟩ sender commitment).calls.trace c (hp₂ ▸ hc)
    rw [hpersist] at hcalls
    obtain ⟨-, hnone⟩ | ⟨text, hdead⟩ := hcalls
    · exact hobject hnone
    · cases hdead
  rw [hends] at hplay₂
  have hended := (hleft.tail ⟨_, trivial, .start_as hp₂ rfl hrow₂ hactive₂⟩).trans hplay₂
  refine ⟨_, hended.tail ⟨_, trivial, .settle now₂ rfl rfl⟩, fun hcomplete => ?_⟩
  obtain ⟨entry, hentry, -⟩ := hcomplete rfl row₃ hrow₃ hdone d ⟨u, hu, hdecided⟩
  cases hentry

/-- A row that one attempt uploads, with approval, and completes. -/
theorem completes (o : Replies) (now : Nat) (hp : p = store fl cfg ⟨row, id⟩ sender commitment)
    (hrow : rows id = some row) (hactive : row.state = .active) (hnone : row.walrusObjectId = none)
    (hmarks : ∀ k, o (.markDone k) = .ok ()) (hends : result o p = .ok b)
    (hpersists : ⟨.persistUpload id up, .ok ()⟩ ∈ tale o p)
    (happroved : ∀ decision, Decided fl cfg ⟨row, id⟩ (tale o p) decision → ∃ d, decision = some d)
    (hrow₂ : ran o now rows (trace o p) id = some row₂) :
    ∃ σ d, Leads fl cfg id (Timely fl cfg) { rows := rows } σ ∧ σ.attempt = none ∧ σ.rows id = some row₂ ∧
      Approved fl cfg σ d := by
  let a : Attempt := ⟨⟨row, id⟩, sender, commitment, [], p⟩
  obtain ⟨uploader, hplay, -⟩ := plays fl cfg id (Timely fl cfg) o now p { rows := rows, attempt := some a } a rfl rfl
    fun σ' c hpnl hfound => by
      cases c with
      | markDone k =>
        intro _ d _
        refine Or.inr ⟨hmarks k, congrFun hpnl k, fun a' ha' => ?_⟩
        rw [hfound a' ha']
        exact hnone
      | _ => trivial
  let ended : Attempt := { a with told := tale o p, rest := .done b }
  have hended : Leads fl cfg id (Timely fl cfg) { rows := rows }
      { rows := ran o now rows (trace o p), attempt := some ended, uploader := uploader } := by
    rw [hends] at hplay
    exact .head ⟨.start, trivial, .start_as hp rfl hrow hactive⟩ hplay
  obtain ⟨d, happr⟩ := (Leads.tracked hended (.fresh rows)).approved rfl ⟨up, hpersists⟩ happroved
  exact ⟨_, d, hended.tail ⟨.settle, trivial, .settle now rfl rfl⟩, rfl, hrow₂, happr⟩

/-- Answers for an intent with a rich escrow, with Sui out of reach or not. -/
def examplePaid (reached : Bool) : Replies
  | .systemState => .ok ⟨1000, 1, 1, 53⟩
  | .evmGetEscrow _ => .ok ⟨ZERO_ADDRESS, 10 ^ 18, EVM_ESCROW_PENDING⟩
  | .getPrices => .ok fun _ => 1
  | .fetchBytes _ => .ok (some [7])
  | .writeBlob .. => .ok ⟨exampleBlobId, "0xb10b", 9⟩
  | .executeStore .. => if reached then .ok "0xd16e57" else .error (.error "timeout")
  | .recordLedger .. => .ok true
  | .quoteLzFee .. => .ok 1
  | .lzSendProof .. => .ok "0x5e4d"
  | .ensureWal | .recordHop .. | .persistUpload .. | .waitForTransaction _ | .persistStore .. | .markLedgered _ |
    .freeBytes _ | .markReturned _ | .markDone _ => .ok ()
  | _ => .error (.error "no answer")

/-- The row that the first attempt finds, and the row that the second does. -/
def exampleFound : StagedIntentRow := ⟨exampleRow, "0x01"⟩
def exampleResumed : StagedIntentRow :=
  ⟨rescheduled 1 2000 "Error: timeout" 0 (uploaded exampleUpload 0 exampleRow), "0x01"⟩

/-- The guard approves the intent, and no other end of it is possible. -/
theorem examplePaid_approved {decision : Option BreakEvenDecision} (reached : Bool)
    (hdecided : Decided .exact exampleGuarded exampleFound (tale (examplePaid reached)
      (store .exact exampleGuarded exampleFound "0xab" (some exampleCommitment))) decision) :
    ∃ d, decision = some d := by
  obtain ⟨t₁, t₂, t₃, epochs, htold, hepochs, hguard⟩ := hdecided
  have ho := tale_answers (o := examplePaid reached)
      (store .exact exampleGuarded exampleFound "0xab" (some exampleCommitment))
  rw [htold] at ho
  have hepochs' := hepochs.result fun x hx => ho x (List.mem_append_left _ (List.mem_append_left _ hx))
  have hguard' := hguard.result fun x hx => ho x (List.mem_append_left _ (List.mem_append_right _ hx))
  have hone : result (examplePaid reached) (storeEpochs exampleGuarded exampleFound) = .ok (.ok 1) := rfl
  have hsame : epochs = 1 := by
    rw [hone] at hepochs'
    cases hepochs'
    rfl
  subst hsame
  have happroves : Except.map (Except.map Option.isSome)
      (result (examplePaid reached) (breakEvenGuard .exact exampleGuarded exampleFound 1)) = .ok (.ok true) := by
    cases reached <;> decide +kernel
  rw [hguard'] at happroves
  have hsome : decision.isSome = true := by
    have hinner := Except.ok.inj happroves
    exact Except.ok.inj hinner
  exact Option.isSome_iff_exists.mp hsome

/-- The first attempt fails to record its upload when Sui is out of reach. -/
theorem examplePaid_fails : result (examplePaid false)
    (store .exact exampleGuarded exampleFound "0xab" (some exampleCommitment)) =
    .error (.error "timeout") := by
  have hmap : Except.map (fun _ => ())
      (result (examplePaid false) (store .exact exampleGuarded exampleFound "0xab" (some exampleCommitment))) =
        .error (.error "timeout") := by
    decide +kernel
  cases h : result (examplePaid false) (store .exact exampleGuarded exampleFound "0xab" (some exampleCommitment)) with
  | ok b =>
    rw [h] at hmap
    cases hmap
  | error err =>
    rw [h] at hmap
    exact congrArg Except.error (Except.error.inj hmap)

/-- Whether the call persists the upload of the intent. -/
def persists (id : IntentId) (up : UploadResult) : Call → Bool
  | .persistUpload k v => k == id && v == up
  | _ => false

theorem examplePaid_persists (reached : Bool) : ⟨.persistUpload "0x01" exampleUpload, .ok ()⟩ ∈
    tale (examplePaid reached) (store .exact exampleGuarded exampleFound "0xab" (some exampleCommitment)) := by
  have hany : (trace (examplePaid reached) (store .exact exampleGuarded exampleFound "0xab"
      (some exampleCommitment))).any
      (persists "0x01" exampleUpload) = true := by
    cases reached <;> decide +kernel
  obtain ⟨c, hc, hpersists⟩ := List.any_eq_true.mp hany
  cases c with
  | persistUpload k v =>
    simp only [persists, Bool.and_eq_true, beq_iff_eq] at hpersists
    obtain ⟨rfl, rfl⟩ := hpersists
    exact mem_tale hc
  | _ => cases hpersists

/-- An intent whose upload was approved, and whose record on Sui fails once: its row is done, and nothing is booked. -/
theorem pnl_incomplete : ∃ σ, Leads .exact exampleGuarded "0x01" (fun _ _ => True)
    { rows := Rows.one "0x01" exampleRow } σ ∧
    ¬Complete .exact exampleGuarded "0x01" σ := by
  have hdone : ((ran (examplePaid true) 2000 ((Op.reschedule "0x01" 1 2000 "Error: timeout" 0).run
      (ran (examplePaid false) 0 (Rows.one "0x01" exampleRow) (trace (examplePaid false)
        (store .exact exampleGuarded exampleFound "0xab" (some exampleCommitment)))))
      (trace (examplePaid true) (store .exact exampleGuarded exampleResumed "0xab"
        (some exampleCommitment)))) "0x01").map
        (·.state) = some .done := by
    decide +kernel
  obtain ⟨row₃, hrow₃, hstate⟩ := Option.map_eq_some_iff.mp hdone
  have hrow₂ : (Op.reschedule "0x01" 1 2000 "Error: timeout" 0).run
      (ran (examplePaid false) 0 (Rows.one "0x01" exampleRow)
      (trace (examplePaid false) (store .exact exampleGuarded exampleFound "0xab" (some exampleCommitment)))) "0x01" =
        some exampleResumed.toRow := by
    decide +kernel
  have hobject : exampleResumed.walrusObjectId ≠ none := by decide
  exact resumed_unbooked (examplePaid false) (examplePaid true) 0 2000
    (.reschedule "0x01" 1 2000 "Error: timeout" 0) rfl rfl rfl rfl examplePaid_fails
    (examplePaid_persists false) (fun decision => examplePaid_approved false) trivial hrow₂ rfl hobject rfl hrow₃ hstate

/-- The same intent, when Sui is reached at once: the entry is that of the decision. -/
theorem pnl_complete_one : ∃ σ d, (σ.rows "0x01").map (·.state) = some .done ∧ Approved .exact exampleGuarded σ d ∧
    σ.pnl.Books "0x01" d := by
  let p := store .exact exampleGuarded exampleFound "0xab" (some exampleCommitment)
  have hdone : (ran (examplePaid true) 0 (Rows.one "0x01" exampleRow) (trace (examplePaid true) p) "0x01").map
      (·.state) = some .done := by
    decide +kernel
  have hends : Except.map (fun _ => ()) (result (examplePaid true) p) = .ok () := by decide +kernel
  obtain ⟨row₂, hrow₂, hstate⟩ := Option.map_eq_some_iff.mp hdone
  cases hresult : result (examplePaid true) p with
  | error err =>
    rw [hresult] at hends
    cases hends
  | ok b =>
    obtain ⟨σ, d, hrun, hidle, hrow, happroved⟩ :=
      completes (examplePaid true) 0 (p := p) rfl rfl rfl rfl (fun _ => rfl)
      hresult (examplePaid_persists true) (fun decision => examplePaid_approved true) hrow₂
    refine ⟨σ, d, ?_, happroved, ?_⟩
    · rw [hrow]
      exact congrArg some hstate
    · exact pnl_complete .exact exampleGuarded "0x01" _ σ hrun hidle row₂ hrow hstate d happroved

end Books

end Bosphor.Relayer

import Bosphor.Relayer.OneIntent
import Bosphor.Relayer.StoreGrounds
import Bosphor.Sui.Records

/-!
# Attempts that may be cut off

One intent, the staged rows and the Sui objects, and one attempt of the pipeline
at a time, which starts from the row as it is persisted. An attempt may be given
up after any call; a call that reports an error may have landed. Between the
calls others run their statements and their transactions.

The store is recorded once, nothing is returned before it is, the upload is not
made again once it is persisted, and what is recorded and returned is what was
persisted (`pipeline_crash_safe`).
-/

namespace Bosphor.Relayer.CrashSafety

open Async StagedIntentStore

/-- What the attempts work on. -/
structure Site where
  rows : Rows
  sui : Sui.State
  attempt : Option Attempt := none
  /-- The uploads that were persisted, the oldest first. -/
  persisted : List UploadResult := []

/-- The relayer's account on Sui, and what its arguments stand for there. -/
structure SuiView where
  relayer : Sui.Address
  intent : List UInt8
  blob : String → Sui.Blob
  address : String → Sui.Address

inductive Event where
  | start
  | answer (c : Call) (r : Except Failure c.Answer) (landed : Bool)
  | leave
  | statement (op : Op)
  | sui

/-- The statements of others: for the intent they persist neither an upload nor a record. -/
def Aside (id : IntentId) : Op → Prop
  | .persistUpload k _ _ | .persistStore k _ _ => k ≠ id
  | _ => True

/-- The uploads that are persisted once a call has landed. -/
def persistedAfter (c : Call) (persisted : List UploadResult) : List UploadResult :=
  match c with
  | .persistUpload _ up => persisted ++ [up]
  | _ => persisted

/-- What a call leaves of the Sui objects once it has landed. -/
def SuiAfter (view : SuiView) (c : Call) (s s' : Sui.State) : Prop :=
  match c with
  | .executeStore _ sender walrusObjectId _ => ∃ now epoch, Sui.step (now,
      .executeStore view.relayer epoch view.intent (view.blob walrusObjectId) (view.address sender)) s = .ok s'
  | .lzSendProof _ walrusBlobId endEpoch dstEid _ => ∃ now field receipt, walrusBlobIdToField walrusBlobId = .ok field ∧
      Sui.step (now, .sendProof view.relayer view.intent field (UInt64.ofNat endEpoch)
        (UInt32.ofNat dstEid) receipt) s =
        .ok s'
  | _ => s' = s

variable (fl : Rounding) (cfg : Config) (id : IntentId) (view : SuiView)

inductive Step : Site → Event → Site → Prop
  | start {σ row} (sender : String) (commitment : Option IntentCommitment) (hidle : σ.attempt = none)
    (hrow : σ.rows id = some row) :
    Step σ .start { σ with attempt := some (.start fl cfg ⟨row, id⟩ sender commitment) }
  | lands {σ a c next sui} (now : Nat) (r : Except Failure c.Answer) (ha : σ.attempt = some a)
    (hrest : a.rest = .await c next) (hanswers : c.Answers σ.rows r) (hsui : SuiAfter view c σ.sui sui) :
    Step σ (.answer c r true)
      ⟨c.run now σ.rows, sui, some { a with told := a.told ++ [⟨c, r⟩], rest := next r }, persistedAfter c σ.persisted⟩
  | fails {σ a c next} (err : Failure) (ha : σ.attempt = some a) (hrest : a.rest = .await c next) :
    Step σ (.answer c (.error err) false)
      { σ with attempt := some { a with told := a.told ++ [⟨c, .error err⟩], rest := next (.error err) } }
  | leave {σ} : Step σ .leave { σ with attempt := none }
  /-- A statement of others, which leaves the intent its row. -/
  | statement {σ} (op : Op) (hop : Aside id op) (hkept : σ.rows id ≠ none → op.run σ.rows id ≠ none) :
    Step σ (.statement op) { σ with rows := op.run σ.rows }
  | sui {σ sui} (now : Nat) (tx : Sui.Op) (htx : Sui.step (now, tx) σ.sui = .ok sui) : Step σ .sui { σ with sui := sui }

/-- Some steps, each of which meets `C`. -/
abbrev Leads (C : Site → Event → Prop) : Site → Site → Prop :=
  Relation.ReflTransGen fun σ τ => ∃ e, C σ e ∧ Step fl cfg id view σ e τ

/-- An error of `executeStore` reads as already executed only when Sui has aborted so. -/
def Truthful (view : SuiView) (σ : Site) : Event → Prop
  | .answer (.executeStore _ _ _ _) (.error err) _ => alreadyExecuted err.text = true →
    ∃ now epoch blob sender, Sui.Executor.executeStore now view.relayer epoch view.intent blob sender σ.sui =
      .error Sui.Executor.EIntentAlreadyExecuted
  | _ => True

/-- The execution of the intent has happened. -/
def Executed (view : SuiView) (σ : Site) : Prop := σ.sui.executions view.intent = 1

/-- What a call may be made for: nothing is uploaded after an upload was persisted, and that upload is what is recorded
and, once it is recorded, returned. -/
def Safe (view : SuiView) (σ : Site) : Call → Prop
  | .writeBlob .. => σ.persisted = []
  | .executeStore _ _ walrusObjectId _ => ∃ up, σ.persisted = [up] ∧ walrusObjectId = up.walrusObjectId
  | .lzSendProof _ walrusBlobId endEpoch _ _ => Executed view σ ∧
    ∃ up, σ.persisted = [up] ∧ walrusBlobId = up.walrusBlobId ∧ endEpoch = up.endEpoch
  | .evmConfirmExecution _ proof => Executed view σ ∧ ∃ up field, σ.persisted = [up] ∧
    walrusBlobIdToField up.walrusBlobId = .ok field ∧ proof = field ++ Bytes.toBE 32 up.endEpoch
  | .solanaConfirmExecution _ blobId endEpoch => Executed view σ ∧ ∃ up, σ.persisted = [up] ∧
    walrusBlobIdToField up.walrusBlobId = .ok blobId ∧ endEpoch = up.endEpoch
  | _ => True

/-! ## The invariant -/

/-- The row has the upload. -/
structure HasUpload (row : Row) (up : UploadResult) : Prop where
  walrusObjectId : row.walrusObjectId = some up.walrusObjectId
  walrusBlobId : row.walrusBlobId = some up.walrusBlobId
  endEpoch : row.endEpoch = some up.endEpoch

/-- What the rows have of what was persisted: one upload or none. -/
def Kept (id : IntentId) (rows : Rows) (persisted : List UploadResult) : Prop :=
  (persisted = [] ∧ ∀ row, rows id = some row → row.walrusObjectId = none) ∨
    ∃ up row, persisted = [up] ∧ rows id = some row ∧ HasUpload row up

/-- What an attempt knows of the upload. -/
def Knows (row : StagedIntentRow) (told : Told) (persisted : List UploadResult) : Prop :=
  (persisted = [] ∧ row.walrusObjectId = none ∧ ∀ up, ⟨.persistUpload row.intentId up, .ok ()⟩ ∉ told) ∨
    ∃ up, persisted = [up] ∧ (row.walrusObjectId = none → ¬Unpersisted told) ∧ ∀ up', InHand row told up' → up' = up

/-- What holds throughout. -/
structure Sound (σ : Site) : Prop where
  once : σ.sui.Once view.intent
  kept : Kept id σ.rows σ.persisted
  recorded : ∀ row, σ.rows id = some row → row.storeDigest ≠ none → σ.sui.Executed view.intent
  there : ∀ a, σ.attempt = some a → σ.rows id ≠ none
  follows : ∀ a, σ.attempt = some a → a.row.intentId = id ∧
    Async.Leads (store fl cfg a.row a.sender a.commitment) a.told a.rest
  knows : ∀ a, σ.attempt = some a → Knows a.row a.told σ.persisted
  executed : ∀ a, σ.attempt = some a → Relayer.Recorded a.row a.told → σ.sui.Executed view.intent

variable {fl cfg id view} {σ τ : Site} {e : Event} {row : StagedIntentRow} {told : Told} {persisted : List UploadResult}
  {c : Call} {a : Attempt} {rows : Rows} {s : Sui.State} {intent : List UInt8}

/-! ## What an attempt knows -/

/-- An answer that persists no upload adds nothing. -/
theorem Knows.append (h : Knows row told persisted) {r : Except Failure c.Answer}
    (hnew : ∀ up, (⟨c, r⟩ : Σ c : Call, Except Failure c.Answer) ≠ ⟨.persistUpload row.intentId up, .ok ()⟩) :
    Knows row (told ++ [⟨c, r⟩]) persisted := by
  have hold : ∀ up, ⟨.persistUpload row.intentId up, .ok ()⟩ ∈ told ++ [⟨c, r⟩] →
      ⟨.persistUpload row.intentId up, .ok ()⟩ ∈ told := by
    intro up hmem
    obtain hold | hlast := List.mem_append.mp hmem
    · exact hold
    · exact absurd (List.mem_singleton.mp hlast).symm (hnew up)
  obtain ⟨hnone, hrow, hfresh⟩ | ⟨up, hone, hclosed, hsame⟩ := h
  · exact Or.inl ⟨hnone, hrow, fun up hmem => hfresh up (hold up hmem)⟩
  · refine Or.inr ⟨up, hone, fun hrow hfresh => hclosed hrow fun k up' r' hmem => ?_, fun up' hup' => hsame up' ?_⟩
    · exact hfresh k up' r' (List.mem_append_left _ hmem)
    · exact hup'.imp_right fun hin => ⟨hin.1, hold up' hin.2⟩

/-- Nothing is persisted before the first upload. -/
theorem Knows.unpersisted (h : Knows row told persisted) (hrow : row.walrusObjectId = none)
    (hfresh : Unpersisted told) :
    persisted = [] := by
  obtain ⟨hnone, -, -⟩ | ⟨up', -, hclosed, -⟩ := h
  · exact hnone
  · exact absurd hfresh (hclosed hrow)

/-- The upload of a call that persists one. -/
theorem Knows.persist (h : Knows row told persisted) (hrow : row.walrusObjectId = none) (hfresh : Unpersisted told)
    (up : UploadResult) (r : Except Failure Unit) :
    persisted = [] ∧ Knows row (told ++ [⟨.persistUpload row.intentId up, r⟩]) [up] := by
  refine ⟨h.unpersisted hrow hfresh, Or.inr ⟨up, rfl, fun _ hstill => ?_, fun up' hup' => ?_⟩⟩
  · exact hstill _ up r (List.mem_append_right _ (List.mem_singleton_self _))
  · obtain ⟨hsome, -⟩ | ⟨-, hmem⟩ := hup'
    · rw [hrow] at hsome
      cases hsome
    · obtain hbefore | hlast := List.mem_append.mp hmem
      · exact absurd hbefore (hfresh _ up' _)
      · cases List.mem_singleton.mp hlast
        rfl

/-- What an attempt finds. -/
theorem Knows.found {rows : Rows} {r : Row} (h : Kept id rows persisted) (hr : rows id = some r) :
    Knows ⟨r, id⟩ [] persisted := by
  obtain ⟨hnone, hrow⟩ | ⟨up, r', hone, hr', hup⟩ := h
  · exact Or.inl ⟨hnone, hrow r hr, fun _ => List.not_mem_nil⟩
  · rw [hr] at hr'
    cases hr'
    refine Or.inr ⟨up, hone, fun hrow => ?_, fun up' hup' => ?_⟩
    · rw [hup.walrusObjectId] at hrow
      cases hrow
    · obtain ⟨hobject, hblob, hend⟩ | ⟨hrow, -⟩ := hup'
      · rw [hup.walrusObjectId, Option.some.injEq] at hobject
        rw [hup.walrusBlobId] at hblob
        rw [hup.endEpoch] at hend
        obtain ⟨object', blob', end'⟩ := up'
        obtain ⟨object, blob, endEpoch⟩ := up
        simp only [Option.getD_some] at hblob hend
        subst hblob hend
        exact congrArg (UploadResult.mk · _ _) hobject.symm
      · rw [hup.walrusObjectId] at hrow
        cases hrow

/-- The upload in hand is the one that was persisted. -/
theorem Knows.inHand (h : Knows row told persisted) {up : UploadResult} (hup : InHand row told up) :
    persisted = [up] := by
  obtain ⟨-, hrow, hfresh⟩ | ⟨up', hone, -, hsame⟩ := h
  · obtain ⟨hsome, -⟩ | ⟨-, hmem⟩ := hup
    · rw [hrow] at hsome
      cases hsome
    · exact absurd hmem (hfresh up)
  · rw [hone, hsame up hup]

/-! ## What the steps leave -/

theorem Kept.same {rows rows' : Rows} (h : Kept id rows persisted)
    (hsame : ∀ row', rows' id = some row' → (rows id = none ∧ row'.walrusObjectId = none) ∨
      ∃ row, rows id = some row ∧ SameUpload row row') (hthere : rows id ≠ none → rows' id ≠ none) :
    Kept id rows' persisted := by
  obtain ⟨hnone, hrow⟩ | ⟨up, row, hone, hrow, hup⟩ := h
  · refine Or.inl ⟨hnone, fun row' hrow' => ?_⟩
    obtain ⟨-, hfresh⟩ | ⟨row, hr, hkept⟩ := hsame row' hrow'
    · exact hfresh
    · exact hkept.walrusObjectId.trans (hrow row hr)
  · obtain ⟨row', hrow'⟩ := Option.ne_none_iff_exists'.mp (hthere (by simp [hrow]))
    obtain ⟨habsent, -⟩ | ⟨r, hr, hkept⟩ := hsame row' hrow'
    · rw [hrow] at habsent
      cases habsent
    · rw [hrow] at hr
      cases hr
      exact Or.inr ⟨up, row', hone, hrow', hkept.walrusObjectId.trans hup.walrusObjectId,
        hkept.walrusBlobId.trans hup.walrusBlobId, hkept.endEpoch.trans hup.endEpoch⟩

/-! ## Sui -/

/-- A call leaves the Sui objects alone, or is a transaction. -/
theorem SuiAfter.step {s s' : Sui.State} (h : SuiAfter view c s s') :
    s' = s ∨ ∃ now tx, Sui.step (now, tx) s = .ok s' := by
  unfold SuiAfter at h
  split at h
  · obtain ⟨now, epoch, hstep⟩ := h
    exact Or.inr ⟨now, _, hstep⟩
  · obtain ⟨now, field, receipt, -, hstep⟩ := h
    exact Or.inr ⟨now, _, hstep⟩
  · exact Or.inl h

theorem SuiAfter.once {s s' : Sui.State} (h : SuiAfter view c s s') {intent : List UInt8} (hs : s.Once intent) :
    s'.Once intent := by
  obtain rfl | ⟨now, tx, hstep⟩ := h.step
  · exact hs
  · exact (Sui.step_effect hstep).once hs

theorem SuiAfter.executed {s s' : Sui.State} (h : SuiAfter view c s s') {intent : List UInt8} (hs : s.Executed intent) :
    s'.Executed intent := by
  obtain rfl | ⟨now, tx, hstep⟩ := h.step
  · exact hs
  · exact (Sui.step_effect hstep).grown.executed intent hs

/-- A store that has landed is recorded. -/
theorem SuiAfter.stored {s s' : Sui.State} {k : IntentId} {sender objectId : String} {deadlineMs : Nat}
    (h : SuiAfter view (.executeStore k sender objectId deadlineMs) s s') : s'.Executed view.intent := by
  obtain ⟨now, epoch, hstep⟩ := h
  obtain ⟨-, -, -, record, -, -, -, -, rfl⟩ := Sui.executeStore_ok.mp hstep
  exact Sui.executed_update.mpr (Or.inl rfl)

/-- What is refused as already executed was executed. -/
theorem executed_of_aborted {now : Nat} {epoch : UInt32} {who sender : Sui.Address} {intent : List UInt8}
    {blob : Sui.Blob} {s : Sui.State} (h : Sui.Executor.executeStore now who epoch intent blob sender s =
      .error Sui.Executor.EIntentAlreadyExecuted) : s.Executed intent := by
  intro hnone
  have hassert : ∀ {b : Bool} {err : Sui.Abort}, err ≠ Sui.Executor.EIntentAlreadyExecuted →
      Sui.assert b err ≠ .error Sui.Executor.EIntentAlreadyExecuted := by
    intro b err hne
    unfold Sui.assert
    split <;> simp [hne]
  have hfield : ∀ {α : Type} {field : Sui.IntentRecord → α},
      Sui.committedField field s.receiver intent ≠ .error Sui.Executor.EIntentAlreadyExecuted := by
    intro α field
    unfold Sui.committedField
    split
    · simp
    · exact fun herr => absurd (Except.error.inj herr) (by decide)
  -- every step fails with a code of its own, and that of the table passes
  unfold Sui.Executor.executeStore Sui.Executor.assertDeadline Sui.Executor.assertReference at h
  rw [hnone] at h
  refine absurd h ?_
  refine Result.bind_ne_error (hassert (by decide)) fun _ => Result.bind_ne_error (hassert (by decide)) fun _ => ?_
  refine Result.bind_ne_error (by simp [Sui.assert]) fun _ => Result.bind_ne_error hfield fun _ => ?_
  refine Result.bind_ne_error (hassert (by decide)) fun _ => Result.bind_ne_error hfield fun _ => ?_
  refine Result.bind_ne_error hfield fun _ => Result.bind_ne_error ?_ fun _ => ?_
  · exact Result.bind_ne_error (hassert (by decide)) fun _ => hassert (by decide)
  · simp [pure, Except.pure]

/-! ## The steps -/

/-- What an attempt may do next. -/
structure Pending (row : StagedIntentRow) (told : Told) (c : Call) : Prop where
  grounds : Grounds row told c
  own : StepCall row c ∨ c.DeadLetter row.intentId

/-- The next call of an attempt stands on what it was told, and is for its row. -/
theorem Sound.pending (hs : Sound fl cfg id view σ) (ha : σ.attempt = some a)
    {next : Except Failure c.Answer → Program Booking} (hrest : a.rest = .await c next) : Pending a.row a.told c := by
  obtain ⟨-, hlead⟩ := hs.follows a ha
  have hgrounded := wp_leads (store_grounded fl cfg a.row a.sender a.commitment) hlead
  have hcalls := hlead.calls (store_stores fl cfg a.row a.sender a.commitment).calls
  rw [hrest] at hgrounded hcalls
  exact ⟨hgrounded.1.1.2, hcalls.1⟩

/-- The upload that a call persists is that of its own row. -/
theorem Pending.persistUpload {k : IntentId} {up : UploadResult} (h : Pending row told (.persistUpload k up)) :
    k = row.intentId ∧ row.walrusObjectId = none ∧ Unpersisted told := by
  obtain ⟨hk, hrow⟩ | ⟨text, hdead⟩ := h.own
  · exact ⟨hk, hrow, h.grounds⟩
  · cases hdead

/-- What is new in what is known to be executed. -/
theorem recorded_append {r : Except Failure c.Answer} (h : Relayer.Recorded row (told ++ [⟨c, r⟩])) :
    Relayer.Recorded row told ∨ ∃ sender objectId deadlineMs, ∃ r' : Except Failure String,
      (⟨c, r⟩ : Σ c : Call, Except Failure c.Answer) = ⟨.executeStore row.intentId sender objectId deadlineMs, r'⟩ ∧
        ∀ err, r' = .error err → alreadyExecuted err.text = true := by
  obtain hdigest | ⟨sender, objectId, deadlineMs, r', hmem, hsaid⟩ := h
  · exact Or.inl (Or.inl hdigest)
  · obtain hold | hnew := List.mem_append.mp hmem
    · exact Or.inl (Or.inr ⟨sender, objectId, deadlineMs, r', hold, hsaid⟩)
    · exact Or.inr ⟨sender, objectId, deadlineMs, r', (List.mem_singleton.mp hnew).symm, hsaid⟩

/-- What an attempt knows after an answer. -/
theorem Knows.answered (h : Knows row told persisted) (hc : Pending row told c) (r : Except Failure c.Answer) :
    Knows row (told ++ [⟨c, r⟩]) (persistedAfter c persisted) := by
  cases c with
  | persistUpload k up =>
    obtain ⟨rfl, hrow, hfresh⟩ := hc.persistUpload
    obtain ⟨rfl, hknows⟩ := h.persist hrow hfresh up r
    exact hknows
  | _ => exact h.append fun up hnew => by cases hnew

theorem Kept.answered (h : Kept row.intentId rows persisted) (hthere : rows row.intentId ≠ none)
    (hknows : Knows row told persisted)
    (hc : Pending row told c) (now : Nat) : Kept row.intentId (c.run now rows) (persistedAfter c persisted) := by
  cases c with
  | persistUpload k up =>
    obtain ⟨rfl, hrow, hfresh⟩ := hc.persistUpload
    obtain ⟨rfl, -⟩ := hknows.persist hrow hfresh up (.ok ())
    obtain ⟨latest, hlatest⟩ := Option.ne_none_iff_exists'.mp hthere
    refine Or.inr ⟨up, uploaded up now latest, rfl, ?_, rfl, rfl, rfl⟩
    refine (Op.run_self (.persistUpload row.intentId up now) rfl rows).trans ?_
    rw [hlatest]
    rfl
  | _ =>
    refine h.same (fun row' hrow' => Call.run_upload (fun _ _ => Call.noConfusion) row' hrow') fun _ =>
      Call.run_there hthere

/-- A row has its record after an answer only if the execution has happened. -/
theorem recorded_answered (hrecorded : ∀ row, rows id = some row → row.storeDigest ≠ none → s.Executed intent)
    (hknown : Relayer.Recorded row told → s.Executed intent) (hc : Pending row told c) {now : Nat} {row' : Row}
    (hrow' : c.run now rows id = some row') (hdigest : row'.storeDigest ≠ none) : s.Executed intent := by
  cases c with
  | persistStore k digest => exact hknown (Or.inr hc.grounds)
  | _ =>
    obtain ⟨row, hrow, hrowDigest⟩ := Call.run_digest (fun _ _ => Call.noConfusion) hrow' hdigest
    exact hrecorded row hrow hrowDigest

/-- What an attempt knows to be executed after an answer. -/
theorem executed_answered {r : Except Failure c.Answer} {landed : Bool} (htruth : Truthful view σ (.answer c r landed))
    (hknown : Relayer.Recorded row told → σ.sui.Executed view.intent) {s : Sui.State}
    (hkept : σ.sui.Executed view.intent → s.Executed view.intent) (hlanded : r.isOk = true → SuiAfter view c σ.sui s)
    (h : Relayer.Recorded row (told ++ [⟨c, r⟩])) : s.Executed view.intent := by
  obtain hold | ⟨sender, objectId, deadlineMs, r', hcall, hsaid⟩ := recorded_append h
  · exact hkept (hknown hold)
  · cases hcall
    cases r' with
    | ok digest => exact (hlanded rfl).stored
    | error err =>
      obtain ⟨now, epoch, blob, receiver, habort⟩ := htruth (hsaid err rfl)
      exact hkept (executed_of_aborted habort)

theorem Sound.step (hs : Sound fl cfg id view σ) (htruth : Truthful view σ e) (hstep : Step fl cfg id view σ e τ) :
    Sound fl cfg id view τ := by
  cases hstep with
  | @start row sender commitment hidle hrow =>
    refine { hs with there := ?_, follows := ?_, knows := ?_, executed := ?_ }
    · simp [hrow]
    · rintro a ⟨⟩
      exact ⟨rfl, .start⟩
    · rintro a ⟨⟩
      exact Knows.found hs.kept hrow
    · rintro a ⟨⟩ (hdigest | ⟨_, _, _, _, hmem, -⟩)
      · exact hs.recorded row hrow hdigest
      · cases hmem
  | @lands a c next sui now r ha hrest hanswers hsui =>
    have hc := hs.pending ha hrest
    obtain ⟨hid, hlead⟩ := hs.follows a ha
    have hthere := hs.there a ha
    refine ⟨hsui.once hs.once, ?_, ?_, ?_, ?_, ?_, ?_⟩
    · subst hid
      exact hs.kept.answered hthere (hs.knows a ha) hc now
    · exact fun row' hrow' hdigest => hsui.executed (recorded_answered hs.recorded (hs.executed a ha) hc hrow' hdigest)
    · exact fun _ _ => Call.run_there hthere
    · rintro b ⟨⟩
      rw [hrest] at hlead
      exact ⟨hid, hlead.answer r⟩
    · rintro b ⟨⟩
      exact (hs.knows a ha).answered hc r
    · rintro b ⟨⟩
      exact executed_answered htruth (hs.executed a ha) hsui.executed fun _ => hsui
  | @fails a c next err ha hrest =>
    obtain ⟨hid, hlead⟩ := hs.follows a ha
    refine { hs with there := ?_, follows := ?_, knows := ?_, executed := ?_ }
    · exact fun _ _ => hs.there a ha
    · rintro b ⟨⟩
      rw [hrest] at hlead
      exact ⟨hid, hlead.answer (.error err)⟩
    · rintro b ⟨⟩
      exact (hs.knows a ha).append fun up hnew => by cases hnew
    · rintro b ⟨⟩
      exact executed_answered htruth (hs.executed a ha) (fun hx => hx) fun hok => by cases hok
  | leave =>
    refine { hs with there := ?_, follows := ?_, knows := ?_, executed := ?_ } <;> exact fun _ h => by cases h
  | @statement op hop hkept =>
    have hupload : ∀ up now, op ≠ .persistUpload id up now := by
      rintro up now rfl
      exact hop rfl
    have hdigest : ∀ digest now, op ≠ .persistStore id digest now := by
      rintro digest now rfl
      exact hop rfl
    refine { hs with kept := ?_, recorded := ?_, there := ?_ }
    · exact hs.kept.same (Op.run_upload hupload) hkept
    · intro row' hrow' hdigest'
      obtain ⟨row, hrow, hrowDigest⟩ := Op.run_digest hdigest hrow' hdigest'
      exact hs.recorded row hrow hrowDigest
    · exact fun a ha => hkept (hs.there a ha)
  | @sui sui now tx htx =>
    have heffect := Sui.step_effect htx
    have hexecuted := heffect.grown.executed view.intent
    refine { hs with once := heffect.once hs.once, recorded := ?_, executed := ?_ }
    · exact fun row hrow hdigest => hexecuted (hs.recorded row hrow hdigest)
    · exact fun a ha hrecorded => hexecuted (hs.executed a ha hrecorded)

/-- Before anything is staged. -/
def Site.before (sui : Sui.State) : Site where
  rows _ := none
  sui := sui

theorem Sound.before (hsui : σ.sui.Once view.intent) : Sound fl cfg id view (.before σ.sui) where
  once := hsui
  kept := Or.inl ⟨rfl, fun _ h => by cases h⟩
  recorded _ h := by cases h
  there _ h := by cases h
  follows _ h := by cases h
  knows _ h := by cases h
  executed _ h := by cases h

/-- What is executed has been executed once. -/
theorem Sound.executions (hs : Sound fl cfg id view σ) (h : σ.sui.Executed view.intent) : Executed view σ :=
  hs.once.trans (if_neg h)

/-- The next call of an attempt is safe. -/
theorem Sound.safe (hs : Sound fl cfg id view σ) (ha : σ.attempt = some a)
    {next : Except Failure c.Answer → Program Booking} (hrest : a.rest = .await c next) : Safe view σ c := by
  have hc := hs.pending ha hrest
  have hknows := hs.knows a ha
  have hexecuted : Relayer.Recorded a.row a.told → Executed view σ := fun h => hs.executions (hs.executed a ha h)
  cases c with
  | writeBlob k bytes epochs =>
    obtain ⟨-, hrow⟩ | ⟨text, hdead⟩ := hc.own
    · exact hknows.unpersisted hrow hc.grounds.1
    · cases hdead
  | executeStore k sender objectId deadlineMs =>
    obtain ⟨up, hup, hobject⟩ := hc.grounds
    exact ⟨up, hknows.inHand hup, hobject⟩
  | lzSendProof k blobId endEpoch dstEid fee =>
    obtain ⟨hrecorded, up, hup, hblob, hend⟩ := hc.grounds
    exact ⟨hexecuted hrecorded, up, hknows.inHand hup, hblob, hend⟩
  | evmConfirmExecution k proof =>
    obtain ⟨hrecorded, up, field, hup, hfield, hproof⟩ := hc.grounds
    exact ⟨hexecuted hrecorded, up, field, hknows.inHand hup, hfield, hproof⟩
  | solanaConfirmExecution k blobId endEpoch =>
    obtain ⟨hrecorded, up, hup, hfield, hend⟩ := hc.grounds
    exact ⟨hexecuted hrecorded, up, hknows.inHand hup, hfield, hend⟩
  | _ => trivial

/-! ## The runs -/

variable (fl cfg id view) in
/-- However the attempts end: the store is recorded once at most, one upload at most is persisted, and every call is
made for it, those that return it after the store was recorded. The row is not purged meanwhile: a purge is of settled
rows. -/
theorem pipeline_crash_safe (start : Nat) (publisher : Sui.Address) (σ : Site)
    (hrun : Leads fl cfg id view (Truthful view) (.before (Sui.init start publisher)) σ) :
    σ.sui.executions view.intent ≤ 1 ∧ σ.persisted.length ≤ 1 ∧
      ∀ (a : Attempt) (c : Call) (next : Except Failure c.Answer → Program Booking), σ.attempt = some a →
        a.rest = .await c next → Safe view σ c := by
  have hsound : Sound fl cfg id view σ := by
    induction hrun with
    | refl => exact Sound.before (σ := .before (Sui.init start publisher)) rfl
    | tail _ hstep ih =>
      obtain ⟨e, htruth, hstep⟩ := hstep
      exact ih.step htruth hstep
  refine ⟨hsound.once.le, ?_, fun a c next ha hrest => hsound.safe ha hrest⟩
  obtain ⟨hnone, -⟩ | ⟨up, -, hone, -⟩ := hsound.kept
  · simp [hnone]
  · simp [hone]

section

variable {C : Site → Event → Prop} {σ₀ : Site} {sui : Sui.State} {found : StagedIntentRow} {sender : String}
  {commitment : Option IntentCommitment} {next : Except Failure c.Answer → Program Booking} {rows' : Rows} {r₀ : Row}

theorem Leads.statement (hlead : Leads fl cfg id view C σ₀ ⟨rows, sui, none, persisted⟩) (op : Op)
    (hC : ∀ σ, C σ (.statement op)) (hop : Aside id op) (hrun : op.run rows = rows') (hkept : rows' id ≠ none) :
    Leads fl cfg id view C σ₀ ⟨rows', sui, none, persisted⟩ := by
  subst hrun
  exact hlead.tail ⟨_, hC _, .statement op hop fun _ => hkept⟩

theorem Leads.begin (hlead : Leads fl cfg id view C σ₀ ⟨rows, sui, none, persisted⟩) (hC : ∀ σ, C σ .start)
    (hrow : rows id = some r₀) (sender : String) (commitment : Option IntentCommitment) : Leads fl cfg id view C σ₀
      ⟨rows, sui, some ⟨⟨r₀, id⟩, sender, commitment, [], store fl cfg ⟨r₀, id⟩ sender commitment⟩, persisted⟩ :=
  hlead.tail ⟨_, hC _, .start sender commitment rfl hrow⟩

theorem Leads.abandon {attempt : Option Attempt} (hlead : Leads fl cfg id view C σ₀ ⟨rows, sui, attempt, persisted⟩)
    (hC : ∀ σ, C σ .leave) : Leads fl cfg id view C σ₀ ⟨rows, sui, none, persisted⟩ :=
  hlead.tail ⟨_, hC _, .leave⟩

/-- A call that lands. -/
theorem Leads.land (hlead : Leads fl cfg id view C σ₀
      ⟨rows, sui, some ⟨found, sender, commitment, told, .await c next⟩, persisted⟩)
    (r : Except Failure c.Answer) (hC : ∀ σ, C σ (.answer c r true)) (hanswers : c.Answers rows r)
    (hrun : c.run 0 rows = rows') (hsui : SuiAfter view c sui sui) : Leads fl cfg id view C σ₀
      ⟨rows', sui, some ⟨found, sender, commitment, told ++ [⟨c, r⟩], next r⟩, persistedAfter c persisted⟩ := by
  subst hrun
  have hstep : Step fl cfg id view _ _ _ :=
    .lands (σ := ⟨rows, sui, some ⟨found, sender, commitment, told, .await c next⟩,
      persisted⟩) 0 r rfl rfl hanswers hsui
  exact hlead.tail ⟨_, hC _, hstep⟩

/-- A call that leaves what it works on alone. -/
theorem Leads.read (hlead : Leads fl cfg id view C σ₀
      ⟨rows, sui, some ⟨found, sender, commitment, told, .await c next⟩, persisted⟩)
    (r : Except Failure c.Answer) (hC : ∀ σ, C σ (.answer c r true)) (hanswers : c.Answers rows r)
    (hrun : c.run 0 rows = rows) (hsui : SuiAfter view c sui sui) (hkept : persistedAfter c persisted = persisted) :
    Leads fl cfg id view C σ₀
      ⟨rows, sui, some ⟨found, sender, commitment, told ++ [⟨c, r⟩], next r⟩, persisted⟩ := by
  have hlanded := hlead.land r hC hanswers hrun hsui
  rwa [hkept] at hlanded

end

def exampleView : SuiView := ⟨.zero 32, [1], fun _ => ⟨0, some 8, 9⟩, fun _ => .zero 32⟩

/-- The statement of an upload reports an error and has landed, and the relayer crashes; the attempt that follows
records the upload that was persisted. -/
theorem pipeline_crash_safe_resumed : ∃ σ : Site, ∃ a : Attempt, ∃ next,
    σ.attempt = some a ∧ a.rest = .await (.executeStore "0x01" "0xab" "0xb10b" 3600000) next ∧
      Safe exampleView σ (.executeStore "0x01" "0xab" "0xb10b" 3600000) := by
  have hC : ∀ (c : Call) (r : Except Failure c.Answer), (∀ k sender object t, c ≠ .executeStore k sender object t) →
      ∀ σ, Truthful exampleView σ (.answer c r true) := by
    intro c r hc σ
    cases c with
    | executeStore k sender object t => exact absurd rfl (hc k sender object t)
    | _ => trivial
  have hbefore : Leads .exact exampleConfig "0x01" exampleView (Truthful exampleView)
      (.before (Sui.init 0 (.zero 32))) (.before (Sui.init 0 (.zero 32))) := .refl
  -- the row is staged
  have h0 := hbefore.statement (.upsertBytes "0x01" exampleBytes none 0) (fun _ => trivial) trivial
    (Op.run_insert rfl rfl) (by simp)
  have h1 := h0.statement (.markReceived "0x01" exampleReceipt 0) (fun _ => trivial) trivial
    (Op.run_merge rfl (Function.update_self ..) rfl) (by simp)
  -- the first attempt
  have h2 := h1.begin (fun _ => trivial) (Function.update_self ..) "0xab" (some exampleCommitment)
  have h3 := h2.read (c := .systemState) (.ok ⟨1000, 1, 1, 53⟩) (by apply hC; simp) trivial rfl rfl rfl
  have h4 := h3.read (c := .ensureWal) (.ok ()) (by apply hC; simp) trivial rfl rfl rfl
  have h5 := h4.read (c := .recordHop "0x01" .received _) (.ok ()) (by apply hC; simp) trivial rfl rfl rfl
  have h6 := h5.read (c := .fetchBytes "0x01") (.ok (some [7])) (by apply hC; simp) rfl rfl rfl rfl
  have h7 := h6.read (c := .writeBlob "0x01" [7] 1) (.ok ⟨exampleBlobId, "0xb10b", 9⟩)
      (by apply hC; simp) trivial rfl rfl rfl
  have h8 := h7.read (c := .systemState) (.ok ⟨1000, 1, 1, 53⟩) (by apply hC; simp) trivial rfl rfl rfl
  have h9 := h8.land (c := .persistUpload "0x01" exampleUpload) (.error (.error "timeout")) (by apply hC; simp) trivial
    (Op.run_update rfl (Function.update_self ..) rfl) rfl
  -- the attempt that follows
  have h10 := h9.abandon fun _ => trivial
  have h11 := h10.begin (fun _ => trivial) (Function.update_self ..) "0xab" (some exampleCommitment)
  have h12 := h11.read (c := .systemState) (.ok ⟨1000, 1, 1, 53⟩) (by apply hC; simp) trivial rfl rfl rfl
  have h13 := h12.read (c := .ensureWal) (.ok ()) (by apply hC; simp) trivial rfl rfl rfl
  have h14 := h13.read (c := .recordHop "0x01" .received _) (.ok ()) (by apply hC; simp) trivial rfl rfl rfl
  have h15 := h14.read (c := .recordHop "0x01" .storedWalrus _) (.ok ()) (by apply hC; simp) trivial rfl rfl rfl
  obtain ⟨-, -, hsafe⟩ := pipeline_crash_safe _ _ _ _ 0 (.zero 32) _ h15
  exact ⟨_, _, _, rfl, rfl, hsafe _ _ _ rfl rfl⟩

end Bosphor.Relayer.CrashSafety

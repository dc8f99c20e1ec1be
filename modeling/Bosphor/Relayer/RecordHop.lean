import Bosphor.Lib.ReadMergeWrite
import Bosphor.Relayer.Lifecycle

/-!
# Recording hops in Postgres

`recordHop` reads the record of its intent, merges the hop into what it read,
and writes every column of the row back: two statements, with nothing held
between them. Two calls that overlap can lose a hop, and the commitment with it
(`hop_lost`). `hops_kept_iff` says of any interleaving when nothing is lost.
-/

namespace Bosphor.Relayer

open Merging (Event)

/-- What a record can know: a hop, or a field. -/
inductive LifecycleFact where
  | hop (hop : IntentHop)
  | field (field : LifecycleField)

/-- The row that the upsert of a call leaves, which read `existing`: a row keeps its `created_at`. -/
def upsertRecord (id : IntentId) (existing row : Option IntentLifecycleRecord) (c : HopCall) : IntentLifecycleRecord :=
  let record := applyHop existing id c.hop c.details c.now
  { record with createdAt := (row.map (·.createdAt)).getD record.createdAt }

/-- The record of one intent, as the calls of `recordHop` merge into it. -/
def hopMerging (id : IntentId) : Merging (Option IntentLifecycleRecord) HopCall LifecycleFact where
  knows record
    | .hop hop => ∃ r, record = some r ∧ ∃ h ∈ r.hops, h.hop = hop
    | .field field => record.any (·.has field) = true
  brings c
    | .hop hop => hop = c.hop
    | .field field => c.details.has field = true
  merge existing row c := some (upsertRecord id existing row c)
  knows_merge existing row c fact := by
    rcases fact with hop | field
    · show (∃ r, some (upsertRecord id existing row c) = some r ∧ ∃ h ∈ r.hops, h.hop = hop) ↔ _
      simp only [Option.some.injEq, exists_eq_left']
      exact applyHop_hops
    · have hfield : (upsertRecord id existing row c).has field =
          (applyHop existing id c.hop c.details c.now).has field := by cases field <;> rfl
      show (upsertRecord id existing row c).has field = true ↔ _
      rw [hfield, applyHop_has, Bool.or_eq_true]

/-- The store of one intent's record: the row, and the calls under way. -/
abbrev HopStore (ι : Type) := Merging.State (Option IntentLifecycleRecord) HopCall ι

variable {ι : Type} [DecidableEq ι] {id : IntentId} {visited : List (HopStore ι × Event HopCall ι)} {s : HopStore ι}

/-- The steps of any calls of `recordHop` on one intent, in any order. -/
abbrev HopRun (id : IntentId) : List (HopStore ι × Event HopCall ι) → HopStore ι → Prop := (hopMerging id).Run none

/-- The record has every hop that was recorded, and every field that came with one. -/
structure HopsKept (s : HopStore ι) : Prop where
  hops : ∀ c ∈ s.recorded, ∃ r, s.cell = some r ∧ ∃ h ∈ r.hops, h.hop = c.hop
  fields : ∀ c ∈ s.recorded, ∀ field, c.details.has field = true → s.cell.any (·.has field) = true
  commitment : ∀ c ∈ s.recorded, c.hop = .submitted → c.details.has .committedBlobId = true →
    c.details.has .size = true → c.details.has .deadline = true → (getCommitment s.cell).isSome = true

/-- The row has no hop and no set field that the call neither read nor brings. -/
structure NothingNew (row existing : Option IntentLifecycleRecord) (c : HopCall) : Prop where
  hops : ∀ r, row = some r → ∀ h ∈ r.hops, h.hop = c.hop ∨ ∃ r', existing = some r' ∧ ∃ h' ∈ r'.hops, h'.hop = h.hop
  fields : ∀ field, row.any (·.has field) = true → c.details.has field = true ∨ existing.any (·.has field) = true

/-- A call that writes finds nothing new. -/
def WritesNothingNewOver (s : HopStore ι) (e : Event HopCall ι) : Prop :=
  ∀ i c existing, e = .write i → s.reading i = some (c, existing) → NothingNew s.cell existing c

/-- A row that nobody wrote since it was read. -/
theorem NothingNew.same (row : Option IntentLifecycleRecord) (c : HopCall) : NothingNew row row c where
  hops r hr h hh := Or.inr ⟨r, hr, h, hh, rfl⟩
  fields _ hfield := Or.inr hfield

omit [DecidableEq ι] in
theorem hopsKept_iff (id : IntentId) : HopsKept s ↔ (hopMerging id).Complete s := by
  constructor
  · rintro h c hc (hop | field) hbrings
    · obtain rfl : hop = c.hop := hbrings
      exact h.hops c hc
    · exact h.fields c hc field hbrings
  · intro h
    have hfields : ∀ c ∈ s.recorded, ∀ field, c.details.has field = true → s.cell.any (·.has field) = true :=
      fun c hc field => h c hc (.field field)
    refine ⟨fun c hc => h c hc (.hop c.hop) rfl, hfields, fun c hc _ hblob hsize hdeadline => ?_⟩
    exact getCommitment_isSome.mpr ⟨hfields c hc _ hblob, hfields c hc _ hsize, hfields c hc _ hdeadline⟩

omit [DecidableEq ι] in
theorem writesNothingNewOver_iff (id : IntentId) {e : Event HopCall ι} :
    WritesNothingNewOver s e ↔ (hopMerging id).Covers s e := by
  constructor
  · rintro h i c existing he hread (hop | field) hknows
    · obtain ⟨r, hr, entry, hentry, rfl⟩ := hknows
      exact (h i c existing he hread).hops r hr entry hentry
    · exact (h i c existing he hread).fields field hknows
  · intro h i c existing he hread
    exact ⟨fun r hr entry hentry => h i c existing he hread (.hop entry.hop) ⟨r, hr, entry, hentry, rfl⟩,
      fun field => h i c existing he hread (.field field)⟩

/-- Every state of a run keeps the hops exactly when no write of the run finds anything new. -/
theorem hops_kept_iff (hrun : HopRun id visited s) :
    ((∀ x ∈ visited, HopsKept x.1) ∧ HopsKept s) ↔ ∀ x ∈ visited, WritesNothingNewOver x.1 x.2 := by
  have hempty : ∀ fact, ¬(hopMerging id).knows none fact := by
    rintro (hop | field) hknows
    · obtain ⟨r, hr, -⟩ := hknows
      cases hr
    · cases hknows
  simp only [hopsKept_iff id, writesNothingNewOver_iff id]
  exact hrun.complete_iff hempty

/-! ## Two calls -/

def exampleSubmitted : HopCall where
  hop := .submitted
  details := { committedBlobId := some "0x00", size := some 3, deadline := some 9000 }
  now := 1

def exampleDelivered : HopCall := { hop := .received, details := { sender := some "0xa0" }, now := 2 }

/-- A call that reads what the other has written loses nothing. -/
theorem hops_kept_sequential : ∃ visited, ∃ s : HopStore Bool, HopRun "0x01" visited s ∧
    s.recorded = [exampleSubmitted, exampleDelivered] ∧ HopsKept s := by
  have hstart : HopRun "0x01" [] (⟨none, fun _ => none, []⟩ : HopStore Bool) := .start
  have hread := hstart.step (.read (i := false) exampleSubmitted rfl)
  have hwrite := hread.step (.write (i := false) rfl)
  have hread' := hwrite.step (.read (i := true) exampleDelivered rfl)
  have hrun := hread'.step (.write (i := true) rfl)
  refine ⟨_, _, hrun, rfl, ((hops_kept_iff hrun).mpr ?_).2⟩
  simp only [List.nil_append, List.cons_append, List.forall_mem_cons]
  refine ⟨?_, ?_, ?_, ?_, fun x hx => absurd hx List.not_mem_nil⟩
  · intro i c existing he
    cases he
  · intro i c existing he hreading
    cases he
    cases hreading
    exact NothingNew.same none exampleSubmitted
  · intro i c existing he
    cases he
  · intro i c existing he hreading
    cases he
    cases hreading
    exact NothingNew.same _ exampleDelivered

/-- A call that read the row before the other wrote it loses the submission, and the commitment. -/
theorem hop_lost : ¬ ∀ visited, ∀ s : HopStore Bool, HopRun "0x01" visited s → HopsKept s := by
  intro h
  have hstart : HopRun "0x01" [] (⟨none, fun _ => none, []⟩ : HopStore Bool) := .start
  have hread := hstart.step (.read (i := false) exampleSubmitted rfl)
  have hread' := hread.step (.read (i := true) exampleDelivered rfl)
  have hwrite := hread'.step (.write (i := false) rfl)
  have hrun := hwrite.step (.write (i := true) rfl)
  have hcommitment := (h _ _ hrun).commitment exampleSubmitted List.mem_cons_self rfl rfl rfl rfl
  cases hcommitment

end Bosphor.Relayer

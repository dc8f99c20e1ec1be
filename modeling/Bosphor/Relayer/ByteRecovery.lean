import Bosphor.Relayer.IntentIngest

/-!
# What brings bytes in

A client's delivery, and the sweep that recovers the bytes a client never
delivered: it fetches the committed blob from Walrus and puts it through the
same ingest. No bytes are staged but those that ingest has bound to the
commitment of their intent (`deliver_binds`, `recoverMissingBytes_binds`).
-/

namespace Bosphor.Relayer

open Async

/-- A row that the sweep is to recover the bytes of. -/
structure ByteRecoveryCandidate where
  intentId : IntentId
  committedBlobId : String

/-- The calls that ingest and the sweep await. -/
inductive IntakeCall where
  | ingest (c : IngestCall)
  | claimForByteRecovery (now graceMs limit : Nat)
  | rescheduleByteRecovery (id : IntentId) (nextAt : Nat)
  | fetchBlobFromAggregator (blobId : String)

abbrev IntakeCall.Answer : IntakeCall → Type
  | .ingest c => c.Answer
  | .claimForByteRecovery .. => List ByteRecoveryCandidate
  | .rescheduleByteRecovery .. => Unit
  | .fetchBlobFromAggregator _ => List UInt8

/-- A program that brings bytes in. -/
abbrev Intake := Async IntakeCall IntakeCall.Answer Unit

abbrev intakeCall (c : IntakeCall) : Intake c.Answer := Async.call c

structure RecoveryConfig where
  bytesRecoveryGraceMs : Nat := 45000
  bytesRecoveryBackoffMs : Nat := 60000
  batchSize : Nat := 20

variable (cfg : IngestConfig) (rcfg : RecoveryConfig)

/-- A client's delivery. -/
def deliver (id : IntentId) (bytes : List UInt8) (appId : Option String) : Intake IngestResult :=
  via IntakeCall.ingest (ingest cfg id bytes appId)

/-- The commitment's blob is fetched and ingested; a failure is left to a later sweep. -/
def recoverBytes (c : ByteRecoveryCandidate) : Intake Unit :=
  tryCatch (do
    let blobId ← Async.ofExcept ((fieldToWalrusBlobId c.committedBlobId).mapError fun _ => ())
    let bytes ← intakeCall (.fetchBlobFromAggregator blobId)
    let _ ← deliver cfg c.intentId bytes none
    return ()) fun _ => return ()

/-- The byte-recovery sweep. It backs off before it fetches, so that what cannot be fetched is not asked for again and
again. -/
def recoverMissingBytes : Intake Unit :=
  tryCatch (do
    let now ← intakeCall (.ingest .now)
    let candidates ← intakeCall (.claimForByteRecovery now rcfg.bytesRecoveryGraceMs rcfg.batchSize)
    candidates.forM fun c => do
      let now ← intakeCall (.ingest .now)
      intakeCall (.rescheduleByteRecovery c.intentId (now + rcfg.bytesRecoveryBackoffMs))
      recoverBytes cfg c) fun _ => return ()

/-! ## What is staged -/

abbrev IngestTold := History IngestCall IngestCall.Answer Unit

abbrev IntakeTold := History IntakeCall IntakeCall.Answer Unit

/-- The bytes are those that a commitment of the intent is for, as far as ingest was told. -/
def BoundTo (told : IngestTold) (id : IntentId) (blob : StagedBytes) : Prop :=
  ∃ c : IntentCommitment, ⟨.getCommitment id, .ok (some c)⟩ ∈ told ∧ blob.bytes.length = c.size ∧
    ⟨.encodeBlob blob.bytes, .ok blob.blobId⟩ ∈ told ∧ blobIdMatches blob.blobId c.committedBlobId = true

/-- Only bound bytes are staged. -/
def Binds (told : IngestTold) : IngestCall → Prop
  | .upsert id blob _ _ => BoundTo told id blob
  | _ => True

theorem BoundTo.append {told : IngestTold} {id : IntentId} {blob : StagedBytes} (h : BoundTo told id blob)
    (told' : IngestTold) : BoundTo (told ++ told') id blob := by
  obtain ⟨c, hknown, hsize, hencoded, hmatches⟩ := h
  exact ⟨c, List.mem_append_left _ hknown, hsize, List.mem_append_left _ hencoded, hmatches⟩

variable {cfg rcfg} {told : IngestTold} {id : IntentId} {bytes : List UInt8} {appId : Option String}

theorem upsertBytes_binds {blob : StagedBytes} (h : BoundTo told id blob) (maxStagedBytes : Option Nat) :
    wp Binds (fun _ _ => True) told (upsertBytes id blob maxStagedBytes) := by
  unfold upsertBytes
  rw [wp_bind, wp_call]
  refine ⟨trivial, fun r => ?_⟩
  cases r with
  | error e => trivial
  | ok now =>
    rw [andThen_ok, wp_bind, wp_call]
    refine ⟨h.append _, fun r => ?_⟩
    cases r with
    | error e => trivial
    | ok wrote =>
      rw [andThen_ok]
      cases wrote with
      | true => trivial
      | false =>
        cases maxStagedBytes with
        | none => trivial
        | some cap =>
          show wp Binds _ _ (ingestCall (.stagedBytesTotalExcluding id) >>= _)
          rw [wp_bind, wp_call]
          refine ⟨trivial, fun r => ?_⟩
          cases r <;> trivial

theorem bindBytes_binds {c : IntentCommitment} (hknown : ⟨.getCommitment id, .ok (some c)⟩ ∈ told)
    (hsize : bytes.length = c.size) : wp Binds (fun _ _ => True) told (bindBytes cfg id bytes appId c) := by
  unfold bindBytes
  rw [wp_bind, wp_call]
  refine ⟨trivial, fun r => ?_⟩
  cases r with
  | error e => trivial
  | ok blobId =>
    rw [andThen_ok]
    split
    · trivial
    · rename_i hmatches
      unfold stage
      split
      · rw [wp_bind]
        have hbound : BoundTo (told ++ [⟨.encodeBlob bytes, .ok blobId⟩]) id
            ⟨bytes, blobId, bytes.length, appId, some c.deadline⟩ :=
          ⟨c, List.mem_append_left _ hknown, hsize, List.mem_append_right _ (List.mem_singleton_self _),
            by simpa using hmatches⟩
        refine wp_mono (upsertBytes_binds hbound _) (fun _ _ h => h) fun h r _ => ?_
        cases r with
        | error e => trivial
        | ok outcome => cases outcome <;> trivial
      · trivial

theorem admitBytes_binds {c : IntentCommitment} (hknown : ⟨.getCommitment id, .ok (some c)⟩ ∈ told) :
    wp Binds (fun _ _ => True) told (admitBytes cfg id bytes appId c) := by
  unfold admitBytes
  split
  · trivial
  · rw [wp_bind, wp_call]
    refine ⟨trivial, fun r => ?_⟩
    cases r with
    | error e => trivial
    | ok now =>
      rw [andThen_ok]
      split
      · trivial
      · split
        · trivial
        · split
          · trivial
          · rename_i hsize
            rw [not_not] at hsize
            have hshed : Calls (· = .stagedBytesTotal) (shed cfg bytes) := by
              unfold shed
              split
              · exact Calls.bind (calls_call rfl) fun _ => trivial
              · trivial
            rw [wp_bind]
            refine wp_frame (I := fun h => ⟨.getCommitment id, .ok (some c)⟩ ∈ h)
              (fun h d r _ hI => List.mem_append_left _ hI) (fun h d _ hd => ?_) (fun h r hI => ?_) hshed
              (List.mem_append_left _ hknown)
            · rw [hd]
              trivial
            · cases r with
              | error e => trivial
              | ok message =>
                cases message with
                | some message => trivial
                | none => exact bindBytes_binds hI hsize

/-- Ingest stages the bytes that it has bound to the commitment. -/
theorem ingest_binds (id : IntentId) (bytes : List UInt8) (appId : Option String) :
    wp Binds (fun _ _ => True) told (ingest cfg id bytes appId) := by
  unfold ingest
  rw [wp_bind, wp_call]
  refine ⟨trivial, fun r => ?_⟩
  cases r with
  | error e => trivial
  | ok found =>
    rw [andThen_ok]
    cases found with
    | none => trivial
    | some c => exact admitBytes_binds (List.mem_append_right _ (List.mem_singleton_self _))

/-- What ingest was told, of what an intake program was told. -/
def ingestTold (told : IntakeTold) : IngestTold :=
  told.filterMap fun x => match x with
    | ⟨.ingest c, r⟩ => some ⟨c, r⟩
    | _ => none

theorem mem_ingestTold {told : IntakeTold} {c : IngestCall} {r : Except Unit c.Answer} :
    ⟨c, r⟩ ∈ ingestTold told ↔ ⟨.ingest c, r⟩ ∈ told := by
  unfold ingestTold
  rw [List.mem_filterMap]
  constructor
  · rintro ⟨⟨c', r'⟩, hmem, hpart⟩
    cases c' with
    | ingest d =>
      cases hpart
      exact hmem
    | _ => cases hpart
  · exact fun hmem => ⟨_, hmem, rfl⟩

/-- An intake program stages what ingest has bound. -/
def IntakeBinds (told : IntakeTold) : IntakeCall → Prop
  | .ingest c => Binds (ingestTold told) c
  | _ => True

variable {told : IntakeTold}

theorem deliver_binds (id : IntentId) (bytes : List UInt8) (appId : Option String) :
    wp IntakeBinds (fun _ _ => True) told (deliver cfg id bytes appId) := by
  have hpart : ∀ (h : IntakeTold) (c : IngestCall) (r : Except Unit c.Answer),
      ingestTold (h ++ [⟨.ingest c, r⟩]) = ingestTold h ++ [⟨c, r⟩] :=
    fun h c r => List.filterMap_append ..
  exact wp_via (f := IntakeCall.ingest) (g := ingestTold) hpart (fun _ _ hbinds => hbinds) (fun _ _ _ => trivial)
    (ingest_binds id bytes appId)

theorem recoverBytes_binds (c : ByteRecoveryCandidate) :
    wp IntakeBinds (fun _ _ => True) told (recoverBytes cfg c) := by
  unfold recoverBytes
  rw [wp_tryCatch]
  cases fieldToWalrusBlobId c.committedBlobId with
  | error message => trivial
  | ok blobId =>
    show wp _ _ _ (intakeCall (.fetchBlobFromAggregator blobId) >>= _)
    rw [wp_bind, wp_call]
    refine ⟨trivial, fun r => ?_⟩
    cases r with
    | error e => trivial
    | ok bytes =>
      rw [andThen_ok, wp_bind]
      refine wp_mono (deliver_binds c.intentId bytes none) (fun _ _ h => h) fun h r _ => ?_
      cases r <;> trivial

/-- The sweep stages what ingest has bound. -/
theorem recoverMissingBytes_binds : wp IntakeBinds (fun _ _ => True) told (recoverMissingBytes cfg rcfg) := by
  have hone : ∀ (c : ByteRecoveryCandidate) (h : IntakeTold), wp IntakeBinds (fun _ _ => True) h (do
      let now ← intakeCall (.ingest .now)
      intakeCall (.rescheduleByteRecovery c.intentId (now + rcfg.bytesRecoveryBackoffMs))
      recoverBytes cfg c) := by
    intro c h
    rw [wp_bind, wp_call]
    refine ⟨trivial, fun r => ?_⟩
    cases r with
    | error e => trivial
    | ok now =>
      rw [andThen_ok, wp_bind]
      refine (wp_call _).mpr ⟨trivial, fun r => ?_⟩
      cases r with
      | error e => trivial
      | ok _ => exact recoverBytes_binds c
  unfold recoverMissingBytes
  rw [wp_tryCatch, wp_bind, wp_call]
  refine ⟨trivial, fun r => ?_⟩
  cases r with
  | error e => trivial
  | ok now =>
    rw [andThen_ok, wp_bind, wp_call]
    refine ⟨trivial, fun r => ?_⟩
    cases r with
    | error e => trivial
    | ok candidates =>
      rw [andThen_ok]
      refine wp_mono (wp_forM (K := fun _ _ => True) (fun _ _ _ _ => trivial) fun c _ h =>
        wp_mono (hone c h) (fun _ _ h => h) fun _ _ _ _ => trivial) (fun _ _ h => h) fun h r _ => ?_
      cases r <;> trivial

end Bosphor.Relayer

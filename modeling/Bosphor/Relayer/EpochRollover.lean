import Bosphor.Relayer.OneIntent
import Bosphor.Relayer.StoreDecisions
import Bosphor.Relayer.StoreGrounds
import Bosphor.Sui.Modules

/-!
# Uploads across Walrus epochs

An upload is bought for so many epochs from the epoch it is made in, and the
executor holds its end against the epoch of the call. Whatever attempts there
are on an intent, the object that `execute_store` is called with was uploaded by
one of them (`Sound`), and the executor accepts its end epoch in the epoch of
the upload, and one epoch later where nothing was committed; after that never
again (`upload_accepted`, `upload_stranded`).
-/

namespace Bosphor.Relayer.EpochRollover

open Async StagedIntentStore

/-- An upload that Walrus has answered. -/
structure Upload where
  objectId : String
  /-- The Walrus epoch it was made in. -/
  epoch : UInt32
  epochs : Nat
  /-- The committed epochs that it was resolved with. -/
  committed : Option Nat

/-- The staged rows, Walrus, and the attempt on the intent. -/
structure Site where
  rows : Rows
  epoch : UInt32
  /-- The end epochs of the blobs, by object. -/
  ends : String → Option UInt32 := fun _ => none
  uploads : List Upload := []
  attempt : Option Attempt := none

inductive Event where
  | start
  | answer (c : Call) (r : Except Failure c.Answer) (landed : Bool)
  | leave
  | statement (op : Op)
  | epoch

/-- The statements of others persist no upload of the intent. -/
def Aside (id : IntentId) : Op → Prop
  | .persistUpload k _ _ => k ≠ id
  | _ => True

/-- The answer is that of an upload. -/
def IsUpload : (Σ c : Call, Except Failure c.Answer) → Prop
  | ⟨.writeBlob .., .ok _⟩ => True
  | _ => False

variable (fl : Rounding) (cfg : Config) (id : IntentId)

inductive Step : Site → Event → Site → Prop
  | start {σ row} (sender : String) (commitment : Option IntentCommitment) (hidle : σ.attempt = none)
    (hrow : σ.rows id = some row) :
    Step σ .start { σ with attempt := some (.start fl cfg ⟨row, id⟩ sender commitment) }
  /-- Walrus stores a new object, to end after the epochs that are paid for. -/
  | uploads {σ a k bytes epochs next} (info : WalrusBlob) (endEpoch : UInt32) (ha : σ.attempt = some a)
    (hrest : a.rest = .await (.writeBlob k bytes epochs) next) (hnew : σ.ends info.objectId = none)
    (hend : endEpoch.toNat = σ.epoch.toNat + epochs) (hinfo : info.endEpoch = endEpoch.toNat) :
    Step σ (.answer (.writeBlob k bytes epochs) (.ok info) true)
      { σ with
        ends := Function.update σ.ends info.objectId (some endEpoch)
        uploads := σ.uploads ++ [⟨info.objectId, σ.epoch, epochs, knownEpochs a.row a.told⟩]
        attempt := some { a with told := a.told ++ [⟨.writeBlob k bytes epochs, .ok info⟩], rest := next (.ok info) } }
  | lands {σ a c next} (now : Nat) (r : Except Failure c.Answer) (ha : σ.attempt = some a)
    (hrest : a.rest = .await c next) (hanswers : c.Answers σ.rows r) (hother : ¬IsUpload ⟨c, r⟩) :
    Step σ (.answer c r true)
      { σ with
        rows := c.run now σ.rows
        attempt := some { a with told := a.told ++ [⟨c, r⟩], rest := next r } }
  | fails {σ a c next} (err : Failure) (ha : σ.attempt = some a) (hrest : a.rest = .await c next) :
    Step σ (.answer c (.error err) false)
      { σ with attempt := some { a with told := a.told ++ [⟨c, .error err⟩], rest := next (.error err) } }
  | leave {σ} : Step σ .leave { σ with attempt := none }
  | statement {σ} (op : Op) (hop : Aside id op) : Step σ (.statement op) { σ with rows := op.run σ.rows }
  | epoch {σ} (later : UInt32) (hlater : σ.epoch ≤ later) : Step σ .epoch { σ with epoch := later }

/-- Some steps. -/
abbrev Leads : Site → Site → Prop := Relation.ReflTransGen fun σ τ => ∃ e, Step fl cfg id σ e τ

/-- An attempt has uploaded the object. -/
def Uploaded (σ : Site) (objectId : String) : Prop := ∃ u ∈ σ.uploads, u.objectId = objectId

/-- What an upload has bought, in a later epoch. -/
structure Bought (epoch : UInt32) (ends : String → Option UInt32) (u : Upload) : Prop where
  past : u.epoch ≤ epoch
  resolved : ∀ committed, u.committed = some committed → u.epochs = max committed 1
  ends : ∃ endEpoch : UInt32, ends u.objectId = some endEpoch ∧ endEpoch.toNat = u.epoch.toNat + u.epochs

/-- What holds throughout. -/
structure Sound (σ : Site) : Prop where
  rows : ∀ row objectId, σ.rows id = some row → row.walrusObjectId = some objectId → Uploaded σ objectId
  bought : ∀ u ∈ σ.uploads, Bought σ.epoch σ.ends u
  follows : ∀ a, σ.attempt = some a → a.row.intentId = id ∧
    Async.Leads (store fl cfg a.row a.sender a.commitment) a.told a.rest
  found : ∀ a objectId, σ.attempt = some a → a.row.walrusObjectId = some objectId → Uploaded σ objectId
  told : ∀ a objectId, σ.attempt = some a → Relayer.Bought a.row a.told objectId → Uploaded σ objectId

variable {fl cfg id} {σ τ : Site} {e : Event} {a : Attempt} {c : Call}

/-- What the next call of an attempt rests on. -/
theorem Sound.rests (hs : Sound fl cfg id σ) (ha : σ.attempt = some a)
    {next : Except Failure c.Answer → Program Booking}
    (hrest : a.rest = .await c next) : Rests fl cfg a.row a.told c := by
  have hrests := wp_leads (store_rests fl cfg a.row a.sender a.commitment) (hs.follows a ha).2
  rw [hrest] at hrests
  exact hrests.1

theorem Uploaded.mono {objectId : String} (h : Uploaded σ objectId) (hsub : ∀ u ∈ σ.uploads, u ∈ τ.uploads) :
    Uploaded τ objectId := by
  obtain ⟨u, hu, hobject⟩ := h
  exact ⟨u, hsub u hu, hobject⟩

/-- What is new in what was bought. -/
theorem bought_append {row : StagedIntentRow} {told : Told} {x : Σ c : Call, Except Failure c.Answer}
    {objectId : String} (h : Relayer.Bought row (told ++ [x]) objectId) : Relayer.Bought row told objectId ∨
      ∃ k bytes epochs info, x = ⟨.writeBlob k bytes epochs, .ok info⟩ ∧ info.objectId = objectId := by
  obtain ⟨bytes, epochs, info, hmem, hobject⟩ := h
  obtain hold | hnew := List.mem_append.mp hmem
  · exact Or.inl ⟨bytes, epochs, info, hold, hobject⟩
  · exact Or.inr ⟨_, bytes, epochs, info, (List.mem_singleton.mp hnew).symm, hobject⟩

/-- The row after a call has an upload of an attempt. -/
theorem Sound.run (hs : Sound fl cfg id σ) (ha : σ.attempt = some a) {next : Except Failure c.Answer → Program Booking}
    (hrest : a.rest = .await c next) {now : Nat} {row : Row} {objectId : String} (hrow : c.run now σ.rows id = some row)
    (hobject : row.walrusObjectId = some objectId) : Uploaded σ objectId := by
  have hsame : (∀ k up, c ≠ .persistUpload k up) → Uploaded σ objectId := by
    intro hc
    obtain ⟨-, hnone⟩ | ⟨row', hrow', hkept⟩ := Call.run_upload hc row hrow
    · rw [hnone] at hobject
      cases hobject
    · exact hs.rows row' objectId hrow' (hkept.walrusObjectId.symm.trans hobject)
  cases c with
  | persistUpload k up =>
    obtain ⟨rfl, hbought⟩ := hs.rests ha hrest
    have hset := (Op.run_self (.persistUpload a.row.intentId up now) rfl σ.rows)
    rw [(hs.follows a ha).1] at hset
    have hrow' : (σ.rows id).map (uploaded up now) = some row := by
      rw [← hset, ← hrow, (hs.follows a ha).1]
      rfl
    obtain ⟨r, -, rfl⟩ := Option.map_eq_some_iff.mp hrow'
    cases hobject
    exact hs.told a _ ha hbought
  | _ => exact hsame fun _ _ => Call.noConfusion

theorem Sound.step (hs : Sound fl cfg id σ) (hstep : Step fl cfg id σ e τ) : Sound fl cfg id τ := by
  cases hstep with
  | @start row sender commitment hidle hrow =>
    refine { hs with follows := ?_, found := ?_, told := ?_ }
    · rintro a ⟨⟩
      exact ⟨rfl, .start⟩
    · rintro a objectId ⟨⟩ hobject
      exact hs.rows row objectId hrow hobject
    · rintro a objectId ⟨⟩ ⟨bytes, epochs, info, hmem, -⟩
      cases hmem
  | @uploads a k bytes epochs next info endEpoch ha hrest hnew hend hinfo =>
    have hsub : ∀ u ∈ σ.uploads, u ∈ σ.uploads ++ [⟨info.objectId, σ.epoch, epochs, knownEpochs a.row a.told⟩] :=
      fun u hu => List.mem_append_left _ hu
    obtain ⟨hid, hlead⟩ := hs.follows a ha
    refine ⟨fun row objectId hrow hobject => (hs.rows row objectId hrow hobject).mono hsub, ?_, ?_, ?_, ?_⟩
    · intro u hu
      obtain hold | hlast := List.mem_append.mp hu
      · obtain ⟨hpast, hresolved, end', hends, hsum⟩ := hs.bought u hold
        have hne : u.objectId ≠ info.objectId := by
          intro hsame
          rw [hsame, hnew] at hends
          cases hends
        exact ⟨hpast, hresolved, end', (Function.update_of_ne hne ..).trans hends, hsum⟩
      · cases List.mem_singleton.mp hlast
        obtain ⟨-, hresolved, -⟩ := hs.rests ha hrest
        exact ⟨UInt32.le_refl _, hresolved, endEpoch, Function.update_self .., hend⟩
    · rintro b ⟨⟩
      rw [hrest] at hlead
      exact ⟨hid, hlead.answer _⟩
    · rintro b objectId ⟨⟩ hobject
      exact (hs.found a objectId ha hobject).mono hsub
    · rintro b objectId ⟨⟩ hbought
      obtain hold | ⟨k', bytes', epochs', info', hanswer, rfl⟩ := bought_append hbought
      · exact (hs.told a objectId ha hold).mono hsub
      · cases hanswer
        exact ⟨_, List.mem_append_right _ (List.mem_singleton_self _), rfl⟩
  | @lands a c next now r ha hrest hanswers hother =>
    obtain ⟨hid, hlead⟩ := hs.follows a ha
    refine ⟨fun row objectId hrow hobject => hs.run ha hrest hrow hobject, hs.bought, ?_, ?_, ?_⟩
    · rintro b ⟨⟩
      rw [hrest] at hlead
      exact ⟨hid, hlead.answer r⟩
    · rintro b objectId ⟨⟩ hobject
      exact hs.found a objectId ha hobject
    · rintro b objectId ⟨⟩ hbought
      obtain hold | ⟨k, bytes, epochs, info, hanswer, -⟩ := bought_append hbought
      · exact hs.told a objectId ha hold
      · rw [hanswer] at hother
        exact absurd trivial hother
  | @fails a c next err ha hrest =>
    obtain ⟨hid, hlead⟩ := hs.follows a ha
    refine { hs with follows := ?_, found := ?_, told := ?_ }
    · rintro b ⟨⟩
      rw [hrest] at hlead
      exact ⟨hid, hlead.answer (.error err)⟩
    · rintro b objectId ⟨⟩ hobject
      exact hs.found a objectId ha hobject
    · rintro b objectId ⟨⟩ hbought
      obtain hold | ⟨k, bytes, epochs, info, hanswer, -⟩ := bought_append hbought
      · exact hs.told a objectId ha hold
      · cases hanswer
  | leave =>
    exact { hs with follows := fun _ h => (by cases h), found := fun _ _ h => (by cases h), told := fun _ _ h => (by cases h) }
  | statement op hop =>
    have hupload : ∀ up now, op ≠ .persistUpload id up now := by
      rintro up now rfl
      exact hop rfl
    refine { hs with rows := fun row objectId hrow hobject => ?_ }
    obtain ⟨-, hnone⟩ | ⟨row', hrow', hkept⟩ := Op.run_upload hupload row hrow
    · rw [hnone] at hobject
      cases hobject
    · exact hs.rows row' objectId hrow' (hkept.walrusObjectId.symm.trans hobject)
  | epoch later hlater =>
    exact { hs with bought := fun u hu => ⟨UInt32.le_trans (hs.bought u hu).past hlater, (hs.bought u hu).resolved,
      (hs.bought u hu).ends⟩ }

/-- When the executor accepts the end epoch of an upload: in its epoch, and one epoch later where nothing was
committed. -/
theorem covers_iff {u : Upload} (hu : Bought σ.epoch σ.ends u) {committed : UInt32}
    (hcommitted : u.committed = some committed.toNat) {endEpoch : UInt32} (hend : σ.ends u.objectId = some endEpoch) :
    Sui.coversStorageEpochs committed endEpoch σ.epoch = true ↔
      σ.epoch = u.epoch ∨ (committed = 0 ∧ σ.epoch.toNat = u.epoch.toNat + 1) := by
  obtain ⟨end', hends, hsum⟩ := hu.ends
  rw [hend, Option.some.injEq] at hends
  subst hends
  have hpast : u.epoch.toNat ≤ σ.epoch.toNat := UInt32.le_iff_toNat_le.mp hu.past
  have hepochs := hu.resolved _ hcommitted
  rw [Sui.coversStorageEpochs, decide_eq_true_eq, hsum, hepochs, ← UInt32.toNat_inj, ← UInt32.toNat_inj]
  simp only [UInt32.toNat_zero]
  omega

/-- In every run, `execute_store` is called with an object that an attempt has uploaded; and if that was for a
committed count of epochs, the executor accepts its end epoch in the epoch of the upload, and one epoch later if the
count is 0. -/
theorem upload_accepted (fl : Rounding) (cfg : Config) (id : IntentId) (start : UInt32) (σ : Site)
    (hrun : Leads fl cfg id ⟨fun _ => none, start, fun _ => none, [], none⟩ σ) (a : Attempt) (k : IntentId)
    (sender objectId : String) (deadlineMs : Nat) (next : Except Failure String → Program Booking)
    (ha : σ.attempt = some a) (hcall : a.rest = .await (.executeStore k sender objectId deadlineMs) next) :
    ∃ u ∈ σ.uploads, u.objectId = objectId ∧ ∃ endEpoch, σ.ends objectId = some endEpoch ∧
      ∀ committed : UInt32, u.committed = some committed.toNat →
        (Sui.coversStorageEpochs committed endEpoch σ.epoch = true ↔
          σ.epoch = u.epoch ∨ (committed = 0 ∧ σ.epoch.toNat = u.epoch.toNat + 1)) := by
  have hsound : Sound fl cfg id σ := by
    clear ha hcall
    induction hrun with
    | refl =>
      exact ⟨fun _ _ h => (by cases h), fun _ h => (by cases h), fun _ h => (by cases h), fun _ _ h => (by cases h),
        fun _ _ h => (by cases h)⟩
    | tail _ hstep ih =>
      obtain ⟨e, hstep⟩ := hstep
      exact ih.step hstep
  obtain ⟨u, hu, rfl⟩ : Uploaded σ objectId := by
    obtain ⟨-, hrow | hbought⟩ := hsound.rests ha hcall
    · exact hsound.found a objectId ha hrow
    · exact hsound.told a objectId ha hbought
  obtain ⟨endEpoch, hend, -⟩ := (hsound.bought u hu).ends
  exact ⟨u, hu, rfl, endEpoch, hend, fun committed hcommitted => covers_iff (hsound.bought u hu) hcommitted hend⟩

section Example

variable {rows rows' : Rows} {epoch : UInt32} {ends : String → Option UInt32} {uploads : List Upload} {σ₀ : Site}
  {found : StagedIntentRow} {sender : String} {commitment : Option IntentCommitment} {told : Told}
  {next : Except Failure c.Answer → Program Booking} {r₀ : Row}

theorem Leads.statement (hlead : Leads fl cfg id σ₀ ⟨rows, epoch, ends, uploads, none⟩) (op : Op) (hop : Aside id op)
    (hrun : op.run rows = rows') : Leads fl cfg id σ₀ ⟨rows', epoch, ends, uploads, none⟩ := by
  subst hrun
  exact hlead.tail ⟨_, .statement op hop⟩

theorem Leads.begin (hlead : Leads fl cfg id σ₀ ⟨rows, epoch, ends, uploads, none⟩) (hrow : rows id = some r₀)
    (sender : String) (commitment : Option IntentCommitment) : Leads fl cfg id σ₀ ⟨rows, epoch, ends, uploads,
      some ⟨⟨r₀, id⟩, sender, commitment, [], store fl cfg ⟨r₀, id⟩ sender commitment⟩⟩ :=
  hlead.tail ⟨_, .start sender commitment rfl hrow⟩

/-- A call lands that uploads nothing. -/
theorem Leads.land
    (hlead : Leads fl cfg id σ₀ ⟨rows, epoch, ends, uploads, some ⟨found, sender, commitment, told, .await c next⟩⟩)
    (r : Except Failure c.Answer) (hanswers : c.Answers rows r) (hother : ¬IsUpload ⟨c, r⟩)
    (hrun : c.run 0 rows = rows') :
    Leads fl cfg id σ₀ ⟨rows', epoch, ends, uploads, some ⟨found, sender, commitment, told ++ [⟨c, r⟩], next r⟩⟩ := by
  subst hrun
  have hstep : Step fl cfg id _ (.answer c r true) _ :=
    .lands (σ := ⟨rows, epoch, ends, uploads,
      some ⟨found, sender, commitment, told, .await c next⟩⟩) 0 r rfl rfl hanswers hother
  exact hlead.tail ⟨_, hstep⟩

/-- Walrus stores a blob. -/
theorem Leads.upload {k : IntentId} {bytes : List UInt8} {epochs : Nat}
    {next : Except Failure WalrusBlob → Program Booking} (hlead : Leads fl cfg id σ₀
      ⟨rows, epoch, ends, uploads, some ⟨found, sender, commitment, told, .await (.writeBlob k bytes epochs) next⟩⟩)
    (info : WalrusBlob) (endEpoch : UInt32) (hnew : ends info.objectId = none)
    (hend : endEpoch.toNat = epoch.toNat + epochs) (hinfo : info.endEpoch = endEpoch.toNat) : Leads fl cfg id σ₀
      ⟨rows, epoch, Function.update ends info.objectId (some endEpoch),
        uploads ++ [⟨info.objectId, epoch, epochs, knownEpochs found told⟩],
        some ⟨found, sender, commitment, told ++ [⟨.writeBlob k bytes epochs, .ok info⟩], next (.ok info)⟩⟩ := by
  have hstep : Step fl cfg id _ (.answer (.writeBlob k bytes epochs) (.ok info) true) _ :=
    .uploads (σ := ⟨rows, epoch, ends, uploads,
      some ⟨found, sender, commitment, told, .await (.writeBlob k bytes epochs) next⟩⟩)
      info endEpoch rfl rfl hnew hend hinfo
  exact hlead.tail ⟨_, hstep⟩

/-- A call fails and with it the attempt, and a later epoch begins. -/
theorem Leads.failed
    (hlead : Leads fl cfg id σ₀ ⟨rows, epoch, ends, uploads, some ⟨found, sender, commitment, told, .await c next⟩⟩)
    (err : Failure) (later : UInt32) (hlater : epoch ≤ later) :
    Leads fl cfg id σ₀ ⟨rows, later, ends, uploads, none⟩ := by
  have hleft := (hlead.tail ⟨_, .fails err rfl rfl⟩).tail ⟨_, .leave⟩
  exact hleft.tail ⟨_, .epoch later hlater⟩

end Example

/-- The store of an intent with one committed epoch, uploaded in epoch 8, up to its record. -/
theorem exampleUpload_leads : ∃ found told next,
    Leads .exact exampleConfig "0x01" ⟨fun _ => none, 8, fun _ => none, [], none⟩
      ⟨Rows.one "0x01" (uploaded exampleUpload 0 exampleRow), 8,
        Function.update (fun _ => none) "0xb10b" (some 9), [⟨"0xb10b", 8, 1, some 1⟩],
        some ⟨found, "0xab", some exampleCommitment, told,
          .await (.executeStore "0x01" "0xab" "0xb10b" 3600000) next⟩⟩ := by
  have hbefore : Leads .exact exampleConfig "0x01" ⟨fun _ => none, 8, fun _ => none, [], none⟩
      ⟨fun _ => none, 8, fun _ => none, [], none⟩ := .refl
  have h0 := hbefore.statement (.upsertBytes "0x01" exampleBytes none 0) trivial (Op.run_insert rfl rfl)
  have hreceived : (Op.markReceived "0x01" exampleReceipt 0).run (Rows.one "0x01" (bytesInserted exampleBytes 0)) =
      Rows.one "0x01" exampleRow := (Op.run_merge rfl Rows.one_self rfl).trans (Rows.one_update _)
  have h1 := h0.statement (.markReceived "0x01" exampleReceipt 0) trivial hreceived
  have h2 := h1.begin Rows.one_self "0xab" (some exampleCommitment)
  have h3 := h2.land (c := .systemState) (.ok ⟨1000, 1, 1, 53⟩) trivial id rfl
  have h4 := h3.land (c := .ensureWal) (.ok ()) trivial id rfl
  have h5 := h4.land (c := .recordHop "0x01" .received _) (.ok ()) trivial id rfl
  have h6 := h5.land (c := .fetchBytes "0x01") (.ok (some [7])) rfl id rfl
  have h7 := h6.upload ⟨exampleBlobId, "0xb10b", 9⟩ 9 rfl rfl rfl
  have h8 := h7.land (c := .systemState) (.ok ⟨1000, 1, 1, 53⟩) trivial id rfl
  have h9 := h8.land (c := .persistUpload "0x01" exampleUpload) (.ok ()) trivial id
    ((Op.run_update rfl Rows.one_self rfl).trans (Rows.one_update _))
  have h10 := h9.land (c := .recordHop "0x01" .storedWalrus _) (.ok ()) trivial id rfl
  exact ⟨_, _, _, h10⟩

/-- In its own epoch the upload is accepted. -/
theorem upload_accepted_at_once : Sui.coversStorageEpochs 1 9 8 = true := by
  obtain ⟨found, told, next, hlead⟩ := exampleUpload_leads
  obtain ⟨u, hu, -, endEpoch, hend, hcovers⟩ := upload_accepted _ _ _ _ _ hlead _ _ _ _ _ _ rfl rfl
  cases List.mem_singleton.mp hu
  cases hend
  exact (hcovers 1 rfl).mpr (Or.inl rfl)

/-- The call that records an upload fails, and the next epoch begins: the attempt that follows calls with the same
upload, and the executor does not accept its end epoch, then or later. -/
theorem upload_stranded : ∃ (σ : Site) (a : Attempt) (next : Except Failure String → Program Booking),
    Leads .exact exampleConfig "0x01" ⟨fun _ => none, 8, fun _ => none, [], none⟩ σ ∧ σ.attempt = some a ∧
      a.rest = .await (.executeStore "0x01" "0xab" "0xb10b" 3600000) next ∧ σ.uploads = [⟨"0xb10b", 8, 1, some 1⟩] ∧
      σ.ends "0xb10b" = some 9 ∧ ∀ later, σ.epoch ≤ later → Sui.coversStorageEpochs 1 9 later = false := by
  obtain ⟨found, told, next, hlead⟩ := exampleUpload_leads
  have hlater := hlead.failed (.error "timeout") 9 (by decide)
  have h1 := hlater.begin Rows.one_self "0xab" (some exampleCommitment)
  have h2 := h1.land (c := .systemState) (.ok ⟨1000, 1, 1, 53⟩) trivial id rfl
  have h3 := h2.land (c := .ensureWal) (.ok ()) trivial id rfl
  have h4 := h3.land (c := .recordHop "0x01" .received _) (.ok ()) trivial id rfl
  have h5 := h4.land (c := .recordHop "0x01" .storedWalrus _) (.ok ()) trivial id rfl
  refine ⟨_, _, _, h5, rfl, rfl, rfl, rfl, fun later hle => ?_⟩
  have hnine : 9 ≤ later.toNat := UInt32.le_iff_toNat_le.mp hle
  have hsmall : ¬later.toNat + 1 ≤ 9 := by omega
  exact decide_eq_false hsmall

end Bosphor.Relayer.EpochRollover

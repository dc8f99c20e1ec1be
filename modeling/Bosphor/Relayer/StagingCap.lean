import Bosphor.Relayer.TerminalRows

/-!
# The staging cap

Whether the rows with bytes stay within `maxStagedBytes`. `upsertBytes` admits
bytes by a sum over its own snapshot, and takes no lock on the rows it sums:
two of them on different intents can each miss what the other stages, and
together pass the cap (`staged_past_cap`). As long as no commit finds more
bytes staged for other intents than its snapshot had, the cap holds throughout
(`staged_within_cap`).
-/

namespace Bosphor.Relayer

open ReadCommitted StagedIntentStore

variable {τ : Type} [DecidableEq τ]

/-- The store's statements, with one cap for all that stage bytes. -/
def cappedStatements (cap : Nat) : Set (Statement IntentId Row) :=
  {s | ∃ op : Op, s = op.statement ∧ ∀ id blob c now, op = .upsertBytes id blob c now → c = some cap}

/-! ## The staged total -/

/-- The rows are those of finitely many intents. -/
def FinitelyMany (rows : Rows) : Prop := {k | rows k ≠ none}.Finite

theorem FinitelyMany.sizes {rows : Rows} (h : FinitelyMany rows) (f : IntentId → Nat)
    (hf : ∀ k, rows k = none → f k = 0) : Function.HasFiniteSupport f :=
  h.subset fun k hk hnone => hk (hf k hnone)

theorem stagedSize_none : stagedSize none = 0 := rfl

/-- The staged total is an intent's own bytes and those of the others. -/
theorem stagedBytesTotal_eq {rows : Rows} (h : FinitelyMany rows) (id : IntentId) :
    stagedBytesTotal rows = stagedSize (rows id) + stagedBytesTotalExcluding rows id := by
  have hown : ∑ᶠ k, (if k = id then stagedSize (rows k) else 0) = stagedSize (rows id) := by
    rw [finsum_eq_single _ id fun k hk => if_neg hk, if_pos rfl]
  have hsplit : ∀ k, stagedSize (rows k) =
      (if k = id then stagedSize (rows k) else 0) + (if k = id then 0 else stagedSize (rows k)) := by
    intro k
    split
    · rw [Nat.add_zero]
    · rw [Nat.zero_add]
  calc stagedBytesTotal rows
      = ∑ᶠ k, ((if k = id then stagedSize (rows k) else 0) + (if k = id then 0 else stagedSize (rows k))) :=
        finsum_congr hsplit
    _ = (∑ᶠ k, (if k = id then stagedSize (rows k) else 0)) + ∑ᶠ k, (if k = id then 0 else stagedSize (rows k)) := by
        apply finsum_add_distrib
        · exact h.sizes _ fun k hk => by rw [hk, stagedSize_none, ite_self]
        · exact h.sizes _ fun k hk => by rw [hk, stagedSize_none, ite_self]
    _ = stagedSize (rows id) + stagedBytesTotalExcluding rows id := by rw [hown]; rfl

/-- The others' bytes do not depend on an intent's own row. -/
theorem stagedBytesTotalExcluding_congr {rows rows' : Rows} {id : IntentId} (h : ∀ k, k ≠ id → rows' k = rows k) :
    stagedBytesTotalExcluding rows' id = stagedBytesTotalExcluding rows id := by
  refine finsum_congr fun k => ?_
  by_cases hk : k = id
  · rw [if_pos hk, if_pos hk]
  · rw [if_neg hk, if_neg hk, h k hk]

theorem stagedBytesTotal_mono {rows rows' : Rows} (h : FinitelyMany rows) (h' : FinitelyMany rows')
    (hle : ∀ k, stagedSize (rows' k) ≤ stagedSize (rows k)) : stagedBytesTotal rows' ≤ stagedBytesTotal rows :=
  finsum_le_finsum' (h'.sizes _ fun k hk => by rw [hk, stagedSize_none])
    (h.sizes _ fun k hk => by rw [hk, stagedSize_none]) hle

theorem stagedBytesTotalExcluding_mono {rows rows' : Rows} (h : FinitelyMany rows) (h' : FinitelyMany rows')
    (hle : ∀ k, stagedSize (rows' k) ≤ stagedSize (rows k)) (id : IntentId) :
    stagedBytesTotalExcluding rows' id ≤ stagedBytesTotalExcluding rows id := by
  refine finsum_le_finsum' (h'.sizes _ fun k hk => ?_) (h.sizes _ fun k hk => ?_) fun k => ?_
  · show (if k = id then 0 else stagedSize (rows' k)) = 0
    rw [hk, stagedSize_none, ite_self]
  · show (if k = id then 0 else stagedSize (rows k)) = 0
    rw [hk, stagedSize_none, ite_self]
  · show (if k = id then 0 else stagedSize (rows' k)) ≤ if k = id then 0 else stagedSize (rows k)
    split
    · exact le_rfl
    · exact hle k

/-! ## What a statement adds to it -/

theorem stagedSize_some (r : Row) : stagedSize (some r) = if r.bytes.isSome then r.size.getD 0 else 0 := by
  rw [stagedSize, Option.filter_some]
  split <;> rfl

/-- A row whose bytes and size are as they were counts for as much. -/
theorem stagedSize_kept {r r' : Row} (hbytes : r'.bytes = r.bytes) (hsize : r'.size = r.size) :
    stagedSize (some r') ≤ stagedSize (some r) := by
  rw [stagedSize_some, stagedSize_some, hbytes, hsize]

/-- A row without bytes counts for nothing. -/
theorem stagedSize_freed {r : Row} {latest : Option Row} (h : r.bytes = none) :
    stagedSize (some r) ≤ stagedSize latest := by
  rw [stagedSize_some, h]
  exact Nat.zero_le _

/-- Only `upsertBytes` can make a row count for more. -/
theorem StagedIntentStore.Op.stagedSize_le {op : Op} (hop : ∀ id blob c now, op ≠ .upsertBytes id blob c now)
    {rows : Rows} {k : IntentId} {latest v : Option Row} (h : op.statement.write rows k latest = some v) :
    stagedSize v ≤ stagedSize latest := by
  cases op with
  | upsertBytes id blob c now => exact absurd rfl (hop id blob c now)
  | markReceived id details now =>
    obtain ⟨-, ⟨rfl, rfl⟩ | ⟨r, rfl, -, rfl⟩⟩ := upsert_some.mp h
    · exact stagedSize_freed rfl
    · exact stagedSize_kept rfl rfl
  | rescheduleByteRecovery id nextAt now =>
    obtain ⟨-, r, rfl, -, rfl⟩ := updateRow_some.mp h
    exact stagedSize_kept rfl rfl
  | drainDue claimant leaseMs now limit =>
    obtain ⟨r, rfl, -, rfl⟩ := rewrite_some.mp h
    exact stagedSize_kept rfl rfl
  | persistUpload id up now =>
    obtain ⟨-, r, rfl, -, rfl⟩ := updateRow_some.mp h
    exact stagedSize_kept rfl rfl
  | persistStore id storeDigest now =>
    obtain ⟨-, r, rfl, -, rfl⟩ := updateRow_some.mp h
    exact stagedSize_kept rfl rfl
  | markLedgered id =>
    obtain ⟨-, r, rfl, -, rfl⟩ := updateRow_some.mp h
    exact stagedSize_kept rfl rfl
  | markReturned id now =>
    obtain ⟨-, r, rfl, -, rfl⟩ := updateRow_some.mp h
    exact stagedSize_kept rfl rfl
  | reschedule id attempts nextAttemptAt lastError now =>
    obtain ⟨-, r, rfl, -, rfl⟩ := updateRow_some.mp h
    exact stagedSize_kept rfl rfl
  | freeBytes id now =>
    obtain ⟨-, r, rfl, -, rfl⟩ := updateRow_some.mp h
    exact stagedSize_freed rfl
  | markDone id now =>
    obtain ⟨-, r, rfl, -, rfl⟩ := updateRow_some.mp h
    exact stagedSize_freed rfl
  | markDead id lastError now =>
    obtain ⟨-, r, rfl, -, rfl⟩ := updateRow_some.mp h
    exact stagedSize_freed rfl
  | expireDue now =>
    obtain ⟨r, rfl, -, rfl⟩ := rewrite_some.mp h
    exact stagedSize_freed rfl
  | expireUnreceived cutoff now =>
    obtain ⟨r, rfl, -, rfl⟩ := rewrite_some.mp h
    exact stagedSize_freed rfl
  | purgeTerminal cutoff =>
    obtain ⟨r, rfl, -, rfl⟩ := purge_some.mp h
    exact Nat.zero_le _

/-- The row `upsertBytes` leaves counts for the new bytes' size. -/
theorem stagedSize_upserted {id : IntentId} {blob : StagedBytes} {c : Option Nat} {now : Nat} {rows : Rows}
    {k : IntentId} {latest v : Option Row}
    (h : (Op.upsertBytes id blob c now).statement.write rows k latest = some v) : stagedSize v = blob.size := by
  obtain ⟨-, ⟨-, rfl⟩ | ⟨r, -, -, rfl⟩⟩ := upsert_some.mp h
  · exact stagedSize_some _
  · exact stagedSize_some _

/-! ## Runs -/

variable {cap : Nat} {db db' : Database τ IntentId Row}

/-- A step of the store. When `upsertBytes` commits, the bytes staged for other intents are no more than they were in
its snapshot. -/
def Counted (cap : Nat) (db db' : Database τ IntentId Row) : Prop :=
  Step (cappedStatements cap) db db' ∧ ∀ t o id blob now, db.opened t = some o →
    o.statement = (Op.upsertBytes id blob (some cap) now).statement → o.written id ≠ none → db' = db.commit t o →
      stagedBytesTotalExcluding db.rows id ≤ stagedBytesTotalExcluding o.snapshot id

/-- The cap holds, over finitely many rows. -/
structure WithinCap (cap : Nat) (db : Database τ IntentId Row) : Prop where
  sound : Sound (cappedStatements cap) db
  targeted : ∀ t o, db.opened t = some o → o.Targeted
  finite : FinitelyMany db.rows
  total_le : stagedBytesTotal db.rows ≤ cap

theorem finitelyMany_commit (hfinite : FinitelyMany db.rows) {t : τ} {o : Open IntentId Row} (ho : o.Targeted) :
    FinitelyMany (db.commit t o).rows := by
  refine (ho.finite.union hfinite).subset fun k hk => ?_
  by_cases hw : o.written k = none
  · apply Or.inr
    intro hnone
    apply hk
    show (o.written k).getD (db.rows k) = none
    rw [hw, hnone]
    rfl
  · exact Or.inl hw

/-- Bytes that are admitted by a total that is not below the one at the commit stay within the cap. -/
theorem upsert_total_le (h : WithinCap cap db) {t : τ} {o : Open IntentId Row} {id : IntentId} {blob : StagedBytes}
    {now : Nat} (ho : db.opened t = some o) (hop : o.statement = (Op.upsertBytes id blob (some cap) now).statement)
    (hcount : o.written id ≠ none → stagedBytesTotalExcluding db.rows id ≤ stagedBytesTotalExcluding o.snapshot id) :
    stagedBytesTotal (db.commit t o).rows ≤ cap := by
  have htargeted := h.targeted t o ho
  have hothers : ∀ k, k ≠ id → (db.commit t o).rows k = db.rows k := by
    intro k hk
    have hnone : o.written k = none := by
      by_contra hne
      obtain ⟨locked, htarget⟩ := htargeted.went k hne
      rw [hop] at htarget
      exact hk htarget.1
    show (o.written k).getD (db.rows k) = db.rows k
    rw [hnone]
    rfl
  rw [stagedBytesTotal_eq (finitelyMany_commit h.finite htargeted) id, stagedBytesTotalExcluding_congr hothers]
  show stagedSize ((o.written id).getD (db.rows id)) + _ ≤ cap
  cases hw : o.written id with
  | none =>
    rw [Option.getD_none, ← stagedBytesTotal_eq h.finite id]
    exact h.total_le
  | some v =>
    have hne : o.written id ≠ none := hw ▸ Option.some_ne_none v
    have hsize : stagedSize v = blob.size := stagedSize_upserted (hop ▸ h.sound.written t o ho id v hw)
    obtain ⟨locked, htarget⟩ := htargeted.went id hne
    rw [hop] at htarget
    have hadmitted : stagedBytesTotalExcluding o.snapshot id + blob.size ≤ cap := htarget.2 cap rfl
    have hstale := hcount hne
    rw [Option.getD_some, hsize]
    omega

/-- No other statement adds to the staged bytes. -/
theorem other_total_le (h : WithinCap cap db) {t : τ} {o : Open IntentId Row} {op : Op} (ho : db.opened t = some o)
    (hop : o.statement = op.statement) (hother : ∀ id blob c now, op ≠ .upsertBytes id blob c now) :
    stagedBytesTotal (db.commit t o).rows ≤ cap := by
  have hfinite : FinitelyMany (db.commit t o).rows := finitelyMany_commit h.finite (h.targeted t o ho)
  refine (stagedBytesTotal_mono h.finite hfinite fun k => ?_).trans h.total_le
  show stagedSize ((o.written k).getD (db.rows k)) ≤ stagedSize (db.rows k)
  cases hw : o.written k with
  | none => exact le_rfl
  | some v => exact Op.stagedSize_le hother (hop ▸ h.sound.written t o ho k v hw)

theorem Counted.withinCap (hstep : Counted cap db db') (h : WithinCap cap db) : WithinCap cap db' := by
  obtain ⟨hstep, hcount⟩ := hstep
  have hsound := hstep.sound h.sound
  have htargeted := hstep.targeted h.targeted
  cases hstep with
  | start s hs hidle => exact ⟨hsound, htargeted, h.finite, h.total_le⟩
  | lock o k v ho hfree htarget hwrite => exact ⟨hsound, htargeted, h.finite, h.total_le⟩
  | rollback o ho => exact ⟨hsound, htargeted, h.finite, h.total_le⟩
  | @commit t o ho =>
    refine ⟨hsound, htargeted, finitelyMany_commit h.finite (h.targeted t o ho), ?_⟩
    obtain ⟨op, hop, hcap⟩ := h.sound.known t o ho
    by_cases hupsert : ∃ id blob c now, op = .upsertBytes id blob c now
    · obtain ⟨id, blob, c, now, rfl⟩ := hupsert
      have hc : c = some cap := hcap id blob c now rfl
      subst hc
      exact upsert_total_le h ho hop fun hne => hcount t o id blob now ho hop hne rfl
    · exact other_total_le h ho hop fun id blob c now heq => hupsert ⟨id, blob, c, now, heq⟩

/-- From a store at rest that is within the cap, the staged bytes never pass it. -/
theorem staged_within_cap (hidle : ∀ t, db.opened t = none) (hfinite : FinitelyMany db.rows)
    (htotal : stagedBytesTotal db.rows ≤ cap) (hrun : Relation.ReflTransGen (Counted cap) db db') :
    stagedBytesTotal db'.rows ≤ cap := by
  have hstart : WithinCap cap db := by
    refine ⟨sound_idle hidle, fun t o ho => ?_, hfinite, htotal⟩
    rw [hidle t] at ho
    cases ho
  have hend : WithinCap cap db' := by
    induction hrun with
    | refl => exact hstart
    | tail _ hstep ih => exact hstep.withinCap ih
  exact hend.total_le

/-! ## Two intents at once -/

/-- Bytes to be staged. -/
def exampleBlob (size : Nat) : StagedBytes := { bytes := List.replicate size 0, blobId := "blob", size := size }

def exampleUpsert (id : IntentId) (size : Nat) : Op := .upsertBytes id (exampleBlob size) (some 10) 1

/-- The row of an intent whose bytes are staged. -/
def exampleBytesRow (size : Nat) : Row := bytesInserted (exampleBlob size) 1

/-- The store with six bytes of one intent. -/
def exampleBuffered : Rows := Function.update (fun _ => none) "0x01" (some (exampleBytesRow 6))

/-- The store with the bytes of two. -/
def exampleBufferedTwo (size : Nat) : Rows := Function.update exampleBuffered "0x02" (some (exampleBytesRow size))

theorem exampleUpsert_mem (id : IntentId) (size : Nat) : (exampleUpsert id size).statement ∈ cappedStatements 10 := by
  refine ⟨exampleUpsert id size, rfl, fun id' blob c now h => ?_⟩
  cases h
  rfl

theorem finitelyMany_empty : FinitelyMany fun _ => none := by
  simp only [FinitelyMany, ne_eq, not_true_eq_false, Set.ofPred_false]
  exact Set.finite_empty

theorem FinitelyMany.update {rows : Rows} (h : FinitelyMany rows) (id : IntentId) (r : Option Row) :
    FinitelyMany (Function.update rows id r) := by
  refine (h.insert id).subset fun k hk => ?_
  by_cases hid : k = id
  · exact Or.inl hid
  · rw [Set.mem_ofPred_eq, Function.update_of_ne hid] at hk
    exact Or.inr hk

theorem stagedBytesTotal_empty : stagedBytesTotal (fun _ => none) = 0 := finsum_zero

theorem excluding_empty (id : IntentId) : stagedBytesTotalExcluding (fun _ => none) id = 0 := by
  simp only [stagedBytesTotalExcluding, Option.filter_none, Option.elim_none, ite_self, finsum_zero]

/-- The total with the bytes of an intent that had none. -/
theorem stagedBytesTotal_update {rows : Rows} (h : FinitelyMany rows) {id : IntentId} (hid : rows id = none)
    (r : Option Row) : stagedBytesTotal (Function.update rows id r) = stagedSize r + stagedBytesTotal rows := by
  have hothers : ∀ k, k ≠ id → Function.update rows id r k = rows k := fun k hk => Function.update_of_ne hk ..
  rw [stagedBytesTotal_eq (h.update id r) id, stagedBytesTotalExcluding_congr hothers, Function.update_self,
    stagedBytesTotal_eq h id, hid, stagedSize_none, Nat.zero_add]

theorem finitelyMany_buffered : FinitelyMany exampleBuffered := finitelyMany_empty.update "0x01" _

theorem exampleBuffered_free : exampleBuffered "0x02" = none := Function.update_of_ne (by decide) ..

theorem exampleBuffered_total : stagedBytesTotal exampleBuffered = 6 := by
  rw [exampleBuffered, stagedBytesTotal_update finitelyMany_empty rfl, stagedBytesTotal_empty]
  rfl

theorem exampleBufferedTwo_total : stagedBytesTotal (exampleBufferedTwo 6) = 12 := by
  rw [exampleBufferedTwo, stagedBytesTotal_update finitelyMany_buffered exampleBuffered_free, exampleBuffered_total]
  rfl

/-- An empty store has room for six bytes. -/
theorem exampleUpsert_targets (id : IntentId) : (exampleUpsert id 6).statement.targets (fun _ => none) [] id := by
  refine ⟨rfl, fun c hc => ?_⟩
  cases hc
  show stagedBytesTotalExcluding (fun _ => none) id + 6 ≤ 10
  rw [excluding_empty]
  decide

theorem exampleUpsert_write (rows : Rows) (id : IntentId) (size : Nat) :
    (exampleUpsert id size).statement.write rows id none = some (some (exampleBytesRow size)) :=
  upsert_some.mpr ⟨rfl, Or.inl ⟨rfl, rfl⟩⟩

/-- Two statements that start together are counted, if the first to commit stages no more than was staged. -/
theorem Counted.of_beside {rows rows' : Rows} (hfinite : FinitelyMany rows) (hfinite' : FinitelyMany rows')
    (hle : ∀ k, stagedSize (rows' k) ≤ stagedSize (rows k)) (h : Beside (cappedStatements cap) rows rows' db db') :
    Counted cap db db' := by
  refine ⟨h.step, fun t o id blob now ho _ _ _ => ?_⟩
  rw [h.snapshot t o ho]
  obtain hrows | hrows := h.rows
  · rw [hrows]
  · rw [hrows]
    exact stagedBytesTotalExcluding_mono hfinite hfinite' hle id

/-- The store with an intent's six bytes staged again. -/
def exampleAgain : Rows :=
  Function.update exampleBuffered "0x01" (some (bytesMerged (exampleBlob 6) 1 (exampleBytesRow 6)))

/-- They are, by a statement that runs beside one that stages another's four. -/
theorem exampleBuffered_counted :
    Relation.ReflTransGen (Counted 10) (⟨exampleBuffered, fun _ => none⟩ : Database Nat IntentId Row)
      ⟨Function.update exampleAgain "0x02" (some (exampleBytesRow 4)), fun _ => none⟩ := by
  have hown : exampleBuffered "0x01" = some (exampleBytesRow 6) := Function.update_self ..
  have htotal (id : IntentId) : 6 = stagedSize (exampleBuffered id) + stagedBytesTotalExcluding exampleBuffered id := by
    rw [← stagedBytesTotal_eq finitelyMany_buffered id, exampleBuffered_total]
  have hagain : (exampleUpsert "0x01" 6).statement.targets exampleBuffered [] "0x01" := by
    refine ⟨rfl, fun c hc => ?_⟩
    cases hc
    have hsum := htotal "0x01"
    rw [hown, stagedSize_some] at hsum
    have hothers : stagedBytesTotalExcluding exampleBuffered "0x01" = 0 := (Nat.add_left_cancel hsum).symm
    show stagedBytesTotalExcluding exampleBuffered "0x01" + 6 ≤ 10
    omega
  have hother : (exampleUpsert "0x02" 4).statement.targets exampleBuffered [] "0x02" := by
    refine ⟨rfl, fun c hc => ?_⟩
    cases hc
    have hsum := htotal "0x02"
    rw [exampleBuffered_free, stagedSize_none] at hsum
    show stagedBytesTotalExcluding exampleBuffered "0x02" + 4 ≤ 10
    omega
  have hwrite : (exampleUpsert "0x01" 6).statement.write exampleBuffered "0x01" (exampleBuffered "0x01") =
      some (some (bytesMerged (exampleBlob 6) 1 (exampleBytesRow 6))) :=
    upsert_some.mpr ⟨rfl, Or.inr ⟨exampleBytesRow 6, hown, rfl, rfl⟩⟩
  have hwrite' : (exampleUpsert "0x02" 4).statement.write exampleBuffered "0x02" (exampleBuffered "0x02") =
      some (some (exampleBytesRow 4)) := by
    rw [exampleBuffered_free]
    exact exampleUpsert_write exampleBuffered "0x02" 4
  have hidle : ∀ t, (⟨exampleBuffered, fun _ => none⟩ : Database Nat IntentId Row).opened t = none := fun _ => rfl
  have hrun := side_by_side hidle 0 1 (by decide) (exampleUpsert_mem "0x01" 6) (exampleUpsert_mem "0x02" 4) (by decide)
    hagain hother hwrite hwrite'
  have hsame : ∀ k, stagedSize (exampleAgain k) ≤ stagedSize (exampleBuffered k) := by
    intro k
    by_cases hk : k = "0x01"
    · rw [hk, exampleAgain, Function.update_self, hown]
      exact le_rfl
    · rw [exampleAgain, Function.update_of_ne hk]
  exact Relation.ReflTransGen.mono
    (fun _ _ h => Counted.of_beside finitelyMany_buffered (finitelyMany_buffered.update _ _) hsame h) _ _ hrun

/-- That run stays within the cap. -/
theorem staged_within_cap_one :
    stagedBytesTotal (Function.update exampleAgain "0x02" (some (exampleBytesRow 4))) ≤ 10 :=
  staged_within_cap (fun _ => rfl) finitelyMany_buffered (exampleBuffered_total.trans_le (by decide))
    exampleBuffered_counted

/-- Two intents of six bytes each are staged at once under a cap of ten. -/
theorem staged_past_cap : ¬ ∀ db : Database Nat IntentId Row,
    Relation.ReflTransGen (Step (cappedStatements 10)) emptyStore db → stagedBytesTotal db.rows ≤ 10 := by
  intro hcap
  have hidle : ∀ t, (emptyStore : Database Nat IntentId Row).opened t = none := fun _ => rfl
  have hrun := side_by_side hidle 0 1 (by decide) (exampleUpsert_mem "0x01" 6) (exampleUpsert_mem "0x02" 6) (by decide)
    (exampleUpsert_targets _) (exampleUpsert_targets _) (exampleUpsert_write _ _ _) (exampleUpsert_write _ _ _)
  have htotal : stagedBytesTotal (exampleBufferedTwo 6) ≤ 10 :=
    hcap _ (Relation.ReflTransGen.mono (fun _ _ h => h.step) _ _ hrun)
  rw [exampleBufferedTwo_total] at htotal
  omega

end Bosphor.Relayer

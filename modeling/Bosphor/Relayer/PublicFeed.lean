import Bosphor.Lib.NewestFirst
import Bosphor.Lib.OrderedMap
import Bosphor.Lib.Text
import Bosphor.Relayer.FurthestHop

/-!
# The public feed

The lifecycle records are kept in memory or in Postgres, behind one interface,
and listed newest first on a public endpoint. In memory a hop is recorded in one
step; in Postgres the record is read, and written back by a statement of its
own, which fails for a number that its column does not hold
(`toRow_applyHop_isSome`).

As long as no call writes over a row that has changed since the call read it,
the Postgres store is one in memory that was told the same hops, in the order of
the writes: it knows the same commitments, and its feed differs from the one in
memory only in the order of intents that were created at one time
(`feed_refines`).
-/

namespace Bosphor.Relayer.PublicFeed

/-! ## In memory -/

abbrev MemoryStore := OrderedMap IntentId IntentLifecycleRecord

def recordHop (m : MemoryStore) (id : IntentId) (c : HopCall) : MemoryStore :=
  m.set id (applyHop (m.get id) id c.hop c.details c.now)

def getRecentIntents (m : MemoryStore) (limit : Option Nat) : List IntentLifecycleRecord :=
  let all := m.values.mergeSort fun a b => b.createdAt ≤ a.createdAt
  match limit with
  | none => all
  | some n => all.take n

/-- The store after some hops, one after the other. -/
def memory (recorded : List (IntentId × HopCall)) : MemoryStore :=
  recorded.foldl (fun m x => recordHop m x.1 x.2) .empty

/-! ## In Postgres -/

/-- What a column of type `BIGINT` holds. -/
abbrev Bigint := {n : Nat // n < 2 ^ 63}

def toBigint (n : Nat) : Option Bigint := if h : n < 2 ^ 63 then some ⟨n, h⟩ else none

/-- A column that may be null. -/
def toNullable : Option Nat → Option (Option Bigint)
  | none => some none
  | some n => (toBigint n).map some

/-- A row of `intent_lifecycle`. -/
structure LifecycleRow where
  intentId : IntentId
  status : IntentHop
  sender : Option String
  blobId : Option String
  suiObjectId : Option String
  endEpoch : Option Bigint
  committedBlobId : Option String
  size : Option Bigint
  deadline : Option Bigint
  walCostMist : Option String
  hops : List IntentHopRecord
  createdAt : Bigint
  updatedAt : Bigint
  deriving DecidableEq

/-- The parameters of the upsert, if the columns hold them. -/
def toRow (record : IntentLifecycleRecord) : Option LifecycleRow := do
  let endEpoch ← toNullable record.endEpoch
  let size ← toNullable record.size
  let deadline ← toNullable record.deadline
  let createdAt ← toBigint record.createdAt
  let updatedAt ← toBigint record.updatedAt
  return {
    intentId := record.intentId
    status := record.status
    sender := record.sender
    blobId := record.blobId
    suiObjectId := record.suiObjectId
    endEpoch := endEpoch
    committedBlobId := record.committedBlobId
    size := size
    deadline := deadline
    walCostMist := record.walCostMist
    hops := record.hops
    createdAt := createdAt
    updatedAt := updatedAt }

def mapRow (row : LifecycleRow) : IntentLifecycleRecord where
  intentId := row.intentId
  status := row.status
  hops := row.hops
  sender := row.sender
  blobId := row.blobId
  suiObjectId := row.suiObjectId
  endEpoch := row.endEpoch.map (·.val)
  committedBlobId := row.committedBlobId
  size := row.size.map (·.val)
  deadline := row.deadline.map (·.val)
  walCostMist := row.walCostMist
  createdAt := row.createdAt.val
  updatedAt := row.updatedAt.val

/-- The row that the upsert leaves: of a row that is there `created_at` stays. -/
def upsertRow (old : Option LifecycleRow) (row : LifecycleRow) : LifecycleRow :=
  { row with createdAt := (old.map (·.createdAt)).getD row.createdAt }

/-- The table, what each call of `recordHop` under way has read, and the calls that have written. -/
structure PgStore (ι : Type) where
  rows : IntentId → Option LifecycleRow
  reading : ι → Option (IntentId × HopCall × Option LifecycleRow)
  recorded : List (IntentId × HopCall)

def PgStore.empty {ι : Type} : PgStore ι := ⟨fun _ => none, fun _ => none, []⟩

inductive PgEvent (ι : Type) where
  | read (i : ι) (id : IntentId) (c : HopCall)
  | write (i : ι)
  /-- A query that fails, or a process that is gone. -/
  | fail (i : ι)

variable {ι : Type} [DecidableEq ι]

/-- One statement of a call. -/
inductive PgStep : PgStore ι → PgEvent ι → PgStore ι → Prop
  | read {s i} (id : IntentId) (c : HopCall) (hfree : s.reading i = none) :
    PgStep s (.read i id c) { s with reading := Function.update s.reading i (some (id, c, s.rows id)) }
  | write {s i id c existing row} (hread : s.reading i = some (id, c, existing))
      (hrow : toRow (applyHop (existing.map mapRow) id c.hop c.details c.now) = some row) :
    PgStep s (.write i) ⟨Function.update s.rows id (some (upsertRow (s.rows id) row)),
      Function.update s.reading i none, s.recorded ++ [(id, c)]⟩
  | fail {s} (i : ι) : PgStep s (.fail i) { s with reading := Function.update s.reading i none }

/-- A call that writes finds the row that it has read. -/
def Fresh (s : PgStore ι) (e : PgEvent ι) : Prop :=
  ∀ i id c existing, e = .write i → s.reading i = some (id, c, existing) → s.rows id = existing

/-- The statements of any calls, in any order in which no call writes over a row that has changed. -/
inductive FreshRun : PgStore ι → Prop
  | start : FreshRun .empty
  | step {s e s'} (hrun : FreshRun s) (hstep : PgStep s e s') (hfresh : Fresh s e) : FreshRun s'

/-- What the query of the feed may return. -/
def Listed (rows : IntentId → Option LifecycleRow) (limit : Option Nat) : List LifecycleRow → Prop :=
  Newest (fun row : LifecycleRow => row.createdAt.val) {row | ∃ id, rows id = some row} limit

/-! ## The endpoint -/

def DEFAULT_LIMIT : Nat := 50

def MAX_LIMIT : Nat := 200

/-- `Number.parseInt(text, 10)`, of a text that starts with a number. -/
def parseInt (text : String) : Option Int :=
  let digits := fun rest : List Char => rest.takeWhile Char.isDigit
  let number := fun rest : List Char => (digits rest).foldl (fun n c => 10 * n + (c.toNat - 48) : Nat → Char → Nat) 0
  match Text.trimStart text.toList with
  | '-' :: rest => if digits rest = [] then none else some (-(number rest : Int))
  | '+' :: rest => if digits rest = [] then none else some (number rest)
  | rest => if digits rest = [] then none else some (number rest)

/-- The limit of a request; a number too large for a double is infinite. -/
def effectiveLimit (limit : Option String) : Nat :=
  match parseInt (limit.getD "") with
  | some parsed =>
    if parsed.natAbs < 2 ^ 1024 - 2 ^ 970 then (min (max parsed 1) MAX_LIMIT).toNat else DEFAULT_LIMIT
  | none => DEFAULT_LIMIT

/-- `getIntents(limit)` over the store in memory. -/
def getIntents (m : MemoryStore) (limit : Option String) : List IntentLifecycleRecord :=
  getRecentIntents m (some (effectiveLimit limit))

/-! ## Rows -/

theorem toBigint_some {n : Nat} {b : Bigint} : toBigint n = some b ↔ b.val = n := by
  unfold toBigint
  split
  case isTrue h =>
    rw [Option.some.injEq, Subtype.ext_iff]
    exact eq_comm
  case isFalse h => exact iff_of_false nofun fun heq => h (heq ▸ b.property)

theorem toBigint_isSome {n : Nat} : (toBigint n).isSome = true ↔ n < 2 ^ 63 := by
  unfold toBigint
  split
  case isTrue h => exact iff_of_true rfl h
  case isFalse h => exact iff_of_false Bool.false_ne_true h

theorem toNullable_map {n : Option Nat} {b : Option Bigint} (h : toNullable n = some b) : b.map (·.val) = n := by
  cases n with
  | none =>
    cases h
    rfl
  | some n =>
    obtain ⟨b, hb, rfl⟩ := Option.map_eq_some_iff.mp h
    exact congrArg some (toBigint_some.mp hb)

theorem toNullable_isSome {n : Option Nat} : (toNullable n).isSome = true ↔ ∀ k ∈ n, k < 2 ^ 63 := by
  cases n with
  | none => exact iff_of_true rfl nofun
  | some n =>
    show ((toBigint n).map some).isSome = true ↔ _
    rw [Option.isSome_map, toBigint_isSome]
    exact ⟨fun h k hk => (Option.some.inj hk) ▸ h, fun h => h n rfl⟩

/-- What is written of a record is read back as the record. -/
theorem mapRow_toRow {record : IntentLifecycleRecord} {row : LifecycleRow} (h : toRow record = some row) :
    mapRow row = record := by
  simp only [toRow, Option.bind_eq_bind, Option.bind_eq_some_iff, Option.pure_def, Option.some.injEq] at h
  obtain ⟨endEpoch, hend, size, hsize, deadline, hdeadline, createdAt, hcreated, updatedAt, hupdated, rfl⟩ := h
  simp only [mapRow, toNullable_map hend, toNullable_map hsize, toNullable_map hdeadline, toBigint_some.mp hcreated,
    toBigint_some.mp hupdated]

theorem mapRow_injective : Function.Injective mapRow := by
  intro a b h
  have hval : Function.Injective (Option.map fun b : Bigint => b.val) := Option.map_injective Subtype.val_injective
  cases a
  cases b
  simp only [mapRow, IntentLifecycleRecord.mk.injEq] at h
  obtain ⟨rfl, rfl, rfl, rfl, rfl, rfl, hend, rfl, hsize, hdeadline, rfl, hcreated, hupdated⟩ := h
  rw [hval hend, hval hsize, hval hdeadline, Subtype.ext hcreated, Subtype.ext hupdated]

/-- A call whose numbers its columns hold. -/
structure InRange (c : HopCall) : Prop where
  endEpoch : ∀ n ∈ c.details.endEpoch, n < 2 ^ 63
  size : ∀ n ∈ c.details.size, n < 2 ^ 63
  deadline : ∀ n ∈ c.details.deadline, n < 2 ^ 63
  timestamp : c.details.timestamp.getD c.now < 2 ^ 63

theorem toRow_isSome {record : IntentLifecycleRecord} : (toRow record).isSome = true ↔
    (∀ n ∈ record.endEpoch, n < 2 ^ 63) ∧ (∀ n ∈ record.size, n < 2 ^ 63) ∧ (∀ n ∈ record.deadline, n < 2 ^ 63) ∧
      record.createdAt < 2 ^ 63 ∧ record.updatedAt < 2 ^ 63 := by
  rw [← toNullable_isSome (n := record.endEpoch), ← toNullable_isSome (n := record.size),
    ← toNullable_isSome (n := record.deadline), ← toBigint_isSome, ← toBigint_isSome]
  simp only [Option.isSome_iff_exists]
  constructor
  · rintro ⟨row, h⟩
    simp only [toRow, Option.bind_eq_bind, Option.bind_eq_some_iff] at h
    obtain ⟨endEpoch, hend, size, hsize, deadline, hdeadline, createdAt, hcreated, updatedAt, hupdated, -⟩ := h
    exact ⟨⟨_, hend⟩, ⟨_, hsize⟩, ⟨_, hdeadline⟩, ⟨_, hcreated⟩, ⟨_, hupdated⟩⟩
  · rintro ⟨⟨endEpoch, hend⟩, ⟨size, hsize⟩, ⟨deadline, hdeadline⟩, ⟨createdAt, hcreated⟩, ⟨updatedAt, hupdated⟩⟩
    simp only [toRow, hend, hsize, hdeadline, hcreated, hupdated, Option.bind_eq_bind, Option.bind_some]
    exact ⟨_, rfl⟩

/-- A column keeps what it has where a hop does not know it. -/
theorem orElse_lt {a : Option Nat} {b : Option Bigint} :
    (∀ n ∈ a.orElse fun _ => b.map (·.val), n < 2 ^ 63) ↔ ∀ n ∈ a, n < 2 ^ 63 := by
  cases a with
  | none =>
    refine iff_of_true (fun n hn => ?_) nofun
    obtain ⟨k, -, rfl⟩ := Option.map_eq_some_iff.mp hn
    exact k.property
  | some n => exact Iff.rfl

variable {existing : Option LifecycleRow} {id : IntentId} {c : HopCall}

/-- The statement of a call over a row takes effect exactly for numbers that the columns hold. -/
theorem toRow_applyHop_isSome :
    (toRow (applyHop (existing.map mapRow) id c.hop c.details c.now)).isSome = true ↔ InRange c := by
  have hcreated : (applyHop (existing.map mapRow) id c.hop c.details c.now).createdAt < 2 ^ 63 ↔
      existing = none → c.details.timestamp.getD c.now < 2 ^ 63 := by
    cases existing with
    | none => exact ⟨fun h _ => h, fun h => h rfl⟩
    | some row => exact iff_of_true row.createdAt.property nofun
  have hfields : ((∀ n ∈ (applyHop (existing.map mapRow) id c.hop c.details c.now).endEpoch, n < 2 ^ 63) ↔
        ∀ n ∈ c.details.endEpoch, n < 2 ^ 63) ∧
      ((∀ n ∈ (applyHop (existing.map mapRow) id c.hop c.details c.now).size, n < 2 ^ 63) ↔
        ∀ n ∈ c.details.size, n < 2 ^ 63) ∧
      ((∀ n ∈ (applyHop (existing.map mapRow) id c.hop c.details c.now).deadline, n < 2 ^ 63) ↔
        ∀ n ∈ c.details.deadline, n < 2 ^ 63) := by
    cases existing with
    | none => exact ⟨orElse_lt (b := none), orElse_lt (b := none), orElse_lt (b := none)⟩
    | some row =>
      exact ⟨orElse_lt (b := row.endEpoch), orElse_lt (b := row.size), orElse_lt (b := row.deadline)⟩
  rw [toRow_isSome, hfields.1, hfields.2.1, hfields.2.2, hcreated]
  constructor
  · rintro ⟨hend, hsize, hdeadline, -, hupdated⟩
    exact ⟨hend, hsize, hdeadline, hupdated⟩
  · rintro ⟨hend, hsize, hdeadline, htimestamp⟩
    exact ⟨hend, hsize, hdeadline, fun _ => htimestamp, htimestamp⟩

/-- The upsert of a call over the row that it has read leaves what it has merged. -/
theorem upsertRow_applyHop {row : LifecycleRow}
    (h : toRow (applyHop (existing.map mapRow) id c.hop c.details c.now) = some row) :
    mapRow (upsertRow existing row) = applyHop (existing.map mapRow) id c.hop c.details c.now := by
  have hrow := mapRow_toRow h
  have hsame : upsertRow existing row = row := by
    cases existing with
    | none => rfl
    | some old =>
      have hcreated : row.createdAt = old.createdAt := Subtype.ext (congrArg (·.createdAt) hrow)
      unfold upsertRow
      rw [Option.map_some, Option.getD_some, ← hcreated]
  rw [hsame, hrow]

/-! ## The stores -/

/-- The calls for an intent, in their order. -/
def callsOn (id : IntentId) (recorded : List (IntentId × HopCall)) : List HopCall :=
  (recorded.filter (·.1 = id)).map (·.2)

theorem memory_concat (recorded : List (IntentId × HopCall)) (id : IntentId) (c : HopCall) :
    memory (recorded ++ [(id, c)]) = recordHop (memory recorded) id c := by
  unfold memory
  rw [List.foldl_append]
  rfl

/-- The record of an intent is what its calls come to. -/
theorem get_memory (recorded : List (IntentId × HopCall)) (id : IntentId) :
    (memory recorded).get id = recordHops id (callsOn id recorded) := by
  induction recorded using List.reverseRecOn with
  | nil => rfl
  | append_singleton before x ih =>
    obtain ⟨k, c⟩ := x
    rw [memory_concat, recordHop, OrderedMap.get_set, callsOn, List.filter_append, List.map_append]
    by_cases hk : k = id
    · subst hk
      have hone : ([(k, c)].filter (·.1 = k)).map (·.2) = [c] := by simp
      rw [if_pos rfl, hone, recordHops_append, ih]
      rfl
    · have hnone : ([(k, c)].filter (·.1 = id)).map (·.2) = [] := by simp [hk]
      rw [if_neg (Ne.symm hk), hnone, List.append_nil, ih]
      rfl

theorem recordHops_intentId {calls : List HopCall} {r : IntentLifecycleRecord} (h : recordHops id calls = some r) :
    r.intentId = id := by
  induction calls using List.reverseRecOn generalizing r with
  | nil => cases h
  | append_singleton before c ih =>
    rw [recordHops_append] at h
    cases h
    cases hbefore : recordHops id before with
    | none => rfl
    | some r => exact show r.intentId = id from ih hbefore

/-- The records that some calls have come to. -/
def Recorded (recorded : List (IntentId × HopCall)) : Set IntentLifecycleRecord :=
  {r | ∃ id, recordHops id (callsOn id recorded) = some r}

theorem mem_values {recorded : List (IntentId × HopCall)} {r : IntentLifecycleRecord} :
    r ∈ (memory recorded).values ↔ r ∈ Recorded recorded := by
  simp only [OrderedMap.values, List.mem_map, Prod.exists, exists_eq_right, ← OrderedMap.get_some, get_memory]
  rfl

/-- The keys of the store in memory are the ids of its records. -/
theorem values_intentId (recorded : List (IntentId × HopCall)) :
    (memory recorded).values.map (·.intentId) = (memory recorded).keys := by
  rw [OrderedMap.values, OrderedMap.keys, List.map_map]
  exact List.map_congr_left fun e he =>
    recordHops_intentId ((get_memory recorded e.1).symm.trans (OrderedMap.get_some.mpr he))

theorem values_nodup (recorded : List (IntentId × HopCall)) : (memory recorded).values.Nodup := by
  refine List.Nodup.of_map (·.intentId) ?_
  rw [values_intentId]
  exact (memory recorded).nodup

/-- The feed in memory lists the newest of the records. -/
theorem getRecentIntents_newest (recorded : List (IntentId × HopCall)) (limit : Option Nat) :
    Newest (·.createdAt) (Recorded recorded) limit (getRecentIntents (memory recorded) limit) := by
  have hlisted := newest_sorted (fun r : IntentLifecycleRecord => r.createdAt) (values_nodup recorded) limit
  have hset : {r | r ∈ (memory recorded).values} = Recorded recorded := Set.ext fun r => mem_values
  rw [hset] at hlisted
  cases limit with
  | none =>
    have hall : (memory recorded).values.length = ((memory recorded).values.mergeSort
        fun a b => b.createdAt ≤ a.createdAt).length := (List.length_mergeSort _).symm
    rw [Option.getD_none, hall, List.take_length] at hlisted
    exact hlisted
  | some n => exact hlisted

/-- The table holds what the store in memory would hold that was told the calls in the order of the writes. -/
def Refines (s : PgStore ι) : Prop := ∀ id, (s.rows id).map mapRow = (memory s.recorded).get id

theorem PgStep.refines {s s' : PgStore ι} {e : PgEvent ι} (hstep : PgStep s e s') (hfresh : Fresh s e)
    (h : Refines s) : Refines s' := by
  cases hstep with
  | read id c hfree => exact h
  | fail i => exact h
  | @write i id c existing row hread hrow =>
    obtain rfl : s.rows id = existing := hfresh i id c existing rfl hread
    intro k
    show (Function.update s.rows id (some (upsertRow (s.rows id) row)) k).map mapRow =
      (memory (s.recorded ++ [(id, c)])).get k
    rw [memory_concat, recordHop, OrderedMap.get_set]
    by_cases hk : k = id
    · subst hk
      rw [Function.update_self, if_pos rfl, Option.map_some, upsertRow_applyHop hrow, h]
    · rw [Function.update_of_ne hk, if_neg hk, h]

theorem FreshRun.refines {s : PgStore ι} (hrun : FreshRun s) : Refines s := by
  induction hrun with
  | start => exact fun _ => rfl
  | step _ hstep hfresh ih => exact hstep.refines hfresh ih

/-! ## The feeds -/

theorem effectiveLimit_le (limit : Option String) : effectiveLimit limit ≤ MAX_LIMIT := by
  unfold effectiveLimit MAX_LIMIT DEFAULT_LIMIT
  split
  · split
    · omega
    · decide
  · decide

/-- What a feed shows: the newest of the intents, as their hops have left them; the same times as the feed of the store
in memory, and the same intents where no two of them were created at one time. -/
structure FeedAgrees (recorded : List (IntentId × HopCall)) (limit : Option String)
    (intents : List IntentLifecycleRecord) : Prop where
  length_le : intents.length ≤ MAX_LIMIT
  newest : Newest (·.createdAt) (Recorded recorded) (some (effectiveLimit limit)) intents
  times : intents.map (·.createdAt) = (getIntents (memory recorded) limit).map (·.createdAt)
  same : Set.InjOn (·.createdAt) (Recorded recorded) → intents = getIntents (memory recorded) limit

/-- In every run in which no call writes over a row that has changed since the call read it, the store in Postgres is
the one in memory: for every intent the commitment is the same, and whatever limit a request asks for, its answer shows
the newest intents, in an order that only differs for those created at one time. -/
theorem feed_refines {s : PgStore ι} (hrun : FreshRun s) :
    (∀ id, getCommitment ((s.rows id).map mapRow) = getCommitment ((memory s.recorded).get id)) ∧
      ∀ limit rows, Listed s.rows (some (effectiveLimit limit)) rows →
        FeedAgrees s.recorded limit (rows.map mapRow) := by
  refine ⟨fun id => congrArg getCommitment (hrun.refines id), fun limit rows hrows => ?_⟩
  have himage : mapRow '' {row | ∃ id, s.rows id = some row} = Recorded s.recorded := by
    ext r
    constructor
    · rintro ⟨row, ⟨id, hrow⟩, rfl⟩
      refine ⟨id, ?_⟩
      rw [← get_memory, ← hrun.refines, hrow]
      rfl
    · rintro ⟨id, hr⟩
      rw [← get_memory, ← hrun.refines] at hr
      obtain ⟨row, hrow, rfl⟩ := Option.map_eq_some_iff.mp hr
      exact ⟨row, ⟨id, hrow⟩, rfl⟩
  have hnewest : Newest (·.createdAt) (Recorded s.recorded) (some (effectiveLimit limit)) (rows.map mapRow) := by
    rw [← himage]
    exact hrows.map mapRow_injective.injOn fun row => rfl
  have hmemory := getRecentIntents_newest s.recorded (some (effectiveLimit limit))
  exact ⟨(hnewest.length_le _ rfl).trans (effectiveLimit_le limit), hnewest, hnewest.keys_eq hmemory,
    fun hinj => hnewest.eq hmemory hinj⟩

/-! ## Two intents at one time -/

def exampleCall (now : Nat) : HopCall where
  hop := .submitted
  details := { committedBlobId := some "0x00", size := some 3, deadline := some 9000 }
  now := now

theorem exampleCall_inRange {now : Nat} (h : now < 2 ^ 63) : InRange (exampleCall now) := by
  refine ⟨nofun, fun n hn => ?_, fun n hn => ?_, h⟩
  · cases hn
    decide
  · cases hn
    decide

/-- The calls of two intents overlap, and neither finds its row changed. -/
theorem feed_refines_two : ∃ s : PgStore Bool, s.recorded = [("0x02", exampleCall 2), ("0x01", exampleCall 1)] ∧
    (∀ id, getCommitment ((s.rows id).map mapRow) = getCommitment ((memory s.recorded).get id)) ∧
      ∀ limit rows, Listed s.rows (some (effectiveLimit limit)) rows →
        FeedAgrees s.recorded limit (rows.map mapRow) := by
  have hrow : ∀ id now, now < 2 ^ 63 → ∃ row, toRow (applyHop none id .submitted (exampleCall now).details now) =
      some row := fun id now hnow =>
    Option.isSome_iff_exists.mp ((@toRow_applyHop_isSome none id (exampleCall now)).mpr (exampleCall_inRange hnow))
  obtain ⟨row, hrow₂⟩ := hrow "0x02" 2 (by decide)
  obtain ⟨row', hrow₁⟩ := hrow "0x01" 1 (by decide)
  have hother : ("0x01" : IntentId) ≠ "0x02" := by decide
  have h0 : FreshRun (PgStore.empty : PgStore Bool) := .start
  have h1 := h0.step (.read (i := true) "0x01" (exampleCall 1) rfl) fun _ _ _ _ he => by cases he
  have h2 := h1.step (.read (i := false) "0x02" (exampleCall 2) rfl) fun _ _ _ _ he => by cases he
  have h3 := h2.step (.write (i := false) rfl hrow₂) fun i id c existing he hread => by
    cases he
    cases hread
    rfl
  have h4 := h3.step (.write (i := true) rfl hrow₁) fun i id c existing he hread => by
    cases he
    cases hread
    exact Function.update_of_ne hother (some (upsertRow none row)) (fun _ => none)
  exact ⟨_, rfl, feed_refines h4⟩

end Bosphor.Relayer.PublicFeed

import Bosphor.Relayer.StagedIntentStore

/-!
# Terminal rows

Once a row of the staged store is done, dead or expired, it stays so until it
is purged, under any interleaving of the store's statements: most of them write
it whatever its state, but none makes it active, claims it, answers it for byte
recovery or gives it bytes (`terminal_stays`).
-/

namespace Bosphor.Relayer

open ReadCommitted StagedIntentStore

variable {τ : Type} [DecidableEq τ]

/-- The store's statements, with any arguments. -/
def statements : Set (Statement IntentId Row) := Set.range Op.statement

/-- The store's database before its first statement. -/
def emptyStore : Database τ IntentId Row := ⟨fun _ => none, fun _ => none⟩

/-- The store after some statements ran side by side. -/
def StoreReachable (db : Database τ IntentId Row) : Prop := Relation.ReflTransGen (Step statements) emptyStore db

/-- A terminal row holds no bytes. -/
def Freed (o : Option Row) : Prop := ∀ r, o = some r → r.Terminal → r.bytes = none

theorem StagedIntentStore.Touches.freed {latest v : Option Row} (h : Touches latest v)
    (hf : Freed latest) : Freed v := by
  intro r' hv ht
  cases hv
  cases h with
  | inserted ha => exact absurd ha ht
  | worked _ ha => exact absurd ha ht
  | settled _ hbytes => exact hbytes
  | @noted r _ hstate hbytes =>
    have hterm : r.Terminal := by rwa [Row.Terminal, ← hstate]
    obtain hnone | hsame := hbytes
    · exact hnone
    · exact hsame.trans (hf r rfl hterm)

theorem StagedIntentStore.Touches.terminal {r r' : Row} (h : Touches (some r) (some r')) (ht : r.Terminal) :
    r'.Terminal := by
  cases h with
  | worked ha _ => exact absurd ha ht
  | settled ht' _ => exact ht'
  | noted hstate _ => rwa [Row.Terminal, hstate]

variable {db db' : Database τ IntentId Row}

/-- Every row is written by the store's statements alone. -/
theorem StoreReachable.sound (h : StoreReachable db) (id : IntentId) : Sound statements db ∧ Freed (db.rows id) := by
  refine run_keeps ?_ (sound_idle fun _ => rfl) h (fun r hr => by cases hr)
  rintro _ ⟨op, rfl⟩ snapshot r v hf hw
  exact (Op.touches hw).freed hf

theorem recoverable_active {now graceMs : Nat} {r : Row} (h : recoverable now graceMs r = true) :
    r.state = .active := by
  simp only [recoverable, Bool.and_eq_true, beq_iff_eq] at h
  exact h.1.1.1.1.1.1.1

/-- A terminal row stays terminal and empty until it is purged, and no claim takes it up. -/
theorem terminal_stays (h : StoreReachable db) {id : IntentId} {r : Row} (hr : db.rows id = some r)
    (ht : r.Terminal) (hrun : Relation.ReflTransGen (Undeleted statements id) db db') :
    (∃ r', db'.rows id = some r' ∧ r'.Terminal ∧ r'.bytes = none) ∧
      (∀ t o claimant leaseMs now limit, db'.opened t = some o →
        o.statement = (Op.drainDue claimant leaseMs now limit).statement → o.written id = none) ∧
      ∀ now graceMs limit answer, ClaimForByteRecovery now graceMs limit db'.rows answer → id ∉ answer := by
  have hkeep : ∀ s ∈ statements, ∀ snapshot r v, (r.Terminal ∧ r.bytes = none) →
      s.write snapshot id (some r) = some (some v) → v.Terminal ∧ v.bytes = none := by
    rintro _ ⟨op, rfl⟩ snapshot r v ⟨hterm, hbytes⟩ hw
    have htouch := Op.touches hw
    have hv := htouch.terminal hterm
    exact ⟨hv, htouch.freed (fun _ hr _ => Option.some.inj hr ▸ hbytes) v rfl hv⟩
  have hfreed : r.bytes = none := (h.sound id).2 r hr ht
  obtain ⟨hsound, r', hr', hterm, hbytes⟩ := undeleted_keeps hkeep (h.sound id).1 hrun ⟨r, hr, ht, hfreed⟩
  refine ⟨⟨r', hr', hterm, hbytes⟩, ?_, ?_⟩
  · intro t o claimant leaseMs now limit ho hdrain
    -- a version of the row would be made of the row as it is, which is not due
    by_contra hne
    obtain ⟨v, hv⟩ := Option.ne_none_iff_exists'.mp hne
    have hw := hsound.written t o ho id v hv
    rw [hdrain] at hw
    obtain ⟨r'', hr'', hdue, -⟩ := rewrite_some.mp hw
    rw [hr'] at hr''
    cases hr''
    exact hterm (due_active hdue)
  · intro now graceMs limit answer hanswer hmem
    obtain ⟨r'', hr'', hfound⟩ := hanswer.found id hmem
    rw [hr'] at hr''
    cases hr''
    exact hterm (recoverable_active hfound)

/-- A method's statement on one row, run alone. -/
theorem StagedIntentStore.Op.alone (op : Op) (rows : Rows) (t : τ) (id : IntentId) {v : Option Row}
    (htarget : op.statement.targets rows [] id) (hwrite : op.statement.write rows id (rows id) = some v) :
    Relation.ReflTransGen (Step statements) (⟨rows, fun _ => none⟩ : Database τ IntentId Row)
      ⟨Function.update rows id v, fun _ => none⟩ :=
  ReadCommitted.alone (S := statements) (fun _ => rfl) t ⟨op, rfl⟩ htarget hwrite

/-- A received row, and the same row dead-lettered. -/
def exampleReceived : Row := receivedInserted ⟨30101, "0x00", 9000, none, some 1⟩ 10

def exampleDead : Row := dead "storage epochs rejected" 20 exampleReceived

/-- The store with the dead row alone. -/
def exampleStore : Database Nat IntentId Row :=
    ⟨Function.update (fun _ => none) "0x01" (some exampleDead), fun _ => none⟩

theorem exampleStore_reachable : StoreReachable exampleStore := by
  let received : Rows := Function.update (fun _ => none) "0x01" (some exampleReceived)
  have hrow : received "0x01" = some exampleReceived := Function.update_self ..
  have hreceived := (Op.markReceived "0x01" ⟨30101, "0x00", 9000, none, some 1⟩ 10).alone (fun _ => none) 0
    "0x01" ⟨rfl, trivial⟩ (upsert_some.mpr ⟨rfl, Or.inl ⟨rfl, rfl⟩⟩)
  have hdead := (Op.markDead "0x01" "storage epochs rejected" 20).alone received 0 "0x01"
    ⟨rfl, exampleReceived, hrow, rfl⟩ (updateRow_some.mpr ⟨rfl, exampleReceived, hrow, rfl, rfl⟩)
  rw [Function.update_idem] at hdead
  exact hreceived.trans hdead

/-- A claim that starts on the dead row. -/
theorem terminal_stays_dead : ∃ r',
    (exampleStore.start 0 (Op.drainDue "relayer" 600000 30 20).statement).rows "0x01" = some r' ∧ r'.Terminal ∧
      r'.bytes = none := by
  have hstart : Step statements exampleStore (exampleStore.start 0 (Op.drainDue "relayer" 600000 30 20).statement) :=
    .start _ ⟨_, rfl⟩ rfl
  have hrow : exampleStore.rows "0x01" = some exampleDead := by
    simp only [exampleStore, Function.update_self]
  have hpresent : exampleStore.rows "0x01" ≠ none := hrow ▸ Option.some_ne_none _
  have hrun : Relation.ReflTransGen (Undeleted statements "0x01") exampleStore _ := .single ⟨hstart, hpresent⟩
  exact (terminal_stays exampleStore_reachable hrow StagedState.noConfusion hrun).1

end Bosphor.Relayer

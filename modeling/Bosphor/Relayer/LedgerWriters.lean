import Bosphor.Relayer.StorageOpLedger
import Bosphor.Relayer.TerminalRows

/-!
# The writers of the ledger, side by side

Any number of writers, of any number of processes, over the ledger and the
staged rows. An insert is a transaction of its own: it waits for another of the
same intent, and commits, or not, whether or not its writer still awaits the
answer. A writer may fail at any call, or vanish. The statements of the staged
store run between them in any order, the reaper's and those of late runs among
them; only a writer marks a row as ledgered.

Every intent has at most one entry and is counted at most once, and no row of a
completed store is deleted before its entry is there (`ledger_exactly_once`).
-/

namespace Bosphor.Relayer.StorageOpLedger

open Async ReadCommitted StagedIntentStore

variable {ι τ : Type}

/-- An insert that has its key, and the writer that awaits its answer. -/
structure Inserting (ι : Type) where
  entry : StorageOpEntry
  writer : Option ι

/-- A writer under way. -/
abbrev Writer := Session LedgerCall LedgerCall.Answer Unit Unit

/-- The two tables, and the processes that write them. -/
structure Site (ι τ : Type) where
  ledger : List StorageOpEntry
  inserts : τ → Option (Inserting ι)
  /-- The intents that some process has counted, one for each increment. -/
  counted : List IntentId
  writers : ι → Option Writer
  staged : Database τ IntentId Row

/-- Before anything was staged. -/
def Site.empty : Site ι τ := ⟨[], fun _ => none, [], fun _ => none, emptyStore⟩

def Site.ids (σ : Site ι τ) : List IntentId := σ.ledger.map (·.intentId)

/-- Neither the ledger nor an insert has the intent. -/
def Site.Free (σ : Site ι τ) (id : IntentId) : Prop :=
  id ∉ σ.ids ∧ ∀ t x, σ.inserts t = some x → x.entry.intentId ≠ id

/-- The writer awaits no insert. -/
def Site.Unlinked (σ : Site ι τ) (i : ι) : Prop := ∀ t x, σ.inserts t = some x → x.writer ≠ some i

/-- The statements of the staged store that are no writer's. -/
def others : Set (Statement IntentId Row) := {s | ∃ op : Op, s = op.statement ∧ ∀ id, op ≠ .markLedgered id}

/-- Whether `pendingLedger` finds the row. -/
def pendingLedger (r : Row) : Bool := r.storeDigest.isSome && !r.ledgered

variable [DecidableEq ι] [DecidableEq τ]

/-- The writer goes on with an answer. -/
def Site.tell (σ : Site ι τ) (i : ι) (heard : Heard) {c : LedgerCall} (next : Except Unit c.Answer → Writing Unit)
    (r : Except Unit c.Answer) : Site ι τ :=
  { σ with writers := Function.update σ.writers i (some ⟨heard ++ [⟨c, r⟩], next r⟩) }

/-- The writer no longer awaits an insert. -/
def Site.unlink (σ : Site ι τ) (i : ι) : Site ι τ :=
  { σ with inserts := fun t => (σ.inserts t).map fun x => if x.writer = some i then { x with writer := none } else x }

/-- The two ways a writer is started. -/
inductive Starts (network : String) : Writing Unit → Prop
  | inline (completed : CompletedStore) : Starts network (recordCompletedStore network completed >>= fun _ => pure ())
  | backfill (limit : Nat) : Starts network (backfill network limit >>= fun _ => pure ())

/-- One step of a writer, of an insert, or of the staged store. -/
inductive Site.Step (network : String) : Site ι τ → Site ι τ → Prop
  | start {σ i p} (hp : Starts network p) (hi : σ.writers i = none) :
    Step network σ { σ with writers := Function.update σ.writers i (some ⟨[], p⟩) }
  | now {σ i heard next} (now : Nat) (hi : σ.writers i = some ⟨heard, .await .now next⟩) :
    Step network σ (σ.tell i heard next (.ok now))
  | insert {σ i heard entry next} (t : τ) (hi : σ.writers i = some ⟨heard, .await (.record entry) next⟩)
    (hunlinked : σ.Unlinked i) (ht : σ.inserts t = none) (hfree : σ.Free entry.intentId) :
    Step network σ { σ with inserts := Function.update σ.inserts t (some ⟨entry, some i⟩) }
  | conflict {σ i heard entry next} (hi : σ.writers i = some ⟨heard, .await (.record entry) next⟩)
    (hunlinked : σ.Unlinked i) (hthere : entry.intentId ∈ σ.ids) : Step network σ (σ.tell i heard next (.ok false))
  | commit {σ i heard entry next} (t : τ) (ht : σ.inserts t = some ⟨entry, some i⟩)
    (hi : σ.writers i = some ⟨heard, .await (.record entry) next⟩) :
    Step network σ (Site.tell { σ with ledger := σ.ledger ++ [entry], inserts := Function.update σ.inserts t none } i heard
      next (.ok true))
  /-- The connection is lost, or the process: the insert commits or not. -/
  | commitUnheard {σ entry} (t : τ) (ht : σ.inserts t = some ⟨entry, none⟩) :
    Step network σ { σ with ledger := σ.ledger ++ [entry], inserts := Function.update σ.inserts t none }
  | abort {σ entry} (t : τ) (ht : σ.inserts t = some ⟨entry, none⟩) :
    Step network σ { σ with inserts := Function.update σ.inserts t none }
  | fail {σ i heard c next} (hi : σ.writers i = some ⟨heard, .await c next⟩) :
    Step network σ ((σ.unlink i).tell i heard next (.error ()))
  | count {σ i heard entry next} (hi : σ.writers i = some ⟨heard, .await (.recordLedgerOp entry) next⟩) :
    Step network σ (Site.tell { σ with counted := σ.counted ++ [entry.intentId] } i heard next (.ok ()))
  /-- The statement is sent; its writer may give it up before it is done. -/
  | mark {σ i heard} {id : IntentId} {next} (t : τ) (r : Except Unit (LedgerCall.markLedgered id).Answer)
    (hi : σ.writers i = some ⟨heard, .await (.markLedgered id) next⟩) (ht : σ.staged.opened t = none) :
    Step network σ (Site.tell { σ with staged := σ.staged.start t (Op.markLedgered id).statement } i heard next r)
  | pending {σ i heard limit next} (rows : List StagedIntentRow)
    (hi : σ.writers i = some ⟨heard, .await (.pendingLedger limit) next⟩)
    (hrows : ∀ row ∈ rows, σ.staged.rows row.intentId = some row.toRow ∧ pendingLedger row.toRow = true) :
    Step network σ (σ.tell i heard next (.ok rows))
  | commitment {σ i heard id next} (c : Option IntentCommitment)
    (hi : σ.writers i = some ⟨heard, .await (.getCommitment id) next⟩) : Step network σ (σ.tell i heard next (.ok c))
  | crash {σ} (i : ι) : Step network σ { σ.unlink i with writers := Function.update σ.writers i none }
  | table {σ staged'} (h : ReadCommitted.Step others σ.staged staged') : Step network σ { σ with staged := staged' }

/-! ## The writers -/

/-- What holds of the ledger and its writers. -/
structure Site.Exact (σ : Site ι τ) : Prop where
  keys : σ.ids.Nodup
  inserting : ∀ t x, σ.inserts t = some x → x.entry.intentId ∉ σ.ids
  alone : ∀ t t' x x', σ.inserts t = some x → σ.inserts t' = some x' → x.entry.intentId = x'.entry.intentId → t = t'
  linked : ∀ t x i, σ.inserts t = some x → x.writer = some i →
    ∃ heard next, σ.writers i = some ⟨heard, .await (.record x.entry) next⟩
  booked : ∀ i s, σ.writers i = some s → wp Booked (fun _ _ => True) s.told s.rest
  heard : ∀ i s, σ.writers i = some s → ∀ entry inserted, ⟨.record entry, .ok inserted⟩ ∈ s.told →
    entry.intentId ∈ σ.ids
  once : σ.counted.Nodup
  counted : ∀ id ∈ σ.counted, id ∈ σ.ids
  /-- An entry that a writer is about to count was not counted, and is counted by no other writer. -/
  due : ∀ i heard entry next, σ.writers i = some ⟨heard, .await (.recordLedgerOp entry) next⟩ →
    entry.intentId ∉ σ.counted ∧ ∀ j heard' entry' next',
      σ.writers j = some ⟨heard', .await (.recordLedgerOp entry') next'⟩ → entry'.intentId = entry.intentId → j = i

variable {network : String} {σ σ' : Site ι τ} {i : ι} {heard : Heard} {c : LedgerCall}
  {next : Except Unit c.Answer → Writing Unit}

omit [DecidableEq ι] [DecidableEq τ] in
theorem Site.Exact.due_mem (h : σ.Exact) {entry : StorageOpEntry}
    {next : Except Unit (LedgerCall.recordLedgerOp entry).Answer → Writing Unit}
    (hi : σ.writers i = some ⟨heard, .await (.recordLedgerOp entry) next⟩) : entry.intentId ∈ σ.ids := by
  obtain ⟨⟨before, hheard⟩, -⟩ := h.booked i _ hi
  exact h.heard i _ hi entry true (by simp [show heard = _ from hheard])

/-- The writer that counts has just been told that it inserted. -/
theorem Booked.last {entry : StorageOpEntry} {r : Except Unit c.Answer}
    (h : Booked (heard ++ [⟨c, r⟩]) (.recordLedgerOp entry)) :
    (⟨c, r⟩ : Σ c : LedgerCall, Except Unit c.Answer) = ⟨.record entry, .ok true⟩ := by
  obtain ⟨before, hheard⟩ := h
  exact List.singleton_inj.mp (List.append_inj' hheard rfl).2

omit [DecidableEq τ] in
/-- A writer goes on with an answer that is not that of an insert. -/
theorem Site.Exact.tell (h : σ.Exact) (hi : σ.writers i = some ⟨heard, .await c next⟩) (hunlinked : σ.Unlinked i)
    (r : Except Unit c.Answer) (hinserted : ∀ entry inserted,
      (⟨c, r⟩ : Σ c : LedgerCall, Except Unit c.Answer) = ⟨.record entry, .ok inserted⟩ →
        inserted = false ∧ entry.intentId ∈ σ.ids) : (σ.tell i heard next r).Exact := by
  have hbooked := h.booked i _ hi
  have hquiet : ∀ entry next', next r ≠ .await (.recordLedgerOp entry) next' := by
    intro entry next' hnext
    have hnow := hbooked.2 r
    rw [hnext] at hnow
    obtain ⟨hfalse, -⟩ := hinserted entry true (Booked.last hnow.1)
    cases hfalse
  refine ⟨h.keys, h.inserting, h.alone, fun t x j ht hx => ?_, fun j s hj => ?_, fun j s hj entry inserted hmem => ?_,
    h.once, h.counted, fun j heard' entry next' hj => ?_⟩
  · have hne : j ≠ i := by
      rintro rfl
      exact hunlinked t x ht hx
    obtain ⟨heard', next', hj⟩ := h.linked t x j ht hx
    exact ⟨heard', next', (Function.update_of_ne hne ..).trans hj⟩
  · obtain ⟨-, hnew⟩ | ⟨-, hold⟩ := opened_update hj
    · cases hnew
      exact hbooked.2 r
    · exact h.booked j s hold
  · obtain ⟨-, hnew⟩ | ⟨-, hold⟩ := opened_update hj
    · cases hnew
      obtain hbefore | hlast := List.mem_append.mp hmem
      · exact h.heard i _ hi entry inserted hbefore
      · exact (hinserted entry inserted (List.mem_singleton.mp hlast).symm).2
    · exact h.heard j s hold entry inserted hmem
  · have hkept : ∀ {j heard' entry' next'},
        (σ.tell i heard next r).writers j = some ⟨heard', .await (.recordLedgerOp entry') next'⟩ →
        σ.writers j = some ⟨heard', .await (.recordLedgerOp entry') next'⟩ := by
      intro j heard' entry' next' hj
      obtain ⟨-, hnew⟩ | ⟨-, hold⟩ := opened_update hj
      · exact absurd (Session.mk.inj (Option.some.inj hnew)).2 (hquiet entry' next')
      · exact hold
    obtain ⟨hfresh, honly⟩ := h.due j heard' entry next' (hkept hj)
    exact ⟨hfresh, fun k heard'' entry'' next'' hk => honly k heard'' entry'' next'' (hkept hk)⟩

omit [DecidableEq τ] in
theorem Site.unlink_some {t : τ} {x : Inserting ι} (ht : (σ.unlink i).inserts t = some x) :
    ∃ y, σ.inserts t = some y ∧ x.entry = y.entry ∧ (∀ j, x.writer = some j → y.writer = some j ∧ j ≠ i) := by
  obtain ⟨y, hy, hx⟩ := Option.map_eq_some_iff.mp ht
  refine ⟨y, hy, ?_⟩
  split at hx
  · subst hx
    exact ⟨rfl, fun j hj => by cases hj⟩
  · rename_i hne
    subst hx
    refine ⟨rfl, fun j hj => ⟨hj, ?_⟩⟩
    rintro rfl
    exact hne hj

omit [DecidableEq τ] in
theorem Site.unlink_unlinked (σ : Site ι τ) (i : ι) : (σ.unlink i).Unlinked i := by
  intro t x ht hx
  obtain ⟨y, -, -, hwriter⟩ := Site.unlink_some ht
  exact (hwriter i hx).2 rfl

omit [DecidableEq τ] in
theorem Site.Exact.unlink (h : σ.Exact) (i : ι) : (σ.unlink i).Exact := by
  refine ⟨h.keys, fun t x ht => ?_, fun t t' x x' ht ht' hsame => ?_, fun t x j ht hx => ?_, h.booked, h.heard, h.once,
    h.counted, h.due⟩
  · obtain ⟨y, hy, hentry, -⟩ := Site.unlink_some ht
    rw [hentry]
    exact h.inserting t y hy
  · obtain ⟨y, hy, hentry, -⟩ := Site.unlink_some ht
    obtain ⟨y', hy', hentry', -⟩ := Site.unlink_some ht'
    rw [hentry, hentry'] at hsame
    exact h.alone t t' y y' hy hy' hsame
  · obtain ⟨y, hy, hentry, hwriter⟩ := Site.unlink_some ht
    rw [hentry]
    exact h.linked t y j hy (hwriter j hx).1

omit [DecidableEq ι] in
/-- An insert takes a key that nobody has. -/
theorem Site.Exact.insert (h : σ.Exact) {entry : StorageOpEntry}
    {next : Except Unit (LedgerCall.record entry).Answer → Writing Unit} {t : τ}
    (hi : σ.writers i = some ⟨heard, .await (.record entry) next⟩) (hfree : σ.Free entry.intentId) :
    Site.Exact { σ with inserts := Function.update σ.inserts t (some ⟨entry, some i⟩) } := by
  refine ⟨h.keys, fun t' x ht => ?_, fun t' t'' x x' ht ht' hsame => ?_, fun t' x j ht hx => ?_, h.booked,
    h.heard, h.once, h.counted, h.due⟩
  · obtain ⟨-, hnew⟩ | ⟨-, hold⟩ := opened_update ht
    · cases hnew
      exact hfree.1
    · exact h.inserting t' x hold
  · obtain ⟨rfl, hnew⟩ | ⟨-, hold⟩ := opened_update ht
    · cases hnew
      obtain ⟨rfl, -⟩ | ⟨-, hold'⟩ := opened_update ht'
      · rfl
      · exact absurd hsame.symm (hfree.2 t'' x' hold')
    · obtain ⟨-, hnew'⟩ | ⟨-, hold'⟩ := opened_update ht'
      · cases hnew'
        exact absurd hsame (hfree.2 t' x hold)
      · exact h.alone t' t'' x x' hold hold' hsame
  · obtain ⟨-, hnew⟩ | ⟨-, hold⟩ := opened_update ht
    · cases hnew
      cases hx
      exact ⟨heard, next, hi⟩
    · exact h.linked t' x j hold hx

omit [DecidableEq ι] in
/-- An insert that nobody awaits is rolled back. -/
theorem Site.Exact.abort (h : σ.Exact) (t : τ) : Site.Exact { σ with inserts := Function.update σ.inserts t none } := by
  have hold : ∀ {t' x}, Function.update σ.inserts t none t' = some x → σ.inserts t' = some x := by
    intro t' x ht
    obtain ⟨-, hnew⟩ | ⟨-, hold⟩ := opened_update ht
    · cases hnew
    · exact hold
  exact ⟨h.keys, fun t' x ht => h.inserting t' x (hold ht),
    fun t' t'' x x' ht ht' hsame => h.alone t' t'' x x' (hold ht) (hold ht') hsame,
    fun t' x j ht hx => h.linked t' x j (hold ht) hx, h.booked, h.heard, h.once, h.counted, h.due⟩

omit [DecidableEq ι] [DecidableEq τ] in
theorem Site.mem_ids_append {ledger : List StorageOpEntry} {entry : StorageOpEntry} {id : IntentId} :
    id ∈ (ledger ++ [entry]).map (·.intentId) ↔ id ∈ ledger.map (·.intentId) ∨ id = entry.intentId := by
  simp only [List.map_append, List.map_cons, List.map_nil, List.mem_append, List.mem_singleton]

omit [DecidableEq ι] in
/-- An insert commits. -/
theorem Site.Exact.commit (h : σ.Exact) {t : τ} {x : Inserting ι} (ht : σ.inserts t = some x) :
    Site.Exact { σ with ledger := σ.ledger ++ [x.entry], inserts := Function.update σ.inserts t none } := by
  have hgrows : ∀ {id}, id ∈ σ.ids → id ∈ (σ.ledger ++ [x.entry]).map (·.intentId) :=
    fun hid => Site.mem_ids_append.mpr (Or.inl hid)
  have habort := h.abort t
  refine ⟨?_, fun t' y ht' hmem => ?_, habort.alone, habort.linked, h.booked,
    fun j s hj entry inserted hmem => hgrows (h.heard j s hj entry inserted hmem), h.once,
    fun id hid => hgrows (h.counted id hid), h.due⟩
  · show ((σ.ledger ++ [x.entry]).map (·.intentId)).Nodup
    rw [List.map_append]
    refine List.Nodup.append h.keys (List.nodup_singleton _) fun id hid hlast => ?_
    obtain rfl := List.mem_singleton.mp hlast
    exact h.inserting t x ht hid
  · obtain ⟨-, hnew⟩ | ⟨hne, hold⟩ := opened_update ht'
    · cases hnew
    · obtain hbefore | hsame := Site.mem_ids_append.mp hmem
      · exact h.inserting t' y hold hbefore
      · exact hne (h.alone t' t y x hold ht hsame)

/-- The writer of an insert that committed is told so. -/
theorem Site.Exact.commit_told (h : σ.Exact) {entry : StorageOpEntry}
    {next : Except Unit (LedgerCall.record entry).Answer → Writing Unit} {t : τ}
    (ht : σ.inserts t = some ⟨entry, some i⟩) (hi : σ.writers i = some ⟨heard, .await (.record entry) next⟩) :
    (Site.tell { σ with ledger := σ.ledger ++ [entry], inserts := Function.update σ.inserts t none } i heard next
      (.ok true)).Exact := by
  have hcommit := h.commit ht
  have hbooked := h.booked i _ hi
  have hfresh : entry.intentId ∉ σ.ids := h.inserting t _ ht
  -- a writer that counts, counts an entry that was there before
  have hdue : ∀ {j heard' entry' next'},
      Function.update σ.writers i (some ⟨heard ++ [⟨.record entry, .ok true⟩], next (.ok true)⟩) j =
        some ⟨heard', .await (.recordLedgerOp entry') next'⟩ →
      j = i ∧ entry' = entry ∨ j ≠ i ∧ σ.writers j = some ⟨heard', .await (.recordLedgerOp entry') next'⟩ := by
    intro j heard' entry' next' hj
    obtain ⟨rfl, hnew⟩ | hold := opened_update hj
    · have hnow := hbooked.2 (.ok true)
      rw [(Session.mk.inj (Option.some.inj hnew)).2] at hnow
      have hlast := Booked.last hnow.1
      cases hlast
      exact Or.inl ⟨rfl, rfl⟩
    · exact Or.inr hold
  refine ⟨hcommit.keys, hcommit.inserting, hcommit.alone, fun t' x j ht' hx => ?_, fun j s hj => ?_,
    fun j s hj entry' inserted hmem => ?_, h.once, hcommit.counted, fun j heard' entry' next' hj => ⟨?_, ?_⟩⟩
  · have hne : j ≠ i := by
      rintro rfl
      obtain ⟨-, hnew⟩ | ⟨htne, hold⟩ := opened_update ht'
      · cases hnew
      -- two inserts of one writer would be of one intent
      obtain ⟨heard', next', hj⟩ := h.linked t' x j hold hx
      rw [hi] at hj
      cases hj
      exact htne (h.alone t' t x _ hold ht rfl)
    obtain ⟨heard', next', hj⟩ := hcommit.linked t' x j ht' hx
    exact ⟨heard', next', (Function.update_of_ne hne ..).trans hj⟩
  · obtain ⟨-, hnew⟩ | ⟨-, hold⟩ := opened_update hj
    · cases hnew
      exact hbooked.2 _
    · exact h.booked j s hold
  · obtain ⟨-, hnew⟩ | ⟨-, hold⟩ := opened_update hj
    · cases hnew
      obtain hbefore | hlast := List.mem_append.mp hmem
      · exact hcommit.heard i _ hi entry' inserted hbefore
      · cases List.mem_singleton.mp hlast
        exact Site.mem_ids_append.mpr (Or.inr rfl)
    · exact hcommit.heard j s hold entry' inserted hmem
  · obtain ⟨rfl, rfl⟩ | ⟨-, hold⟩ := hdue hj
    · exact fun hmem => hfresh (h.counted _ hmem)
    · exact (h.due j heard' entry' next' hold).1
  · intro k heard'' entry'' next'' hk hsame
    obtain ⟨rfl, rfl⟩ | ⟨-, hold⟩ := hdue hj
    · obtain ⟨rfl, -⟩ | ⟨-, hold'⟩ := hdue hk
      · rfl
      · exact absurd (hsame ▸ h.due_mem hold') hfresh
    · obtain ⟨rfl, rfl⟩ | ⟨-, hold'⟩ := hdue hk
      · exact absurd (hsame ▸ h.due_mem hold) hfresh
      · exact (h.due j heard' entry' next' hold).2 k heard'' entry'' next'' hold' hsame

omit [DecidableEq τ] in
/-- A writer counts an entry that was not counted before. -/
theorem Site.Exact.count (h : σ.Exact) {entry : StorageOpEntry}
    {next : Except Unit (LedgerCall.recordLedgerOp entry).Answer → Writing Unit}
    (hi : σ.writers i = some ⟨heard, .await (.recordLedgerOp entry) next⟩) :
    (Site.tell { σ with counted := σ.counted ++ [entry.intentId] } i heard next (.ok ())).Exact := by
  obtain ⟨hfresh, honly⟩ := h.due i heard entry next hi
  have hunlinked : σ.Unlinked i := by
    intro t x ht hx
    obtain ⟨heard', next', hawait⟩ := h.linked t x i ht hx
    rw [hi] at hawait
    cases hawait
  have htold := h.tell hi hunlinked (.ok ()) fun entry' inserted hsame => by cases hsame
  refine ⟨h.keys, h.inserting, h.alone, htold.linked, htold.booked, htold.heard, ?_, fun id hid => ?_,
    fun j heard' entry' next' hj => ⟨fun hmem => ?_, (htold.due j heard' entry' next' hj).2⟩⟩
  · refine List.Nodup.append h.once (List.nodup_singleton _) fun id hid hlast => ?_
    obtain rfl := List.mem_singleton.mp hlast
    exact hfresh hid
  · obtain hold | hnew := List.mem_append.mp hid
    · exact h.counted id hold
    · obtain rfl := List.mem_singleton.mp hnew
      exact h.due_mem hi
  · obtain hold | hnew := List.mem_append.mp hmem
    · exact (htold.due j heard' entry' next' hj).1 hold
    · have hsame := List.mem_singleton.mp hnew
      obtain ⟨-, hlast⟩ | ⟨hne, hold⟩ := opened_update hj
      · -- it has counted, and goes on with something else
        have hnow := (h.booked i _ hi).2 (.ok ())
        rw [(Session.mk.inj (Option.some.inj hlast)).2] at hnow
        cases Booked.last hnow.1
      · exact hne (honly j heard' entry' next' hold hsame)

theorem Starts.booked {p : Writing Unit} (hp : Starts network p) : wp Booked (fun _ _ => True) [] p := by
  cases hp with
  | inline completed =>
    rw [wp_bind]
    exact wp_mono (recordCompletedStore_booked completed) (fun _ _ => id) fun h r _ => by cases r <;> trivial
  | backfill limit =>
    rw [wp_bind]
    exact wp_mono (backfill_booked limit) (fun _ _ => id) fun h r _ => by cases r <;> trivial

omit [DecidableEq τ] in
theorem Site.Exact.start (h : σ.Exact) {p : Writing Unit} (hp : Starts network p) (hi : σ.writers i = none) :
    Site.Exact { σ with writers := Function.update σ.writers i (some ⟨[], p⟩) } := by
  have hkept : ∀ {j heard' entry' next'}, Function.update σ.writers i (some ⟨[], p⟩) j =
      some ⟨heard', .await (.recordLedgerOp entry') next'⟩ →
      σ.writers j = some ⟨heard', .await (.recordLedgerOp entry') next'⟩ := by
    intro j heard' entry' next' hj
    obtain ⟨-, hnew⟩ | ⟨-, hold⟩ := opened_update hj
    · have hnow := hp.booked
      rw [(Session.mk.inj (Option.some.inj hnew)).2] at hnow
      obtain ⟨before, hheard⟩ := hnow.1
      simp at hheard
    · exact hold
  refine ⟨h.keys, h.inserting, h.alone, fun t x j ht hx => ?_, fun j s hj => ?_, fun j s hj entry inserted hmem => ?_,
    h.once, h.counted, fun j heard' entry' next' hj => ?_⟩
  · obtain ⟨heard', next', hj⟩ := h.linked t x j ht hx
    have hne : j ≠ i := by
      rintro rfl
      rw [hi] at hj
      cases hj
    exact ⟨heard', next', (Function.update_of_ne hne ..).trans hj⟩
  · obtain ⟨-, hnew⟩ | ⟨-, hold⟩ := opened_update hj
    · cases hnew
      exact hp.booked
    · exact h.booked j s hold
  · obtain ⟨-, hnew⟩ | ⟨-, hold⟩ := opened_update hj
    · cases hnew
      exact absurd hmem List.not_mem_nil
    · exact h.heard j s hold entry inserted hmem
  · obtain ⟨hfresh, honly⟩ := h.due j heard' entry' next' (hkept hj)
    exact ⟨hfresh, fun k heard'' entry'' next'' hk => honly k heard'' entry'' next'' (hkept hk)⟩

omit [DecidableEq τ] in
theorem Site.Exact.crash (h : σ.Exact) (i : ι) :
    Site.Exact { σ.unlink i with writers := Function.update σ.writers i none } := by
  have hunlink := h.unlink i
  have hold : ∀ {j s}, Function.update σ.writers i none j = some s → σ.writers j = some s := by
    intro j s hj
    obtain ⟨-, hnew⟩ | ⟨-, hold⟩ := opened_update hj
    · cases hnew
    · exact hold
  refine ⟨h.keys, hunlink.inserting, hunlink.alone, fun t x j ht hx => ?_, fun j s hj => h.booked j s (hold hj),
    fun j s hj => h.heard j s (hold hj), h.once, h.counted, fun j heard' entry' next' hj => ?_⟩
  · have hne : j ≠ i := by
      rintro rfl
      exact σ.unlink_unlinked j t x ht hx
    obtain ⟨heard', next', hj⟩ := hunlink.linked t x j ht hx
    exact ⟨heard', next', (Function.update_of_ne hne ..).trans hj⟩
  · obtain ⟨hfresh, honly⟩ := h.due j heard' entry' next' (hold hj)
    exact ⟨hfresh, fun k heard'' entry'' next'' hk => honly k heard'' entry'' next'' (hold hk)⟩

omit [DecidableEq ι] [DecidableEq τ] in
/-- A call that is no insert is awaited by a writer without one. -/
theorem Site.Exact.unlinked (h : σ.Exact) (hi : σ.writers i = some ⟨heard, .await c next⟩)
    (hc : ∀ entry, c ≠ .record entry) : σ.Unlinked i := by
  intro t x ht hx
  obtain ⟨heard', next', hawait⟩ := h.linked t x i ht hx
  rw [hi] at hawait
  have hcall := (Session.mk.inj (Option.some.inj hawait)).2
  injection hcall with hcall
  exact hc _ hcall

theorem Site.Step.exact (hstep : Site.Step network σ σ') (h : σ.Exact) : σ'.Exact := by
  cases hstep with
  | start hp hi => exact h.start hp hi
  | now now hi => exact h.tell hi (h.unlinked hi fun _ => LedgerCall.noConfusion) _ fun _ _ hsame => by cases hsame
  | insert t hi hunlinked ht hfree => exact h.insert hi hfree
  | conflict hi hunlinked hthere =>
    refine h.tell hi hunlinked _ fun entry inserted hsame => ?_
    cases hsame
    exact ⟨rfl, hthere⟩
  | commit t ht hi => exact h.commit_told ht hi
  | commitUnheard t ht => exact h.commit ht
  | abort t ht => exact h.abort t
  | @fail i heard c next hi =>
    exact (h.unlink i).tell hi (σ.unlink_unlinked i) _ fun entry inserted hsame => by cases hsame
  | count hi => exact h.count hi
  | mark t r hi ht =>
    have htold := h.tell hi (h.unlinked hi fun _ => LedgerCall.noConfusion) r fun _ _ hsame => by cases hsame
    exact ⟨htold.keys, htold.inserting, htold.alone, htold.linked, htold.booked, htold.heard, htold.once, htold.counted,
      htold.due⟩
  | pending rows hi hrows =>
    exact h.tell hi (h.unlinked hi fun _ => LedgerCall.noConfusion) _ fun _ _ hsame => by cases hsame
  | commitment c hi =>
    exact h.tell hi (h.unlinked hi fun _ => LedgerCall.noConfusion) _ fun _ _ hsame => by cases hsame
  | crash i => exact h.crash i
  | table h' => exact ⟨h.keys, h.inserting, h.alone, h.linked, h.booked, h.heard, h.once, h.counted, h.due⟩

/-! ## The staged rows -/

/-- The statements that may be under way: rows are marked as ledgered for these intents alone. -/
def Known (ids : List IntentId) : Set (Statement IntentId Row) :=
  {s | ∃ op : Op, s = op.statement ∧ ∀ id, op = .markLedgered id → id ∈ ids}

theorem Known.mono {ids ids' : List IntentId} (h : ids ⊆ ids') : Known ids ⊆ Known ids' := by
  rintro s ⟨op, hop, hmarks⟩
  exact ⟨op, hop, fun id hid => h (hmarks id hid)⟩

theorem others_known (ids : List IntentId) : others ⊆ Known ids := by
  rintro s ⟨op, hop, hother⟩
  exact ⟨op, hop, fun id hid => absurd hid (hother id)⟩

/-- A row is marked as ledgered when it was before, or by the statement that marks it. -/
theorem ledgered_write {op : Op} {rows : Rows} {k : IntentId} {latest : Option Row} {r' : Row}
    (h : op.statement.write rows k latest = some (some r')) (hledgered : r'.ledgered = true) :
    (∃ r, latest = some r ∧ r.ledgered = true) ∨ op = .markLedgered k := by
  cases op with
  | markLedgered id =>
    obtain ⟨rfl, -⟩ := updateRow_some.mp h
    exact Or.inr rfl
  | upsertBytes | markReceived =>
    obtain ⟨-, ⟨-, hv⟩ | ⟨r, hr, -, hv⟩⟩ := upsert_some.mp h
    · cases hv
      cases hledgered
    · cases hv
      exact Or.inl ⟨r, hr, hledgered⟩
  | persistUpload | persistStore | markReturned | freeBytes | markDone | markDead | reschedule | rescheduleByteRecovery =>
    obtain ⟨-, r, hr, -, hv⟩ := updateRow_some.mp h
    cases hv
    exact Or.inl ⟨r, hr, hledgered⟩
  | drainDue | expireDue | expireUnreceived =>
    obtain ⟨r, hr, -, hv⟩ := rewrite_some.mp h
    cases hv
    exact Or.inl ⟨r, hr, hledgered⟩
  | purgeTerminal =>
    obtain ⟨r, -, -, hv⟩ := purge_some.mp h
    cases hv

/-- The row of a completed store is deleted only when it is marked. -/
theorem deleted_write {op : Op} {rows : Rows} {k : IntentId} {r : Row}
    (h : op.statement.write rows k (some r) = some none) (hstored : r.storeDigest ≠ none) : r.ledgered = true := by
  cases op with
  | purgeTerminal cutoff =>
    obtain ⟨r', hr, hpurge, -⟩ := purge_some.mp h
    cases hr
    simp only [purgeable, Bool.and_eq_true, Bool.or_eq_true, Option.isNone_iff_eq_none] at hpurge
    exact hpurge.2.resolve_left hstored
  | upsertBytes | markReceived =>
    obtain ⟨-, ⟨-, hv⟩ | ⟨r, -, -, hv⟩⟩ := upsert_some.mp h
    · cases hv
    · cases hv
  | persistUpload | persistStore | markLedgered | markReturned | freeBytes | markDone | markDead | reschedule |
    rescheduleByteRecovery =>
    obtain ⟨-, r, -, -, hv⟩ := updateRow_some.mp h
    cases hv
  | drainDue | expireDue | expireUnreceived =>
    obtain ⟨r, -, -, hv⟩ := rewrite_some.mp h
    cases hv

/-- What holds of the staged rows: those that are marked, or are being marked, have their entry. -/
structure Site.Marked (σ : Site ι τ) : Prop where
  sound : Sound (Known σ.ids) σ.staged
  ledgered : ∀ id r, σ.staged.rows id = some r → r.ledgered = true → id ∈ σ.ids

omit [DecidableEq ι] in
/-- A step of the staged store. -/
theorem Site.Marked.table (h : σ.Marked) {staged' : Database τ IntentId Row}
    (hstep : ReadCommitted.Step (Known σ.ids) σ.staged staged') : Site.Marked { σ with staged := staged' } where
  sound := hstep.sound h.sound
  ledgered id r' hr' hledgered := by
    obtain hsame | ⟨s, ⟨op, rfl, hmarks⟩, snapshot, hw⟩ := hstep.rows_cases h.sound id
    · exact h.ledgered id r' (hsame ▸ hr') hledgered
    · rw [show staged'.rows id = some r' from hr'] at hw
      obtain ⟨r, hr, hold⟩ | rfl := ledgered_write hw hledgered
      · exact h.ledgered id r hr hold
      · exact hmarks id rfl

omit [DecidableEq ι] [DecidableEq τ] in
theorem Site.Marked.grow (h : σ.Marked) (entry : StorageOpEntry) :
    Site.Marked { σ with ledger := σ.ledger ++ [entry] } where
  sound := h.sound.mono (Known.mono fun _ hid => Site.mem_ids_append.mpr (Or.inl hid))
  ledgered id r hr hledgered := Site.mem_ids_append.mpr (Or.inl (h.ledgered id r hr hledgered))

theorem Site.Step.marked (hstep : Site.Step network σ σ') (hexact : σ.Exact) (h : σ.Marked) : σ'.Marked := by
  cases hstep with
  | start | now | insert | conflict | abort | fail | count | pending | commitment | crash => exact ⟨h.sound, h.ledgered⟩
  | @commit i heard entry next t ht hi => exact ⟨(h.grow entry).sound, (h.grow entry).ledgered⟩
  | @commitUnheard entry t ht => exact ⟨(h.grow entry).sound, (h.grow entry).ledgered⟩
  | @mark i heard id next t r hi ht =>
    -- the writer was told of an insert of the intent
    obtain ⟨⟨entry, inserted, hmem, rfl⟩, -⟩ := hexact.booked i _ hi
    have hknown : (Op.markLedgered entry.intentId).statement ∈ Known σ.ids := by
      refine ⟨_, rfl, fun id hid => ?_⟩
      cases hid
      exact hexact.heard i _ hi entry inserted hmem
    have hstart := h.table (.start _ hknown ht)
    exact ⟨hstart.sound, hstart.ledgered⟩
  | table h' => exact h.table (h'.mono (others_known _))

/-- A step that deletes the row of a completed store finds its entry in the ledger. -/
theorem Site.Step.deleted (hstep : Site.Step network σ σ') (h : σ.Marked) {id : IntentId} {r : Row}
    (hr : σ.staged.rows id = some r) (hstored : r.storeDigest ≠ none) (hgone : σ'.staged.rows id = none) :
    id ∈ σ.ids := by
  have hkept : ∀ {staged' : Database τ IntentId Row}, staged'.rows id = none → staged'.rows = σ.staged.rows →
      id ∈ σ.ids := by
    intro staged' hnone hsame
    rw [hsame, hr] at hnone
    cases hnone
  cases hstep with
  | table h' =>
    obtain hsame | ⟨s, ⟨op, rfl, -⟩, snapshot, hw⟩ := (h'.mono (others_known σ.ids)).rows_cases h.sound id
    · rw [show _ = none from hgone, hr] at hsame
      cases hsame
    · rw [show _ = none from hgone, hr] at hw
      exact h.ledgered id r hr (deleted_write hw hstored)
  | _ => exact hkept hgone rfl

/-! ## Runs -/

omit [DecidableEq ι] [DecidableEq τ] in
theorem Site.Exact.empty : (Site.empty : Site ι τ).Exact where
  keys := List.nodup_nil
  inserting t x ht := by cases ht
  alone t t' x x' ht := by cases ht
  linked t x i ht := by cases ht
  booked i s hi := by cases hi
  heard i s hi := by cases hi
  once := List.nodup_nil
  counted id hid := absurd hid List.not_mem_nil
  due i heard entry next hi := by cases hi

omit [DecidableEq ι] [DecidableEq τ] in
theorem Site.Marked.empty : (Site.empty : Site ι τ).Marked where
  sound := sound_idle fun _ => rfl
  ledgered id r hr := by cases hr

theorem Site.reachable (hrun : Relation.ReflTransGen (Site.Step network) Site.empty σ) : σ.Exact ∧ σ.Marked := by
  induction hrun with
  | refl => exact ⟨.empty, .empty⟩
  | tail _ hstep ih => exact ⟨hstep.exact ih.1, hstep.marked ih.1 ih.2⟩

/-- Whatever fails and whoever runs beside whom, an intent has at most one entry and is counted at most once, and the
row of a completed store is not deleted before its entry is there. -/
theorem ledger_exactly_once (network : String) (σ : Site ι τ)
    (hrun : Relation.ReflTransGen (Site.Step network) Site.empty σ) :
    (∀ id, σ.ids.count id ≤ 1) ∧ (∀ id, σ.counted.count id ≤ 1) ∧
      ∀ σ', Site.Step network σ σ' → ∀ id r, σ.staged.rows id = some r → r.storeDigest ≠ none →
        σ'.staged.rows id = none → id ∈ σ.ids := by
  obtain ⟨hexact, hmarked⟩ := Site.reachable hrun
  refine ⟨fun id => ?_, fun id => ?_, fun σ' hstep id r hr hstored hgone => hstep.deleted hmarked hr hstored hgone⟩
  · exact List.nodup_iff_count_le_one.mp hexact.keys id
  · exact List.nodup_iff_count_le_one.mp hexact.once id

/-! ## Two writers, and the reaper -/

/-- The staged store goes on, between the writers' steps. -/
theorem Site.tables {staged' : Database τ IntentId Row}
    (h : Relation.ReflTransGen (ReadCommitted.Step others) σ.staged staged') :
    Relation.ReflTransGen (Site.Step network) σ { σ with staged := staged' } := by
  induction h with
  | refl => exact .refl
  | tail _ hstep ih => exact ih.tail (.table hstep)

/-- A completed store, of which the staged row was settled and not yet ledgered. -/
def exampleCompleted : CompletedStore where
  row := ⟨done 40 (stored "0xd16e57" 30 exampleReceived), "0x01"⟩
  sender := some "0xab"

/-- The staged store at rest, with one row or none. -/
def exampleRows (r : Option Row) : Database Nat IntentId Row :=
  ⟨Function.update (fun _ => none) "0x01" r, fun _ => none⟩

theorem exampleRows_row (r : Option Row) : (exampleRows r).rows "0x01" = r := by
  simp only [exampleRows, Function.update_self]

/-- A statement that runs alone on the row. -/
theorem exampleRows_alone (op : Op) (hop : ∀ id, op ≠ .markLedgered id) {r v : Option Row}
    (htarget : op.statement.targets (exampleRows r).rows [] "0x01")
    (hwrite : op.statement.write (exampleRows r).rows "0x01" r = some v) :
    Relation.ReflTransGen (ReadCommitted.Step others) (exampleRows r) (exampleRows v) := by
  have hlatest : op.statement.write (exampleRows r).rows "0x01" ((exampleRows r).rows "0x01") = some v := by
    rwa [exampleRows_row]
  have hrun := ReadCommitted.alone (S := others) (fun _ => rfl) 0 ⟨op, rfl, hop⟩ htarget hlatest
  have hsame : Function.update (exampleRows r).rows "0x01" v = (exampleRows v).rows := Function.update_idem ..
  rwa [hsame] at hrun

theorem exampleRows_present (r : Row) : ∃ r', (exampleRows (some r)).rows "0x01" = some r' ∧ true = true :=
  ⟨r, exampleRows_row _, rfl⟩

/-- The row is received, stored and settled. -/
theorem exampleCompleted_staged :
    Relation.ReflTransGen (ReadCommitted.Step others) emptyStore (exampleRows (some exampleCompleted.row.toRow)) := by
  have hempty : (emptyStore : Database Nat IntentId Row) = exampleRows none :=
    congrArg (Database.mk · _) (Function.update_eq_self "0x01" (fun _ => none)).symm
  have hreceived := exampleRows_alone (.markReceived "0x01" ⟨30101, "0x00", 9000, none, some 1⟩ 10)
    (fun _ => Op.noConfusion) (r := none) ⟨rfl, trivial⟩ (upsert_some.mpr ⟨rfl, Or.inl ⟨rfl, rfl⟩⟩)
  have hstored := exampleRows_alone (.persistStore "0x01" "0xd16e57" 30) (fun _ => Op.noConfusion)
    ⟨rfl, exampleRows_present _⟩ (updateRow_some.mpr ⟨rfl, exampleReceived, rfl, rfl, rfl⟩)
  have hdone := exampleRows_alone (.markDone "0x01" 40) (fun _ => Op.noConfusion) ⟨rfl, exampleRows_present _⟩
    (updateRow_some.mpr ⟨rfl, stored "0xd16e57" 30 exampleReceived, rfl, rfl, rfl⟩)
  rw [hempty]
  exact (hreceived.trans hstored).trans hdone

/-- The row when it is ledgered. -/
def exampleLedgered : Row := { exampleCompleted.row.toRow with ledgered := true }

/-- The inline writer counts and is gone before it marks the row, which a backfill does. -/
theorem exampleCompleted_counted : ∃ σ : Site Nat Nat,
    Relation.ReflTransGen (Site.Step "testnet") Site.empty σ ∧ σ.ids = ["0x01"] ∧ σ.counted = ["0x01"] ∧
      σ.staged = exampleRows (some exampleLedgered) := by
  have hstaged : Relation.ReflTransGen (Site.Step "testnet") (Site.empty : Site Nat Nat) _ :=
    Site.tables exampleCompleted_staged
  have hinline := (hstaged.tail (.start (i := 0) (.inline exampleCompleted) rfl)).tail (.now (i := 0) 50 rfl)
  have hpending : ∀ row ∈ [exampleCompleted.row],
      (exampleRows (some exampleCompleted.row.toRow)).rows row.intentId = some row.toRow ∧
        pendingLedger row.toRow = true := by
    intro row hmem
    obtain rfl := List.mem_singleton.mp hmem
    exact ⟨exampleRows_row _, rfl⟩
  have hasked := (hinline.tail (.start (i := 1) (.backfill 10) rfl)).tail (.pending (i := 1) _ rfl hpending)
  have hbackfill := (hasked.tail (.commitment (i := 1) none rfl)).tail (.now (i := 1) 60 rfl)
  have hidle (e : Option (Inserting Nat)) : ∀ t x,
      Function.update (Function.update (fun _ => none) 0 e) 0 none t = some x → x.writer ≠ some 1 := by
    intro t x ht
    rw [Function.update_idem, Function.update_eq_self] at ht
    cases ht
  -- both are about to insert
  have hinsert := hbackfill.tail (.insert (i := 0) 0 rfl (fun t x ht => by cases ht) rfl
    ⟨List.not_mem_nil, fun t x ht => by cases ht⟩)
  have hcommit := hinsert.tail (.commit (i := 0) 0 rfl rfl)
  have hconflict := hcommit.tail (.conflict (i := 1) rfl (hidle _) (List.mem_singleton_self _))
  have hcount := hconflict.tail (.count (i := 0) rfl)
  have hmark := (hcount.tail (.crash 0)).tail (.mark (i := 1) 0 (.ok ()) rfl rfl)
  have hlatest : (Op.markLedgered "0x01").statement.write (exampleRows (some exampleCompleted.row.toRow)).rows "0x01"
      ((exampleRows (some exampleCompleted.row.toRow)).rows "0x01") = some (some exampleLedgered) :=
    updateRow_some.mpr ⟨rfl, exampleCompleted.row.toRow, exampleRows_row _, rfl, rfl⟩
  have hlock := hmark.tail (.table (lock_alone (fun _ => rfl) ⟨rfl, exampleRows_present _⟩ hlatest))
  have hmarked := hlock.tail (.table (commit_alone fun _ => rfl))
  exact ⟨_, hmarked, rfl, rfl, congrArg (Database.mk · _) (Function.update_idem ..)⟩

/-- The reaper deletes the row in the end. -/
theorem ledger_exactly_once_one : ∃ σ σ' : Site Nat Nat, Site.Step "testnet" σ σ' ∧
    σ.staged.rows "0x01" = some exampleLedgered ∧ σ'.staged.rows "0x01" = none ∧ "0x01" ∈ σ.ids ∧
    σ.counted.count "0x01" ≤ 1 := by
  obtain ⟨σ, hrun, -, -, hstaged⟩ := exampleCompleted_counted
  let purge := (Op.purgeTerminal 100).statement
  let table := exampleRows (some exampleLedgered)
  have hrow : table.rows "0x01" = some exampleLedgered := exampleRows_row _
  have hdeletes : purge.write table.rows "0x01" (table.rows "0x01") = some none :=
    purge_some.mpr ⟨exampleLedgered, hrow, by decide, rfl⟩
  have hstart : Site.Step "testnet" σ { σ with staged := table.start 0 purge } :=
    .table (hstaged ▸ .start _ ⟨.purgeTerminal 100, rfl, fun _ => Op.noConfusion⟩ rfl)
  have hlock : Site.Step "testnet" { σ with staged := table.start 0 purge }
      { σ with staged := table.holding 0 purge "0x01" none } :=
    .table (lock_alone (fun _ => rfl) ⟨exampleLedgered, hrow, by decide⟩ hdeletes)
  have hdelete : Site.Step "testnet" { σ with staged := table.holding 0 purge "0x01" none }
      { σ with staged := ⟨Function.update table.rows "0x01" none, table.opened⟩ } :=
    .table (commit_alone fun _ => rfl)
  have hexact := ledger_exactly_once "testnet" _ ((hrun.tail hstart).tail hlock)
  have hgone : Function.update table.rows "0x01" none "0x01" = none := Function.update_self ..
  exact ⟨_, _, hdelete, hrow, hgone, hexact.2.2 _ hdelete "0x01" exampleLedgered hrow (by decide) hgone,
    hexact.2.1 "0x01"⟩

end Bosphor.Relayer.StorageOpLedger

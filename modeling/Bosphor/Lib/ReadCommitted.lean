import Mathlib.Data.Set.Finite.Basic
import Mathlib.Logic.Function.Basic
import Mathlib.Logic.Relation

/-!
# Statements under READ COMMITTED

A database of rows under keys, and statements that run side by side, each a
transaction of its own. A statement takes a snapshot when it begins and goes
for rows it finds there; it locks one row after another, looks at the latest
committed version of each, and leaves the row alone when that version no longer
qualifies. Its own versions are seen by the others when it commits.

* `Step.rows_cases`: what a commit leaves of a row was written by its statement
  from the version just before the commit.
* `Step.keeps`, `run_keeps`: what every statement keeps of a row, every
  interleaving keeps, as long as the row is not deleted.
* `Sound.written`: a statement returns rows that qualify when it commits.
-/

namespace ReadCommitted

/-- A statement over rows `α` under keys `κ`. -/
structure Statement (κ α : Type) where
  /-- Whether it goes for the row at a key, given its snapshot and the keys it has locked. -/
  targets : (κ → Option α) → List κ → κ → Prop
  /-- What it makes of the latest version at a key; `none` leaves the row as it is. -/
  write : (κ → Option α) → κ → Option α → Option (Option α)

/-- A statement under way. -/
structure Open (κ α : Type) where
  statement : Statement κ α
  snapshot : κ → Option α
  locked : List κ
  /-- Its versions of the rows it locked, which nobody else sees yet. -/
  written : κ → Option (Option α)

/-- The committed rows, and the statements under way by session. -/
structure Database (τ κ α : Type) where
  rows : κ → Option α
  opened : τ → Option (Open κ α)

variable {τ κ α : Type}

/-- No statement under way has a version of the row at `k`. -/
def Database.Unlocked (db : Database τ κ α) (k : κ) : Prop := ∀ t o, db.opened t = some o → o.written k = none

/-- A statement after another session's entry was replaced was there before. -/
theorem opened_update {β : Type} [DecidableEq τ] {opened : τ → Option β} {t t' : τ} {e : Option β} {o : β}
    (h : Function.update opened t e t' = some o) :
    (t' = t ∧ e = some o) ∨ (t' ≠ t ∧ opened t' = some o) := by
  by_cases ht : t' = t
  · subst ht
    rw [Function.update_self] at h
    exact Or.inl ⟨rfl, h⟩
  · rw [Function.update_of_ne ht] at h
    exact Or.inr ⟨ht, h⟩

/-- The statement with its version `v` of the row at `k`. -/
def Open.lock [DecidableEq κ] (o : Open κ α) (k : κ) (v : Option α) : Open κ α :=
  { o with locked := o.locked ++ [k], written := Function.update o.written k (some v) }

theorem Open.lock_written_self [DecidableEq κ] (o : Open κ α) (k : κ) (v : Option α) :
    (o.lock k v).written k = some v := Function.update_self ..

theorem Open.lock_written_of_ne [DecidableEq κ] (o : Open κ α) {i k : κ} (v : Option α) (h : i ≠ k) :
    (o.lock k v).written i = o.written i := Function.update_of_ne h ..

variable [DecidableEq τ] [DecidableEq κ]

/-- `t` starts a statement: this takes its snapshot. -/
def Database.start (db : Database τ κ α) (t : τ) (s : Statement κ α) : Database τ κ α :=
  { db with opened := Function.update db.opened t (some ⟨s, db.rows, [], fun _ => none⟩) }

/-- `t` locks the row at `k` and makes `v` of it. -/
def Database.lock (db : Database τ κ α) (t : τ) (o : Open κ α) (k : κ) (v : Option α) : Database τ κ α :=
  { db with opened := Function.update db.opened t (some (o.lock k v)) }

/-- `t` commits, and its versions become the rows. -/
def Database.commit (db : Database τ κ α) (t : τ) (o : Open κ α) : Database τ κ α :=
  { rows := fun k => (o.written k).getD (db.rows k), opened := Function.update db.opened t none }

/-- `t` is rolled back: an error, or its connection lost. -/
def Database.rollback (db : Database τ κ α) (t : τ) : Database τ κ α :=
  { db with opened := Function.update db.opened t none }

omit [DecidableEq κ] in
theorem Database.start_opened (db : Database τ κ α) (t : τ) (s : Statement κ α) :
    (db.start t s).opened t = some ⟨s, db.rows, [], fun _ => none⟩ := Function.update_self ..

theorem Database.lock_opened (db : Database τ κ α) (t : τ) (o : Open κ α) (k : κ) (v : Option α) :
    (db.lock t o k v).opened t = some (o.lock k v) := Function.update_self ..

omit [DecidableEq κ] in
theorem Database.commit_opened (db : Database τ κ α) (t : τ) (o : Open κ α) : (db.commit t o).opened t = none :=
  Function.update_self ..

omit [DecidableEq κ] in
theorem Database.rollback_opened (db : Database τ κ α) (t : τ) : (db.rollback t).opened t = none :=
  Function.update_self ..

/-- One step of the statements `S`. A row that another statement has locked is waited for, or skipped. -/
inductive Step (S : Set (Statement κ α)) : Database τ κ α → Database τ κ α → Prop
  | start {db t} (s : Statement κ α) (hs : s ∈ S) (hidle : db.opened t = none) : Step S db (db.start t s)
  | lock {db t} (o : Open κ α) (k : κ) (v : Option α) (ho : db.opened t = some o) (hfree : db.Unlocked k)
      (htarget : o.statement.targets o.snapshot o.locked k)
      (hwrite : o.statement.write o.snapshot k (db.rows k) = some v) : Step S db (db.lock t o k v)
  | commit {db t} (o : Open κ α) (ho : db.opened t = some o) : Step S db (db.commit t o)
  | rollback {db t} (o : Open κ α) (ho : db.opened t = some o) : Step S db (db.rollback t)

/-- What holds of the statements under way: a row is locked by one of them at most, and its new version is made of
the row as it is. -/
structure Sound (S : Set (Statement κ α)) (db : Database τ κ α) : Prop where
  known : ∀ t o, db.opened t = some o → o.statement ∈ S
  written : ∀ t o, db.opened t = some o → ∀ k v, o.written k = some v →
    o.statement.write o.snapshot k (db.rows k) = some v
  exclusive : ∀ t o k v, db.opened t = some o → o.written k = some v → ∀ t' o', db.opened t' = some o' →
    t' ≠ t → o'.written k = none

variable {S : Set (Statement κ α)} {db db' : Database τ κ α}

omit [DecidableEq τ] [DecidableEq κ] in
/-- With nothing under way there is nothing to ask. -/
theorem sound_idle (h : ∀ t, db.opened t = none) : Sound S db where
  known t o ho := by rw [h t] at ho; cases ho
  written t o ho := by rw [h t] at ho; cases ho
  exclusive t o _ _ ho := by rw [h t] at ho; cases ho

omit [DecidableEq κ] in
theorem Sound.start (h : Sound S db) {t : τ} {s : Statement κ α} (hs : s ∈ S) : Sound S (db.start t s) where
  known t' o ho := by
    obtain ⟨-, hnew⟩ | ⟨-, hold⟩ := opened_update ho
    · cases hnew
      exact hs
    · exact h.known t' o hold
  written t' o ho k v hv := by
    obtain ⟨-, hnew⟩ | ⟨-, hold⟩ := opened_update ho
    · cases hnew
      cases hv
    · exact h.written t' o hold k v hv
  exclusive t' o k v ho hv t'' o' ho' hne := by
    obtain ⟨-, hnew⟩ | ⟨-, hold⟩ := opened_update ho
    · cases hnew
      cases hv
    · obtain ⟨-, hnew'⟩ | ⟨-, hold'⟩ := opened_update ho'
      · cases hnew'
        rfl
      · exact h.exclusive t' o k v hold hv t'' o' hold' hne

theorem Sound.lock (h : Sound S db) {t : τ} {o : Open κ α} {k : κ} {v : Option α} (ho : db.opened t = some o)
    (hfree : db.Unlocked k) (hwrite : o.statement.write o.snapshot k (db.rows k) = some v) :
    Sound S (db.lock t o k v) where
  known t' o' ho' := by
    obtain ⟨-, hnew⟩ | ⟨-, hold⟩ := opened_update ho'
    · cases hnew
      exact h.known t o ho
    · exact h.known t' o' hold
  written t' o' ho' i w hw := by
    obtain ⟨-, hnew⟩ | ⟨-, hold⟩ := opened_update ho'
    · cases hnew
      by_cases hi : i = k
      · subst hi
        rw [o.lock_written_self] at hw
        cases hw
        exact hwrite
      · rw [o.lock_written_of_ne v hi] at hw
        exact h.written t o ho i w hw
    · exact h.written t' o' hold i w hw
  exclusive t' o' i w ho' hw t'' o'' ho'' hne := by
    obtain ⟨rfl, hnew⟩ | ⟨ht', hold⟩ := opened_update ho'
    · cases hnew
      obtain ⟨rfl, -⟩ | ⟨-, hold''⟩ := opened_update ho''
      · exact absurd rfl hne
      · by_cases hi : i = k
        · subst hi
          exact hfree t'' o'' hold''
        · rw [o.lock_written_of_ne v hi] at hw
          exact h.exclusive t' o i w ho hw t'' o'' hold'' hne
    · obtain ⟨rfl, hnew''⟩ | ⟨-, hold''⟩ := opened_update ho''
      · cases hnew''
        -- the row just locked was free, so the other statement has no version of it
        have hi : i ≠ k := by
          rintro rfl
          rw [hfree t' o' hold] at hw
          cases hw
        rw [o.lock_written_of_ne v hi]
        exact h.exclusive t' o' i w hold hw t'' o ho hne
      · exact h.exclusive t' o' i w hold hw t'' o'' hold'' hne

omit [DecidableEq κ] in
theorem Sound.commit (h : Sound S db) {t : τ} {o : Open κ α} (ho : db.opened t = some o) :
    Sound S (db.commit t o) where
  known t' o' ho' := by
    obtain ⟨-, hnew⟩ | ⟨-, hold⟩ := opened_update ho'
    · cases hnew
    · exact h.known t' o' hold
  written t' o' ho' k v hv := by
    obtain ⟨-, hnew⟩ | ⟨hne, hold⟩ := opened_update ho'
    · cases hnew
    · -- a row that the other statement holds is not among those just committed
      have hkeep : o.written k = none := h.exclusive t' o' k v hold hv t o ho (Ne.symm hne)
      show o'.statement.write o'.snapshot k ((o.written k).getD (db.rows k)) = some v
      rw [hkeep]
      exact h.written t' o' hold k v hv
  exclusive t' o' k v ho' hv t'' o'' ho'' hne := by
    obtain ⟨-, hnew⟩ | ⟨-, hold⟩ := opened_update ho'
    · cases hnew
    · obtain ⟨-, hnew''⟩ | ⟨-, hold''⟩ := opened_update ho''
      · cases hnew''
      · exact h.exclusive t' o' k v hold hv t'' o'' hold'' hne

omit [DecidableEq κ] in
theorem Sound.rollback (h : Sound S db) (t : τ) : Sound S (db.rollback t) where
  known t' o' ho' := by
    obtain ⟨-, hnew⟩ | ⟨-, hold⟩ := opened_update ho'
    · cases hnew
    · exact h.known t' o' hold
  written t' o' ho' k v hv := by
    obtain ⟨-, hnew⟩ | ⟨-, hold⟩ := opened_update ho'
    · cases hnew
    · exact h.written t' o' hold k v hv
  exclusive t' o' k v ho' hv t'' o'' ho'' hne := by
    obtain ⟨-, hnew⟩ | ⟨-, hold⟩ := opened_update ho'
    · cases hnew
    · obtain ⟨-, hnew''⟩ | ⟨-, hold''⟩ := opened_update ho''
      · cases hnew''
      · exact h.exclusive t' o' k v hold hv t'' o'' hold'' hne

theorem Step.sound (h : Sound S db) (hstep : Step S db db') : Sound S db' := by
  cases hstep with
  | start s hs hidle => exact h.start hs
  | lock o k v ho hfree htarget hwrite => exact h.lock ho hfree hwrite
  | commit o ho => exact h.commit ho
  | rollback o ho => exact h.rollback _

/-- The rows a statement has versions of are finitely many rows it went for. -/
structure Open.Targeted (o : Open κ α) : Prop where
  finite : {k | o.written k ≠ none}.Finite
  went : ∀ k, o.written k ≠ none → ∃ locked, o.statement.targets o.snapshot locked k

omit [DecidableEq τ] [DecidableEq κ] in
theorem Open.targeted_started (s : Statement κ α) (snapshot : κ → Option α) :
    (⟨s, snapshot, [], fun _ => none⟩ : Open κ α).Targeted where
  finite := by
    simp only [ne_eq, not_true_eq_false, Set.ofPred_false]
    exact Set.finite_empty
  went k hk := absurd rfl hk

theorem Open.Targeted.lock {o : Open κ α} (h : o.Targeted) {k : κ} {v : Option α}
    (htarget : o.statement.targets o.snapshot o.locked k) : (o.lock k v).Targeted where
  finite := by
    refine (h.finite.insert k).subset fun i hi => ?_
    by_cases hik : i = k
    · exact Or.inl hik
    · rw [Set.mem_ofPred_eq, o.lock_written_of_ne v hik] at hi
      exact Or.inr hi
  went i hi := by
    by_cases hik : i = k
    · exact ⟨o.locked, hik ▸ htarget⟩
    · rw [o.lock_written_of_ne v hik] at hi
      exact h.went i hi

theorem Step.targeted (h : ∀ t o, db.opened t = some o → o.Targeted) (hstep : Step S db db') (t : τ)
    (o : Open κ α) (ho : db'.opened t = some o) : o.Targeted := by
  cases hstep with
  | start s hs hidle =>
    obtain ⟨-, hnew⟩ | ⟨-, hold⟩ := opened_update ho
    · cases hnew
      exact Open.targeted_started s db.rows
    · exact h t o hold
  | lock o' k v ho' hfree htarget hwrite =>
    obtain ⟨-, hnew⟩ | ⟨-, hold⟩ := opened_update ho
    · cases hnew
      exact (h _ o' ho').lock htarget
    · exact h t o hold
  | commit o' ho' =>
    obtain ⟨-, hnew⟩ | ⟨-, hold⟩ := opened_update ho
    · cases hnew
    · exact h t o hold
  | rollback o' ho' =>
    obtain ⟨-, hnew⟩ | ⟨-, hold⟩ := opened_update ho
    · cases hnew
    · exact h t o hold

/-- A row after a step is the row before it, or what a statement made of it. -/
theorem Step.rows_cases (h : Sound S db) (hstep : Step S db db') (k : κ) :
    db'.rows k = db.rows k ∨ ∃ s ∈ S, ∃ snapshot, s.write snapshot k (db.rows k) = some (db'.rows k) := by
  cases hstep with
  | start s hs hidle => exact Or.inl rfl
  | lock o k v ho hfree htarget hwrite => exact Or.inl rfl
  | rollback o ho => exact Or.inl rfl
  | @commit t o ho =>
    show (o.written k).getD (db.rows k) = db.rows k ∨
      ∃ s ∈ S, ∃ snapshot, s.write snapshot k (db.rows k) = some ((o.written k).getD (db.rows k))
    cases hw : o.written k with
    | none => exact Or.inl rfl
    | some v => exact Or.inr ⟨o.statement, h.known t o ho, o.snapshot, h.written t o ho k v hw⟩

omit [DecidableEq τ] [DecidableEq κ] in
/-- Statements of a larger set. -/
theorem Sound.mono {S' : Set (Statement κ α)} (h : Sound S db) (hS : S ⊆ S') : Sound S' db :=
  ⟨fun t o ho => hS (h.known t o ho), h.written, h.exclusive⟩

theorem Step.mono {S' : Set (Statement κ α)} (hstep : Step S db db') (hS : S ⊆ S') : Step S' db db' := by
  cases hstep with
  | start s hs hidle => exact .start s (hS hs) hidle
  | lock o k v ho hfree htarget hwrite => exact .lock o k v ho hfree htarget hwrite
  | commit o ho => exact .commit o ho
  | rollback o ho => exact .rollback o ho

/-- What every statement keeps of a row, a step keeps of it. -/
theorem Step.keeps {P : Option α → Prop} {k : κ}
    (hS : ∀ s ∈ S, ∀ snapshot r v, P r → s.write snapshot k r = some v → P v) (h : Sound S db)
    (hstep : Step S db db') (hP : P (db.rows k)) : P (db'.rows k) := by
  obtain hsame | ⟨s, hs, snapshot, hw⟩ := hstep.rows_cases h k
  · rw [hsame]
    exact hP
  · exact hS s hs snapshot _ _ hP hw

/-- What every statement keeps of a row, every interleaving keeps of it. -/
theorem run_keeps {P : Option α → Prop} {k : κ}
    (hS : ∀ s ∈ S, ∀ snapshot r v, P r → s.write snapshot k r = some v → P v) (h : Sound S db)
    (hrun : Relation.ReflTransGen (Step S) db db') (hP : P (db.rows k)) : Sound S db' ∧ P (db'.rows k) := by
  induction hrun with
  | refl => exact ⟨h, hP⟩
  | tail _ hstep ih => exact ⟨hstep.sound ih.1, hstep.keeps hS ih.1 ih.2⟩

omit [DecidableEq τ] in
/-- The rows after a statement that wrote one of them. -/
theorem rows_update (rows : κ → Option α) (k : κ) (v : Option α) :
    (fun i => (Function.update (fun _ => none) k (some v) i).getD (rows i)) = Function.update rows k v := by
  funext i
  by_cases hi : i = k
  · subst hi
    simp only [Function.update_self, Option.getD_some]
  · simp only [Function.update_of_ne hi, Option.getD_none]

/-- A statement on one row, with the row locked. -/
def Database.holding (db : Database τ κ α) (t : τ) (s : Statement κ α) (k : κ) (v : Option α) : Database τ κ α :=
  { db with opened := Function.update db.opened t (some (Open.lock ⟨s, db.rows, [], fun _ => none⟩ k v)) }

section

variable {t : τ} {s : Statement κ α} {k : κ} {v : Option α}

/-- A statement that runs alone locks its row, -/
theorem lock_alone (hidle : ∀ t, db.opened t = none) (htarget : s.targets db.rows [] k)
    (hwrite : s.write db.rows k (db.rows k) = some v) : Step S (db.start t s) (db.holding t s k v) := by
  have hfree : (db.start t s).Unlocked k := by
    intro t' o ho
    obtain ⟨-, hnew⟩ | ⟨-, hold⟩ := opened_update ho
    · cases hnew
      rfl
    · rw [hidle t'] at hold
      cases hold
  have hlock := Step.lock (S := S) _ k v (db.start_opened t s) hfree htarget hwrite
  have hholding : (db.start t s).lock t ⟨s, db.rows, [], fun _ => none⟩ k v = db.holding t s k v :=
    congrArg (Database.mk db.rows) (Function.update_idem ..)
  rwa [hholding] at hlock

/-- and commits. -/
theorem commit_alone (hidle : ∀ t, db.opened t = none) :
    Step S (db.holding t s k v) ⟨Function.update db.rows k v, db.opened⟩ := by
  have hcommit : Step S (db.holding t s k v) _ := .commit (t := t) _ (Function.update_self ..)
  have hclosed : ((db.holding t s k v).commit t (Open.lock ⟨s, db.rows, [], fun _ => none⟩ k v)).opened =
      db.opened := by
    show Function.update (Function.update db.opened t _) t none = db.opened
    rw [Function.update_idem, ← hidle t, Function.update_eq_self]
  rw [← hclosed, ← rows_update]
  exact hcommit

end

/-- A statement on one row that runs alone: it starts, locks the row and commits. -/
theorem alone (hidle : ∀ t, db.opened t = none) (t : τ) {s : Statement κ α} (hs : s ∈ S) {k : κ} {v : Option α}
    (htarget : s.targets db.rows [] k) (hwrite : s.write db.rows k (db.rows k) = some v) :
    Relation.ReflTransGen (Step S) db ⟨Function.update db.rows k v, db.opened⟩ :=
  ((Relation.ReflTransGen.single (.start s hs (hidle t))).tail (lock_alone hidle htarget hwrite)).tail
    (commit_alone hidle)

/-- The database with the statements of two sessions under way. -/
def Database.pair (db : Database τ κ α) (t t' : τ) (rows : κ → Option α) (e e' : Option (Open κ α)) : Database τ κ α :=
  ⟨rows, Function.update (Function.update db.opened t e) t' e'⟩

omit [DecidableEq κ] in
theorem Database.pair_left (db : Database τ κ α) {t t' : τ} (ht : t ≠ t') (rows : κ → Option α)
    (e e' : Option (Open κ α)) :
    (db.pair t t' rows e e').opened t = e := by
  show Function.update (Function.update db.opened t e) t' e' t = e
  rw [Function.update_of_ne ht, Function.update_self]

omit [DecidableEq κ] in
theorem Database.pair_right (db : Database τ κ α) (t t' : τ) (rows : κ → Option α) (e e' : Option (Open κ α)) :
    (db.pair t t' rows e e').opened t' = e' := Function.update_self ..

omit [DecidableEq κ] in
theorem Database.pair_set_left {t t' : τ} (ht : t ≠ t') (rows rows' : κ → Option α) (e e' e'' : Option (Open κ α)) :
    (⟨rows', Function.update (db.pair t t' rows e e').opened t e''⟩ : Database τ κ α) = db.pair t t' rows' e'' e' := by
  show Database.mk rows' (Function.update (Function.update (Function.update db.opened t e) t' e') t e'') = _
  rw [Function.update_comm ht.symm, Function.update_idem]
  rfl

omit [DecidableEq κ] in
theorem Database.pair_set_right (t t' : τ) (rows rows' : κ → Option α) (e e' e'' : Option (Open κ α)) :
    (⟨rows', Function.update (db.pair t t' rows e e').opened t' e''⟩ : Database τ κ α) = db.pair t t' rows' e e'' := by
  show Database.mk rows' (Function.update (Function.update (Function.update db.opened t e) t' e') t' e'') = _
  rw [Function.update_idem]
  rfl

omit [DecidableEq κ] in
/-- With nobody else under way, what is under way is one of the two. -/
theorem Database.pair_opened (hidle : ∀ t, db.opened t = none) {t t' t'' : τ} {rows : κ → Option α}
    {e e' : Option (Open κ α)} {o : Open κ α} (ho : (db.pair t t' rows e e').opened t'' = some o) :
    e = some o ∨ e' = some o := by
  obtain ⟨-, hnew⟩ | ⟨-, hold⟩ := opened_update ho
  · exact Or.inr hnew
  · obtain ⟨-, hnew⟩ | ⟨-, hold⟩ := opened_update hold
    · exact Or.inl hnew
    · rw [hidle t''] at hold
      cases hold

omit [DecidableEq κ] in
/-- A row is locked by one of the two or free. -/
theorem Database.pair_unlocked (hidle : ∀ t, db.opened t = none) {t t' : τ} {rows : κ → Option α}
    {e e' : Option (Open κ α)} {k : κ} (he : ∀ o, e = some o → o.written k = none)
    (he' : ∀ o, e' = some o → o.written k = none) : (db.pair t t' rows e e').Unlocked k := by
  intro t'' o ho
  obtain hleft | hright := Database.pair_opened hidle ho
  · exact he o hleft
  · exact he' o hright

omit [DecidableEq κ] in
theorem Database.pair_snapshot (hidle : ∀ t, db.opened t = none) {t t' : τ} {rows rows' : κ → Option α}
    {e e' : Option (Open κ α)} (he : ∀ o, e = some o → o.snapshot = rows)
    (he' : ∀ o, e' = some o → o.snapshot = rows) :
    ∀ t'' o, (db.pair t t' rows' e e').opened t'' = some o → o.snapshot = rows := by
  intro t'' o ho
  obtain hleft | hright := Database.pair_opened hidle ho
  · exact he o hleft
  · exact he' o hright

/-- A step of statements that all started on `rows`, when at most the one that leads to `rows'` has committed. -/
structure Beside (S : Set (Statement κ α)) (rows rows' : κ → Option α) (db db' : Database τ κ α) : Prop where
  step : Step S db db'
  snapshot : ∀ t o, db.opened t = some o → o.snapshot = rows
  rows : db.rows = rows ∨ db.rows = rows'

/-- Two statements on two rows side by side: each works on a snapshot that the other has not written to. -/
theorem side_by_side (hidle : ∀ t, db.opened t = none) (t t' : τ) (ht : t ≠ t') {s s' : Statement κ α} (hs : s ∈ S)
    (hs' : s' ∈ S) {k k' : κ} (hk : k ≠ k') {v v' : Option α} (htarget : s.targets db.rows [] k)
    (htarget' : s'.targets db.rows [] k') (hwrite : s.write db.rows k (db.rows k) = some v)
    (hwrite' : s'.write db.rows k' (db.rows k') = some v') :
    Relation.ReflTransGen (Beside S db.rows (Function.update db.rows k v)) db
      ⟨Function.update (Function.update db.rows k v) k' v', db.opened⟩ := by
  let o : Open κ α := ⟨s, db.rows, [], fun _ => none⟩
  let o' : Open κ α := ⟨s', db.rows, [], fun _ => none⟩
  have hnone : ∀ p : Open κ α, none = some p → p.snapshot = db.rows := fun p hp => nomatch hp
  have hseen : ∀ q : Open κ α, q.snapshot = db.rows → ∀ p, some q = some p → p.snapshot = db.rows := by
    rintro q hq p ⟨⟩
    exact hq
  have hempty : Function.update (Function.update db.opened t none) t' none = db.opened := by
    have hsame : Function.update db.opened t none = db.opened := by rw [← hidle t, Function.update_eq_self]
    rw [hsame, ← hidle t', Function.update_eq_self]
  have hstart : Step S db (db.pair t t' db.rows (some o) none) := by
    have h := Step.start s hs (db.pair_left ht db.rows none none)
    rw [Database.start, Database.pair_set_left ht, Database.pair, hempty] at h
    exact h
  have hstart' : Step S (db.pair t t' db.rows (some o) none) (db.pair t t' db.rows (some o) (some o')) := by
    have h := Step.start (S := S) s' hs' (db.pair_right t t' db.rows (some o) none)
    rwa [Database.start, Database.pair_set_right] at h
  have hlock : Step S (db.pair t t' db.rows (some o) (some o'))
      (db.pair t t' db.rows (some (o.lock k v)) (some o')) := by
    have hfree : (db.pair t t' db.rows (some o) (some o')).Unlocked k := by
      apply Database.pair_unlocked hidle
      · rintro _ ⟨⟩
        rfl
      · rintro _ ⟨⟩
        rfl
    have h := Step.lock (S := S) o k v (db.pair_left ht db.rows (some o) (some o')) hfree htarget hwrite
    rwa [Database.lock, Database.pair_set_left ht] at h
  have hlock' : Step S (db.pair t t' db.rows (some (o.lock k v)) (some o'))
      (db.pair t t' db.rows (some (o.lock k v)) (some (o'.lock k' v'))) := by
    have hfree : (db.pair t t' db.rows (some (o.lock k v)) (some o')).Unlocked k' := by
      apply Database.pair_unlocked hidle
      · rintro _ ⟨⟩
        exact o.lock_written_of_ne v hk.symm
      · rintro _ ⟨⟩
        rfl
    have h := Step.lock (S := S) o' k' v' (db.pair_right t t' db.rows (some (o.lock k v)) (some o')) hfree
      htarget' hwrite'
    rwa [Database.lock, Database.pair_set_right] at h
  have hcommit : Step S (db.pair t t' db.rows (some (o.lock k v)) (some (o'.lock k' v')))
      (db.pair t t' (Function.update db.rows k v) none (some (o'.lock k' v'))) := by
    have h := Step.commit (S := S) _
      (db.pair_left ht db.rows (some (o.lock k v)) (some (o'.lock k' v')))
    rw [Database.commit, Database.pair_set_left ht] at h
    rw [← rows_update db.rows k v]
    exact h
  have hcommit' : Step S (db.pair t t' (Function.update db.rows k v) none (some (o'.lock k' v')))
      (db.pair t t' (Function.update (Function.update db.rows k v) k' v') none none) := by
    have h := Step.commit (S := S) _
      (db.pair_right t t' (Function.update db.rows k v) none (some (o'.lock k' v')))
    rw [Database.commit, Database.pair_set_right] at h
    rw [← rows_update (Function.update db.rows k v) k' v']
    exact h
  have hbegun : Relation.ReflTransGen (Beside S db.rows (Function.update db.rows k v)) db
      (db.pair t t' db.rows (some o) (some o')) := by
    refine (Relation.ReflTransGen.single ⟨hstart, fun t'' p hp => ?_, Or.inl rfl⟩).tail
      ⟨hstart', Database.pair_snapshot hidle (hseen o rfl) hnone, Or.inl rfl⟩
    rw [hidle t''] at hp
    cases hp
  have hlocked := (hbegun.tail ⟨hlock, Database.pair_snapshot hidle (hseen o rfl) (hseen o' rfl), Or.inl rfl⟩).tail
    ⟨hlock', Database.pair_snapshot hidle (hseen (o.lock k v) rfl) (hseen o' rfl), Or.inl rfl⟩
  have hone := hlocked.tail
    ⟨hcommit, Database.pair_snapshot hidle (hseen (o.lock k v) rfl) (hseen (o'.lock k' v') rfl), Or.inl rfl⟩
  rw [← hempty]
  exact hone.tail ⟨hcommit', Database.pair_snapshot hidle hnone (hseen (o'.lock k' v') rfl), Or.inr rfl⟩

/-- The steps that leave a row at `k`. -/
def Undeleted (S : Set (Statement κ α)) (k : κ) (db db' : Database τ κ α) : Prop :=
  Step S db db' ∧ db'.rows k ≠ none

/-- What every statement keeps of a row unless it deletes it, every interleaving keeps until the row is deleted. -/
theorem undeleted_keeps {Q : α → Prop} {k : κ}
    (hS : ∀ s ∈ S, ∀ snapshot r v, Q r → s.write snapshot k (some r) = some (some v) → Q v) (h : Sound S db)
    (hrun : Relation.ReflTransGen (Undeleted S k) db db') (hQ : ∃ r, db.rows k = some r ∧ Q r) :
    Sound S db' ∧ ∃ r, db'.rows k = some r ∧ Q r := by
  induction hrun with
  | refl => exact ⟨h, hQ⟩
  | tail _ hlast ih =>
    obtain ⟨hsound, r, hr, hq⟩ := ih
    obtain ⟨hstep, hpresent⟩ := hlast
    refine ⟨hstep.sound hsound, ?_⟩
    obtain hsame | ⟨s, hs, snapshot, hw⟩ := hstep.rows_cases hsound k
    · exact ⟨r, hsame.trans hr, hq⟩
    · obtain ⟨v, hv⟩ := Option.ne_none_iff_exists'.mp hpresent
      rw [hr, hv] at hw
      exact ⟨v, hv, hS s hs snapshot r v hq hw⟩

end ReadCommitted

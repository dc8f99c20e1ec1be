import Mathlib.Logic.Relation
import Bosphor.Lib.Async
import Bosphor.Lib.Places

/-!
# A queue of programs

Programs that are chained one behind the other: each is started when the tail of
the one before has settled, and the tail settles however the program ended. The
queue holds only the last tail; that every program is behind the one offered
before it is an invariant.

* `Inv.steps`: what holds in every state; `Inv.ordered` says that a program is
  started when those before it have passed, and not earlier.
* `Inv.finishes`: whatever the calls are answered, all programs come to their
  end, one after the other.
-/

namespace Async.Queue

variable {Call : Type} {Answer : Call → Type} {ε α : Type}

/-- How far a program has come. -/
inductive Stage (Call : Type) (Answer : Call → Type) (ε α : Type) where
  | waiting
  /-- It was told this, and this is left of it. -/
  | running (told : History Call Answer ε) (rest : Async Call Answer ε α)
  /-- It has ended, and its tail has settled. -/
  | passed (told : History Call Answer ε) (r : Except ε α)

structure Task (Call : Type) (Answer : Call → Type) (ε α : Type) where
  program : Async Call Answer ε α
  /-- The task whose tail it is chained to. -/
  after : Option Nat
  stage : Stage Call Answer ε α

structure State (Call : Type) (Answer : Call → Type) (ε α : Type) where
  tasks : List (Task Call Answer ε α) := []
  /-- The task whose tail is the last. -/
  tail : Option Nat := none

namespace Stage

variable {s : Stage Call Answer ε α}

def told : Stage Call Answer ε α → History Call Answer ε
  | .waiting => []
  | .running told _ | .passed told _ => told

def Started : Stage Call Answer ε α → Prop
  | .waiting => False
  | _ => True

def Passed : Stage Call Answer ε α → Prop
  | .passed _ _ => True
  | _ => False

end Stage

namespace State

variable (s : State Call Answer ε α)

def put (k : Nat) (t : Task Call Answer ε α) (stage : Stage Call Answer ε α) : State Call Answer ε α :=
  { s with tasks := s.tasks.set k { t with stage } }

/-- A program is chained to the last tail, and its own tail becomes the last. -/
def serialize (program : Async Call Answer ε α) : State Call Answer ε α where
  tasks := s.tasks ++ [⟨program, s.tail, .waiting⟩]
  tail := some s.tasks.length

/-- The program of the task has ended, and its tail has settled. -/
def PassedAt (j : Nat) : Prop := ∃ t, s.tasks[j]? = some t ∧ t.stage.Passed

/-- The promise that the task is chained to has settled. -/
def TailSettled (after : Option Nat) : Prop := ∀ j, after = some j → s.PassedAt j

end State

/-- Which answers a call of a task may get, given what the task was told. -/
abbrev Answering (Call : Type) (Answer : Call → Type) (ε : Type) :=
  Nat → History Call Answer ε → (c : Call) → Except ε (Answer c) → Prop

/-- A step, where programs of one kind are offered and calls get some answers. -/
inductive Step (offered : Async Call Answer ε α → Prop) (answers : Answering Call Answer ε) :
    State Call Answer ε α → State Call Answer ε α → Prop where
  | serialize {s program} (hoffered : offered program) : Step offered answers s (s.serialize program)
  | start {s k t} (hk : s.tasks[k]? = some t) (hstage : t.stage = .waiting) (htail : s.TailSettled t.after) :
    Step offered answers s (s.put k t (.running [] t.program))
  | answer {s k t told c next r} (hk : s.tasks[k]? = some t) (hstage : t.stage = .running told (.await c next))
      (hr : answers k told c r) : Step offered answers s (s.put k t (.running (told ++ [⟨c, r⟩]) (next r)))
  | pass {s k t told r} (hk : s.tasks[k]? = some t) (hstage : t.stage = .running told (ofExcept r)) :
    Step offered answers s (s.put k t (.passed told r))

/-- Some steps, in which calls get any answers. -/
abbrev Steps (offered : Async Call Answer ε α → Prop) := Relation.ReflTransGen (Step offered fun _ _ _ _ => True)

/-! ## Who is behind whom -/

/-- The task before. -/
def before : Nat → Option Nat
  | 0 => none
  | k + 1 => some k

/-- The stage is one that the program comes to. -/
def Stage.Follows (program : Async Call Answer ε α) : Stage Call Answer ε α → Prop
  | .waiting => True
  | .running told rest => Leads program told rest
  | .passed told r => Leads program told (ofExcept r)

structure Inv (offered : Async Call Answer ε α → Prop) (s : State Call Answer ε α) : Prop where
  tail : s.tail = before s.tasks.length
  after : ∀ (k : Nat) (t : Task Call Answer ε α), s.tasks[k]? = some t → t.after = before k
  /-- A task that was started has those before it behind it. -/
  ordered : ∀ (k : Nat) (t : Task Call Answer ε α), s.tasks[k]? = some t → t.stage.Started → ∀ j < k, s.PassedAt j
  follows : ∀ (k : Nat) (t : Task Call Answer ε α), s.tasks[k]? = some t → t.stage.Follows t.program
  offered : ∀ (k : Nat) (t : Task Call Answer ε α), s.tasks[k]? = some t → offered t.program

variable {offered : Async Call Answer ε α → Prop} {answers : Answering Call Answer ε} {s s' : State Call Answer ε α}
  {k : Nat} {t : Task Call Answer ε α} {stage : Stage Call Answer ε α}

theorem get_put {j : Nat} {u : Task Call Answer ε α} (hu : (s.put k t stage).tasks[j]? = some u) :
    (j = k ∧ u = { t with stage }) ∨ (j ≠ k ∧ s.tasks[j]? = some u) := Places.get_set hu

theorem get_put_self (hk : s.tasks[k]? = some t) : (s.put k t stage).tasks[k]? = some { t with stage } :=
  Places.get_set_self hk

theorem length_put : (s.put k t stage).tasks.length = s.tasks.length := List.length_set

theorem Stage.Passed.started (h : stage.Passed) : stage.Started := by
  cases stage with
  | waiting => exact h
  | running told rest => exact trivial
  | passed told r => exact trivial

/-- A task goes on. -/
theorem Inv.put (h : Inv offered s) (hk : s.tasks[k]? = some t) (hfollows : stage.Follows t.program)
    (hordered : ∀ j < k, s.PassedAt j) (hpassed : t.stage.Passed → stage.Passed) :
    Inv offered (s.put k t stage) := by
  -- who has passed has still passed
  have hstill : ∀ j, s.PassedAt j → (s.put k t stage).PassedAt j := by
    rintro j ⟨u, hu, hpass⟩
    by_cases hj : j = k
    · subst hj
      obtain rfl := Option.some.inj (hk.symm.trans hu)
      exact ⟨_, get_put_self hk, hpassed hpass⟩
    · refine ⟨u, ?_, hpass⟩
      show (s.tasks.set k _)[j]? = some u
      rw [List.getElem?_set_ne (Ne.symm hj), hu]
  constructor
  case tail =>
    rw [length_put]
    exact h.tail
  case after =>
    intro j u hu
    obtain ⟨rfl, rfl⟩ | ⟨-, hu⟩ := get_put hu
    · exact h.after j t hk
    · exact h.after j u hu
  case ordered =>
    intro j u hu hstarted i hi
    refine hstill i ?_
    obtain ⟨rfl, -⟩ | ⟨-, hu⟩ := get_put hu
    · exact hordered i hi
    · exact h.ordered j u hu hstarted i hi
  case follows =>
    intro j u hu
    obtain ⟨rfl, rfl⟩ | ⟨-, hu⟩ := get_put hu
    · exact hfollows
    · exact h.follows j u hu
  case offered =>
    intro j u hu
    obtain ⟨rfl, rfl⟩ | ⟨-, hu⟩ := get_put hu
    · exact h.offered j t hk
    · exact h.offered j u hu

theorem Inv.serialize (h : Inv offered s) {program : Async Call Answer ε α} (hoffered : offered program) :
    Inv offered (s.serialize program) := by
  have hget : ∀ {j u}, (s.serialize program).tasks[j]? = some u →
      s.tasks[j]? = some u ∨ (j = s.tasks.length ∧ u = ⟨program, s.tail, .waiting⟩) := Places.get_concat
  constructor
  case tail =>
    show some s.tasks.length = before (s.tasks ++ [_]).length
    rw [List.length_append, List.length_singleton, before]
  case after =>
    intro j u hu
    obtain hu | ⟨rfl, rfl⟩ := hget hu
    · exact h.after j u hu
    · exact h.tail
  case ordered =>
    intro j u hu hstarted i hi
    obtain hu | ⟨-, rfl⟩ := hget hu
    · obtain ⟨w, hw, hpass⟩ := h.ordered j u hu hstarted i hi
      exact ⟨w, Places.get_append hw _, hpass⟩
    · exact absurd hstarted id
  case follows =>
    intro j u hu
    obtain hu | ⟨-, rfl⟩ := hget hu
    · exact h.follows j u hu
    · exact trivial
  case offered =>
    intro j u hu
    obtain hu | ⟨-, rfl⟩ := hget hu
    · exact h.offered j u hu
    · exact hoffered

/-- When the tail of the task before has settled, all those before have passed. -/
theorem Inv.before_passed (h : Inv offered s) (hk : s.tasks[k]? = some t) (htail : s.TailSettled t.after) :
    ∀ j < k, s.PassedAt j := by
  intro j hj
  cases k with
  | zero => exact absurd hj (Nat.not_lt_zero j)
  | succ k =>
    obtain ⟨u, hu, hpass⟩ := htail k (h.after (k + 1) t hk)
    obtain hlt | rfl := Nat.lt_succ_iff_lt_or_eq.mp hj
    · exact h.ordered k u hu hpass.started j hlt
    · exact ⟨u, hu, hpass⟩

theorem Inv.step (h : Inv offered s) (hstep : Step offered answers s s') : Inv offered s' := by
  cases hstep with
  | serialize hoffered => exact h.serialize hoffered
  | start hk hstage htail =>
    exact h.put hk .start (h.before_passed hk htail) fun hpass => absurd hpass (by rw [hstage]; exact id)
  | @answer k t told c next r hk hstage hr =>
    have hfollows := h.follows k t hk
    rw [hstage] at hfollows
    refine h.put hk (.answer hfollows r) (h.ordered k t hk (by rw [hstage]; exact trivial)) fun hpass => ?_
    exact absurd hpass (by rw [hstage]; exact id)
  | @pass k t told r hk hstage =>
    have hfollows := h.follows k t hk
    rw [hstage] at hfollows
    exact h.put hk hfollows (h.ordered k t hk (by rw [hstage]; exact trivial)) fun _ => trivial

theorem Inv.init : Inv offered ({} : State Call Answer ε α) where
  tail := rfl
  after _ _ hk := nomatch hk
  ordered _ _ hk := nomatch hk
  follows _ _ hk := nomatch hk
  offered _ _ hk := nomatch hk

theorem Inv.steps (h : Inv offered s) (hsteps : Relation.ReflTransGen (Step offered answers) s s') :
    Inv offered s' := by
  induction hsteps with
  | refl => exact h
  | tail _ hstep ih => exact ih.step hstep

/-! ## All of them end -/

theorem put_put {stage' : Stage Call Answer ε α} :
    (s.put k t stage).put k { t with stage } stage' = s.put k t stage' := by
  simp only [State.put, List.set_set]

/-- A program under way comes to its end, and its tail settles. -/
theorem passes (hanswers : ∀ k told c, ∃ r, answers k told c r) {told : History Call Answer ε}
    {rest : Async Call Answer ε α} (hk : s.tasks[k]? = some t) (hstage : t.stage = .running told rest) :
    ∃ told r, Relation.ReflTransGen (Step offered answers) s (s.put k t (.passed told r)) := by
  induction rest generalizing told s t with
  | done a => exact ⟨told, .ok a, .single (.pass hk hstage)⟩
  | fail e => exact ⟨told, .error e, .single (.pass hk hstage)⟩
  | await c next ih =>
    obtain ⟨r, hr⟩ := hanswers k told c
    obtain ⟨told', r', hsteps⟩ := ih r (get_put_self hk) rfl
    rw [put_put] at hsteps
    exact ⟨told', r', .head (.answer hk hstage hr) hsteps⟩

/-- A task whose turn it is ends, where it has not ended. -/
theorem Inv.next_passes (h : Inv offered s) (hanswers : ∀ k told c, ∃ r, answers k told c r) (hk : s.tasks[k]? = some t)
    (hbefore : ∀ j < k, s.PassedAt j) : ∃ s', Relation.ReflTransGen (Step offered answers) s s' ∧
      s'.tasks.length = s.tasks.length ∧ s'.PassedAt k ∧ ∀ j, j ≠ k → s'.tasks[j]? = s.tasks[j]? := by
  have hothers : ∀ {stage} j, j ≠ k → (s.put k t stage).tasks[j]? = s.tasks[j]? := fun j hj =>
    List.getElem?_set_ne (Ne.symm hj)
  cases hstage : t.stage with
  | waiting =>
    have htail : s.TailSettled t.after := by
      intro j hj
      rw [h.after k t hk] at hj
      cases k with
      | zero => cases hj
      | succ k =>
        obtain rfl := Option.some.inj hj
        exact hbefore k (Nat.lt_succ_self k)
    obtain ⟨told, r, hsteps⟩ := passes hanswers (get_put_self hk) rfl
    rw [put_put] at hsteps
    exact ⟨_, .head (.start hk hstage htail) hsteps, length_put, ⟨_, get_put_self hk, trivial⟩, hothers⟩
  | running told rest =>
    obtain ⟨told, r, hsteps⟩ := passes hanswers hk hstage
    exact ⟨_, hsteps, length_put, ⟨_, get_put_self hk, trivial⟩, hothers⟩
  | passed told r => exact ⟨s, .refl, rfl, ⟨t, hk, by rw [hstage]; exact trivial⟩, fun _ _ => rfl⟩

/-- Whatever the calls are answered, the first programs can come to their end. -/
theorem Inv.finishes_below (h : Inv offered s) (hanswers : ∀ k told c, ∃ r, answers k told c r) (m : Nat)
    (hm : m ≤ s.tasks.length) : ∃ s', Relation.ReflTransGen (Step offered answers) s s' ∧
      s'.tasks.length = s.tasks.length ∧ ∀ j < m, s'.PassedAt j := by
  induction m with
  | zero => exact ⟨s, .refl, rfl, fun j hj => absurd hj (Nat.not_lt_zero j)⟩
  | succ m ih =>
    obtain ⟨s', hsteps, hlength, hpassed⟩ := ih (Nat.le_of_succ_le hm)
    have hinv := h.steps hsteps
    have hlt : m < s'.tasks.length := by omega
    have hget : s'.tasks[m]? = some s'.tasks[m] := List.getElem?_eq_getElem hlt
    obtain ⟨s'', hmore, hlength', hpass, hothers⟩ := hinv.next_passes hanswers hget hpassed
    refine ⟨s'', hsteps.trans hmore, hlength'.trans hlength, fun j hj => ?_⟩
    obtain hlt | rfl := Nat.lt_succ_iff_lt_or_eq.mp hj
    · obtain ⟨u, hu, hpass⟩ := hpassed j hlt
      exact ⟨u, (hothers j (Nat.ne_of_lt hlt)).trans hu, hpass⟩
    · exact hpass

theorem Inv.finishes (h : Inv offered s) (hanswers : ∀ k told c, ∃ r, answers k told c r) :
    ∃ s', Relation.ReflTransGen (Step offered answers) s s' ∧ s'.tasks.length = s.tasks.length ∧
      ∀ j < s.tasks.length, s'.PassedAt j :=
  h.finishes_below hanswers s.tasks.length (Nat.le_refl _)

/-- What a program can be told, it is told in some run. -/
theorem steps_leads (hk : s.tasks[k]? = some t) {told : History Call Answer ε} {rest : Async Call Answer ε α}
    (hlead : Leads t.program told rest) :
    Steps offered (s.put k t (.running [] t.program)) (s.put k t (.running told rest)) := by
  induction hlead with
  | start => exact .refl
  | @answer told c next _ r ih =>
    have hanswer : Step offered (fun _ _ _ _ => True) (s.put k t (.running told (.await c next))) _ :=
      .answer (r := r) (get_put_self hk) rfl trivial
    rw [put_put] at hanswer
    exact ih.tail hanswer

section

variable {program : Async Call Answer ε α} {told : History Call Answer ε} {rest : Async Call Answer ε α}

/-- The program offered last, at a stage of its own. -/
theorem serialize_put (stage : Stage Call Answer ε α) :
    (s.serialize program).put s.tasks.length ⟨program, s.tail, .waiting⟩ stage =
      ⟨s.tasks ++ [⟨program, s.tail, stage⟩], some s.tasks.length⟩ := by
  show State.mk ((s.tasks ++ [_]).set s.tasks.length _) _ = _
  rw [List.set_append_right s.tasks.length _ (Nat.le_refl _), Nat.sub_self]
  rfl

/-- So is a program that is offered when those before it have passed. -/
theorem steps_next (htail : s.TailSettled s.tail) (hoffered : offered program) (hlead : Leads program told rest) :
    Steps offered s ⟨s.tasks ++ [⟨program, s.tail, .running told rest⟩], some s.tasks.length⟩ := by
  have hlast : (s.serialize program).tasks[s.tasks.length]? = some ⟨program, s.tail, .waiting⟩ :=
    List.getElem?_concat_length
  have hbehind : (s.serialize program).TailSettled s.tail := by
    intro j hj
    obtain ⟨u, hu, hpass⟩ := htail j hj
    exact ⟨u, Places.get_append hu _, hpass⟩
  rw [← serialize_put]
  exact .head (.serialize hoffered) (.head (.start hlast rfl hbehind) (steps_leads hlast hlead))

/-- It passes where it comes to its end. -/
theorem steps_passed {r : Except ε α} (htail : s.TailSettled s.tail) (hoffered : offered program)
    (hlead : Leads program told (ofExcept r)) :
    Steps offered s ⟨s.tasks ++ [⟨program, s.tail, .passed told r⟩], some s.tasks.length⟩ := by
  have hsteps := steps_next htail hoffered hlead
  have hlast : (s.serialize program).tasks[s.tasks.length]? = some ⟨program, s.tail, .waiting⟩ :=
    List.getElem?_concat_length
  rw [← serialize_put] at hsteps ⊢
  have hpass : Step offered (fun _ _ _ _ => True) ((s.serialize program).put s.tasks.length
      ⟨program, s.tail, .waiting⟩ (.running told (ofExcept r))) _ := .pass (get_put_self hlast) rfl
  rw [put_put] at hpass
  exact hsteps.tail hpass

end

end Async.Queue

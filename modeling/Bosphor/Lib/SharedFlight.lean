import Mathlib.Logic.Relation
import Bosphor.Lib.Async
import Bosphor.Lib.Places

/-!
# A program that its callers share

A program is started for the first caller, and its promise is kept. Who calls
while it is kept waits for the same promise; when the program has ended the
promise is let go, and settles for all that wait for it. Meanwhile the world
that answers the program changes of its own accord.

* `Step`: one step of the callers, the programs and the world.
* `Run.keeps`: the rule for what the world keeps (`I`) and what it owes to what
  a program was told (`J`). A program is verified alone, by `wp`; that no two of
  them run at a time is part of the invariant (`Inv.alone`).
* `Inv.joins`: who calls is given the program that runs.
* `Inv.rests`: where every call can be answered, all that wait are served
  (`Inv.all_served`).
-/

namespace Async.Shared

variable {σ Call : Type} {Answer : Call → Type} {ε α : Type}

inductive Stage (Call : Type) (Answer : Call → Type) (ε α : Type) where
  | running (rest : Async Call Answer ε α)
  /-- It has ended, and its promise was let go. -/
  | settled (r : Except ε α)

/-- A program that was started: what it was told, and how far it has come. -/
structure Flight (Call : Type) (Answer : Call → Type) (ε α : Type) where
  told : History Call Answer ε
  stage : Stage Call Answer ε α

structure State (σ Call : Type) (Answer : Call → Type) (ε α : Type) where
  world : σ
  flights : List (Flight Call Answer ε α) := []
  inFlight : Option Nat := none
  /-- The flight whose promise each caller was given. -/
  callers : List Nat := []

namespace State

variable (s : State σ Call Answer ε α)

/-- A caller is given the promise that is kept, or that of a new flight. -/
def ensure (program : Async Call Answer ε α) : State σ Call Answer ε α :=
  match s.inFlight with
  | some k => { s with callers := s.callers ++ [k] }
  | none =>
    { s with
      flights := s.flights ++ [⟨[], .running program⟩]
      inFlight := some s.flights.length
      callers := s.callers ++ [s.flights.length] }

def answer (k : Nat) (told : History Call Answer ε) (rest : Async Call Answer ε α) (world : σ) :
    State σ Call Answer ε α :=
  { s with world, flights := s.flights.set k ⟨told, .running rest⟩ }

def settle (k : Nat) (told : History Call Answer ε) (r : Except ε α) : State σ Call Answer ε α :=
  { s with flights := s.flights.set k ⟨told, .settled r⟩, inFlight := none }

end State

/-- What a world does: how it answers a call, and how it changes of its own accord. -/
structure World (σ Call : Type) (Answer : Call → Type) (ε : Type) where
  serves : σ → (c : Call) → Except ε (Answer c) → σ → Prop
  moves : σ → σ → Prop

variable (W : World σ Call Answer ε) (program : Async Call Answer ε α)

inductive Step : State σ Call Answer ε α → State σ Call Answer ε α → Prop where
  | ensure {s} : Step s (s.ensure program)
  | answer {s k told c next w'} (r : Except ε (Answer c))
      (hk : s.flights[k]? = some ⟨told, .running (.await c next)⟩) (h : W.serves s.world c r w') :
    Step s (s.answer k (told ++ [⟨c, r⟩]) (next r) w')
  | settle {s k told r} (hk : s.flights[k]? = some ⟨told, .running (ofExcept r)⟩) : Step s (s.settle k told r)
  | move {s w'} (h : W.moves s.world w') : Step s { s with world := w' }

abbrev Run : State σ Call Answer ε α → State σ Call Answer ε α → Prop := Relation.ReflTransGen (Step W program)

/-- All that was told, some world has answered. -/
def Told (told : History Call Answer ε) : Prop := ∀ x ∈ told, ∃ w w', W.serves w x.1 x.2 w'

/-- What holds in every state. -/
structure Inv (I : σ → Prop) (J : σ → History Call Answer ε → Prop) (P : History Call Answer ε → Call → Prop)
    (Q : History Call Answer ε → Except ε α → Prop) (s : State σ Call Answer ε α) : Prop where
  world : I s.world
  /-- The promise of a program that runs is the one that is kept. -/
  alone : ∀ (k : Nat) told rest, s.flights[k]? = some ⟨told, .running rest⟩ → s.inFlight = some k
  kept : ∀ k, s.inFlight = some k → ∃ told rest, s.flights[k]? = some ⟨told, .running rest⟩
  running : ∀ (k : Nat) told rest, s.flights[k]? = some ⟨told, .running rest⟩ →
    J s.world told ∧ Told W told ∧ wp P Q told rest
  settled : ∀ (k : Nat) told r, s.flights[k]? = some ⟨told, .settled r⟩ → Told W told ∧ Q told r
  served : ∀ k ∈ s.callers, k < s.flights.length

variable {W program} {I : σ → Prop} {J : σ → History Call Answer ε → Prop} {P : History Call Answer ε → Call → Prop}
  {Q : History Call Answer ε → Except ε α → Prop} {s s' : State σ Call Answer ε α}

theorem Inv.init {w : σ} (h : I w) : Inv W I J P Q ({ world := w } : State σ Call Answer ε α) where
  world := h
  alone _ _ _ hk := nomatch hk
  kept _ hk := nomatch hk
  running _ _ _ hk := nomatch hk
  settled _ _ _ hk := nomatch hk
  served _ hk := nomatch hk

theorem Inv.ensure (h : Inv W I J P Q s) (hstart : ∀ w, I w → J w [] ∧ wp P Q [] program) :
    Inv W I J P Q (s.ensure program) := by
  unfold State.ensure
  split
  case h_1 k hkept =>
    refine { h with served := fun j hj => ?_ }
    obtain hj | hj := List.mem_append.mp hj
    · exact h.served j hj
    · obtain ⟨told, rest, hk⟩ := h.kept k hkept
      rw [List.mem_singleton.mp hj]
      exact (List.getElem?_eq_some_iff.mp hk).1
  case h_2 hnone =>
    constructor
    case world => exact h.world
    case alone =>
      intro k told rest hk
      obtain hk | ⟨rfl, -⟩ := Places.get_concat hk
      · cases hnone.symm.trans (h.alone k told rest hk)
      · rfl
    case kept =>
      intro k hk
      obtain rfl := Option.some.inj hk
      exact ⟨[], program, List.getElem?_concat_length⟩
    case running =>
      intro k told rest hk
      obtain hk | ⟨-, hnew⟩ := Places.get_concat hk
      · exact h.running k told rest hk
      · cases hnew
        obtain ⟨hJ, hwp⟩ := hstart _ h.world
        exact ⟨hJ, fun x hx => absurd hx List.not_mem_nil, hwp⟩
    case settled =>
      intro k told r hk
      obtain hk | ⟨-, hnew⟩ := Places.get_concat hk
      · exact h.settled k told r hk
      · cases hnew
    case served =>
      intro k hk
      show k < (s.flights ++ [_]).length
      rw [List.length_append, List.length_singleton]
      obtain hk | hk := List.mem_append.mp hk
      · exact Nat.lt_succ_of_lt (h.served k hk)
      · rw [List.mem_singleton.mp hk]
        exact Nat.lt_succ_self _

/-- Who calls is given a program that runs, and where one runs, no other is started. -/
theorem Inv.joins (h : Inv W I J P Q s) : ∃ k told rest, (s.ensure program).callers = s.callers ++ [k] ∧
    (s.ensure program).flights[k]? = some ⟨told, .running rest⟩ ∧
    ∀ (j : Nat) told' rest', s.flights[j]? = some ⟨told', .running rest'⟩ →
      j = k ∧ (s.ensure program).flights = s.flights := by
  unfold State.ensure
  split
  case h_1 k hkept =>
    obtain ⟨told, rest, hk⟩ := h.kept k hkept
    exact ⟨k, told, rest, rfl, hk, fun j told' rest' hj =>
      ⟨Option.some.inj ((h.alone j told' rest' hj).symm.trans hkept), rfl⟩⟩
  case h_2 hnone =>
    refine ⟨s.flights.length, [], program, rfl, List.getElem?_concat_length, fun j told' rest' hj => ?_⟩
    cases hnone.symm.trans (h.alone j told' rest' hj)

/-- The one program that runs is told more. -/
theorem Inv.answer (h : Inv W I J P Q s) {k : Nat} {told told' : History Call Answer ε}
    {rest rest' : Async Call Answer ε α} {w' : σ} (hk : s.flights[k]? = some ⟨told, .running rest⟩) (hI : I w')
    (hJ : J w' told') (htold : Told W told')
    (hwp : wp P Q told' rest') : Inv W I J P Q (s.answer k told' rest' w') := by
  have hkept := h.alone k told rest hk
  constructor
  case world => exact hI
  case alone =>
    intro j told rest hj
    obtain ⟨rfl, -⟩ | ⟨-, hj⟩ := Places.get_set hj
    · exact hkept
    · exact h.alone j told rest hj
  case kept =>
    intro j hj
    obtain rfl := Option.some.inj (hkept.symm.trans hj)
    exact ⟨told', rest', Places.get_set_self hk⟩
  case running =>
    intro j told rest hj
    obtain ⟨-, hnew⟩ | ⟨hne, hj⟩ := Places.get_set hj
    · cases hnew
      exact ⟨hJ, htold, hwp⟩
    · exact absurd (Option.some.inj ((h.alone j told rest hj).symm.trans hkept)) hne
  case settled =>
    intro j told r hj
    obtain ⟨-, hnew⟩ | ⟨-, hj⟩ := Places.get_set hj
    · cases hnew
    · exact h.settled j told r hj
  case served =>
    intro j hj
    show j < (s.flights.set k _).length
    rw [List.length_set]
    exact h.served j hj

theorem Inv.settle (h : Inv W I J P Q s) {k : Nat} {told : History Call Answer ε} {r : Except ε α}
    (hk : s.flights[k]? = some ⟨told, .running (ofExcept r)⟩) : Inv W I J P Q (s.settle k told r) := by
  have hkept := h.alone k told _ hk
  have hnone : ∀ (j : Nat) told' rest, (s.settle k told r).flights[j]? ≠ some ⟨told', .running rest⟩ := by
    intro j told' rest hj
    obtain ⟨-, hnew⟩ | ⟨hne, hj⟩ := Places.get_set hj
    · cases hnew
    · exact absurd (Option.some.inj ((h.alone j told' rest hj).symm.trans hkept)) hne
  constructor
  case world => exact h.world
  case alone => exact fun j told' rest hj => absurd hj (hnone j told' rest)
  case kept => exact fun j hj => nomatch hj
  case running => exact fun j told' rest hj => absurd hj (hnone j told' rest)
  case settled =>
    intro j told' r' hj
    obtain ⟨-, hnew⟩ | ⟨-, hj⟩ := Places.get_set hj
    · cases hnew
      obtain ⟨-, htold, hwp⟩ := h.running k told _ hk
      exact ⟨htold, (wp_ofExcept r).mp hwp⟩
    · exact h.settled j told' r' hj
  case served =>
    intro j hj
    show j < (s.flights.set k _).length
    rw [List.length_set]
    exact h.served j hj

theorem Step.keeps (hstart : ∀ w, I w → J w [] ∧ wp P Q [] program)
    (hserve : ∀ w told c r w', I w → J w told → P told c → W.serves w c r w' → I w' ∧ J w' (told ++ [⟨c, r⟩]))
    (hmove : ∀ w w', I w → W.moves w w' → I w' ∧ ∀ told, J w told → J w' told) (hstep : Step W program s s')
    (h : Inv W I J P Q s) : Inv W I J P Q s' := by
  cases hstep with
  | ensure => exact h.ensure hstart
  | @answer k told c next w' r hk hserves =>
    obtain ⟨hJ, htold, hP, hnext⟩ := h.running k told _ hk
    obtain ⟨hI', hJ'⟩ := hserve _ _ _ r _ h.world hJ hP hserves
    refine h.answer hk hI' hJ' (fun x hx => ?_) (hnext r)
    obtain hx | hx := List.mem_append.mp hx
    · exact htold x hx
    · obtain rfl := List.mem_singleton.mp hx
      exact ⟨_, _, hserves⟩
  | settle hk => exact h.settle hk
  | move hmoves =>
    obtain ⟨hI', hJ'⟩ := hmove _ _ h.world hmoves
    refine { h with world := hI', running := fun k told rest hk => ?_ }
    obtain ⟨hJ, htold, hwp⟩ := h.running k told rest hk
    exact ⟨hJ' told hJ, htold, hwp⟩

/-- What the world keeps, it keeps whoever calls and whenever, if the program does only what `P` allows. -/
theorem Run.keeps (hstart : ∀ w, I w → J w [] ∧ wp P Q [] program)
    (hserve : ∀ w told c r w', I w → J w told → P told c → W.serves w c r w' → I w' ∧ J w' (told ++ [⟨c, r⟩]))
    (hmove : ∀ w w', I w → W.moves w w' → I w' ∧ ∀ told, J w told → J w' told) (hrun : Run W program s s')
    (h : Inv W I J P Q s) : Inv W I J P Q s' := by
  induction hrun with
  | refl => exact h
  | tail _ hlast ih => exact hlast.keeps hstart hserve hmove ih

/-- A program that runs is answered to its end. -/
theorem Run.lands (hanswers : ∀ w c, ∃ r w', W.serves w c r w') {k : Nat} {told : History Call Answer ε}
    {rest : Async Call Answer ε α} (hk : s.flights[k]? = some ⟨told, .running rest⟩) :
    ∃ s', Run W program s s' ∧ s'.callers = s.callers ∧ s'.inFlight = none := by
  induction rest generalizing s told with
  | done a => exact ⟨_, .single (.settle (r := .ok a) hk), rfl, rfl⟩
  | fail e => exact ⟨_, .single (.settle (r := .error e) hk), rfl, rfl⟩
  | await c next ih =>
    obtain ⟨r, w', hserves⟩ := hanswers s.world c
    obtain ⟨s', hrun, hcallers, hnone⟩ := ih r (s := s.answer k (told ++ [⟨c, r⟩]) (next r) w') (Places.get_set_self hk)
    exact ⟨s', .head (.answer r hk hserves) hrun, hcallers, hnone⟩

/-- Whoever waits can be served: then no promise is kept, and all flights have settled. -/
theorem Inv.rests (h : Inv W I J P Q s) (hanswers : ∀ w c, ∃ r w', W.serves w c r w') :
    ∃ s', Run W program s s' ∧ s'.callers = s.callers ∧ s'.inFlight = none := by
  cases hkept : s.inFlight with
  | none => exact ⟨s, .refl, rfl, hkept⟩
  | some k =>
    obtain ⟨told, rest, hk⟩ := h.kept k hkept
    exact Run.lands hanswers hk

/-- Where no promise is kept, each caller has been served. -/
theorem Inv.all_served (h : Inv W I J P Q s) (hnone : s.inFlight = none) {k : Nat} (hk : k ∈ s.callers) :
    ∃ told r, s.flights[k]? = some ⟨told, .settled r⟩ ∧ Told W told ∧ Q told r := by
  obtain ⟨⟨told, stage⟩, hget⟩ : ∃ f, s.flights[k]? = some f := ⟨_, List.getElem?_eq_getElem (h.served k hk)⟩
  cases stage with
  | running rest => cases hnone.symm.trans (h.alone k told rest hget)
  | settled r => exact ⟨told, r, hget, h.settled k told r hget⟩

end Async.Shared

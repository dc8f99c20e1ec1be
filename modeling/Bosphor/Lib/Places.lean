/-!
# Items by their place

A list whose items are known by the place that they are at. Places stay what
they are: an item is put in the place of another (`get_set`), or comes behind
all that are there (`get_concat`, `get_append`).
-/

namespace Places

variable {α : Type} {l : List α} {a b : α} {i j : Nat}

/-- What is anywhere, after an item was put in a place. -/
theorem get_set (h : (l.set i a)[j]? = some b) : (j = i ∧ b = a) ∨ (j ≠ i ∧ l[j]? = some b) := by
  rw [List.getElem?_set] at h
  split at h
  case isTrue hij =>
    split at h
    · exact Or.inl ⟨hij.symm, (Option.some.inj h).symm⟩
    · cases h
  case isFalse hij => exact Or.inr ⟨fun hji => hij hji.symm, h⟩

theorem get_set_self (h : l[i]? = some b) : (l.set i a)[i]? = some a :=
  List.getElem?_set_self (List.getElem?_eq_some_iff.mp h).1

/-- What is anywhere, after an item came last. -/
theorem get_concat (h : (l ++ [a])[j]? = some b) : l[j]? = some b ∨ (j = l.length ∧ b = a) := by
  obtain hlt | hge := Nat.lt_or_ge j l.length
  · rw [List.getElem?_append_left hlt] at h
    exact Or.inl h
  · have hlast : j = l.length := by
      have hj := (List.getElem?_eq_some_iff.mp h).1
      rw [List.length_append, List.length_singleton] at hj
      omega
    subst hlast
    rw [List.getElem?_concat_length] at h
    exact Or.inr ⟨rfl, (Option.some.inj h).symm⟩

/-- An item keeps its place, whatever comes behind. -/
theorem get_append (h : l[i]? = some b) (more : List α) : (l ++ more)[i]? = some b :=
  (List.getElem?_append_left (List.getElem?_eq_some_iff.mp h).1).trans h

end Places

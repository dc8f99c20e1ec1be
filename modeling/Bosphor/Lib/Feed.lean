/-!
# Reading a feed with a cursor

A feed grows; a cursor marks how far it was read. Whatever reads a feed and
moves its cursor from `c` to `c'` once it has dealt with every item between the
two, has dealt with every item since its first cursor (`Covered.next`), however
the feed has grown since (`Covered.grows`).
-/

/-- A feed of items, and the cursors into it. -/
structure Feed (χ Cursor Item : Type) where
  has : χ → Item → Prop
  /-- The item is not after the cursor. -/
  upTo : χ → Cursor → Item → Prop
  /-- The cursor is one of the feed. -/
  marks : χ → Cursor → Prop
  grows : χ → χ → Prop
  grows_marks : ∀ {s t c}, grows s t → marks s c → marks t c
  grows_upTo : ∀ {s t c x}, grows s t → upTo s c x → upTo t c x
  /-- Nothing is put before a cursor of the feed. -/
  grows_before : ∀ {s t c x}, grows s t → marks s c → has t x → upTo t c x → has s x ∧ upTo s c x

namespace Feed

variable {χ Cursor Item : Type} (F : Feed χ Cursor Item)

/-- Every item after `i` and up to `c` is known. -/
def Covered (s : χ) (i c : Cursor) (known : Item → Prop) : Prop :=
  ∀ x, F.has s x → F.upTo s c x → ¬F.upTo s i x → known x

variable {F} {s t : χ} {i c c' : Cursor} {known known' : Item → Prop}

theorem Covered.start : F.Covered s i i known := fun _ _ hupTo hafter => absurd hupTo hafter

theorem Covered.mono (h : F.Covered s i c known) (hknown : ∀ x, known x → known' x) : F.Covered s i c known' :=
  fun x hhas hupTo hafter => hknown x (h x hhas hupTo hafter)

theorem Covered.next (h : F.Covered s i c known) (hnext : F.Covered s c c' known) : F.Covered s i c' known := by
  intro x hhas hupTo hafter
  by_cases hold : F.upTo s c x
  · exact h x hhas hold hafter
  · exact hnext x hhas hupTo hold

theorem Covered.grows (h : F.Covered s i c known) (hgrows : F.grows s t) (hmarks : F.marks s c) :
    F.Covered t i c known := by
  intro x hhas hupTo hafter
  obtain ⟨hhas', hupTo'⟩ := F.grows_before hgrows hmarks hhas hupTo
  exact h x hhas' hupTo' fun hbefore => hafter (F.grows_upTo hgrows hbefore)

end Feed

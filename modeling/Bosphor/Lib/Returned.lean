import Bosphor.Lib.Host

/-!
# Programs that returned

`Returned p t a`: once the calls `t` were answered, `p` has returned `a`. Each
way to make a program has its rule (`returned_bind`, `returned_call`, ...), so
that the calls of a program without a loop are found by taking it apart.

* `Returned.post`: a verified program that returned meets its postcondition.
* `wp_returned`: the relation as a postcondition.
* `Returned.leads`: a world that gives these answers leads to the end.
-/

namespace Async

variable {Call : Type} {Answer : Call → Type} {ε α β : Type}

inductive Returned : Async Call Answer ε α → History Call Answer ε → α → Prop
  | done {a} : Returned (.done a) [] a
  | await {c next t a} (r : Except ε (Answer c)) (h : Returned (next r) t a) : Returned (.await c next) (⟨c, r⟩ :: t) a

variable {t : History Call Answer ε} {a b : α}

theorem returned_pure : Returned (pure a : Async Call Answer ε α) t b ↔ t = [] ∧ b = a := by
  constructor
  · intro h
    cases h
    exact ⟨rfl, rfl⟩
  · rintro ⟨rfl, rfl⟩
    exact .done

theorem returned_throw {e : ε} : ¬Returned (throw e : Async Call Answer ε α) t b := fun h => by cases h

theorem returned_ofExcept {r : Except ε α} :
    Returned (ofExcept r : Async Call Answer ε α) t b ↔ t = [] ∧ r = .ok b := by
  cases r with
  | ok a => exact returned_pure.trans (and_congr_right fun _ => by rw [Except.ok.injEq, eq_comm])
  | error e => exact ⟨fun h => absurd h returned_throw, fun h => by cases h.2⟩

theorem returned_call {c : Call} {b : Answer c} :
    Returned (call c : Async Call Answer ε (Answer c)) t b ↔ t = [⟨c, .ok b⟩] := by
  constructor
  · intro h
    cases h with
    | await r h =>
      obtain ⟨rfl, rfl⟩ := returned_ofExcept.mp h
      rfl
  · rintro rfl
    exact .await _ (returned_ofExcept.mpr ⟨rfl, rfl⟩)

/-- The calls of the first part, and then those of the second. -/
theorem returned_bind {p : Async Call Answer ε α} {f : α → Async Call Answer ε β} {b : β} :
    Returned (p >>= f) t b ↔ ∃ t₁ t₂ a, t = t₁ ++ t₂ ∧ Returned p t₁ a ∧ Returned (f a) t₂ b := by
  show Returned (p.bind f) t b ↔ _
  induction p generalizing t with
  | done a =>
    constructor
    · exact fun h => ⟨[], t, a, rfl, .done, h⟩
    · rintro ⟨t₁, t₂, a', rfl, h, hrest⟩
      cases h
      exact hrest
  | fail e =>
    constructor
    · intro h
      cases h
    · rintro ⟨t₁, t₂, a', rfl, h, hrest⟩
      cases h
  | await c next ih =>
    constructor
    · intro h
      cases h with
      | await r h =>
        obtain ⟨t₁, t₂, a, rfl, hfirst, hrest⟩ := (ih r).mp h
        exact ⟨⟨c, r⟩ :: t₁, t₂, a, rfl, .await r hfirst, hrest⟩
    · rintro ⟨t₁, t₂, a, rfl, h, hrest⟩
      cases h with
      | await r h => exact .await r ((ih r).mpr ⟨_, t₂, a, rfl, h, hrest⟩)

/-- A call, and then those of the rest. -/
theorem returned_next {c : Call} {f : Answer c → Async Call Answer ε β} {b : β} :
    Returned (call c >>= f) t b ↔ ∃ a t', t = ⟨c, .ok a⟩ :: t' ∧ Returned (f a) t' b := by
  rw [returned_bind]
  constructor
  · rintro ⟨t₁, t₂, a, rfl, h, hrest⟩
    rw [returned_call] at h
    exact ⟨a, t₂, by rw [h]; rfl, hrest⟩
  · rintro ⟨a, t', rfl, h⟩
    exact ⟨[⟨c, .ok a⟩], t', a, rfl, returned_call.mpr rfl, h⟩

/-- A guarded program that did not fail. -/
theorem Returned.tryCatch {p : Async Call Answer ε α} (h : Returned p t a) (handle : ε → Async Call Answer ε α) :
    Returned (tryCatch p handle) t a := by
  show Returned (p.tryCatch handle) t a
  induction h with
  | done => exact .done
  | await r _ ih => exact .await r ih

section

variable {Call' : Type} {Answer' : Call' → Type} {f : Call → Call'}

/-- A program as a part of a larger one. -/
theorem returned_via {p : Async Call (fun c => Answer' (f c)) ε α} {t : History Call' Answer' ε} {a : α} :
    Returned (via f p) t a ↔ ∃ s, Returned p s a ∧ t = s.map fun x => ⟨f x.1, x.2⟩ := by
  induction p generalizing t with
  | done b =>
    constructor
    · intro h
      cases h
      exact ⟨[], .done, rfl⟩
    · rintro ⟨s, h, rfl⟩
      cases h
      exact .done
  | fail e =>
    constructor
    · intro h
      cases h
    · rintro ⟨s, h, -⟩
      cases h
  | await c next ih =>
    constructor
    · intro h
      cases h with
      | await r h =>
        obtain ⟨s, hs, rfl⟩ := (ih r).mp h
        exact ⟨_, @Returned.await Call (fun c => Answer' (f c)) ε α c next s a r hs, rfl⟩
    · rintro ⟨s, h, rfl⟩
      cases h with
      | await r h => exact .await r ((ih r).mpr ⟨_, h, rfl⟩)

end

variable {P : History Call Answer ε → Call → Prop} {Q : History Call Answer ε → Except ε α → Prop}
  {h : History Call Answer ε} {p : Async Call Answer ε α}

/-- A program that returned has met its postcondition. -/
theorem Returned.post (hreturned : Returned p t a) (hp : wp P Q h p) : Q (h ++ t) (.ok a) := by
  induction hreturned generalizing h with
  | done => rwa [List.append_nil]
  | await r _ ih =>
    have hrest := ih (hp.2 r)
    rwa [List.append_assoc] at hrest

/-- Where a program returns, it has returned. -/
theorem wp_returned (p : Async Call Answer ε α) (h : History Call Answer ε) :
    wp (fun _ _ => True) (fun h' r => ∀ a, r = .ok a → ∃ t, h' = h ++ t ∧ Returned p t a) h p := by
  induction p generalizing h with
  | done b =>
    intro a ha
    cases ha
    exact ⟨[], (List.append_nil h).symm, .done⟩
  | fail e =>
    intro a ha
    cases ha
  | await c next ih =>
    refine ⟨trivial, fun r => wp_mono (ih r _) (fun _ _ _ => trivial) fun h' r' hr a ha => ?_⟩
    obtain ⟨t, rfl, hreturned⟩ := hr a ha
    exact ⟨⟨c, r⟩ :: t, List.append_assoc .., .await r hreturned⟩

/-! ## In a world -/

section

variable {σ : Type} (H : Host σ Call Answer ε α)

/-- The world gives the answers `t`, one after the other, and changes of its own accord in between. -/
inductive Host.Serving : σ → History Call Answer ε → σ → Prop
  | nil {w} : Host.Serving w [] w
  | answer {w c r w' t w''} (h : H.serves w c r w') (hrest : Host.Serving w' t w'') :
    Host.Serving w (⟨c, r⟩ :: t) w''
  | move {w w' t w''} (h : H.moves w w') (hrest : Host.Serving w' t w'') : Host.Serving w t w''

variable {H} {C : Host.State σ Call Answer ε α → Host.Event Call Answer ε → Prop} {x : Host.State σ Call Answer ε α}
  {w w' : σ} {told : History Call Answer ε}

theorem Returned.leads (hreturned : Returned p t a) (hserving : H.Serving w t w') (hC : ∀ x e, C x e)
    (hrun : H.Leads C x (w, some ⟨told, p⟩)) : H.Leads C x (w', some ⟨told ++ t, .done a⟩) := by
  induction hserving generalizing p told with
  | nil =>
    cases hreturned
    rwa [List.append_nil]
  | answer h _ ih =>
    cases hreturned with
    | await _ hreturned =>
      have hend := ih hreturned (hrun.answer _ h (hC _ _))
      rwa [List.append_assoc] at hend
  | move h _ ih => exact ih hreturned (hrun.step (hC _ _) (.move h))

end

end Async

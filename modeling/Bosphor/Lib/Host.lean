import Mathlib.Logic.Relation
import Bosphor.Lib.Async

/-!
# Programs in a world

A world in which programs run one after the other. It answers their calls, and
changes of its own accord between them. A program may be cut off anywhere.

* `Host`: which programs start, how a call is answered, what else happens.
* `Host.Step`: one step of a world and the program in it. `Host.Leads C`: some
  steps, each of which meets `C`.
* `Host.Leads.keeps`: the rule for what the world keeps (`I`) and what it owes
  to what the program was told (`J`). A program is verified alone, by `wp`.
* `Host.Beside`: two hosts of one world, with a program of each side by side;
  `Host.Beside.keeps` is their rule.
-/

namespace Async

variable {σ Call : Type} {Answer : Call → Type} {ε α : Type}

/-- A world that programs run in. -/
structure Host (σ Call : Type) (Answer : Call → Type) (ε α : Type) where
  /-- A program may be started, and what it finds. -/
  starts : σ → Async Call Answer ε α → σ → Prop
  /-- A call may be answered, and what it leaves. -/
  serves : σ → (c : Call) → Except ε (Answer c) → σ → Prop
  /-- What happens of its own accord. -/
  moves : σ → σ → Prop

/-- A program under way: what it was told, and what is left of it. -/
structure Session (Call : Type) (Answer : Call → Type) (ε α : Type) where
  told : History Call Answer ε
  rest : Async Call Answer ε α

namespace Host

inductive Event (Call : Type) (Answer : Call → Type) (ε : Type) where
  | start
  | answer (c : Call) (r : Except ε (Answer c))
  | leave
  | move

variable (H : Host σ Call Answer ε α)

/-- A world, with the program that runs in it if there is one. -/
abbrev State (σ Call : Type) (Answer : Call → Type) (ε α : Type) := σ × Option (Session Call Answer ε α)

inductive Step : State σ Call Answer ε α → Event Call Answer ε → State σ Call Answer ε α → Prop
  | start {w p w'} (h : H.starts w p w') : Step (w, none) .start (w', some ⟨[], p⟩)
  | answer {w told c next w'} (r : Except ε (Answer c)) (h : H.serves w c r w') :
    Step (w, some ⟨told, .await c next⟩) (.answer c r) (w', some ⟨told ++ [⟨c, r⟩], next r⟩)
  | leave {w s} : Step (w, some s) .leave (w, none)
  | move {w w' s} (h : H.moves w w') : Step (w, s) .move (w', s)

/-- Some steps, each of which meets `C`. -/
abbrev Leads (C : State σ Call Answer ε α → Event Call Answer ε → Prop) :
    State σ Call Answer ε α → State σ Call Answer ε α → Prop :=
  Relation.ReflTransGen fun x y => ∃ e, C x e ∧ H.Step x e y

variable {H} {C : State σ Call Answer ε α → Event Call Answer ε → Prop} {I : σ → Prop}
  {J : σ → History Call Answer ε → Prop} {P : History Call Answer ε → Call → Prop}
  {Q : History Call Answer ε → Except ε α → Prop} {x y : State σ Call Answer ε α}

theorem Leads.step {e : Event Call Answer ε} {z : State σ Call Answer ε α} (hrun : H.Leads C x y) (hC : C y e)
    (hstep : H.Step y e z) : H.Leads C x z :=
  hrun.tail ⟨e, hC, hstep⟩

theorem Leads.mono {C' : State σ Call Answer ε α → Event Call Answer ε → Prop} (hrun : H.Leads C x y)
    (h : ∀ x e, C x e → C' x e) : H.Leads C' x y :=
  Relation.ReflTransGen.mono (fun _ _ ⟨e, hC, hstep⟩ => ⟨e, h _ e hC, hstep⟩) x y hrun

/-- A call is answered. -/
theorem Leads.answer {w w' : σ} {told : History Call Answer ε} {c : Call}
    {next : Except ε (Answer c) → Async Call Answer ε α}
    (hrun : H.Leads C x (w, some ⟨told, .await c next⟩)) (r : Except ε (Answer c)) (hserves : H.serves w c r w')
    (hC : C (w, some ⟨told, .await c next⟩) (.answer c r)) : H.Leads C x (w', some ⟨told ++ [⟨c, r⟩], next r⟩) :=
  hrun.step hC (.answer r hserves)

/-- What holds of a world and of the program in it. -/
def Holds (I : σ → Prop) (J : σ → History Call Answer ε → Prop) (P : History Call Answer ε → Call → Prop)
    (Q : History Call Answer ε → Except ε α → Prop) (x : State σ Call Answer ε α) : Prop :=
  I x.1 ∧ ∀ s, x.2 = some s → J x.1 s.told ∧ wp P Q s.told s.rest

/-- No program is under way. -/
theorem Holds.idle {w : σ} (h : I w) : Holds I J P Q (w, none) := ⟨h, fun s hs => by cases hs⟩

/-- What the world keeps in one step, if a program does only what `P` allows. -/
theorem Step.keeps {e : Event Call Answer ε}
    (hstart : ∀ w p w', I w → C (w, none) .start → H.starts w p w' → I w' ∧ J w' [] ∧ wp P Q [] p)
    (hserve : ∀ w told c next r w', I w → J w told → P told c → C (w, some ⟨told, .await c next⟩) (.answer c r) →
      H.serves w c r w' → I w' ∧ J w' (told ++ [⟨c, r⟩]))
    (hmove : ∀ w s w', I w → C (w, s) .move → H.moves w w' → I w' ∧ ∀ told, J w told → J w' told)
    (hC : C x e) (hstep : H.Step x e y) (h : Holds I J P Q x) : Holds I J P Q y := by
  obtain ⟨hI, hsession⟩ := h
  cases hstep with
  | start hstarts =>
    obtain ⟨hI', hJ', hwp⟩ := hstart _ _ _ hI hC hstarts
    refine ⟨hI', fun s hs => ?_⟩
    cases hs
    exact ⟨hJ', hwp⟩
  | answer r hserves =>
    obtain ⟨hJ, hP, hnext⟩ := hsession _ rfl
    obtain ⟨hI', hJ'⟩ := hserve _ _ _ _ r _ hI hJ hP hC hserves
    refine ⟨hI', fun s hs => ?_⟩
    cases hs
    exact ⟨hJ', hnext r⟩
  | leave =>
    refine ⟨hI, fun s hs => ?_⟩
    cases hs
  | move hmoves =>
    obtain ⟨hI', hJ'⟩ := hmove _ _ _ hI hC hmoves
    exact ⟨hI', fun s hs => ⟨hJ' _ (hsession s hs).1, (hsession s hs).2⟩⟩

/-- What the world keeps, it keeps whatever program runs in it, if a program does only what `P` allows. -/
theorem Leads.keeps
    (hstart : ∀ w p w', I w → C (w, none) .start → H.starts w p w' → I w' ∧ J w' [] ∧ wp P Q [] p)
    (hserve : ∀ w told c next r w', I w → J w told → P told c → C (w, some ⟨told, .await c next⟩) (.answer c r) →
      H.serves w c r w' → I w' ∧ J w' (told ++ [⟨c, r⟩]))
    (hmove : ∀ w s w', I w → C (w, s) .move → H.moves w w' → I w' ∧ ∀ told, J w told → J w' told)
    (hrun : H.Leads C x y) (h : Holds I J P Q x) : Holds I J P Q y := by
  induction hrun with
  | refl => exact h
  | tail _ hlast ih =>
    obtain ⟨e, hC, hstep⟩ := hlast
    exact hstep.keeps hstart hserve hmove hC ih

/-! ## Side by side -/

section

variable {Call' : Type} {Answer' : Call' → Type} {H' : Host σ Call' Answer' ε α}
  {J' : σ → History Call' Answer' ε → Prop} {P' : History Call' Answer' ε → Call' → Prop}
  {Q' : History Call' Answer' ε → Except ε α → Prop}

/-- A world with a program of each of two hosts in it. -/
structure Pair (σ Call : Type) (Answer : Call → Type) (Call' : Type) (Answer' : Call' → Type) (ε α : Type) where
  world : σ
  left : Option (Session Call Answer ε α) := none
  right : Option (Session Call' Answer' ε α) := none

/-- A step of either host. -/
inductive Beside (H : Host σ Call Answer ε α) (H' : Host σ Call' Answer' ε α) :
    Pair σ Call Answer Call' Answer' ε α → Pair σ Call Answer Call' Answer' ε α → Prop
  | left {w s w' s' t} (e : Event Call Answer ε) (h : H.Step (w, s) e (w', s')) : Beside H H' ⟨w, s, t⟩ ⟨w', s', t⟩
  | right {w t w' t' s} (e : Event Call' Answer' ε) (h : H'.Step (w, t) e (w', t')) : Beside H H' ⟨w, s, t⟩ ⟨w', s, t'⟩

/-- Steps of the first host alone. -/
theorem Leads.beside {C : State σ Call Answer ε α → Event Call Answer ε → Prop} {x y : State σ Call Answer ε α}
    {t : Option (Session Call' Answer' ε α)} (hrun : H.Leads C x y) :
    Relation.ReflTransGen (Beside H H') ⟨x.1, x.2, t⟩ ⟨y.1, y.2, t⟩ := by
  induction hrun with
  | refl => exact .refl
  | tail _ hlast ih =>
    obtain ⟨e, -, hstep⟩ := hlast
    exact ih.tail (.left e hstep)

/-- What each host keeps while its own program runs, both keep side by side, if the steps of one leave the world owing
what it owed to the program of the other. -/
theorem Beside.keeps {x y : Pair σ Call Answer Call' Answer' ε α}
    (hleft : ∀ x e y, H.Step x e y → Holds I J P Q x → Holds I J P Q y ∧ ∀ told, J' x.1 told → J' y.1 told)
    (hright : ∀ x e y, H'.Step x e y → Holds I J' P' Q' x → Holds I J' P' Q' y ∧ ∀ told, J x.1 told → J y.1 told)
    (hrun : Relation.ReflTransGen (Beside H H') x y)
    (h : Holds I J P Q (x.world, x.left) ∧ Holds I J' P' Q' (x.world, x.right)) :
    Holds I J P Q (y.world, y.left) ∧ Holds I J' P' Q' (y.world, y.right) := by
  induction hrun with
  | refl => exact h
  | tail _ hlast ih =>
    obtain ⟨hl, hr⟩ := ih
    cases hlast with
    | left e hstep =>
      obtain ⟨hl', howed⟩ := hleft _ _ _ hstep hl
      exact ⟨hl', hl'.1, fun s hs => ⟨howed _ (hr.2 s hs).1, (hr.2 s hs).2⟩⟩
    | right e hstep =>
      obtain ⟨hr', howed⟩ := hright _ _ _ hstep hr
      exact ⟨⟨hr'.1, fun s hs => ⟨howed _ (hl.2 s hs).1, (hl.2 s hs).2⟩⟩, hr'⟩

end

end Host

end Async

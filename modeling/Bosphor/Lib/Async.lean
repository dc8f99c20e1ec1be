import Mathlib.Data.List.Basic
import Mathlib.Data.List.Induction

/-!
# Programs that await calls

A program that awaits one call after another and goes on with the answer, or
with the error. `Async` is a monad with exceptions, so that a program reads
like its source.

* `wp P Q h p`: with the calls of `h` answered, every call `p` makes satisfies
  `P` and its end satisfies `Q`, both given all calls answered before it;
  `wp_bind`, `wp_tryCatch`, `wp_call`, `wp_next` take a program apart.
* `Calls C p`: every call `p` makes satisfies `C`, whatever came before;
  `wp_frame` turns it into a `wp`; `wp_stays`, `wp_forM` keep what no call
  undoes, the second through a loop. `Last D p`: a call that satisfies `D` is
  the last one `p` makes.
* `via f p`: `p` as a part of a program with more calls (`wp_via`, `calls_via`);
  `wp_behind`: a program that starts behind other calls.
* `Leads p h q`: once the calls of `h` are answered, `p` has become `q`
  (`wp_leads`); `Reaches o p q`: it does when `o` answers (`Reaches.bind`).
* `trace o p`, `result o p`: the calls that `p` makes and its end, when each
  call is answered by `o` (`trace_bind`, `result_bind`); they depend on `o` at
  the calls that `p` makes alone (`Calls.result_congr`).
-/

/-- A program that awaits calls `c`, each answered by an `Answer c` or an error. -/
inductive Async (Call : Type) (Answer : Call → Type) (ε α : Type) where
  | done (a : α)
  | fail (e : ε)
  | await (c : Call) (next : Except ε (Answer c) → Async Call Answer ε α)

namespace Async

variable {Call : Type} {Answer : Call → Type} {ε α β : Type}

protected def bind (p : Async Call Answer ε α) (f : α → Async Call Answer ε β) : Async Call Answer ε β :=
  match p with
  | .done a => f a
  | .fail e => .fail e
  | .await c next => .await c fun r => (next r).bind f

protected def tryCatch (p : Async Call Answer ε α) (handle : ε → Async Call Answer ε α) : Async Call Answer ε α :=
  match p with
  | .done a => .done a
  | .fail e => handle e
  | .await c next => .await c fun r => (next r).tryCatch handle

instance : Monad (Async Call Answer ε) where
  pure := .done
  bind := Async.bind

instance : MonadExceptOf ε (Async Call Answer ε) where
  throw := .fail
  tryCatch := Async.tryCatch

def ofExcept : Except ε α → Async Call Answer ε α
  | .ok a => .done a
  | .error e => .fail e

/-- The program that makes one call. -/
def call (c : Call) : Async Call Answer ε (Answer c) := .await c ofExcept

/-- The calls answered so far, with their answers. -/
abbrev History (Call : Type) (Answer : Call → Type) (ε : Type) := List (Σ c : Call, Except ε (Answer c))

/-- Every call that `p` makes satisfies `P` and its end satisfies `Q`, given the calls answered before. -/
def wp (P : History Call Answer ε → Call → Prop) (Q : History Call Answer ε → Except ε α → Prop)
    (h : History Call Answer ε) : Async Call Answer ε α → Prop
  | .done a => Q h (.ok a)
  | .fail e => Q h (.error e)
  | .await c next => P h c ∧ ∀ r, wp P Q (h ++ [⟨c, r⟩]) (next r)

variable {P P' : History Call Answer ε → Call → Prop} {Q Q' : History Call Answer ε → Except ε α → Prop}
  {R : History Call Answer ε → Except ε β → Prop} {h : History Call Answer ε}

@[simp] theorem wp_pure (a : α) : wp P Q h (pure a) ↔ Q h (.ok a) := Iff.rfl

@[simp] theorem wp_throw (e : ε) : wp P Q h (throw e) ↔ Q h (.error e) := Iff.rfl

theorem wp_ofExcept (r : Except ε α) : wp P Q h (ofExcept r) ↔ Q h r := by
  cases r <;> rfl

/-- A single call. -/
theorem wp_call (c : Call) {Q : History Call Answer ε → Except ε (Answer c) → Prop} :
    wp P Q h (call c) ↔ P h c ∧ ∀ r, Q (h ++ [⟨c, r⟩]) r := by
  simp only [call, wp, wp_ofExcept]

/-- What the rest of a program needs of the end of its first part. -/
def andThen (P : History Call Answer ε → Call → Prop) (R : History Call Answer ε → Except ε β → Prop)
    (f : α → Async Call Answer ε β) (h : History Call Answer ε) : Except ε α → Prop
  | .ok a => wp P R h (f a)
  | .error e => R h (.error e)

@[simp] theorem andThen_ok (f : α → Async Call Answer ε β) (a : α) : andThen P R f h (.ok a) ↔ wp P R h (f a) := Iff.rfl

@[simp] theorem andThen_error (f : α → Async Call Answer ε β) (e : ε) : andThen P R f h (.error e) ↔ R h (.error e) :=
  Iff.rfl

theorem wp_bind (p : Async Call Answer ε α) (f : α → Async Call Answer ε β) :
    wp P R h (p >>= f) ↔ wp P (andThen P R f) h p := by
  show wp P R h (p.bind f) ↔ _
  induction p generalizing h with
  | done a => exact Iff.rfl
  | fail e => exact Iff.rfl
  | await c next ih =>
    simp only [Async.bind, wp]
    exact and_congr_right fun _ => forall_congr' fun r => ih r

/-- A call, and the program that goes on with its answer. -/
theorem wp_next {c : Call} {f : Answer c → Async Call Answer ε β} (hc : P h c)
    (hok : ∀ a, wp P R (h ++ [⟨c, .ok a⟩]) (f a)) (herror : ∀ e, R (h ++ [⟨c, .error e⟩]) (.error e)) :
    wp P R h (call c >>= f) := by
  rw [wp_bind, wp_call]
  refine ⟨hc, fun r => ?_⟩
  cases r with
  | ok a => exact hok a
  | error e => exact herror e

/-- What a handler needs of the end of the program it guards. -/
def orElse (P : History Call Answer ε → Call → Prop) (Q : History Call Answer ε → Except ε α → Prop)
    (handle : ε → Async Call Answer ε α) (h : History Call Answer ε) : Except ε α → Prop
  | .ok a => Q h (.ok a)
  | .error e => wp P Q h (handle e)

@[simp] theorem orElse_ok (handle : ε → Async Call Answer ε α) (a : α) : orElse P Q handle h (.ok a) ↔ Q h (.ok a) :=
  Iff.rfl

@[simp] theorem orElse_error (handle : ε → Async Call Answer ε α) (e : ε) :
    orElse P Q handle h (.error e) ↔ wp P Q h (handle e) := Iff.rfl

theorem wp_tryCatch (p : Async Call Answer ε α) (handle : ε → Async Call Answer ε α) :
    wp P Q h (tryCatch p handle) ↔ wp P (orElse P Q handle) h p := by
  show wp P Q h (p.tryCatch handle) ↔ _
  induction p generalizing h with
  | done a => exact Iff.rfl
  | fail e => exact Iff.rfl
  | await c next ih =>
    simp only [Async.tryCatch, wp]
    exact and_congr_right fun _ => forall_congr' fun r => ih r

/-- Weaker demands are met by the same program. -/
theorem wp_mono {p : Async Call Answer ε α} (hp : wp P Q h p) (hP : ∀ h c, P h c → P' h c)
    (hQ : ∀ h r, Q h r → Q' h r) : wp P' Q' h p := by
  induction p generalizing h with
  | done a => exact hQ _ _ hp
  | fail e => exact hQ _ _ hp
  | await c next ih => exact ⟨hP _ _ hp.1, fun r => ih r (hp.2 r)⟩

/-- Every call that `p` makes satisfies `C`, whatever is answered. -/
def Calls (C : Call → Prop) : Async Call Answer ε α → Prop
  | .done _ => True
  | .fail _ => True
  | .await c next => C c ∧ ∀ r, Calls C (next r)

variable {C C' : Call → Prop}

@[simp] theorem calls_pure (a : α) : Calls C (pure a : Async Call Answer ε α) := trivial

@[simp] theorem calls_throw (e : ε) : Calls C (throw e : Async Call Answer ε α) := trivial

theorem calls_call {c : Call} (h : C c) : Calls C (call c : Async Call Answer ε (Answer c)) := by
  refine ⟨h, fun r => ?_⟩
  cases r <;> trivial

theorem Calls.bind {p : Async Call Answer ε α} {f : α → Async Call Answer ε β} (hp : Calls C p)
    (hf : ∀ a, Calls C (f a)) : Calls C (p >>= f) := by
  show Calls C (p.bind f)
  induction p with
  | done a => exact hf a
  | fail e => trivial
  | await c next ih => exact ⟨hp.1, fun r => ih r (hp.2 r)⟩

theorem Calls.tryCatch {p : Async Call Answer ε α} {handle : ε → Async Call Answer ε α} (hp : Calls C p)
    (hhandle : ∀ e, Calls C (handle e)) : Calls C (tryCatch p handle) := by
  show Calls C (p.tryCatch handle)
  induction p with
  | done a => trivial
  | fail e => exact hhandle e
  | await c next ih => exact ⟨hp.1, fun r => ih r (hp.2 r)⟩

theorem Calls.mono {p : Async Call Answer ε α} (hp : Calls C p) (h : ∀ c, C c → C' c) : Calls C' p := by
  induction p with
  | done a => trivial
  | fail e => trivial
  | await c next ih => exact ⟨h c hp.1, fun r => ih r (hp.2 r)⟩

/-- After a call that satisfies `D`, `p` makes no other. -/
def Last (D : Call → Prop) : Async Call Answer ε α → Prop
  | .done _ => True
  | .fail _ => True
  | .await c next => ∀ r, (D c → Calls (fun _ => False) (next r)) ∧ Last D (next r)

variable {D : Call → Prop}

@[simp] theorem last_pure (a : α) : Last D (pure a : Async Call Answer ε α) := trivial

/-- A program that makes no such call. -/
theorem Calls.last {p : Async Call Answer ε α} (hp : Calls (fun c => ¬D c) p) : Last D p := by
  induction p with
  | done a => trivial
  | fail e => trivial
  | await c next ih => exact fun r => ⟨fun hD => absurd hD hp.1, ih r (hp.2 r)⟩

theorem Calls.bind_last {p : Async Call Answer ε α} {f : α → Async Call Answer ε β}
    (hp : Calls (fun c => ¬D c) p) (hf : ∀ a, Last D (f a)) : Last D (p >>= f) := by
  show Last D (p.bind f)
  induction p with
  | done a => exact hf a
  | fail e => trivial
  | await c next ih => exact fun r => ⟨fun hD => absurd hD hp.1, ih r (hp.2 r)⟩

/-- A call before an end without calls. -/
theorem last_call {c : Call} {f : Answer c → Async Call Answer ε α} (hf : ∀ a, Calls (fun _ => False) (f a)) :
    Last D (call c >>= f) := by
  intro r
  cases r with
  | ok a => exact ⟨fun _ => hf a, ((hf a).mono fun _ => False.elim).last⟩
  | error e => exact ⟨fun _ => trivial, trivial⟩

/-- What the answered calls have established, and the calls `C` do not undo, holds to the end. -/
theorem wp_frame {I : History Call Answer ε → Prop} (hI : ∀ h c r, C c → I h → I (h ++ [⟨c, r⟩]))
    (hP : ∀ h c, I h → C c → P h c) (hQ : ∀ h r, I h → Q h r) {p : Async Call Answer ε α} (hp : Calls C p)
    (h₀ : I h) : wp P Q h p := by
  induction p generalizing h with
  | done a => exact hQ _ _ h₀
  | fail e => exact hQ _ _ h₀
  | await c next ih => exact ⟨hP _ _ h₀ hp.1, fun r => ih r (hp.2 r) (hI _ _ _ hp.1 h₀)⟩

/-- What the calls `C` do not undo holds to the end of a program that makes no others. -/
theorem wp_keep {I : History Call Answer ε → Prop} (hI : ∀ h c r, C c → I h → I (h ++ [⟨c, r⟩]))
    {p : Async Call Answer ε α} (hp : wp P Q h p) (hcalls : Calls C p) (h₀ : I h) :
    wp P (fun h r => Q h r ∧ I h) h p := by
  induction p generalizing h with
  | done a => exact ⟨hp, h₀⟩
  | fail e => exact ⟨hp, h₀⟩
  | await c next ih => exact ⟨hp.1, fun r => ih r (hp.2 r) (hcalls.2 r) (hI _ _ _ hcalls.1 h₀)⟩

theorem calls_true (p : Async Call Answer ε α) : Calls (fun _ => True) p := by
  induction p with
  | done a => trivial
  | fail e => trivial
  | await c next ih => exact ⟨trivial, ih⟩

theorem Calls.of_wp {p : Async Call Answer ε α} (hp : wp (fun _ => C) Q h p) : Calls C p := by
  induction p generalizing h with
  | done a => trivial
  | fail e => trivial
  | await c next ih => exact ⟨hp.1, fun r => ih r (hp.2 r)⟩

/-- What no call undoes holds to the end. -/
theorem wp_stays {I : History Call Answer ε → Prop} (hI : ∀ h x, I h → I (h ++ [x])) {p : Async Call Answer ε α}
    (hp : wp P Q h p) (h₀ : I h) : wp P (fun h r => Q h r ∧ I h) h p :=
  wp_keep (fun h c r _ => hI h ⟨c, r⟩) hp (calls_true p) h₀

/-- What no call undoes holds all along. -/
theorem wp_along {I : History Call Answer ε → Prop} (hI : ∀ h x, I h → I (h ++ [x])) {p : Async Call Answer ε α}
    (hp : wp P Q h p) (h₀ : I h) : wp (fun h c => P h c ∧ I h) (fun h r => Q h r ∧ I h) h p := by
  induction p generalizing h with
  | done a => exact ⟨hp, h₀⟩
  | fail e => exact ⟨hp, h₀⟩
  | await c next ih => exact ⟨⟨hp.1, h₀⟩, fun r => ih r (hp.2 r) (hI h ⟨c, r⟩ h₀)⟩

/-- A loop that comes to its end has done for each element what the body does for it. -/
theorem wp_forM {xs : List β} {f : β → Async Call Answer ε PUnit} {K : History Call Answer ε → β → Prop}
    (hK : ∀ h x b, K h b → K (h ++ [x]) b) (hf : ∀ b ∈ xs, ∀ h, wp P (fun h r => r = .ok ⟨⟩ → K h b) h (f b)) :
    wp P (fun h r => r = .ok ⟨⟩ → ∀ b ∈ xs, K h b) h (xs.forM f) := by
  induction xs generalizing h with
  | nil => exact fun _ b hb => absurd hb List.not_mem_nil
  | cons b xs ih =>
    show wp P _ h (f b >>= fun _ => xs.forM f)
    rw [wp_bind]
    refine wp_mono (hf b List.mem_cons_self h) (fun _ _ => id) fun h r hr => ?_
    cases r with
    | error e =>
      intro he
      cases he
    | ok _ =>
      rw [andThen_ok]
      refine wp_mono (wp_stays (fun h x => hK h x b) (ih fun b hb => hf b (List.mem_cons_of_mem _ hb)) (hr rfl))
        (fun _ _ => id) fun h r hr hok b' hb' => ?_
      obtain rfl | hb' := List.mem_cons.mp hb'
      · exact hr.2
      · exact hr.1 hok b' hb'

section

variable {Call' : Type} {Answer' : Call' → Type}

/-- The program, with its calls made as calls of another kind. -/
def via (f : Call → Call') : Async Call (fun c => Answer' (f c)) ε α → Async Call' Answer' ε α
  | .done a => .done a
  | .fail e => .fail e
  | .await c next => .await (f c) fun r => (next r).via f

/-- What holds of a program holds of it in the place of a part of a larger one, of whose calls `g` keeps those of the
part. -/
theorem wp_via {f : Call → Call'} {g : History Call' Answer' ε → History Call (fun c => Answer' (f c)) ε}
    (hg : ∀ h c r, g (h ++ [⟨f c, r⟩]) = g h ++ [⟨c, r⟩])
    {P : History Call (fun c => Answer' (f c)) ε → Call → Prop} {P' : History Call' Answer' ε → Call' → Prop}
    {Q : History Call (fun c => Answer' (f c)) ε → Except ε α → Prop} {Q' : History Call' Answer' ε → Except ε α → Prop}
    (hP : ∀ h c, P (g h) c → P' h (f c)) (hQ : ∀ h r, Q (g h) r → Q' h r) {h : History Call' Answer' ε}
    {p : Async Call (fun c => Answer' (f c)) ε α} (hp : wp P Q (g h) p) : wp P' Q' h (p.via f) := by
  induction p generalizing h with
  | done a => exact hQ _ _ hp
  | fail e => exact hQ _ _ hp
  | await c next ih =>
    refine ⟨hP _ _ hp.1, fun r => ih r ?_⟩
    rw [hg]
    exact hp.2 r

theorem calls_via (f : Call → Call') (p : Async Call (fun c => Answer' (f c)) ε α) :
    Calls (fun c => ∃ d, c = f d) (p.via f) := by
  induction p with
  | done a => trivial
  | fail e => trivial
  | await c next ih => exact ⟨⟨c, rfl⟩, ih⟩

end

/-- What holds of a program holds of it behind other calls. -/
theorem wp_behind {p : Async Call Answer ε α} (h₀ : History Call Answer ε) (hp : wp P Q h p) :
    wp (fun h' c => ∃ t, h' = h₀ ++ t ∧ P t c) (fun h' r => ∃ t, h' = h₀ ++ t ∧ Q t r) (h₀ ++ h) p := by
  induction p generalizing h with
  | done a => exact ⟨h, rfl, hp⟩
  | fail e => exact ⟨h, rfl, hp⟩
  | await c next ih =>
    refine ⟨⟨h, rfl, hp.1⟩, fun r => ?_⟩
    rw [List.append_assoc]
    exact ih r (hp.2 r)

/-- `p`, once the calls of `h` were answered, is `q`. -/
inductive Leads (p : Async Call Answer ε α) : History Call Answer ε → Async Call Answer ε α → Prop
  | start : Leads p [] p
  | answer {h c next} (hp : Leads p h (.await c next)) (r : Except ε (Answer c)) : Leads p (h ++ [⟨c, r⟩]) (next r)

theorem Leads.calls {p q : Async Call Answer ε α} (hlead : Leads p h q) (hp : Calls C p) : Calls C q := by
  induction hlead with
  | start => exact hp
  | answer _ r ih => exact ih.2 r

theorem Leads.last {p q : Async Call Answer ε α} (hlead : Leads p h q) (hp : Last D p) : Last D q := by
  induction hlead with
  | start => exact hp
  | answer _ r ih => exact (ih r).2

/-- The first part of a program on its way. -/
theorem Leads.bind {p q : Async Call Answer ε α} (hlead : Leads p h q) (f : α → Async Call Answer ε β) :
    Leads (p >>= f) h (q >>= f) := by
  induction hlead with
  | start => exact .start
  | answer _ r ih => exact ih.answer r

theorem Leads.trans {p q q' : Async Call Answer ε α} {h' : History Call Answer ε} (hlead : Leads p h q)
    (hmore : Leads q h' q') : Leads p (h ++ h') q' := by
  induction hmore with
  | start => rwa [List.append_nil]
  | answer _ r ih =>
    rw [← List.append_assoc]
    exact ih.answer r

theorem Leads.nil {p q : Async Call Answer ε α} (hlead : Leads p [] q) : q = p := by
  generalize hnil : ([] : History Call Answer ε) = h at hlead
  cases hlead with
  | start => rfl
  | answer _ r => simp at hnil

/-- What was answered determines what is left. -/
theorem Leads.unique {p q q' : Async Call Answer ε α} (hlead : Leads p h q) (hlead' : Leads p h q') : q = q' := by
  induction hlead generalizing q' with
  | start => exact hlead'.nil.symm
  | @answer h c next hp r ih =>
    generalize hsame : h ++ [(⟨c, r⟩ : Σ c : Call, Except ε (Answer c))] = h' at hlead'
    cases hlead' with
    | start => simp at hsame
    | @answer h' c' next' hp' r' =>
      obtain ⟨rfl, hlast⟩ := List.append_inj' hsame rfl
      cases hlast
      cases ih hp'
      rfl

/-- A program that came to its end was told nothing more. -/
theorem Leads.ended {p q : Async Call Answer ε α} {a : α} {t : History Call Answer ε} (hlead : Leads p h (.done a))
    (hmore : Leads p (h ++ t) q) : t = [] := by
  induction t using List.reverseRecOn generalizing q with
  | nil => rfl
  | append_singleton t x ih =>
    generalize hsame : h ++ (t ++ [x]) = h' at hmore
    cases hmore with
    | start => simp at hsame
    | @answer h' c next hp r =>
      rw [← List.append_assoc] at hsame
      obtain ⟨rfl, -⟩ := List.append_inj' hsame rfl
      obtain rfl := ih hp
      rw [List.append_nil] at hp
      cases hlead.unique hp

/-- Of two ends that what was told begins with, there is one. -/
theorem Leads.end_unique {p : Async Call Answer ε α} {a a' : α} {s s' t t' : History Call Answer ε}
    (hlead : Leads p s (.done a)) (hlead' : Leads p s' (.done a')) (hsame : s ++ t = s' ++ t') : s = s' ∧ a = a' := by
  have hbegins : s = s' := by
    obtain ⟨u, rfl, -⟩ | ⟨u, rfl, -⟩ := List.append_eq_append_iff.mp hsame
    · rw [hlead.ended hlead', List.append_nil]
    · rw [hlead'.ended hlead, List.append_nil]
  subst hbegins
  cases hlead.unique hlead'
  exact ⟨rfl, rfl⟩

theorem wp_ends_from {p q : Async Call Answer ε α} {t : History Call Answer ε} (hlead : Leads p t q) :
    wp (fun _ _ => True) (fun h' r => ∃ t, h' = h ++ t ∧ Leads p t (ofExcept r)) (h ++ t) q := by
  induction q generalizing t with
  | done a => exact ⟨t, rfl, hlead⟩
  | fail e => exact ⟨t, rfl, hlead⟩
  | await c next ih =>
    refine ⟨trivial, fun r => ?_⟩
    rw [List.append_assoc]
    exact ih r (hlead.answer r)

/-- A program ends as what it was told leads it to. -/
theorem wp_ends (p : Async Call Answer ε α) :
    wp (fun _ _ => True) (fun h' r => ∃ t, h' = h ++ t ∧ Leads p t (ofExcept r)) h p := by
  have hwp := wp_ends_from (h := h) (.start : Leads p [] p)
  rwa [List.append_nil] at hwp

/-- Two things that hold of a program hold together. -/
theorem wp_and {p : Async Call Answer ε α} (hp : wp P Q h p) (hp' : wp P' Q' h p) :
    wp (fun h c => P h c ∧ P' h c) (fun h r => Q h r ∧ Q' h r) h p := by
  induction p generalizing h with
  | done a => exact ⟨hp, hp'⟩
  | fail e => exact ⟨hp, hp'⟩
  | await c next ih => exact ⟨⟨hp.1, hp'.1⟩, fun r => ih r (hp.2 r) (hp'.2 r)⟩

/-- What holds of a program holds of what it leads to. -/
theorem wp_leads {p q : Async Call Answer ε α} (hp : wp P Q [] p) (hlead : Leads p h q) : wp P Q h q := by
  induction hlead with
  | start => exact hp
  | answer _ r ih => exact ih.2 r

/-! ## With the answers given -/

/-- The calls that `p` makes when `o` answers them. -/
def trace (o : ∀ c, Except ε (Answer c)) : Async Call Answer ε α → List Call
  | .done _ => []
  | .fail _ => []
  | .await c next => c :: trace o (next (o c))

/-- What `p` comes to when `o` answers its calls. -/
def result (o : ∀ c, Except ε (Answer c)) : Async Call Answer ε α → Except ε α
  | .done a => .ok a
  | .fail e => .error e
  | .await c next => result o (next (o c))

variable {o o' : ∀ c, Except ε (Answer c)}

@[simp] theorem result_pure (a : α) : result o (pure a : Async Call Answer ε α) = .ok a := rfl

@[simp] theorem result_throw (e : ε) : result o (throw e : Async Call Answer ε α) = .error e := rfl

@[simp] theorem result_call (c : Call) : result o (call c : Async Call Answer ε (Answer c)) = o c := by
  show result o (ofExcept (o c)) = o c
  cases o c <;> rfl

@[simp] theorem result_bind (p : Async Call Answer ε α) (f : α → Async Call Answer ε β) :
    result o (p >>= f) = result o p >>= fun a => result o (f a) := by
  show result o (p.bind f) = _
  induction p with
  | done a => rfl
  | fail e => rfl
  | await c next ih => exact ih (o c)

/-- A first part that came to its end. -/
theorem result_next {p : Async Call Answer ε α} {f : α → Async Call Answer ε β} {a : α} (h : result o p = .ok a) :
    result o (p >>= f) = result o (f a) := by
  rw [result_bind, h]
  rfl

@[simp] theorem result_tryCatch (p : Async Call Answer ε α) (handle : ε → Async Call Answer ε α) :
    result o (tryCatch p handle) = tryCatch (result o p) fun e => result o (handle e) := by
  show result o (p.tryCatch handle) = _
  induction p with
  | done a => rfl
  | fail e => rfl
  | await c next ih => exact ih (o c)

/-- The calls that `p` makes when `o` answers them, with their answers. -/
def tale (o : ∀ c, Except ε (Answer c)) : Async Call Answer ε α → History Call Answer ε
  | .done _ => []
  | .fail _ => []
  | .await c next => ⟨c, o c⟩ :: tale o (next (o c))

theorem tale_answers (p : Async Call Answer ε α) : ∀ x ∈ tale o p, x.2 = o x.1 := by
  induction p with
  | done a => simp [tale]
  | fail e => simp [tale]
  | await c next ih =>
    intro x hx
    obtain rfl | hx := List.mem_cons.mp hx
    · rfl
    · exact ih (o c) x hx

theorem mem_tale {p : Async Call Answer ε α} {c : Call} (hc : c ∈ trace o p) : ⟨c, o c⟩ ∈ tale o p := by
  induction p with
  | done a => exact absurd hc List.not_mem_nil
  | fail e => exact absurd hc List.not_mem_nil
  | await d next ih =>
    obtain rfl | hc := List.mem_cons.mp hc
    · exact List.mem_cons_self
    · exact List.mem_cons_of_mem _ (ih (o d) hc)

/-- A program comes to the same end from wherever the answers of `o` lead it. -/
theorem Leads.result {p q : Async Call Answer ε α} (hlead : Leads p h q) (ho : ∀ x ∈ h, x.2 = o x.1) :
    Async.result o p = Async.result o q := by
  induction hlead with
  | start => rfl
  | @answer h c next _ r ih =>
    have hr : r = o c := ho ⟨c, r⟩ (by simp)
    rw [ih fun x hx => ho x (List.mem_append_left _ hx), hr]
    rfl

/-- What the calls of two parts satisfy, the calls of the whole satisfy. -/
theorem trace_bind {p : Async Call Answer ε α} {f : α → Async Call Answer ε β} (hp : ∀ c ∈ trace o p, C c)
    (hf : ∀ a, result o p = .ok a → ∀ c ∈ trace o (f a), C c) : ∀ c ∈ trace o (p >>= f), C c := by
  show ∀ c ∈ trace o (p.bind f), C c
  induction p with
  | done a => exact hf a rfl
  | fail e => exact hp
  | await c next ih =>
    intro d hd
    obtain rfl | hd := List.mem_cons.mp hd
    · exact hp _ List.mem_cons_self
    · exact ih (o c) (fun d hd => hp d (List.mem_cons_of_mem _ hd)) hf d hd

theorem Calls.trace {p : Async Call Answer ε α} (hp : Calls C p) : ∀ c ∈ Async.trace o p, C c := by
  induction p with
  | done a => simp [Async.trace]
  | fail e => simp [Async.trace]
  | await c next ih =>
    intro d hd
    obtain rfl | hd := List.mem_cons.mp hd
    · exact hp.1
    · exact ih (o c) (hp.2 (o c)) d hd

/-- The end of a program whose calls `o` answers is one of those that were demanded. -/
theorem wp_result {p : Async Call Answer ε α} (hp : wp P Q h p) (o : ∀ c, Except ε (Answer c)) :
    ∃ h', (∀ x ∈ h', x.2 = o x.1) ∧ Q (h ++ h') (result o p) := by
  induction p generalizing h with
  | done a =>
    refine ⟨[], by simp, ?_⟩
    rwa [List.append_nil]
  | fail e =>
    refine ⟨[], by simp, ?_⟩
    rwa [List.append_nil]
  | await c next ih =>
    obtain ⟨h', ho, hQ⟩ := ih (o c) (hp.2 (o c))
    refine ⟨⟨c, o c⟩ :: h', fun x hx => ?_, ?_⟩
    · obtain rfl | hx := List.mem_cons.mp hx
      · rfl
      · exact ho x hx
    · rwa [List.append_assoc] at hQ

/-- The answers of `o` lead `p` to `q`. -/
def Reaches (o : ∀ c, Except ε (Answer c)) (p q : Async Call Answer ε α) : Prop :=
  ∃ h, (∀ x ∈ h, x.2 = o x.1) ∧ Leads p h q

theorem reaches_result (o : ∀ c, Except ε (Answer c)) (p : Async Call Answer ε α) :
    Reaches o p (ofExcept (result o p)) := by
  obtain ⟨h, ho, h', hsame, hlead⟩ := wp_result (wp_ends (h := []) p) o
  obtain rfl : h = h' := hsame
  exact ⟨h, ho, hlead⟩

/-- A first part that comes to its end, and what the rest is led to. -/
theorem Reaches.bind {p : Async Call Answer ε α} {f : α → Async Call Answer ε β} {a : α} {q : Async Call Answer ε β}
    (hp : result o p = .ok a) (hf : Reaches o (f a) q) : Reaches o (p >>= f) q := by
  obtain ⟨h, ho, hlead⟩ := reaches_result o p
  obtain ⟨h', ho', hlead'⟩ := hf
  rw [hp] at hlead
  refine ⟨h ++ h', fun x hx => (List.mem_append.mp hx).elim (ho x) (ho' x), ?_⟩
  have hfirst : Leads (p >>= f) h (f a) := hlead.bind f
  exact hfirst.trans hlead'

/-- Answers that agree on the calls of a program lead it to the same end. -/
theorem Calls.result_congr {p : Async Call Answer ε α} (hp : Calls C p) (ho : ∀ c, C c → o' c = o c) :
    result o' p = result o p := by
  induction p with
  | done a => rfl
  | fail e => rfl
  | await c next ih =>
    show result o' (next (o' c)) = result o (next (o c))
    rw [ho c hp.1]
    exact ih (o c) (hp.2 (o c))

end Async

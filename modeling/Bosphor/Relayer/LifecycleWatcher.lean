import Mathlib.Logic.Function.Basic
import Bosphor.Lib.Feed
import Bosphor.Lib.Host
import Bosphor.Relayer.Lifecycle

/-!
# The lifecycle watchers

What the watchers of the origins have in common: a cursor in memory, which is
seeded when the relayer starts, and polls that fetch what came after it, record
its hops in the lifecycle store, and move it. A watcher is a `bootstrap` and a
`poll`; `WatchHost` is what it runs in. If a poll that goes from `c` to `c'`
fetches every event between the two (`Fetches`), the watcher records every event
since its first cursor, as long as the store does not fail (`watch_covers`).
-/

namespace Bosphor.Relayer

open StagedIntentStore Async

/-- A hop of an intent, as a watcher records it. -/
structure TrackedHop where
  intentId : IntentId
  hop : IntentHop
  details : HopDetails
  deriving DecidableEq

/-- The calls of a watcher: its queries of the chain, the record of a hop, and the assignment of its cursor. -/
inductive WatcherCall (Rpc Cursor : Type) where
  | rpc (q : Rpc)
  | recordHop (hop : TrackedHop)
  | setCursor (c : Cursor)

abbrev WatcherCall.Answer {Rpc Cursor : Type} (Reply : Rpc → Type) : WatcherCall Rpc Cursor → Type
  | .rpc q => Reply q
  | _ => Unit

/-- A call that queries the chain. -/
def WatcherCall.Queries {Rpc Cursor : Type} : WatcherCall Rpc Cursor → Prop
  | .rpc _ => True
  | _ => False

/-- A program of a watcher; an error is known by its message. -/
abbrev WatcherProgram (Rpc Cursor : Type) (Reply : Rpc → Type) :=
  Async (WatcherCall Rpc Cursor) (WatcherCall.Answer Reply) String

namespace Watcher

variable {Rpc Cursor χ Item : Type} {Reply : Rpc → Type}

/-- A failure to record a hop is logged and dropped. -/
def trackHop (hop : TrackedHop) : WatcherProgram Rpc Cursor Reply Unit :=
  tryCatch (call (WatcherCall.recordHop hop)) fun _ => return ()

def pollOnce (poll : Cursor → WatcherProgram Rpc Cursor Reply (List TrackedHop × Cursor)) (cursor : Cursor) :
    WatcherProgram Rpc Cursor Reply Cursor := do
  let (hops, newCursor) ← poll cursor
  hops.forM trackHop
  call (WatcherCall.setCursor newCursor)
  return newCursor

/-- The polls of the interval, one at a time; one that fails is logged. -/
def scheduledPolls (poll : Cursor → WatcherProgram Rpc Cursor Reply (List TrackedHop × Cursor)) (polls : Nat)
    (cursor : Cursor) : WatcherProgram Rpc Cursor Reply Unit :=
  match polls with
  | 0 => return ()
  | polls + 1 => do
    let cursor ← tryCatch (pollOnce poll cursor) fun _ => return cursor
    scheduledPolls poll polls cursor

def watch (bootstrap : WatcherProgram Rpc Cursor Reply Cursor)
    (poll : Cursor → WatcherProgram Rpc Cursor Reply (List TrackedHop × Cursor)) (polls : Nat) :
    WatcherProgram Rpc Cursor Reply Unit := do
  let cursor ← bootstrap
  call (WatcherCall.setCursor cursor)
  scheduledPolls poll polls cursor

/-! ## What it runs in -/

/-- The chain, the lifecycle store, and the watcher's cursor. -/
structure World (χ Cursor : Type) where
  chain : χ
  records : IntentId → Option IntentLifecycleRecord := fun _ => none
  /-- The hops that were recorded. -/
  recorded : List TrackedHop := []
  cursor : Option Cursor := none
  /-- The cursor as it was seeded. -/
  initial : Option Cursor := none

def World.record (w : World χ Cursor) (h : TrackedHop) (now : Nat) : World χ Cursor :=
  { w with
    records := Function.update w.records h.intentId
      (some (applyHop (w.records h.intentId) h.intentId h.hop h.details now))
    recorded := h :: w.recorded }

def World.setCursor (w : World χ Cursor) (c : Cursor) : World χ Cursor :=
  { w with cursor := some c, initial := w.initial.orElse fun _ => some c }

/-- How a call is answered; `reads` says how a query is. -/
inductive Serves (reads : χ → (q : Rpc) → Except String (Reply q) → Prop) :
    World χ Cursor → (c : WatcherCall Rpc Cursor) → Except String (c.Answer Reply) → World χ Cursor → Prop
  | rpc {w q r} (h : reads w.chain q r) : Serves reads w (.rpc q) r w
  | recordHop {w hop} (now) : Serves reads w (.recordHop hop) (.ok ()) (w.record hop now)
  | recordHopFails {w hop} (e) : Serves reads w (.recordHop hop) (.error e) w
  -- the record may have been made all the same
  | recordHopLost {w hop} (e) (now) : Serves reads w (.recordHop hop) (.error e) (w.record hop now)
  | setCursor {w c} : Serves reads w (.setCursor c) (.ok ()) (w.setCursor c)

/-- The relayer is started again and again, while the chain grows and others record hops. -/
def WatchHost (F : Feed χ Cursor Item) (reads : χ → (q : Rpc) → Except String (Reply q) → Prop)
    (bootstrap : WatcherProgram Rpc Cursor Reply Cursor)
    (poll : Cursor → WatcherProgram Rpc Cursor Reply (List TrackedHop × Cursor)) :
    Host (World χ Cursor) (WatcherCall Rpc Cursor) (WatcherCall.Answer Reply) String Unit where
  starts w p w' := w' = { w with cursor := none, initial := none } ∧ ∃ polls, p = watch bootstrap poll polls
  serves := Serves reads
  moves w w' := (∃ chain, F.grows w.chain chain ∧ w' = { w with chain := chain }) ∨ ∃ h now, w' = w.record h now

/-! ## What a poll fetches -/

/-- What the watcher was told. -/
abbrev Told (Rpc Cursor : Type) (Reply : Rpc → Type) :=
    History (WatcherCall Rpc Cursor) (WatcherCall.Answer Reply) String

variable {F : Feed χ Cursor Item} {hopOf : Item → TrackedHop} {trusted : χ → (q : Rpc) → Except String (Reply q) → Prop}
  {h : Told Rpc Cursor Reply}

/-- The answers to the queries say `trusted` of the chain. -/
def Trusts (trusted : χ → (q : Rpc) → Except String (Reply q) → Prop) (s : χ) (h : Told Rpc Cursor Reply) : Prop :=
  ∀ q r, ⟨.rpc q, r⟩ ∈ h → trusted s q r

/-- As far as the answers are to be trusted, `c` is a cursor of the chain. -/
def Seeds (F : Feed χ Cursor Item) (trusted : χ → (q : Rpc) → Except String (Reply q) → Prop)
    (h : Told Rpc Cursor Reply) (c : Cursor) : Prop := ∀ s, Trusts trusted s h → F.marks s c

/-- As far as the answers are to be trusted, the hops of all events between `c` and `c'` are among those fetched. -/
def Fetched (F : Feed χ Cursor Item) (hopOf : Item → TrackedHop)
    (trusted : χ → (q : Rpc) → Except String (Reply q) → Prop)
    (h : Told Rpc Cursor Reply) (c : Cursor) (hops : List TrackedHop) (c' : Cursor) : Prop :=
  ∀ s, Trusts trusted s h → F.marks s c → F.marks s c' ∧ F.Covered s c c' fun x => hopOf x ∈ hops

/-- A watcher whose polls leave no event out. -/
structure Fetches (F : Feed χ Cursor Item) (hopOf : Item → TrackedHop)
    (trusted : χ → (q : Rpc) → Except String (Reply q) → Prop) (bootstrap : WatcherProgram Rpc Cursor Reply Cursor)
    (poll : Cursor → WatcherProgram Rpc Cursor Reply (List TrackedHop × Cursor)) : Prop where
  bootstrap : wp (fun _ c => c.Queries) (fun h r => ∀ c, r = .ok c → Seeds F trusted h c) [] bootstrap
  poll : ∀ h c, wp (fun _ c => c.Queries)
    (fun h r => ∀ hops c', r = .ok (hops, c') → Fetched F hopOf trusted h c hops c') h (poll c)
  grows : ∀ s t q r, F.grows s t → trusted s q r → trusted t q r

/-! ## What a watcher does before it moves its cursor -/

variable {bootstrap : WatcherProgram Rpc Cursor Reply Cursor}
  {poll : Cursor → WatcherProgram Rpc Cursor Reply (List TrackedHop × Cursor)}

def Tried (h : Told Rpc Cursor Reply) (hop : TrackedHop) : Prop := ∃ r, ⟨.recordHop hop, r⟩ ∈ h

/-- The cursor was assigned. -/
def At (h : Told Rpc Cursor Reply) (c : Cursor) : Prop := ∃ r, ⟨.setCursor c, r⟩ ∈ h

def Unset (h : Told Rpc Cursor Reply) : Prop := ∀ x ∈ h, ∀ c, x.1 ≠ .setCursor c

/-- The cursor is seeded once, and moved when every hop that was fetched was handed to the store. -/
def Allowed (F : Feed χ Cursor Item) (hopOf : Item → TrackedHop)
    (trusted : χ → (q : Rpc) → Except String (Reply q) → Prop) (h : Told Rpc Cursor Reply) :
    WatcherCall Rpc Cursor → Prop
  | .setCursor c' => (Unset h ∧ Seeds F trusted h c') ∨
    ∃ c hops, At h c ∧ Fetched F hopOf trusted h c hops c' ∧ ∀ hop ∈ hops, Tried h hop
  | _ => True

theorem Trusts.of_append {s : χ} {h' : Told Rpc Cursor Reply} (htrusts : Trusts trusted s (h ++ h')) :
    Trusts trusted s h :=
  fun q r hmem => htrusts q r (List.mem_append_left _ hmem)

theorem Fetched.append {c c' : Cursor} {hops : List TrackedHop} (hfetched : Fetched F hopOf trusted h c hops c')
    (h' : Told Rpc Cursor Reply) : Fetched F hopOf trusted (h ++ h') c hops c' :=
  fun s htrusts => hfetched s htrusts.of_append

theorem Tried.append {hop : TrackedHop} (htried : Tried h hop) (h' : Told Rpc Cursor Reply) : Tried (h ++ h') hop := by
  obtain ⟨r, hr⟩ := htried
  exact ⟨r, List.mem_append_left _ hr⟩

theorem At.append {c : Cursor} (hat : At h c) (h' : Told Rpc Cursor Reply) : At (h ++ h') c := by
  obtain ⟨r, hr⟩ := hat
  exact ⟨r, List.mem_append_left _ hr⟩

theorem WatcherCall.Queries.allowed {c : WatcherCall Rpc Cursor} (hc : c.Queries) : Allowed F hopOf trusted h c := by
  cases c with
  | rpc q => trivial
  | recordHop hop | setCursor c => exact hc.elim

theorem trackHop_tries (hop : TrackedHop) : wp (Allowed F hopOf trusted) (fun h _ => Tried h hop) h (trackHop hop) := by
  unfold trackHop
  refine (wp_tryCatch _ _).mpr ((wp_call _).mpr ⟨trivial, fun r => ?_⟩)
  have htried : Tried (h ++ [⟨.recordHop hop, r⟩]) hop := ⟨r, List.mem_append_right _ (List.mem_singleton_self _)⟩
  cases r <;> exact htried

theorem pollOnce_allowed (hfetches : Fetches F hopOf trusted bootstrap poll) {c : Cursor} (hat : At h c) :
    wp (Allowed F hopOf trusted) (fun h r => At h c ∧ ∀ c', r = .ok c' → At h c') h (pollOnce poll c) := by
  have hstays : ∀ (h : Told Rpc Cursor Reply) x, At h c → At (h ++ [x]) c := fun h x hat => hat.append _
  unfold pollOnce
  rw [wp_bind]
  refine wp_mono (wp_stays hstays (hfetches.poll h c) hat) (fun _ _ => WatcherCall.Queries.allowed) fun h r hr => ?_
  obtain ⟨hfetched, hat⟩ := hr
  cases r with
  | error e => exact ⟨hat, fun c' hc' => by cases hc'⟩
  | ok fetched =>
    obtain ⟨hops, c'⟩ := fetched
    have hloop : wp (Allowed F hopOf trusted) (fun h r => r = .ok ⟨⟩ → ∀ hop ∈ hops, Tried h hop) h
        (hops.forM trackHop) :=
      wp_forM (fun h x hop htried => htried.append _) fun hop _ h =>
        wp_mono (trackHop_tries hop) (fun _ _ => id) fun _ _ htried _ => htried
    have hkept : ∀ (h : Told Rpc Cursor Reply) x, Fetched F hopOf trusted h c hops c' ∧ At h c →
        Fetched F hopOf trusted (h ++ [x]) c hops c' ∧ At (h ++ [x]) c :=
      fun h x ⟨hfetched, hat⟩ => ⟨hfetched.append _, hat.append _⟩
    refine (wp_bind _ _).mpr (wp_mono (wp_stays hkept hloop ⟨hfetched hops c' rfl, hat⟩) (fun _ _ => id)
      fun h r hr => ?_)
    obtain ⟨htried, hfetched, hat⟩ := hr
    cases r with
    | error e => exact ⟨hat, fun c' hc' => by cases hc'⟩
    | ok _ =>
      refine (wp_bind _ _).mpr ((wp_call _).mpr ⟨Or.inr ⟨c, hops, hat, hfetched, htried rfl⟩, fun r => ?_⟩)
      cases r with
      | error e => exact ⟨hat.append _, fun c' hc' => by cases hc'⟩
      | ok _ =>
        refine ⟨hat.append _, fun c'' hc'' => ?_⟩
        cases hc''
        exact ⟨_, List.mem_append_right _ (List.mem_singleton_self _)⟩

theorem scheduledPolls_allowed (hfetches : Fetches F hopOf trusted bootstrap poll) (polls : Nat) {c : Cursor}
    (hat : At h c) :
    wp (Allowed F hopOf trusted) (fun _ _ => True) h (scheduledPolls poll polls c) := by
  induction polls generalizing h c with
  | zero => trivial
  | succ polls ih =>
    unfold scheduledPolls
    rw [wp_bind, wp_tryCatch]
    refine wp_mono (pollOnce_allowed hfetches hat) (fun _ _ => id) fun h r hr => ?_
    cases r with
    | error e => exact ih hr.1
    | ok c' => exact ih (hr.2 c' rfl)

theorem watch_allowed (hfetches : Fetches F hopOf trusted bootstrap poll) (polls : Nat) :
    wp (Allowed F hopOf trusted) (fun _ _ => True) [] (watch bootstrap poll polls) := by
  have hunset : ∀ (h : Told Rpc Cursor Reply) c r, c.Queries → Unset h → Unset (h ++ [⟨c, r⟩]) := by
    intro h c r hc hunset x hx d hd
    obtain hx | hx := List.mem_append.mp hx
    · exact hunset x hx d hd
    · rw [List.mem_singleton.mp hx] at hd
      cases c with
      | rpc q => cases hd
      | recordHop hop | setCursor c => exact hc.elim
  unfold watch
  rw [wp_bind]
  refine wp_mono (wp_keep hunset hfetches.bootstrap (Calls.of_wp hfetches.bootstrap)
    (fun x hx => absurd hx List.not_mem_nil)) (fun _ _ => WatcherCall.Queries.allowed) fun h r hr => ?_
  cases r with
  | error e => trivial
  | ok c =>
    refine (wp_bind _ _).mpr ((wp_call _).mpr ⟨Or.inl ⟨hr.2, hr.1 c rfl⟩, fun r => ?_⟩)
    cases r with
    | error e => trivial
    | ok _ => exact scheduledPolls_allowed hfetches polls ⟨_, List.mem_append_right _ (List.mem_singleton_self _)⟩

/-! ## What is recorded -/

variable {reads good : χ → (q : Rpc) → Except String (Reply q) → Prop} {w w' : World χ Cursor}

/-- Every event since the initial cursor and up to `c` is recorded. -/
def Reached (F : Feed χ Cursor Item) (hopOf : Item → TrackedHop) (w : World χ Cursor) (c : Cursor) : Prop :=
  ∃ i, w.initial = some i ∧ F.marks w.chain c ∧ F.Covered w.chain i c fun x => hopOf x ∈ w.recorded

/-- The cursor is at such a place. -/
def Kept (F : Feed χ Cursor Item) (hopOf : Item → TrackedHop) (w : World χ Cursor) : Prop :=
  ∀ c, w.cursor = some c → Reached F hopOf w c

/-- The store does not fail, and a query is answered well. -/
def Answered (good : χ → (q : Rpc) → Except String (Reply q) → Prop)
    (x : Host.State (World χ Cursor) (WatcherCall Rpc Cursor) (WatcherCall.Answer Reply) String Unit) :
    Host.Event (WatcherCall Rpc Cursor) (WatcherCall.Answer Reply) String → Prop
  | .answer (.rpc q) r => good x.1.chain q r
  | .answer (.recordHop _) (.error _) => False
  | _ => True

/-- What the world owes to what the watcher was told. -/
structure Owed (F : Feed χ Cursor Item) (hopOf : Item → TrackedHop)
    (trusted : χ → (q : Rpc) → Except String (Reply q) → Prop) (w : World χ Cursor)
    (h : Told Rpc Cursor Reply) : Prop where
  reached : ∀ c, At h c → Reached F hopOf w c
  trusts : Trusts trusted w.chain h
  tried : ∀ hop, Tried h hop → hop ∈ w.recorded
  unset : Unset h → w.initial = none

/-- The chain may have grown, and hops been recorded; the cursor is where it was. -/
structure Grown (F : Feed χ Cursor Item) (w w' : World χ Cursor) : Prop where
  cursor : w'.cursor = w.cursor
  initial : w'.initial = w.initial
  chain : w'.chain = w.chain ∨ F.grows w.chain w'.chain
  recorded : ∀ hop ∈ w.recorded, hop ∈ w'.recorded

theorem World.record_grown (w : World χ Cursor) (hop : TrackedHop) (now : Nat) : Grown F w (w.record hop now) :=
  ⟨rfl, rfl, Or.inl rfl, fun _ h => List.mem_cons_of_mem _ h⟩

theorem Reached.grown (hgrown : Grown F w w') {c : Cursor} (hreached : Reached F hopOf w c) : Reached F hopOf w' c := by
  obtain ⟨i, hi, hmarks, hcovered⟩ := hreached
  have hknown := hcovered.mono fun x => hgrown.recorded (hopOf x)
  refine ⟨i, hgrown.initial.trans hi, ?_⟩
  obtain hsame | hgrows := hgrown.chain
  · rw [hsame]
    exact ⟨hmarks, hknown⟩
  · exact ⟨F.grows_marks hgrows hmarks, hknown.grows hgrows hmarks⟩

theorem Kept.grown (hgrown : Grown F w w') (hkept : Kept F hopOf w) : Kept F hopOf w' :=
  fun c hc => (hkept c (hgrown.cursor.symm.trans hc)).grown hgrown

theorem Owed.grown (htrusted : ∀ s t q r, F.grows s t → trusted s q r → trusted t q r) (hgrown : Grown F w w')
    (howed : Owed F hopOf trusted w h) : Owed F hopOf trusted w' h where
  reached c hat := (howed.reached c hat).grown hgrown
  trusts q r hmem := by
    obtain hsame | hgrows := hgrown.chain
    · rw [hsame]
      exact howed.trusts q r hmem
    · exact htrusted _ _ q r hgrows (howed.trusts q r hmem)
  tried hop htried := hgrown.recorded hop (howed.tried hop htried)
  unset hunset := hgrown.initial.trans (howed.unset hunset)

/-- The cursor that the watcher assigns. -/
theorem Owed.reaches (howed : Owed F hopOf trusted w h) {c : Cursor}
    (hallowed : Allowed F hopOf trusted h (.setCursor c)) :
    Reached F hopOf (w.setCursor c) c := by
  obtain ⟨hunset, hseeds⟩ | ⟨c₀, hops, hat, hfetched, htried⟩ := hallowed
  · refine ⟨c, ?_, hseeds _ howed.trusts, .start⟩
    show w.initial.orElse _ = some c
    rw [howed.unset hunset]
    rfl
  · obtain ⟨i, hi, hmarks, hcovered⟩ := howed.reached c₀ hat
    obtain ⟨hmarks', hnext⟩ := hfetched _ howed.trusts hmarks
    refine ⟨i, ?_, hmarks', hcovered.next (hnext.mono fun x hx => howed.tried _ (htried _ hx))⟩
    show w.initial.orElse _ = some i
    rw [hi]
    rfl

theorem Reached.setCursor {c : Cursor} (hreached : Reached F hopOf w c) (c' : Cursor) :
    Reached F hopOf (w.setCursor c') c := by
  obtain ⟨i, hi, hrest⟩ := hreached
  refine ⟨i, ?_, hrest⟩
  show w.initial.orElse _ = some i
  rw [hi]
  rfl

/-- What the world owes to one answer. -/
def Owes (F : Feed χ Cursor Item) (hopOf : Item → TrackedHop) (trusted : χ → (q : Rpc) → Except String (Reply q) → Prop)
    (w : World χ Cursor) : (c : WatcherCall Rpc Cursor) → Except String (c.Answer Reply) → Prop
  | .rpc q, r => trusted w.chain q r
  | .recordHop hop, _ => hop ∈ w.recorded
  | .setCursor c, _ => Reached F hopOf w c

/-- One answer more. -/
theorem Owed.append (hreached : ∀ c, At h c → Reached F hopOf w c) (htrusts : Trusts trusted w.chain h)
    (htried : ∀ hop, Tried h hop → hop ∈ w.recorded) {c : WatcherCall Rpc Cursor} {r : Except String (c.Answer Reply)}
    (howes : Owes F hopOf trusted w c r) (hunset : Unset (h ++ [⟨c, r⟩]) → w.initial = none) :
    Owed F hopOf trusted w (h ++ [⟨c, r⟩]) := by
  refine ⟨fun c' hat => ?_, fun q' r' hmem => ?_, fun hop hlast => ?_, hunset⟩
  · obtain ⟨r', hr'⟩ := hat
    obtain hr' | hr' := List.mem_append.mp hr'
    · exact hreached c' ⟨r', hr'⟩
    · cases List.mem_singleton.mp hr'
      exact howes
  · obtain hmem | hmem := List.mem_append.mp hmem
    · exact htrusts q' r' hmem
    · cases List.mem_singleton.mp hmem
      exact howes
  · obtain ⟨r', hr'⟩ := hlast
    obtain hr' | hr' := List.mem_append.mp hr'
    · exact htried hop ⟨r', hr'⟩
    · cases List.mem_singleton.mp hr'
      exact howes

/-- An answered call. -/
theorem Owed.step (hfetches : Fetches F hopOf trusted bootstrap poll)
    (hgood : ∀ s q r, reads s q r → good s q r → trusted s q r) (hkept : Kept F hopOf w)
    (howed : Owed F hopOf trusted w h) {c : WatcherCall Rpc Cursor} {r : Except String (c.Answer Reply)}
    {next : Except String (c.Answer Reply) → WatcherProgram Rpc Cursor Reply Unit}
    (hallowed : Allowed F hopOf trusted h c)
    (hanswered : Answered good (w, some ⟨h, .await c next⟩) (.answer c r)) (hserves : Serves reads w c r w') :
    Kept F hopOf w' ∧ Owed F hopOf trusted w' (h ++ [⟨c, r⟩]) := by
  have hbefore : ∀ {x}, Unset (h ++ [x]) → Unset h := fun hunset x hx => hunset x (List.mem_append_left _ hx)
  cases hserves with
  | rpc hreads =>
    exact ⟨hkept, .append howed.reached howed.trusts howed.tried (hgood _ _ _ hreads hanswered)
      fun hunset => howed.unset (hbefore hunset)⟩
  | @recordHop hop now =>
    have hgrown : Grown F w (w.record hop now) := w.record_grown hop now
    have howed' := howed.grown hfetches.grows hgrown
    exact ⟨hkept.grown hgrown, .append howed'.reached howed'.trusts howed'.tried List.mem_cons_self
      fun hunset => howed'.unset (hbefore hunset)⟩
  | recordHopFails | recordHopLost => exact hanswered.elim
  | @setCursor c =>
    have hreached := howed.reaches hallowed
    refine ⟨fun c' hc' => ?_, .append (fun c' hat =>
      (howed.reached c' hat).setCursor c) howed.trusts howed.tried hreached
      fun hunset => absurd rfl (hunset _ (List.mem_append_right _ (List.mem_singleton_self _)) c)⟩
    cases hc'
    exact hreached

/-- A watcher whose polls leave no event out records every event since its initial cursor, as long as the store does not
fail and its queries are answered well. -/
theorem watch_covers (hfetches : Fetches F hopOf trusted bootstrap poll)
    (hgood : ∀ s q r, reads s q r → good s q r → trusted s q r) {chain : χ}
    {records : IntentId → Option IntentLifecycleRecord}
    {s : Option (Session (WatcherCall Rpc Cursor) (WatcherCall.Answer Reply) String Unit)}
    (hrun : (WatchHost F reads bootstrap poll).Leads (Answered good)
      ({ chain := chain, records := records }, none) (w, s))
    {c i : Cursor} (hcursor : w.cursor = some c) (hinitial : w.initial = some i) :
    F.Covered w.chain i c fun x => hopOf x ∈ w.recorded := by
  have hholds : Host.Holds (Kept F hopOf) (Owed F hopOf trusted) (Allowed F hopOf trusted) (fun _ _ => True)
      (w, s) := by
    refine hrun.keeps (fun w p w' hkept _ hstarts => ?_)
      (fun w told c next r w' hkept howed hallowed hanswered hserves => ?_)
      (fun w s w' hkept _ hmoves => ?_) (.idle fun c hc => by cases hc)
    · obtain ⟨rfl, polls, rfl⟩ := hstarts
      have hnone : Kept F hopOf { w with cursor := none, initial := none } := fun c hc => by cases hc
      refine ⟨hnone, ⟨fun c hat => ?_, fun q r hmem => ?_, fun hop htried => ?_, fun _ => rfl⟩,
        watch_allowed hfetches polls⟩
      · exact absurd hat.choose_spec List.not_mem_nil
      · exact absurd hmem List.not_mem_nil
      · exact absurd htried.choose_spec List.not_mem_nil
    · exact howed.step hfetches hgood hkept hallowed hanswered hserves
    · have hgrown : Grown F w w' := by
        obtain ⟨chain, hgrows, rfl⟩ | ⟨hop, now, rfl⟩ := hmoves
        · exact ⟨rfl, rfl, Or.inr hgrows, fun _ h => h⟩
        · exact w.record_grown hop now
      exact ⟨hkept.grown hgrown, fun told howed => howed.grown hfetches.grows hgrown⟩
  obtain ⟨i', hi', -, hcovered⟩ := hholds.1 c hcursor
  rw [hinitial] at hi'
  cases hi'
  exact hcovered

end Watcher

end Bosphor.Relayer

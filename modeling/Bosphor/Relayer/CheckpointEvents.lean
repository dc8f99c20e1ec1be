import Bosphor.Relayer.SuiCheckpoint

/-!
# The events that the Sui cursor passes

The cursor is moved past a checkpoint only after the checkpoint was asked for
and each event it showed was handed to the table (`runCheckpointPoll_allowed`).
So an event is recorded, or finds a terminal row, before the cursor passes it
(`events_recorded`), when the node shows every checkpoint whole and the table
does not fail. A failure to record an event is dropped, and the cursor moves on
(`event_lost`).
-/

namespace Bosphor.Relayer.SuiCheckpoint

open StagedIntentStore Async

/-- The calls that the poll has made, with their answers. -/
abbrev Told := History Call Call.Answer String

variable {cfg : Config} {chain : Nat → Checkpoint} {w w' : World} {h : Told} {id : IntentId} {details : ReceivedDetails}

/-! ## The events of a checkpoint -/

/-- An `IntentReceived` event of the package, and what is to be recorded of it. -/
def Event.Gives (cfg : Config) (deliveryDigest : String) (event : Event) (id : IntentId)
    (details : ReceivedDetails) : Prop :=
  event.eventType = cfg.eventType ∧ ∃ structFields lz, event.json = some structFields ∧
    (b64Bytes (strVal structFields.intentId)).length ≠ 0 ∧
    lzEvent deliveryDigest (b64Bytes (strVal structFields.intentId)) structFields = .ok lz ∧
    lz.intentId = id ∧ lz.details = details

def Checkpoint.Emits (cfg : Config) (checkpoint : Checkpoint) (id : IntentId) (details : ReceivedDetails) : Prop :=
  ∃ tx ∈ checkpoint.transactions, ∃ event ∈ tx.events.getD [], event.Gives cfg (tx.digest.getD "") id details

/-! ## What the poll does before it moves the cursor -/

def Tried (h : Told) (id : IntentId) (details : ReceivedDetails) : Prop := ∃ r, ⟨.markReceived id details, r⟩ ∈ h

/-- The checkpoint was asked for, and the events that its answer shows were handed to the table. -/
def Passed (cfg : Config) (h : Told) (seq : Nat) : Prop :=
  ∃ answer, ⟨.getCheckpoint seq, .ok answer⟩ ∈ h ∧
    ∀ shown, answer = some shown → ∀ id details, shown.Emits cfg id details → Tried h id details

/-- The cursor was read, and every checkpoint between it and `n` was passed. -/
def Clear (cfg : Config) (h : Told) (n : Nat) : Prop :=
  ∃ c, ⟨.readFile, .ok c⟩ ∈ h ∧ ∀ seq, c < seq → seq < n → Passed cfg h seq

/-- The cursor is written on the first run, or at the end of what was passed. -/
def Allowed (cfg : Config) (h : Told) : Call → Prop
  | .writeFile n => (∃ e, h = [⟨.readFile, .error e⟩, ⟨.getServiceInfo, .ok n⟩]) ∨ Clear cfg h (n + 1)
  | _ => True

theorem Tried.append (htried : Tried h id details) (h' : Told) : Tried (h ++ h') id details := by
  obtain ⟨r, hr⟩ := htried
  exact ⟨r, List.mem_append_left _ hr⟩

theorem Passed.append {seq : Nat} (hpassed : Passed cfg h seq) (h' : Told) : Passed cfg (h ++ h') seq := by
  obtain ⟨answer, hanswer, htried⟩ := hpassed
  exact ⟨answer, List.mem_append_left _ hanswer, fun shown hshown id details hemits =>
    (htried shown hshown id details hemits).append h'⟩

theorem Clear.append {n : Nat} (hclear : Clear cfg h n) (h' : Told) : Clear cfg (h ++ h') n := by
  obtain ⟨c, hread, hpassed⟩ := hclear
  exact ⟨c, List.mem_append_left _ hread, fun seq hlt hle => (hpassed seq hlt hle).append h'⟩

theorem Clear.next {n : Nat} (hclear : Clear cfg h n) (hpassed : Passed cfg h n) : Clear cfg h (n + 1) := by
  obtain ⟨c, hread, hbefore⟩ := hclear
  refine ⟨c, hread, fun seq hlt hle => ?_⟩
  obtain hlt' | rfl := Nat.lt_or_eq_of_le (Nat.le_of_lt_succ hle)
  · exact hbefore seq hlt hlt'
  · exact hpassed

theorem onReceived_tries (hstaged : cfg.staged = true) (event : SuiLzEvent) :
    wp (Allowed cfg) (fun h _ => Tried h event.intentId event.details) h (onReceived cfg event) := by
  unfold onReceived markReceived
  rw [hstaged]
  simp only [Bool.not_true, Bool.false_eq_true, if_false]
  rw [wp_tryCatch, wp_bind, wp_bind, wp_call]
  refine ⟨trivial, fun r => ?_⟩
  have htried : Tried (h ++ [⟨.markReceived event.intentId event.details, r⟩]) event.intentId event.details :=
    ⟨r, by simp⟩
  cases r with
  | error e => exact htried
  | ok returned =>
    rw [andThen_ok]
    cases returned with
    | true => exact htried
    | false =>
      refine (wp_bind _ _).mpr ((wp_call _).mpr ⟨trivial, fun r => ?_⟩)
      cases r <;> exact htried.append _

theorem processEvent_tries (hstaged : cfg.staged = true) (deliveryDigest : String) (event : Event) :
    wp (Allowed cfg) (fun h r => r = .ok () → ∀ id details, event.Gives cfg deliveryDigest id details →
      Tried h id details) h (processEvent cfg deliveryDigest event) := by
  unfold processEvent
  split
  · rename_i hother
    exact fun _ id details hgives => absurd hgives.1 hother
  · cases hjson : event.json with
    | none =>
      intro _ id details hgives
      obtain ⟨-, structFields, lz, hfields, -⟩ := hgives
      rw [hjson] at hfields
      cases hfields
    | some structFields =>
      have hsame : ∀ {id details}, event.Gives cfg deliveryDigest id details →
          (b64Bytes (strVal structFields.intentId)).length ≠ 0 ∧
          ∃ lz, lzEvent deliveryDigest (b64Bytes (strVal structFields.intentId)) structFields = .ok lz ∧
            lz.intentId = id ∧ lz.details = details := by
        intro id details hgives
        obtain ⟨-, fields, lz, hfields, hid, hlz, hrest⟩ := hgives
        rw [hjson] at hfields
        cases hfields
        exact ⟨hid, lz, hlz, hrest⟩
      dsimp only
      split
      · rename_i hempty
        exact fun _ id details hgives => absurd hempty (hsame hgives).1
      · split
        · rename_i lz hlz
          refine wp_mono (onReceived_tries hstaged lz) (fun _ _ => id) fun h r htried _ id details hgives => ?_
          obtain ⟨-, lz', hlz', rfl, rfl⟩ := hsame hgives
          rw [hlz] at hlz'
          cases hlz'
          exact htried
        · intro hok
          cases hok

theorem processCheckpoint_clears (hstaged : cfg.staged = true) (checkpoint : Checkpoint) (seq : Nat)
    (hanswer : ⟨.getCheckpoint seq, .ok (some checkpoint)⟩ ∈ h) (hclear : Clear cfg h seq) :
    wp (Allowed cfg) (fun h r => r = .ok () → Clear cfg h (seq + 1)) h (processCheckpoint cfg checkpoint seq) := by
  unfold processCheckpoint
  rw [wp_bind]
  -- the loops end with every event tried; what came before them is still there
  have hloops : wp (Allowed cfg) (fun h r => r = .ok ⟨⟩ → ∀ tx ∈ checkpoint.transactions, ∀ event ∈ tx.events.getD [],
      ∀ id details, event.Gives cfg (tx.digest.getD "") id details → Tried h id details) h
      (checkpoint.transactions.forM fun tx =>
        (tx.events.getD []).forM fun event => processEvent cfg (tx.digest.getD "") event) := by
    apply wp_forM
    · exact fun h x tx htried event hevent id details hgives => (htried event hevent id details hgives).append _
    · intro tx _ h
      apply wp_forM
      · exact fun h x event htried id details hgives => (htried id details hgives).append _
      · exact fun event _ h => processEvent_tries hstaged (tx.digest.getD "") event
  have hstays : ∀ (h : Told) x, ⟨.getCheckpoint seq, .ok (some checkpoint)⟩ ∈ h ∧ Clear cfg h seq →
      ⟨.getCheckpoint seq, .ok (some checkpoint)⟩ ∈ h ++ [x] ∧ Clear cfg (h ++ [x]) seq :=
    fun h x ⟨hanswer, hclear⟩ => ⟨List.mem_append_left _ hanswer, hclear.append _⟩
  refine wp_mono (wp_stays hstays hloops ⟨hanswer, hclear⟩) (fun _ _ => id) fun h r hr => ?_
  obtain ⟨htried, hanswer, hclear⟩ := hr
  cases r with
  | error e =>
    intro hok
    cases hok
  | ok _ =>
    have hseq : Passed cfg h seq := by
      refine ⟨some checkpoint, hanswer, fun shown hshown id details hemits => ?_⟩
      cases hshown
      obtain ⟨tx, htx, event, hevent, hgives⟩ := hemits
      exact htried rfl tx htx event hevent id details hgives
    rw [andThen_ok]
    exact (wp_call _).mpr ⟨Or.inr (hclear.next hseq), fun r _ => (hclear.next hseq).append _⟩

theorem backfillLoop_allowed (hstaged : cfg.staged = true) (remaining seq : Nat) (hclear : Clear cfg h seq) :
    wp (Allowed cfg) (fun _ _ => True) h (backfillLoop cfg remaining seq) := by
  induction remaining generalizing h seq with
  | zero => trivial
  | succ remaining ih =>
    unfold backfillLoop
    rw [wp_bind, wp_call]
    refine ⟨trivial, fun r => ?_⟩
    cases r with
    | error e => trivial
    | ok stopped =>
      rw [andThen_ok]
      split
      · trivial
      · rw [wp_bind, wp_call]
        refine ⟨trivial, fun r => ?_⟩
        cases r with
        | error e => trivial
        | ok answer =>
          rw [andThen_ok]
          have hclear' := (hclear.append [⟨.stopped, .ok stopped⟩]).append [⟨.getCheckpoint seq, .ok answer⟩]
          cases answer with
          | none =>
            -- nothing is shown, and the loop goes on all the same
            exact ih (seq + 1) (hclear'.next ⟨none, by simp, fun shown hshown => by cases hshown⟩)
          | some checkpoint =>
            refine (wp_bind _ _).mpr (wp_mono (processCheckpoint_clears hstaged checkpoint seq (by simp) hclear')
              (fun _ _ => id) fun h r hr => ?_)
            cases r with
            | error e => trivial
            | ok _ => exact ih (seq + 1) (hr rfl)

theorem backfill_allowed (hstaged : cfg.staged = true) {c : Nat} (hread : ⟨.readFile, .ok c⟩ ∈ h) :
    wp (Allowed cfg) (fun _ _ => True) h (backfill cfg c) := by
  unfold backfill
  rw [wp_bind, wp_call]
  refine ⟨trivial, fun r => ?_⟩
  cases r with
  | error e => trivial
  | ok current =>
    rw [andThen_ok]
    split
    · trivial
    · exact backfillLoop_allowed hstaged _ _ ⟨c, List.mem_append_left _ hread, fun seq hlt hle => by omega⟩

theorem pollLoop_allowed (hstaged : cfg.staged = true) (passes : Nat) :
    wp (Allowed cfg) (fun _ _ => True) h (pollLoop cfg passes) := by
  induction passes generalizing h with
  | zero => trivial
  | succ passes ih =>
    unfold pollLoop
    rw [wp_bind, wp_call]
    refine ⟨trivial, fun r => ?_⟩
    cases r with
    | error e => trivial
    | ok stopped =>
      rw [andThen_ok]
      split
      · trivial
      · unfold readCursor
        rw [wp_bind, wp_tryCatch, wp_bind, wp_tryCatch, wp_bind, wp_call]
        refine ⟨trivial, fun r => ?_⟩
        cases r with
        | error e => exact ih
        | ok c =>
          have hread : ⟨.readFile, .ok c⟩ ∈ h ++ [⟨.stopped, .ok stopped⟩] ++ [⟨Call.readFile, .ok c⟩] :=
            List.mem_append_right _ (List.mem_singleton_self _)
          show wp (Allowed cfg) _ _ (backfill cfg c)
          refine wp_mono (backfill_allowed hstaged hread) (fun _ _ => id) fun h r _ => ?_
          cases r <;> exact ih

/-- The cursor is moved past a checkpoint only after the checkpoint was passed. -/
theorem runCheckpointPoll_allowed (hstaged : cfg.staged = true) (passes : Nat) :
    wp (Allowed cfg) (fun _ _ => True) [] (runCheckpointPoll cfg passes) := by
  unfold runCheckpointPoll readCursor
  rw [wp_bind, wp_tryCatch, wp_bind, wp_call]
  refine ⟨trivial, fun r => ?_⟩
  cases r with
  | ok c => exact pollLoop_allowed hstaged passes
  | error e =>
    refine (wp_bind _ _).mpr ((wp_call _).mpr ⟨trivial, fun r => ?_⟩)
    cases r with
    | error e' => trivial
    | ok current =>
      refine (wp_bind _ _).mpr ((wp_call _).mpr ⟨Or.inl ⟨e, rfl⟩, fun r => ?_⟩)
      cases r with
      | error e' => trivial
      | ok _ => exact pollLoop_allowed hstaged passes

/-! ## What is recorded -/

/-- The event was recorded, or came too late. -/
def World.Knows (w : World) (id : IntentId) (details : ReceivedDetails) : Prop :=
  (id, details) ∈ w.recorded ∨ (id, details) ∈ w.late

/-- Every event after the initial cursor and up to `c` is known. -/
def Covered (cfg : Config) (chain : Nat → Checkpoint) (w : World) (c : Nat) : Prop :=
  ∃ i, w.initial = some i ∧
    ∀ seq, i < seq → seq ≤ c → ∀ id details, (chain seq).Emits cfg id details → w.Knows id details

/-- The cursor covers what is known. -/
structure Kept (cfg : Config) (chain : Nat → Checkpoint) (w : World) : Prop where
  unset : w.cursor = none → w.initial = none
  covered : ∀ c, w.cursor = some c → Covered cfg chain w c

/-- An answer by which no event is lost: a checkpoint shows the events it has, `markReceived` does not fail, and the
cursor file is not unreadable when the relayer starts. -/
def Whole (cfg : Config) (chain : Nat → Checkpoint) (w : World) (told : Told) :
    (c : Call) → Except String c.Answer → Prop
  | .getCheckpoint seq, .ok answer => ∀ id details, (chain seq).Emits cfg id details →
      ∃ shown, answer = some shown ∧ shown.Emits cfg id details
  | .markReceived .., .error _ => False
  | .readFile, .error _ => told = [] → w.cursor = none
  | _, _ => True

/-- Every answer is such an answer. -/
def Answered (cfg : Config) (chain : Nat → Checkpoint) (x : Host.State World Call Call.Answer String Unit) :
    Host.Event Call Call.Answer String → Prop
  | .answer c r => ∀ s, x.2 = some s → Whole cfg chain x.1 s.told c r
  | _ => True

/-- What the world owes to what the poll was told. -/
structure Owed (cfg : Config) (chain : Nat → Checkpoint) (w : World) (h : Told) : Prop where
  read : ∀ c, ⟨.readFile, .ok c⟩ ∈ h → Covered cfg chain w c
  shown : ∀ seq answer, ⟨.getCheckpoint seq, .ok answer⟩ ∈ h → ∀ id details, (chain seq).Emits cfg id details →
    ∃ shown, answer = some shown ∧ shown.Emits cfg id details
  tried : ∀ id details r, ⟨.markReceived id details, r⟩ ∈ h → w.Knows id details
  /-- Until the first write, a file that could not be read at the start is none. -/
  unset : ∀ e rest, h = ⟨.readFile, .error e⟩ :: rest → (∀ x ∈ rest, ∀ n, x.1 ≠ .writeFile n) → w.cursor = none

/-- The world knows no less than it did, and its cursor is where it was. -/
structure Grown (w w' : World) : Prop where
  cursor : w'.cursor = w.cursor
  initial : w'.initial = w.initial
  knows : ∀ id details, w.Knows id details → w'.Knows id details

theorem World.receive_knows (w : World) (id : IntentId) (details : ReceivedDetails) (now : Nat) :
    (w.receive id details now).Knows id details := by
  unfold World.Knows World.receive
  cases Takes w.rows id <;> simp

theorem World.receive_grown (w : World) (id : IntentId) (details : ReceivedDetails) (now : Nat) :
    Grown w (w.receive id details now) := by
  refine ⟨rfl, rfl, fun i d hknows => ?_⟩
  unfold World.Knows World.receive at *
  cases Takes w.rows id <;> simp <;> tauto

theorem Covered.grown (hgrown : Grown w w') {c : Nat} (hcovered : Covered cfg chain w c) : Covered cfg chain w' c := by
  obtain ⟨i, hi, hknown⟩ := hcovered
  exact ⟨i, hgrown.initial.trans hi, fun seq hlt hle id details hemits => hgrown.knows _ _
    (hknown seq hlt hle id details hemits)⟩

theorem Kept.grown (hgrown : Grown w w') (hkept : Kept cfg chain w) : Kept cfg chain w' where
  unset hnone := hgrown.initial.trans (hkept.unset (hgrown.cursor.symm.trans hnone))
  covered c hc := (hkept.covered c (hgrown.cursor.symm.trans hc)).grown hgrown

theorem Owed.grown (hgrown : Grown w w') (howed : Owed cfg chain w h) : Owed cfg chain w' h where
  read c hread := (howed.read c hread).grown hgrown
  shown := howed.shown
  tried id details r htried := hgrown.knows _ _ (howed.tried id details r htried)
  unset e rest hh hrest := hgrown.cursor.trans (howed.unset e rest hh hrest)

theorem Serves.grown {c : Call} {r : Except String c.Answer} (hserves : Serves chain w c r w')
    (hc : ∀ n, c ≠ .writeFile n) : Grown w w' := by
  cases hserves with
  | writeFile | writeTorn => exact absurd rfl (hc _)
  | markReceived now => exact w.receive_grown _ _ now
  | markReceivedLost e now => exact w.receive_grown _ _ now
  | _ => exact ⟨rfl, rfl, fun _ _ h => h⟩

theorem Covered.le {c n : Nat} (hcovered : Covered cfg chain w n) (hle : c ≤ n) : Covered cfg chain w c := by
  obtain ⟨i, hi, hknown⟩ := hcovered
  exact ⟨i, hi, fun seq hlt hseq => hknown seq hlt (hseq.trans hle)⟩

theorem Covered.write {c : Nat} (hcovered : Covered cfg chain w c) (n : Nat) : Covered cfg chain (w.write n) c := by
  obtain ⟨i, hi, hknown⟩ := hcovered
  refine ⟨i, ?_, hknown⟩
  show w.initial.orElse _ = some i
  rw [hi]
  rfl

theorem Kept.write {n : Nat} (hcovered : Covered cfg chain w n) {m : Nat} (hle : m ≤ n) :
    Kept cfg chain (w.write m) where
  unset hnone := by cases hnone
  covered c hc := by
    cases hc
    exact (hcovered.le hle).write m

/-- The first write of the cursor. -/
theorem Kept.first (hnone : w.initial = none) (n : Nat) : Kept cfg chain (w.write n) where
  unset hnone := by cases hnone
  covered c hc := by
    cases hc
    refine ⟨n, ?_, fun seq hlt hle => absurd hle (Nat.not_le.mpr hlt)⟩
    show w.initial.orElse _ = some n
    rw [hnone]
    rfl

/-- What was passed is known. -/
theorem Owed.covers (howed : Owed cfg chain w h) {n : Nat} (hclear : Clear cfg h (n + 1)) : Covered cfg chain w n := by
  obtain ⟨c, hread, hpassed⟩ := hclear
  obtain ⟨i, hi, hknown⟩ := howed.read c hread
  refine ⟨i, hi, fun seq hlt hle id details hemits => ?_⟩
  by_cases hseq : seq ≤ c
  · exact hknown seq hlt hseq id details hemits
  · obtain ⟨answer, hanswer, htried⟩ := hpassed seq (by omega) (by omega)
    obtain ⟨shown, hshown, hemits'⟩ := howed.shown seq answer hanswer id details hemits
    obtain ⟨r, hr⟩ := htried shown hshown id details hemits'
    exact howed.tried id details r hr

/-- Another answer, of a call that does not write the cursor. -/
theorem Owed.answer (howed : Owed cfg chain w h) (hkept : Kept cfg chain w) {c : Call} {r : Except String c.Answer}
    (hserves : Serves chain w c r w') (hwhole : Whole cfg chain w h c r) (hc : ∀ n, c ≠ .writeFile n) :
    Owed cfg chain w' (h ++ [⟨c, r⟩]) := by
  have hgrown := hserves.grown hc
  have hold := howed.grown hgrown
  refine ⟨fun n hread => ?_, fun seq answer hanswer => ?_, fun id details r' htried => ?_, fun e rest hh hrest => ?_⟩
  · obtain hread | hread := List.mem_append.mp hread
    · exact hold.read n hread
    · cases List.mem_singleton.mp hread
      cases hserves with
      | readFile hcursor => exact hkept.covered n hcursor
  · obtain hanswer | hanswer := List.mem_append.mp hanswer
    · exact hold.shown seq answer hanswer
    · cases List.mem_singleton.mp hanswer
      exact hwhole
  · obtain htried | htried := List.mem_append.mp htried
    · exact hold.tried id details r' htried
    · cases List.mem_singleton.mp htried
      cases hserves with
      | markReceived now => exact w.receive_knows id details now
      | markReceivedFails e | markReceivedLost e now => exact hwhole.elim
  · cases h with
    | nil =>
      cases hh
      exact hgrown.cursor.trans (hwhole rfl)
    | cons x xs =>
      cases hh
      exact hold.unset e xs rfl fun x hx => hrest x (List.mem_append_left _ hx)

/-- Another answer, of a write of the cursor. -/
theorem Owed.write (howed : Owed cfg chain w h) (hcovered : ∀ c, Covered cfg chain w c → Covered cfg chain w' c)
    (hknows : ∀ id details, w.Knows id details → w'.Knows id details) (n : Nat) (r : Except String Unit) :
    Owed cfg chain w' (h ++ [⟨.writeFile n, r⟩]) := by
  refine ⟨fun c hread => ?_, fun seq answer hanswer => ?_, fun id details r' htried => ?_, fun e rest hh hrest => ?_⟩
  · obtain hread | hread := List.mem_append.mp hread
    · exact hcovered c (howed.read c hread)
    · cases List.mem_singleton.mp hread
  · obtain hanswer | hanswer := List.mem_append.mp hanswer
    · exact howed.shown seq answer hanswer
    · cases List.mem_singleton.mp hanswer
  · obtain htried | htried := List.mem_append.mp htried
    · exact hknows _ _ (howed.tried id details r' htried)
    · cases List.mem_singleton.mp htried
  · cases h with
    | nil => cases hh
    | cons x xs =>
      cases hh
      exact absurd rfl (hrest _ (List.mem_append_right _ (List.mem_singleton_self _)) n)

theorem Owed.start : Owed cfg chain w [] := by
  refine ⟨?_, ?_, ?_, ?_⟩
  all_goals simp

/-- An answered call, of a poll that writes the cursor only as it may. -/
theorem Owed.step (howed : Owed cfg chain w h) (hkept : Kept cfg chain w) {c : Call} {r : Except String c.Answer}
    (hallowed : Allowed cfg h c) (hserves : Serves chain w c r w') (hwhole : Whole cfg chain w h c r) :
    Kept cfg chain w' ∧ Owed cfg chain w' (h ++ [⟨c, r⟩]) := by
  by_cases hwrite : ∃ n, c = .writeFile n
  · obtain ⟨n, rfl⟩ := hwrite
    -- what is left of the write covers no more than what was passed
    have hwritten : ∀ m, m ≤ n → Kept cfg chain (w.write m) := by
      intro m hle
      obtain ⟨e, hfirst⟩ | hclear := hallowed
      · have hnone : w.cursor = none := howed.unset e _ hfirst fun x hx n => by
          rw [List.mem_singleton.mp hx]
          exact Call.noConfusion
        exact .first (hkept.unset hnone) m
      · exact .write (howed.covers hclear) hle
    cases hserves with
    | writeFile => exact ⟨hwritten n le_rfl, howed.write (fun _ hc => hc.write n) (fun _ _ h => h) n _⟩
    | writeTorn e hle => exact ⟨hwritten _ hle, howed.write (fun _ hc => hc.write _) (fun _ _ h => h) n _⟩
    | writeFails e => exact ⟨hkept, howed.write (fun _ hc => hc) (fun _ _ h => h) n _⟩
  · have hc : ∀ n, c ≠ .writeFile n := fun n hn => hwrite ⟨n, hn⟩
    exact ⟨hkept.grown (hserves.grown hc), howed.answer hkept hserves hwhole hc⟩

/-- While every answer is whole, an event is recorded, or came too late, before the cursor passes its checkpoint. -/
theorem events_recorded (hstaged : cfg.staged = true) {rows : Rows} {s : Option (Session Call Call.Answer String Unit)}
    (hrun : (SuiHost cfg chain).Leads (Answered cfg chain) ({ rows := rows }, none) (w, s)) {c i : Nat}
    (hcursor : w.cursor = some c) (hinitial : w.initial = some i) {seq : Nat} (hafter : i < seq) (hupto : seq ≤ c)
    (hemits : (chain seq).Emits cfg id details) : (id, details) ∈ w.recorded ∨ (id, details) ∈ w.late := by
  have hfresh : Kept cfg chain { rows := rows } := by
    refine ⟨fun _ => rfl, fun c hc => ?_⟩
    cases hc
  have hholds : Host.Holds (Kept cfg chain) (Owed cfg chain) (Allowed cfg) (fun _ _ => True) (w, s) := by
    refine hrun.keeps (fun w p w' hkept _ hstarts => ?_)
      (fun w told c next r w' hkept howed hallowed hwhole hserves => ?_)
      (fun w s w' hkept _ hmoves => ?_) (.idle hfresh)
    · obtain ⟨rfl, passes, rfl⟩ := hstarts
      exact ⟨hkept, .start, runCheckpointPoll_allowed hstaged passes⟩
    · exact howed.step hkept hallowed hserves (hwhole _ rfl)
    · obtain ⟨op, rfl⟩ := hmoves
      have hgrown : Grown w { w with rows := op.run w.rows } := ⟨rfl, rfl, fun _ _ h => h⟩
      exact ⟨hkept.grown hgrown, fun told howed => howed.grown hgrown⟩
  obtain ⟨i', hi', hknown⟩ := hholds.1.covered c hcursor
  rw [hinitial] at hi'
  cases hi'
  exact hknown seq hafter hupto id details hemits

/-! ## One event -/

def exampleConfig : Config := { lzPackageId := "0x2" }

def exampleEvent : Event where
  eventType := "0x2::lz_receiver::IntentReceived"
  json := some {
    intentId := some (.stringValue "AQ==")
    committedBlobId := some (.stringValue "7")
    size := some (.numberValue 1)
    storageEpochs := some (.numberValue 1)
    deadline := some (.stringValue "9")
    srcEid := some (.numberValue 40161)
    nonce := some (.stringValue "1") }

/-- One event, in the first checkpoint. -/
def exampleChain (seq : Nat) : Checkpoint := ⟨if seq = 1 then [⟨some "0xd16e57", some [exampleEvent]⟩] else []⟩

def exampleLz : SuiLzEvent := ⟨"0x01", "0xd16e57", "7", 1, 0, some 1, 9, 40161, 1⟩

theorem exampleChain_emits : (exampleChain 1).Emits exampleConfig "0x01" exampleLz.details := by
  refine ⟨_, List.mem_singleton_self _, exampleEvent, List.mem_singleton_self _, rfl, _, exampleLz, rfl,
    ?_, ?_, rfl, rfl⟩
  · decide
  · decide

/-- A run up to the second write of the cursor: the event is recorded, or it is not. -/
theorem exampleRuns : (∃ w s, (SuiHost exampleConfig exampleChain).Leads (Answered exampleConfig exampleChain)
    ({}, none) (w, s) ∧
      w.cursor = some 1 ∧ w.initial = some 0) ∧
    ∃ s, (SuiHost exampleConfig exampleChain).Leads (fun _ _ => True) ({}, none)
      ({ cursor := some 1, initial := some 0 }, s) := by
  have h0 : (SuiHost exampleConfig exampleChain).Leads (Answered exampleConfig exampleChain) ({}, none) _ := .refl
  have h1 := h0.step (e := .start) trivial (.start ⟨rfl, 1, rfl⟩)
  have h2 := h1.answer (c := Call.readFile) (.error "ENOENT") (.readFails _) fun _ _ _ => rfl
  have h3 := h2.answer (c := Call.getServiceInfo) (.ok 0) (.getServiceInfo _) fun _ _ => trivial
  have h4 := h3.answer (c := Call.writeFile 0) (.ok ()) .writeFile fun _ _ => trivial
  have h5 := h4.answer (c := Call.stopped) (.ok false) (.stopped _) fun _ _ => trivial
  have h6 := h5.answer (c := Call.readFile) (.ok 0) (.readFile rfl) fun _ _ => trivial
  have h7 := h6.answer (c := Call.getServiceInfo) (.ok 1) (.getServiceInfo _) fun _ _ => trivial
  have h8 := h7.answer (c := Call.stopped) (.ok false) (.stopped _) fun _ _ => trivial
  have hshows : (exampleChain 1).Shows (exampleChain 1) :=
    .cons ⟨rfl, .cons ⟨rfl, Or.inl rfl⟩ .nil⟩ .nil
  have h9 := h8.answer (c := Call.getCheckpoint 1) (.ok (some (exampleChain 1))) (.getCheckpoint hshows)
    fun _ _ id details hemits => ⟨_, rfl, hemits⟩
  have h10 := h9.answer (c := Call.markReceived "0x01" exampleLz.details) (.ok true) (.markReceived 0)
      fun _ _ => trivial
  have h11 := h10.answer (c := Call.writeFile 1) (.ok ()) .writeFile fun _ _ => trivial
  have h9' : (SuiHost exampleConfig exampleChain).Leads (fun _ _ => True) ({}, none) _ := h9.mono fun _ _ _ => trivial
  have h10' := h9'.answer (c := Call.markReceived "0x01" exampleLz.details) (.error "timeout")
      (.markReceivedFails _) trivial
  have h11' := h10'.answer (c := Call.writeFile 1) (.ok ()) .writeFile trivial
  exact ⟨⟨_, _, h11, rfl, rfl⟩, _, h11'⟩

/-- The event when nothing fails. -/
theorem events_recorded_one : ∃ w : World, w.cursor = some 1 ∧
    (("0x01", exampleLz.details) ∈ w.recorded ∨ ("0x01", exampleLz.details) ∈ w.late) := by
  obtain ⟨⟨w, s, hrun, hcursor, hinitial⟩, -⟩ := exampleRuns
  exact ⟨w, hcursor, events_recorded rfl hrun hcursor hinitial (by omega) le_rfl exampleChain_emits⟩

/-- The event when the table fails once: the cursor passes it, and it is nowhere. -/
theorem event_lost : ∃ (w : World) (s : _) (c i : Nat),
    (SuiHost exampleConfig exampleChain).Leads (fun _ _ => True) ({}, none) (w, s) ∧ w.cursor = some c ∧
      w.initial = some i ∧ ∃ seq id details, i < seq ∧ seq ≤ c ∧ (exampleChain seq).Emits exampleConfig id details ∧
        ¬((id, details) ∈ w.recorded ∨ (id, details) ∈ w.late) := by
  obtain ⟨-, s, hrun⟩ := exampleRuns
  refine ⟨_, s, 1, 0, hrun, rfl, rfl, 1, "0x01", exampleLz.details, by omega, le_rfl, exampleChain_emits, ?_⟩
  simp

end Bosphor.Relayer.SuiCheckpoint

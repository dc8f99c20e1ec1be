import Bosphor.Relayer.OriginEvents
import Bosphor.Relayer.ProgramLog
import Bosphor.Relayer.RecordHop

/-!
# Whose commitment is recorded

The two watchers run side by side, each on its chain, and record what they read
there; the pipeline records hops of its own. A commitment that is recorded is
that of a submission of the intent as long as no Solana log is forged
(`submissions_own`). A program that logs what the adapter would log makes the
relayer record a commitment of its choice (`submission_forged`).
-/

namespace Bosphor.Relayer

open StagedIntentStore Async Watcher

/-- A transaction as a node answers it. -/
def LoggedTx.tx (tx : LoggedTx) : SolanaWatcher.Tx := ⟨tx.signature, tx.err, tx.logMessages⟩

namespace Attribution

/-- The transactions that reference the adapter, the oldest first. -/
structure Ledger where
  txs : List LoggedTx
  nodup : (txs.map (·.signature)).Nodup

def Ledger.chain (ledger : Ledger) : SolanaWatcher.Chain where
  txs := ledger.txs.map LoggedTx.tx
  nodup := by
    rw [List.map_map]
    exact ledger.nodup

/-- The chains, and the rows that the record of an intent has been, the latest first. -/
structure World where
  solana : Ledger
  evm : EvmWatcher.Chain
  rows : IntentId → List IntentLifecycleRecord := fun _ => []

/-- What a call of `recordHop` may have read: a row that there is or was, or none. -/
def World.MayRead (w : World) (id : IntentId) (existing : Option IntentLifecycleRecord) : Prop :=
  ∀ r, existing = some r → r ∈ w.rows id

/-- The world once a call of `recordHop` that read `existing` has written its row. -/
def World.record (w : World) (h : TrackedHop) (existing : Option IntentLifecycleRecord) (now : Nat) : World :=
  { w with
    rows := Function.update w.rows h.intentId
      (upsertRecord h.intentId existing (w.rows h.intentId).head? ⟨h.hop, h.details, now⟩ :: w.rows h.intentId) }

theorem World.record_mem (w : World) (h : TrackedHop) (existing : Option IntentLifecycleRecord) (now : Nat) :
    upsertRecord h.intentId existing (w.rows h.intentId).head?
      ⟨h.hop, h.details, now⟩ ∈ (w.record h existing now).rows h.intentId := by
  show _ ∈ Function.update w.rows h.intentId _ h.intentId
  rw [Function.update_self]
  exact List.mem_cons_self

/-- A hop that the pipeline records: it brings no commitment, and the recipient it brings is one that it was told. -/
structure PipelineHop (w : World) (h : TrackedHop) : Prop where
  committedBlobId : h.details.committedBlobId = none
  size : h.details.size = none
  deadline : h.details.deadline = none
  sender : ∀ s, h.details.sender = some s → ∃ r ∈ w.rows h.intentId, ∃ c, getCommitment (some r) = some c ∧
    c.sender = some s

/-- What happens besides the watchers. -/
inductive Moves (w : World) : World → Prop
  | mined (ledger : Ledger) (h : w.solana.txs <+: ledger.txs) : Moves w { w with solana := ledger }
  | recorded {hop existing} (now) (hhop : PipelineHop w hop) (hread : w.MayRead hop.intentId existing) :
    Moves w (w.record hop existing now)

section

variable {Rpc Cursor : Type} {Reply : Rpc → Type}

inductive Serves (reads : World → (q : Rpc) → Except String (Reply q) → Prop) (w : World) :
    (c : WatcherCall Rpc Cursor) → Except String (c.Answer Reply) → World → Prop
  | rpc {q r} (h : reads w q r) : Serves reads w (.rpc q) r w
  -- the call may fail all the same
  | recordHop {hop existing r} (now) (hread : w.MayRead hop.intentId existing) :
    Serves reads w (.recordHop hop) r (w.record hop existing now)
  | recordHopFails {hop} (e) : Serves reads w (.recordHop hop) (.error e) w
  | setCursor {c r} : Serves reads w (.setCursor c) r w

/-- A watcher is started again and again. -/
def watchHost (reads : World → (q : Rpc) → Except String (Reply q) → Prop)
    (bootstrap : WatcherProgram Rpc Cursor Reply Cursor)
    (poll : Cursor → WatcherProgram Rpc Cursor Reply (List TrackedHop × Cursor)) :
    Host World (WatcherCall Rpc Cursor) (WatcherCall.Answer Reply) String Unit where
  starts w p w' := w' = w ∧ ∃ polls, p = watch bootstrap poll polls
  serves := Serves reads
  moves := Moves

end

variable (adapter : ProgramId) (solana : SolanaWatcher.Config) (evm : EvmWatcher.Config)

def solanaReads (w : World) : (q : SolanaWatcher.Rpc) → Except String (SolanaWatcher.Reply q) → Prop :=
  SolanaWatcher.Reads w.solana.chain

def evmReads (w : World) : (q : EvmWatcher.Rpc) → Except String (EvmWatcher.Reply q) → Prop := EvmWatcher.Reads w.evm

def solanaHost := watchHost solanaReads (SolanaWatcher.getLatestSignature solana) (SolanaWatcher.poll solana)

def evmHost := watchHost evmReads (EvmWatcher.bootstrapBlockNumber evm) (EvmWatcher.poll evm)

/-- Both watchers and the pipeline, in any order. -/
abbrev Run := Relation.ReflTransGen (Host.Beside (solanaHost solana) (evmHost evm))

/-! ## The submissions of an intent -/

/-- A submission on an origin, as its watcher tracks it: the Solana adapter emitted it, or the EVM adapter. -/
def Submission (w : World) (h : TrackedHop) : Prop :=
  (∃ tx ∈ w.solana.txs, tx.err = false ∧ ∃ ev, tx.Emits adapter ev ∧
    h = (⟨ev, tx.signature⟩ : SolanaWatcher.SolanaSubmittedEvent).tracked solana) ∨
  ∃ n, ∃ log ∈ w.evm n .IntentSubmitted, EvmWatcher.trackedOf evm log .IntentSubmitted = some h

/-- What the row has of a commitment, it has of one submission of the intent, and its recipient of one. -/
structure OwnRow (w : World) (id : IntentId) (r : IntentLifecycleRecord) : Prop where
  commitment : (r.committedBlobId = none ∧ r.size = none ∧ r.deadline = none) ∨ ∃ h, Submission adapter solana evm w h ∧
    h.intentId = id ∧ r.committedBlobId = h.details.committedBlobId ∧ r.size = h.details.size ∧
      r.deadline = h.details.deadline
  recipient : ∀ s, r.sender = some s → ∃ h, Submission adapter solana evm w h ∧ h.intentId = id ∧
    h.details.sender = some s

/-- The same of what a hop brings. -/
structure OwnHop (w : World) (hop : TrackedHop) : Prop where
  commitment : (hop.details.committedBlobId = none ∧ hop.details.size = none ∧ hop.details.deadline = none) ∨
    Submission adapter solana evm w hop ∧ (hop.details.committedBlobId.isSome ∧ hop.details.size.isSome ∧
      hop.details.deadline.isSome)
  recipient : ∀ s, hop.details.sender = some s →
    ∃ h, Submission adapter solana evm w h ∧ h.intentId = hop.intentId ∧ h.details.sender = some s

/-- No log of a transaction that succeeded is forged. -/
def World.Unforged (w : World) : Prop := ∀ tx ∈ w.solana.txs, tx.err = false → tx.Unforged adapter

/-- Without forged logs, every row is the intent's own. -/
def Sound (w : World) : Prop := w.Unforged adapter → ∀ id, ∀ r ∈ w.rows id, OwnRow adapter solana evm w id r

/-- The Solana chain may have grown. -/
def World.Grows (w w' : World) : Prop := w.solana.txs <+: w'.solana.txs ∧ w'.evm = w.evm

variable {adapter solana evm} {w w' : World}

theorem World.Grows.refl (w : World) : w.Grows w := ⟨List.prefix_refl _, rfl⟩

theorem World.Grows.chain (h : w.Grows w') : w.solana.chain.Grows w'.solana.chain := by
  obtain ⟨⟨new, hnew⟩, -⟩ := h
  refine ⟨new.map LoggedTx.tx, ?_⟩
  show w'.solana.txs.map LoggedTx.tx = _
  rw [← hnew, List.map_append]
  rfl

theorem World.Grows.unforged (h : w.Grows w') (hunforged : w'.Unforged adapter) : w.Unforged adapter :=
  fun tx htx => hunforged tx (h.1.subset htx)

theorem Submission.grows {h : TrackedHop} (hgrows : w.Grows w') (hsub : Submission adapter solana evm w h) :
    Submission adapter solana evm w' h := by
  obtain ⟨tx, htx, hrest⟩ | ⟨n, log, hlog, htracked⟩ := hsub
  · exact Or.inl ⟨tx, hgrows.1.subset htx, hrest⟩
  · exact Or.inr ⟨n, log, hgrows.2 ▸ hlog, htracked⟩

theorem OwnRow.grows {id : IntentId} {r : IntentLifecycleRecord} (hgrows : w.Grows w')
    (hown : OwnRow adapter solana evm w id r) :
    OwnRow adapter solana evm w' id r where
  commitment := by
    obtain hnone | ⟨h, hsub, hrest⟩ := hown.commitment
    · exact Or.inl hnone
    · exact Or.inr ⟨h, hsub.grows hgrows, hrest⟩
  recipient s hs := by
    obtain ⟨h, hsub, hrest⟩ := hown.recipient s hs
    exact ⟨h, hsub.grows hgrows, hrest⟩

/-- A row that is merged from what is the intent's own. -/
theorem OwnRow.merge {hop : TrackedHop} {existing row : Option IntentLifecycleRecord} {now : Nat}
    (hexisting : ∀ r, existing = some r → OwnRow adapter solana evm w hop.intentId r)
    (hhop : OwnHop adapter solana evm w hop) :
    OwnRow adapter solana evm w hop.intentId (upsertRecord hop.intentId existing row ⟨hop.hop, hop.details, now⟩) where
  commitment := by
    obtain ⟨hblob, hsize, hdeadline⟩ | ⟨hsub, hblob, hsize, hdeadline⟩ := hhop.commitment
    · -- the row keeps what it had
      simp only [upsertRecord, applyHop, hblob, hsize, hdeadline, Option.orElse]
      cases existing with
      | none => exact Or.inl ⟨rfl, rfl, rfl⟩
      | some r => exact (hexisting r rfl).commitment
    · refine Or.inr ⟨hop, hsub, rfl, ?_⟩
      obtain ⟨blob, hblob⟩ := Option.isSome_iff_exists.mp hblob
      obtain ⟨size, hsize⟩ := Option.isSome_iff_exists.mp hsize
      obtain ⟨deadline, hdeadline⟩ := Option.isSome_iff_exists.mp hdeadline
      simp [upsertRecord, applyHop, hblob, hsize, hdeadline]
  recipient s hs := by
    cases hsender : hop.details.sender with
    | some s' =>
      simp only [upsertRecord, applyHop, hsender] at hs
      cases hs
      exact hhop.recipient s hsender
    | none =>
      simp only [upsertRecord, applyHop, hsender, Option.orElse] at hs
      cases existing with
      | none => cases hs
      | some r => exact (hexisting r rfl).recipient s hs

theorem Sound.record {hop : TrackedHop} {existing : Option IntentLifecycleRecord} (now : Nat)
    (hsound : Sound adapter solana evm w)
    (hhop : w.Unforged adapter → OwnHop adapter solana evm w hop) (hread : w.MayRead hop.intentId existing) :
    Sound adapter solana evm (w.record hop existing now) := by
  intro hunforged id r hr
  have hunforged : w.Unforged adapter := hunforged
  have hgrows : w.Grows (w.record hop existing now) := World.Grows.refl w
  have hold : ∀ r ∈ w.rows id, OwnRow adapter solana evm (w.record hop existing now) id r :=
    fun r hr => (hsound hunforged id r hr).grows hgrows
  by_cases hid : id = hop.intentId
  · subst hid
    have hr : r ∈ Function.update w.rows hop.intentId _ hop.intentId := hr
    rw [Function.update_self] at hr
    obtain rfl | hr := List.mem_cons.mp hr
    · exact (OwnRow.merge (fun r hr => hsound hunforged _ r (hread r hr)) (hhop hunforged)).grows hgrows
    · exact hold r hr
  · have hr : r ∈ Function.update w.rows hop.intentId _ id := hr
    rw [Function.update_of_ne hid] at hr
    exact hold r hr

theorem PipelineHop.own {hop : TrackedHop} (hhop : PipelineHop w hop) (hsound : Sound adapter solana evm w)
    (hunforged : w.Unforged adapter) : OwnHop adapter solana evm w hop where
  commitment := Or.inl ⟨hhop.committedBlobId, hhop.size, hhop.deadline⟩
  recipient s hs := by
    obtain ⟨r, hr, c, hc, hsender⟩ := hhop.sender s hs
    refine (hsound hunforged _ r hr).recipient s ?_
    simp only [getCommitment, Option.bind_eq_bind, Option.bind_eq_some_iff, Option.pure_def, Option.some.injEq] at hc
    obtain ⟨_, rfl, _, -, _, -, _, -, rfl⟩ := hc
    exact hsender

theorem Moves.keeps (hmoves : Moves w w') (hsound : Sound adapter solana evm w) :
    Sound adapter solana evm w' ∧ w.Grows w' := by
  cases hmoves with
  | mined ledger h =>
    have hgrows : w.Grows { w with solana := ledger } := ⟨h, rfl⟩
    exact ⟨fun hunforged id r hr => (hsound (hgrows.unforged hunforged) id r hr).grows hgrows, hgrows⟩
  | recorded now hhop hread => exact ⟨hsound.record now (hhop.own hsound) hread, World.Grows.refl w⟩

/-! ## What a watcher records -/

section

variable {Rpc Cursor : Type} {Reply : Rpc → Type} {reads : World → (q : Rpc) → Except String (Reply q) → Prop}
  {bootstrap : WatcherProgram Rpc Cursor Reply Cursor}
  {poll : Cursor → WatcherProgram Rpc Cursor Reply (List TrackedHop × Cursor)}
  {S : Told Rpc Cursor Reply → TrackedHop → Prop} {h : Told Rpc Cursor Reply}

/-- A hop that is recorded has its source in what was told. -/
def Tracks (S : Told Rpc Cursor Reply → TrackedHop → Prop) (h : Told Rpc Cursor Reply) : WatcherCall Rpc Cursor → Prop
  | .recordHop hop => S h hop
  | _ => True

/-- The hops that a poll fetches have their sources in what it was told. -/
def Sources (S : Told Rpc Cursor Reply → TrackedHop → Prop)
    (poll : Cursor → WatcherProgram Rpc Cursor Reply (List TrackedHop × Cursor)) : Prop :=
  ∀ h c, wp (fun _ c => c.Queries) (fun h r => ∀ hops c', r = .ok (hops, c') → ∀ hop ∈ hops, S h hop) h (poll c)

theorem queries_tracks {c : WatcherCall Rpc Cursor} (hc : c.Queries) : Tracks S h c := by
  cases c with
  | rpc q => trivial
  | recordHop hop | setCursor c => exact hc.elim

theorem forM_trackHop (hS : ∀ h x hop, S h hop → S (h ++ [x]) hop) {hops : List TrackedHop}
    (hhops : ∀ hop ∈ hops, S h hop) :
    wp (Tracks S) (fun _ _ => True) h (hops.forM trackHop) := by
  have hcalls : wp (fun _ (c : WatcherCall Rpc Cursor) => ∃ hop ∈ hops, c = .recordHop hop)
      (fun _ r => r = .ok ⟨⟩ → ∀ hop ∈ hops, True) h (hops.forM trackHop) := by
    refine wp_forM (fun _ _ _ => id) fun hop hhop h => ?_
    unfold trackHop
    rw [wp_tryCatch]
    refine (wp_call (WatcherCall.recordHop hop)).mpr ⟨⟨hop, hhop, rfl⟩, fun r => ?_⟩
    cases r <;> exact fun _ => trivial
  have hstays : ∀ (h : Told Rpc Cursor Reply) x, (∀ hop ∈ hops, S h hop) → ∀ hop ∈ hops, S (h ++ [x]) hop :=
    fun h x hhops hop hhop => hS h x hop (hhops hop hhop)
  refine wp_mono (wp_along hstays hcalls hhops) ?_ fun _ _ _ => trivial
  rintro h c ⟨⟨hop, hhop, rfl⟩, hhops⟩
  exact hhops hop hhop

theorem pollOnce_tracks (hS : ∀ h x hop, S h hop → S (h ++ [x]) hop) (hpoll : Sources S poll) (c : Cursor) :
    wp (Tracks S) (fun _ _ => True) h (pollOnce poll c) := by
  unfold pollOnce
  rw [wp_bind]
  refine wp_mono (hpoll h c) (fun _ _ => queries_tracks) fun h r hr => ?_
  cases r with
  | error e => trivial
  | ok fetched =>
    refine (wp_bind _ _).mpr (wp_mono (forM_trackHop hS (hr _ _ rfl)) (fun _ _ => id) fun h r _ => ?_)
    cases r with
    | error e => trivial
    | ok _ =>
      refine (wp_bind _ _).mpr ((wp_call _).mpr ⟨trivial, fun r => ?_⟩)
      cases r <;> trivial

theorem watch_tracks (hS : ∀ h x hop, S h hop → S (h ++ [x]) hop) (hpoll : Sources S poll)
    (hbootstrap : Calls WatcherCall.Queries bootstrap) (polls : Nat) :
    wp (Tracks S) (fun _ _ => True) [] (watch bootstrap poll polls) := by
  have hpolls : ∀ (h : Told Rpc Cursor Reply) c, wp (Tracks S) (fun _ _ => True) h (scheduledPolls poll polls c) := by
    induction polls with
    | zero => exact fun _ _ => trivial
    | succ polls ih =>
      intro h c
      unfold scheduledPolls
      rw [wp_bind, wp_tryCatch]
      refine wp_mono (pollOnce_tracks hS hpoll c) (fun _ _ => id) fun h r _ => ?_
      cases r with
      | error e => exact ih h c
      | ok c' => exact ih h c'
  unfold watch
  rw [wp_bind]
  refine wp_frame (I := fun _ => True) (fun _ _ _ _ _ => trivial) (fun _ _ _ => queries_tracks)
    (fun h r _ => ?_) hbootstrap trivial
  cases r with
  | error e => trivial
  | ok c =>
    refine (wp_bind _ _).mpr ((wp_call _).mpr ⟨trivial, fun r => ?_⟩)
    cases r with
    | error e => trivial
    | ok _ => exact hpolls _ c

/-- What holds of the world and of the watcher in it. -/
abbrev Holds (adapter : ProgramId) (solana : SolanaWatcher.Config) (evm : EvmWatcher.Config)
    (reads : World → (q : Rpc) → Except String (Reply q) → Prop) (S : Told Rpc Cursor Reply → TrackedHop → Prop) :
    Host.State World (WatcherCall Rpc Cursor) (WatcherCall.Answer Reply) String Unit → Prop :=
  Host.Holds (Sound adapter solana evm) (Trusts reads) (Tracks S) fun _ _ => True

/-- One step of a watcher whose hops are the intents' own. -/
theorem watchHost_keeps (hreads : ∀ w w' q r, w.Grows w' → reads w q r → reads w' q r)
    (htracks : ∀ polls, wp (Tracks S) (fun _ _ => True) [] (watch bootstrap poll polls))
    (hown : ∀ w h hop, Trusts reads w h → S h hop → w.Unforged adapter → OwnHop adapter solana evm w hop)
    {x y : Host.State World (WatcherCall Rpc Cursor) (WatcherCall.Answer Reply) String Unit}
    {e : Host.Event (WatcherCall Rpc Cursor) (WatcherCall.Answer Reply) String}
    (hstep : (watchHost reads bootstrap poll).Step x e y)
    (h : Holds adapter solana evm reads S x) : Holds adapter solana evm reads S y ∧ x.1.Grows y.1 := by
  have htrusts : ∀ {w w' : World} {told : Told Rpc Cursor Reply}, w.Grows w' → Trusts reads w told →
      Trusts reads w' told :=
    fun hgrows ht q r hmem => hreads _ _ q r hgrows (ht q r hmem)
  have hmore : ∀ {w : World} {told : Told Rpc Cursor Reply} {c : WatcherCall Rpc Cursor} {r}, Trusts reads w told →
      (∀ q r', (⟨c, r⟩ : Σ c : WatcherCall Rpc Cursor, Except String (c.Answer Reply)) = ⟨.rpc q, r'⟩ → reads w q r') →
      Trusts reads w (told ++ [⟨c, r⟩]) := by
    intro w told c r ht hlast q r' hmem
    obtain hmem | hmem := List.mem_append.mp hmem
    · exact ht q r' hmem
    · exact hlast q r' (List.mem_singleton.mp hmem).symm
  refine ⟨hstep.keeps (C := fun _ _ => True) ?_ ?_ ?_ trivial h, ?_⟩
  · intro w p w' hsound _ hstarts
    obtain ⟨rfl, polls, rfl⟩ := hstarts
    exact ⟨hsound, fun q r hmem => absurd hmem List.not_mem_nil, htracks polls⟩
  · intro w told c next r w' hsound ht hP _ hserves
    cases hserves with
    | rpc hread =>
      refine ⟨hsound, hmore ht fun q r' heq => ?_⟩
      cases heq
      exact hread
    | recordHop now hread =>
      exact ⟨hsound.record now (hown w told _ ht hP) hread, hmore (htrusts (World.Grows.refl w) ht)
        fun q r' heq => by cases heq⟩
    | recordHopFails | setCursor => exact ⟨hsound, hmore ht fun q r' heq => by cases heq⟩
  · intro w s w' hsound _ hmoves
    obtain ⟨hsound', hgrows⟩ := hmoves.keeps hsound
    exact ⟨hsound', fun told => htrusts hgrows⟩
  · cases hstep with
    | start hstarts =>
      obtain ⟨rfl, -⟩ := hstarts
      exact World.Grows.refl _
    | answer r hserves => cases hserves <;> exact World.Grows.refl _
    | leave => exact World.Grows.refl _
    | move hmoves => exact (hmoves.keeps h.1).2

end

/-! ## Where the hops come from -/

/-- An event of a transaction that did not fail, whose log was answered. -/
def SolanaSource (solana : SolanaWatcher.Config) (h : Told SolanaWatcher.Rpc (Option String) SolanaWatcher.Reply)
    (hop : TrackedHop) : Prop :=
  ∃ untilSignature limit sigs, ⟨.rpc (.getSignaturesForAddress untilSignature limit), .ok sigs⟩ ∈ h ∧
    ∃ s ∈ sigs, s.err = false ∧
    ∃ logs, ⟨.rpc (.getTransaction s.signature), .ok (some (some logs))⟩ ∈ h ∧
      ∃ ev ∈ parseIntentSubmittedEvents logs,
        hop = (⟨ev, s.signature⟩ : SolanaWatcher.SolanaSubmittedEvent).tracked solana

/-- A log that was answered. -/
def EvmSource (evm : EvmWatcher.Config) (h : Told EvmWatcher.Rpc Nat EvmWatcher.Reply) (hop : TrackedHop) : Prop :=
  ∃ filter fromBlock toBlock logs, ⟨.rpc (.queryFilter filter fromBlock toBlock), .ok logs⟩ ∈ h ∧
    ∃ log ∈ logs, EvmWatcher.trackedOf evm log filter = some hop

theorem SolanaSource.append {h : Told SolanaWatcher.Rpc (Option String) SolanaWatcher.Reply} {hop : TrackedHop}
    (hsource : SolanaSource solana h hop) (x) : SolanaSource solana (h ++ [x]) hop := by
  obtain ⟨u, limit, sigs, hsigs, s, hs, hok, logs, hlogs, hrest⟩ := hsource
  exact ⟨u, limit, sigs, List.mem_append_left _ hsigs, s, hs, hok, logs, List.mem_append_left _ hlogs, hrest⟩

theorem EvmSource.append {h : Told EvmWatcher.Rpc Nat EvmWatcher.Reply} {hop : TrackedHop}
    (hsource : EvmSource evm h hop) (x) :
    EvmSource evm (h ++ [x]) hop := by
  obtain ⟨filter, fromBlock, toBlock, logs, hlogs, hrest⟩ := hsource
  exact ⟨filter, fromBlock, toBlock, logs, List.mem_append_left _ hlogs, hrest⟩

theorem eventsOf_sources (sigs : List SolanaWatcher.SignatureInfo)
    {h : Told SolanaWatcher.Rpc (Option String) SolanaWatcher.Reply} :
    wp (fun _ c => c.Queries) (fun h r => ∀ events, r = .ok events → ∀ e ∈ events, ∃ s ∈ sigs, s.err = false ∧
      ∃ logs, ⟨.rpc (.getTransaction s.signature), .ok (some (some logs))⟩ ∈ h ∧
        ∃ ev ∈ parseIntentSubmittedEvents logs, e = ⟨ev, s.signature⟩) h (SolanaWatcher.eventsOf sigs) := by
  induction sigs generalizing h with
  | nil =>
    intro events hevents
    cases hevents
    exact fun e he => absurd he List.not_mem_nil
  | cons s rest ih =>
    unfold SolanaWatcher.eventsOf
    split
    · refine wp_mono ih (fun _ _ => id) fun h r hr events hevents e he => ?_
      obtain ⟨s', hs', hrest⟩ := hr events hevents e he
      exact ⟨s', List.mem_cons_of_mem _ hs', hrest⟩
    · rename_i hok
      rw [wp_bind, SolanaWatcher.wp_getTransaction]
      refine ⟨trivial, fun r => ?_⟩
      cases r with
      | error e =>
        intro events hevents
        cases hevents
      | ok tx =>
        rw [andThen_ok, wp_bind]
        have hstays : ∀ (h : Told SolanaWatcher.Rpc (Option String) SolanaWatcher.Reply) x,
            ⟨.rpc (.getTransaction s.signature), .ok tx⟩ ∈ h →
              ⟨.rpc (.getTransaction s.signature), .ok tx⟩ ∈ h ++ [x] :=
          fun h x hmem => List.mem_append_left _ hmem
        refine wp_mono (wp_stays hstays ih (by simp)) (fun _ _ => id) fun h r hr => ?_
        cases r with
        | error e =>
          intro events hevents
          cases hevents
        | ok later =>
          intro events hevents e he
          cases hevents
          obtain he | he := List.mem_append.mp he
          · obtain ⟨ev, hev, rfl⟩ := List.mem_map.mp he
            -- only a transaction that is answered with its log has events
            obtain _ | _ | logs := tx
            · exact absurd hev List.not_mem_nil
            · exact absurd hev List.not_mem_nil
            · exact ⟨s, List.mem_cons_self, Bool.eq_false_iff.mpr hok, logs, hr.2, ev, hev, rfl⟩
          · obtain ⟨s', hs', hrest⟩ := hr.1 later rfl e he
            exact ⟨s', List.mem_cons_of_mem _ hs', hrest⟩

theorem solana_sources : Sources (SolanaSource solana) (SolanaWatcher.poll solana) := by
  intro h c
  have hnone : ∀ (h : Told SolanaWatcher.Rpc (Option String) SolanaWatcher.Reply), ∀ hop ∈ ([] : List TrackedHop),
      SolanaSource solana h hop := fun _ hop hhop => absurd hhop List.not_mem_nil
  unfold SolanaWatcher.poll SolanaWatcher.pollIntentSubmitted
  rw [wp_bind]
  split
  · intro hops c' hc'
    cases hc'
    exact hnone h
  · rw [wp_tryCatch, wp_bind, SolanaWatcher.wp_getSignaturesForAddress]
    refine ⟨trivial, fun r => ?_⟩
    cases r with
    | error e =>
      intro hops c' hc'
      cases hc'
      exact hnone _
    | ok sigs =>
      rw [andThen_ok]
      cases sigs with
      | nil =>
        intro hops c' hc'
        cases hc'
        exact hnone _
      | cons newest rest =>
        dsimp only
        rw [wp_bind]
        have hstays : ∀ (h : Told SolanaWatcher.Rpc (Option String) SolanaWatcher.Reply) x,
            ⟨.rpc (.getSignaturesForAddress c SolanaWatcher.SIGNATURE_PAGE_LIMIT), .ok (newest :: rest)⟩ ∈ h →
            ⟨.rpc (.getSignaturesForAddress c SolanaWatcher.SIGNATURE_PAGE_LIMIT), .ok (newest :: rest)⟩ ∈ h ++ [x] :=
          fun h x hmem => List.mem_append_left _ hmem
        refine wp_mono (wp_stays hstays (eventsOf_sources (newest :: rest).reverse) (by simp)) (fun _ _ => id)
          fun h r hr => ?_
        obtain ⟨hsources, hpage⟩ := hr
        cases r with
        | error e =>
          intro hops c' hc'
          cases hc'
          exact hnone _
        | ok events =>
          intro hops c' hc' hop hhop
          cases hc'
          obtain ⟨e, he, rfl⟩ := List.mem_map.mp hhop
          obtain ⟨s, hs, hok, logs, hlogs, ev, hev, rfl⟩ := hsources events rfl e he
          exact ⟨_, _, _, hpage, s, List.mem_reverse.mp hs, hok, logs, hlogs, ev, hev, rfl⟩

theorem evm_sources : Sources (EvmSource evm) (EvmWatcher.poll evm) := by
  intro h c
  unfold EvmWatcher.poll EvmWatcher.pollLifecycleEvents
  rw [wp_bind, wp_bind, EvmWatcher.wp_getBlockNumber]
  refine ⟨trivial, fun r => ?_⟩
  cases r with
  | error e =>
    intro hops c' hc'
    cases hc'
  | ok head =>
    rw [andThen_ok]
    dsimp only
    split
    · intro hops c' hc'
      cases hc'
      exact fun hop hhop => absurd hhop List.not_mem_nil
    · rw [wp_tryCatch, wp_bind, EvmWatcher.wp_queryFilter]
      refine ⟨trivial, fun r => ?_⟩
      cases r with
      | error e =>
        intro hops c' hc'
        cases hc'
        exact fun hop hhop => absurd hhop List.not_mem_nil
      | ok submittedLogs =>
        rw [andThen_ok, wp_bind, EvmWatcher.wp_queryFilter]
        refine ⟨trivial, fun r => ?_⟩
        cases r with
        | error e =>
          intro hops c' hc'
          cases hc'
          exact fun hop hhop => absurd hhop List.not_mem_nil
        | ok executedLogs =>
          intro hops c' hc' hop hhop
          cases hc'
          obtain hhop | hhop := List.mem_append.mp hhop
          · obtain ⟨e, he, rfl⟩ := List.mem_map.mp hhop
            obtain ⟨log, hlog, hsubmitted⟩ := List.mem_filterMap.mp he
            refine ⟨.IntentSubmitted, c, (head - EvmWatcher.EVM_HEAD_LAG : Int).toNat, submittedLogs,
              List.mem_append_left _ ?_, log, hlog, ?_⟩
            · exact List.mem_append_right _ (List.mem_singleton_self _)
            · rw [EvmWatcher.trackedOf, hsubmitted]
              rfl
          · obtain ⟨e, he, rfl⟩ := List.mem_map.mp hhop
            obtain ⟨log, hlog, hexecuted⟩ := List.mem_filterMap.mp he
            refine ⟨.IntentExecuted, c, (head - EvmWatcher.EVM_HEAD_LAG : Int).toNat, executedLogs,
              List.mem_append_right _ (List.mem_singleton_self _), log, hlog, ?_⟩
            rw [EvmWatcher.trackedOf, hexecuted]
            rfl

/-- A submission brings all of its commitment, and a recipient. -/
theorem Submission.own {hop : TrackedHop} (hsub : Submission adapter solana evm w hop) :
    OwnHop adapter solana evm w hop where
  commitment := by
    refine Or.inr ⟨hsub, ?_⟩
    obtain ⟨tx, -, -, ev, -, rfl⟩ | ⟨n, log, -, htracked⟩ := hsub
    · exact ⟨rfl, rfl, rfl⟩
    · obtain ⟨e, -, rfl⟩ := Option.map_eq_some_iff.mp htracked
      exact ⟨rfl, rfl, rfl⟩
  recipient s hs := ⟨hop, hsub, rfl, hs⟩

theorem SolanaSource.own {h : Told SolanaWatcher.Rpc (Option String) SolanaWatcher.Reply} {hop : TrackedHop}
    (htrusts : Trusts solanaReads w h) (hsource : SolanaSource solana h hop)
    (hunforged : w.Unforged adapter) : OwnHop adapter solana evm w hop := by
  obtain ⟨u, limit, sigs, hsigs, s, hs, hok, logs, hlogs, ev, hev, rfl⟩ := hsource
  obtain ⟨n, hn, rfl⟩ := htrusts _ _ hsigs
  obtain ⟨tx, htx, rfl⟩ := List.mem_map.mp hs
  have hin : tx ∈ w.solana.chain.txs := by
    have hview := List.mem_of_mem_take htx
    exact List.mem_of_mem_take (List.mem_reverse.mp ((List.takeWhile_prefix _).subset hview))
  obtain ⟨tx', htx', hsame, rfl⟩ := htrusts _ _ hlogs
  obtain rfl := w.solana.chain.tx_unique htx' hin hsame
  obtain ⟨logged, hlogged, rfl⟩ := List.mem_map.mp htx'
  have hemits : logged.Emits adapter ev := (yields_own_iff adapter logged).mpr (hunforged logged hlogged hok) ev hev
  exact Submission.own (Or.inl ⟨logged, hlogged, hok, ev, hemits, rfl⟩)

theorem EvmSource.own {h : Told EvmWatcher.Rpc Nat EvmWatcher.Reply} {hop : TrackedHop}
    (htrusts : Trusts evmReads w h) (hsource : EvmSource evm h hop) :
    OwnHop adapter solana evm w hop := by
  obtain ⟨filter, fromBlock, toBlock, logs, hlogs, log, hlog, htracked⟩ := hsource
  obtain rfl : logs = _ := htrusts _ _ hlogs
  obtain ⟨n, -, hmem⟩ := List.mem_flatMap.mp hlog
  cases filter with
  | IntentSubmitted => exact Submission.own (Or.inr ⟨n, log, hmem, htracked⟩)
  | IntentExecuted =>
    -- the hop of an execution brings a transaction hash alone
    obtain ⟨e, -, rfl⟩ := Option.map_eq_some_iff.mp htracked
    exact ⟨Or.inl ⟨rfl, rfl, rfl⟩, fun s hs => by cases hs⟩

theorem solanaHost_keeps {x y} {e} (hstep : (solanaHost solana).Step x e y)
    (h : Holds adapter solana evm solanaReads (SolanaSource solana) x) :
    Holds adapter solana evm solanaReads (SolanaSource solana) y ∧ x.1.Grows y.1 :=
  watchHost_keeps (fun _ _ q r hgrows => SolanaWatcher.reads_grows q r hgrows.chain)
    (watch_tracks (fun _ x _ hsource => hsource.append x) solana_sources
      (Calls.of_wp (SolanaWatcher.getLatestSignature_seeds (h := []))))
    (fun _ _ _ htrusts hsource hunforged => hsource.own htrusts hunforged) hstep h

theorem evmHost_keeps {x y} {e} (hstep : (evmHost evm).Step x e y)
    (h : Holds adapter solana evm evmReads (EvmSource evm) x) :
    Holds adapter solana evm evmReads (EvmSource evm) y ∧ x.1.Grows y.1 := by
  refine watchHost_keeps (fun w w' q r hgrows hread => ?_)
    (watch_tracks (fun _ x _ hsource => hsource.append x) evm_sources
    (Calls.of_wp (EvmWatcher.bootstrapAttempts_seeds _ (h := []))))
    (fun _ _ _ htrusts hsource _ => hsource.own htrusts) hstep h
  unfold evmReads
  rw [hgrows.2]
  exact hread

/-! ## A transaction that logs a submission -/

open SolanaWatcher (examplePayload exampleConfig decode_examplePayload)

def exampleAdapter : ProgramId where
  address := ['A']
  base58 := by
    unfold BASE58
    simp

def exampleProgram : ProgramId where
  address := ['P']
  base58 := by
    unfold BASE58
    simp

/-- A program that leaves an entry itself, and then invokes the adapter. -/
def exampleInstruction (writer : ProgramId) (e : LogEntry) : Instruction where
  program := writer
  log := .entry e (.invoke exampleAdapter .done {} .done)

theorem exampleInstruction_lines (writer : ProgramId) (e : LogEntry) :
    [exampleInstruction writer e].flatMap Instruction.lines =
    [invokeLine writer 1, e.text writer, invokeLine exampleAdapter 2, successLine exampleAdapter,
      successLine writer] := rfl

def exampleTx (writer : ProgramId) : LoggedTx where
  signature := "sig1"
  err := false
  instructions := [exampleInstruction writer (.data [examplePayload])]
  logMessages := [exampleInstruction writer (.data [examplePayload])].flatMap Instruction.lines
  logged := List.filter_sublist

theorem exampleTx_entries (writer : ProgramId) : (exampleTx writer).entries = [(writer, .data [examplePayload])] := rfl

theorem exampleTx_events (writer : ProgramId) :
    parseIntentSubmittedEvents (exampleTx writer).logMessages = [SolanaWatcher.exampleSubmitted] := by
  have hevent : (LogEntry.data [examplePayload]).event = some SolanaWatcher.exampleSubmitted := decode_examplePayload
  have hdata : parseLine ((LogEntry.data [examplePayload]).text writer) = some SolanaWatcher.exampleSubmitted := by
    rw [LogEntry.parseLine_text (by rw [hevent]; simp), hevent]
  have hinvoke : ∀ program depth, parseLine (invokeLine program depth) = none :=
    fun program depth => parseLine_of_no_colon (invokeLine_no_colon program depth)
  have hsuccess : ∀ program, parseLine (successLine program) = none :=
    fun program => parseLine_of_no_colon (successLine_no_colon program)
  have hlines : (exampleTx writer).logMessages =
      [exampleInstruction writer (.data [examplePayload])].flatMap Instruction.lines := rfl
  unfold parseIntentSubmittedEvents
  rw [hlines, exampleInstruction_lines, List.filterMap_cons_none (hinvoke _ _), List.filterMap_cons_some hdata,
    List.filterMap_cons_none (hinvoke _ _), List.filterMap_cons_none (hsuccess _),
      List.filterMap_cons_none (hsuccess _),
    List.filterMap_nil]

def exampleLedger (writer : ProgramId) : Ledger := ⟨[exampleTx writer], List.nodup_singleton _⟩

def exampleEvm : EvmWatcher.Config := { parseLog := fun _ => none, isTransientRpcError := fun _ => false }

/-- The watcher starts before the transaction, and records what it reads in it. -/
theorem example_recorded (writer : ProgramId) : ∃ y, Run exampleConfig exampleEvm
    ⟨{ solana := ⟨[], List.nodup_nil⟩, evm := fun _ _ => [] }, none, none⟩ y ∧ y.world.solana = exampleLedger writer ∧
    y.world.evm = (fun _ _ => []) ∧
    ∃ r ∈ y.world.rows SolanaWatcher.exampleSubmitted.intentId,
      r.committedBlobId = some SolanaWatcher.exampleSubmitted.committedBlobId := by
  have h0 : (solanaHost exampleConfig).Leads (fun _ _ => True)
      ({ solana := ⟨[], List.nodup_nil⟩, evm := fun _ _ => [] }, none)
      ({ solana := ⟨[], List.nodup_nil⟩, evm := fun _ _ => [] }, none) := .refl
  have h1 := h0.step (e := .start) trivial
    (.start (p := Watcher.watch (SolanaWatcher.getLatestSignature exampleConfig) (SolanaWatcher.poll exampleConfig) 1)
      ⟨rfl, 1, rfl⟩)
  have h2 := h1.answer (c := WatcherCall.rpc (SolanaWatcher.Rpc.getSignaturesForAddress none 1)) (.ok [])
    (Serves.rpc ⟨0, Nat.le_refl 0, rfl⟩) trivial
  have h3 := h2.answer (c := WatcherCall.setCursor none) (.ok ()) Serves.setCursor trivial
  have h4 := h3.step (e := .move) trivial (.move (Moves.mined (exampleLedger writer) List.nil_prefix))
  have h5 := h4.answer (c := WatcherCall.rpc (SolanaWatcher.Rpc.getSignaturesForAddress none SolanaWatcher.SIGNATURE_PAGE_LIMIT))
    (.ok [(exampleTx writer).tx.info]) (Serves.rpc ⟨1, Nat.le_refl 1, rfl⟩) trivial
  have h6 := h5.answer (c := WatcherCall.rpc (SolanaWatcher.Rpc.getTransaction "sig1"))
      (.ok (some (some (exampleTx writer).logMessages)))
    (Serves.rpc ⟨(exampleTx writer).tx, List.mem_singleton_self _, rfl, rfl⟩) trivial
  have h7 : (solanaHost exampleConfig).Leads (fun _ _ => True)
      ({ solana := ⟨[], List.nodup_nil⟩, evm := fun _ _ => [] }, none)
      ({ solana := exampleLedger writer, evm := fun _ _ => [] }, some ⟨_, SolanaWatcher.examplePolled
        ((parseIntentSubmittedEvents (exampleTx writer).logMessages).map (⟨·, "sig1"⟩) ++ [])⟩) := h6
  rw [exampleTx_events] at h7
  have hread : World.MayRead { solana := exampleLedger writer, evm := fun _ _ => [] }
      SolanaWatcher.exampleSubmitted.intentId none := fun r hr => by cases hr
  have h8 := h7.answer (c := WatcherCall.recordHop _) (.ok ()) (Serves.recordHop 0 hread) trivial
  exact ⟨_, Host.Leads.beside h8, rfl, rfl, _, World.record_mem _ _ _ _, rfl⟩

/-- The parser yields events of the adapter alone exactly when the log is not forged; in a run without forged logs,
every row of every intent is its own. -/
theorem submissions_own (adapter : ProgramId) (solana : SolanaWatcher.Config) (evm : EvmWatcher.Config) :
    (∀ tx : LoggedTx, (∀ ev ∈ parseIntentSubmittedEvents tx.logMessages, tx.Emits adapter ev) ↔ tx.Unforged adapter) ∧
    ∀ ledger chain y, Run solana evm ⟨{ solana := ledger, evm := chain }, none, none⟩ y → y.world.Unforged adapter →
      ∀ id, ∀ r ∈ y.world.rows id, OwnRow adapter solana evm y.world id r := by
  refine ⟨yields_own_iff adapter, fun ledger chain y hrun hunforged => ?_⟩
  have hstart : Sound adapter solana evm { solana := ledger, evm := chain } :=
    fun _ id r hr => absurd hr List.not_mem_nil
  have hholds : Holds adapter solana evm solanaReads (SolanaSource solana) (y.world, y.left) ∧
      Holds adapter solana evm evmReads (EvmSource evm) (y.world, y.right) := by
    refine Host.Beside.keeps (fun x e y hstep h => ?_) (fun x e y hstep h => ?_) hrun ⟨.idle hstart, .idle hstart⟩
    · obtain ⟨hkept, hgrows⟩ := solanaHost_keeps hstep h
      refine ⟨hkept, fun told htrusts q r hmem => ?_⟩
      unfold evmReads
      rw [hgrows.2]
      exact htrusts q r hmem
    · obtain ⟨hkept, hgrows⟩ := evmHost_keeps hstep h
      exact ⟨hkept, fun told htrusts q r hmem => SolanaWatcher.reads_grows q r hgrows.chain (htrusts q r hmem)⟩
  exact hholds.1.1 hunforged

/-- The adapter's own submission is recorded as what it is. -/
theorem submissions_own_recorded : (∀ ev ∈ parseIntentSubmittedEvents (exampleTx exampleAdapter).logMessages,
      (exampleTx exampleAdapter).Emits exampleAdapter ev) ∧
    ∃ y : Host.Pair World _ _ _ _ String Unit, Run exampleConfig exampleEvm
        ⟨{ solana := ⟨[], List.nodup_nil⟩, evm := fun _ _ => [] }, none, none⟩ y ∧
      ∃ r ∈ y.world.rows SolanaWatcher.exampleSubmitted.intentId,
        OwnRow exampleAdapter exampleConfig exampleEvm y.world SolanaWatcher.exampleSubmitted.intentId r := by
  obtain ⟨htx, hruns⟩ := submissions_own exampleAdapter exampleConfig exampleEvm
  have hunforged : (exampleTx exampleAdapter).Unforged exampleAdapter := by
    intro program e he _ hother
    rw [exampleTx_entries] at he
    obtain ⟨rfl, rfl⟩ := Prod.mk.inj (List.mem_singleton.mp he)
    have hevent : (LogEntry.data [examplePayload]).event = some SolanaWatcher.exampleSubmitted := decode_examplePayload
    rw [hevent] at hother
    exact hother.elim (fun h => absurd rfl h) fun h => by cases h
  obtain ⟨y, hrun, hledger, -, r, hr, -⟩ := example_recorded exampleAdapter
  refine ⟨(htx _).mpr hunforged, y, hrun, r, hr, hruns _ _ _ hrun (fun tx hmem _ => ?_) _ r hr⟩
  rw [hledger] at hmem
  obtain rfl := List.mem_singleton.mp hmem
  exact hunforged

/-- Another program logs the submission: the parser yields it, and the watcher records its commitment. -/
theorem submission_forged :
    (¬∀ (adapter : ProgramId) (tx : LoggedTx), ∀ ev ∈ parseIntentSubmittedEvents tx.logMessages, tx.Emits adapter ev) ∧
    ¬∀ adapter solana evm ledger chain y, Run solana evm ⟨{ solana := ledger, evm := chain }, none, none⟩ y →
      ∀ id, ∀ r ∈ y.world.rows id, OwnRow adapter solana evm y.world id r := by
  have hnone : ∀ ev, ¬(exampleTx exampleProgram).Emits exampleAdapter ev := by
    rintro ev ⟨e, he, -⟩
    rw [exampleTx_entries] at he
    obtain ⟨hwriter, -⟩ := Prod.mk.inj (List.mem_singleton.mp he)
    exact absurd (congrArg ProgramId.address hwriter) (by decide)
  constructor
  · intro hall
    refine hnone SolanaWatcher.exampleSubmitted
      (hall exampleAdapter (exampleTx exampleProgram) SolanaWatcher.exampleSubmitted ?_)
    rw [exampleTx_events]
    exact List.mem_singleton_self _
  · intro hall
    obtain ⟨y, hrun, hledger, hevm, r, hr, hblob⟩ := example_recorded exampleProgram
    obtain ⟨hnoblob, -⟩ | ⟨h, hsub, -⟩ := (hall exampleAdapter exampleConfig exampleEvm _ _ y hrun _ r hr).commitment
    · rw [hblob] at hnoblob
      cases hnoblob
    · obtain ⟨tx, htx, -, ev, hemits, -⟩ | ⟨n, log, hlog, -⟩ := hsub
      · rw [hledger] at htx
        obtain rfl := List.mem_singleton.mp htx
        exact hnone ev hemits
      · rw [hevm] at hlog
        exact absurd hlog List.not_mem_nil

end Attribution

end Bosphor.Relayer

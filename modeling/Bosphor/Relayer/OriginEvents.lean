import Bosphor.Relayer.EvmWatcher
import Bosphor.Relayer.SolanaWatcher

/-!
# The origin events that a watcher's cursor passes

A Solana event is recorded by the time the cursor passes its transaction, if the
store does not fail, a page holds what came since the cursor and a transaction
with an event is answered with it; an EVM event, if the store does not fail
(`origin_events_recorded`). A transaction that is answered with null is passed
for good (`solana_event_lost`).
-/

namespace Bosphor.Relayer

open StagedIntentStore Async

/-- While their conditions hold, the watchers record every event between their initial cursor and their cursor. -/
theorem origin_events_recorded (solana : SolanaWatcher.Config) (evm : EvmWatcher.Config) :
    (∀ chain records w s, (SolanaWatcher.Host solana).Leads (Watcher.Answered SolanaWatcher.Shows)
        ({ chain := chain, records := records }, none) (w, s) →
      ∀ cursor initial, w.cursor = some cursor → w.initial = some initial →
      ∀ k tx ev, w.chain.txs[k]? = some tx → tx.err = false → ev ∈ parseIntentSubmittedEvents tx.logMessages →
        (∀ signature j, initial = some signature → w.chain.Place signature j → j < k) →
        (∃ signature j, cursor = some signature ∧ w.chain.Place signature j ∧ k ≤ j) →
        (⟨ev, tx.signature⟩ : SolanaWatcher.SolanaSubmittedEvent).tracked solana ∈ w.recorded) ∧
    ∀ chain records w s, (EvmWatcher.Host evm).Leads (Watcher.Answered fun _ _ _ => True)
        ({ chain := chain, records := records }, none) (w, s) →
      ∀ cursor initial, w.cursor = some cursor → w.initial = some initial →
      ∀ n filter log hop, log ∈ w.chain n filter → EvmWatcher.trackedOf evm log filter = some hop →
        initial ≤ n → n < cursor → hop ∈ w.recorded := by
  refine ⟨fun chain records w s hrun cursor initial hcursor hinitial k tx ev htx hok hev hafter hupTo => ?_,
    fun chain records w s hrun cursor initial hcursor hinitial n filter log hop hlog htracked hafter hupTo => ?_⟩
  · have hcovered := Watcher.watch_covers SolanaWatcher.solana_fetches
      (fun _ _ _ hreads hshows => ⟨hreads, hshows⟩) hrun
      hcursor hinitial
    apply hcovered (k, (⟨ev, tx.signature⟩ : SolanaWatcher.SolanaSubmittedEvent).tracked solana)
    · exact ⟨tx, htx, hok, ev, hev, rfl⟩
    · exact hupTo
    · intro ⟨signature, j, hsignature, hj, hle⟩
      have hlt : j < k := hafter signature j hsignature hj
      exact absurd hle (Nat.not_le.mpr hlt)
  · have hcovered := Watcher.watch_covers EvmWatcher.evm_fetches (fun _ _ _ hreads _ => hreads) hrun hcursor hinitial
    apply hcovered (n, hop)
    · exact ⟨filter, log, hlog, htracked⟩
    · exact hupTo
    · exact Nat.not_lt.mpr hafter

namespace SolanaWatcher

/-! ## One transaction -/

def exampleConfig : Config := { recipient := "0xab" }

def examplePayload : List UInt8 := INTENT_SUBMITTED_DISC ++ List.replicate 165 0

def exampleTx : Tx := ⟨"sig1", false, [PROGRAM_DATA_PREFIX.toList ++ base64 examplePayload]⟩

def exampleChain : Chain := ⟨[exampleTx], List.nodup_singleton _⟩

def exampleSubmitted : SolanaIntentSubmitted where
  intentId := "0x0000000000000000000000000000000000000000000000000000000000000000"
  sender := List.replicate 32 0
  committedBlobId := "0x0000000000000000000000000000000000000000000000000000000000000000"
  size := 0
  encodingType := 0
  storageEpochs := 0
  deadline := 0
  dstEid := 0

theorem decode_examplePayload : decodeIntentSubmitted examplePayload = some exampleSubmitted := by decide +kernel

theorem exampleTx_events : parseIntentSubmittedEvents exampleTx.logMessages = [exampleSubmitted] := by
  show List.filterMap parseLine [_] = _
  rw [List.filterMap_cons, parseLine_data, decode_examplePayload]
  rfl

/-- What is left of the first poll once the transaction is answered with these events. -/
def examplePolled (events : List SolanaSubmittedEvent) : Program Unit := do
  let cursor ← tryCatch (do
    (events.map (·.tracked exampleConfig)).forM Watcher.trackHop
    Async.call (WatcherCall.setCursor (some "sig1"))
    return some "sig1") fun _ => return none
  Watcher.scheduledPolls (poll exampleConfig) 0 cursor

/-- The watcher starts before the transaction, and polls after it. -/
theorem example_polled (good : Chain → (q : Rpc) → Except String (Reply q) → Prop)
    (reply : Option (Option (List (List Char)))) (hreads : Reads exampleChain (.getTransaction "sig1") (.ok reply))
    (hseed : good ⟨[], List.nodup_nil⟩ (.getSignaturesForAddress none 1) (.ok []))
    (hpage : good exampleChain (.getSignaturesForAddress none SIGNATURE_PAGE_LIMIT) (.ok [exampleTx.info]))
    (hreply : good exampleChain (.getTransaction "sig1") (.ok reply)) :
    ∃ told, (Host exampleConfig).Leads (Watcher.Answered good) ({ chain := ⟨[], List.nodup_nil⟩ }, none)
      ({ chain := exampleChain, cursor := some none, initial := some none },
        some ⟨told, examplePolled ((parseIntentSubmittedEvents (reply.join.getD [])).map (⟨·, "sig1"⟩) ++ [])⟩) := by
  have h0 : (Host exampleConfig).Leads (Watcher.Answered good) ({ chain := ⟨[], List.nodup_nil⟩ }, none)
      ({ chain := ⟨[], List.nodup_nil⟩ }, none) := .refl
  have h1 := h0.step (e := .start) trivial
    (.start (p := Watcher.watch (getLatestSignature exampleConfig) (poll exampleConfig) 1) ⟨rfl, 1, rfl⟩)
  have h2 := h1.answer (c := WatcherCall.rpc (Rpc.getSignaturesForAddress none 1)) (.ok [])
    (Watcher.Serves.rpc ⟨0, Nat.le_refl 0, rfl⟩) hseed
  have h3 := h2.answer (c := WatcherCall.setCursor none) (.ok ()) Watcher.Serves.setCursor trivial
  have h4 := h3.step (e := .move) trivial (.move (Or.inl ⟨exampleChain, ⟨[exampleTx], rfl⟩, rfl⟩))
  have h5 := h4.answer (c := WatcherCall.rpc (Rpc.getSignaturesForAddress none SIGNATURE_PAGE_LIMIT))
    (.ok [exampleTx.info]) (Watcher.Serves.rpc ⟨1, Nat.le_refl 1, rfl⟩) hpage
  have h6 := h5.answer (c := WatcherCall.rpc (Rpc.getTransaction "sig1")) (.ok reply) (Watcher.Serves.rpc hreads) hreply
  exact ⟨_, h6⟩

/-- The transaction, and no other, before the cursor of the poll. -/
def Passed (w : Watcher.World Chain (Option String)) : Prop :=
  w.cursor = some (some "sig1") ∧ w.initial = some none ∧ w.chain = exampleChain

end SolanaWatcher

namespace EvmWatcher

/-! ## One log -/

def exampleLog : Log := ⟨[], [], "0x02"⟩

def exampleConfig : Config where
  parseLog _ := some { intentId := "0x01", sender := "0xcd", blobId := "0x03", size := 5, deadline := 7 }
  isTransientRpcError _ := false

def exampleChain : Chain := fun n filter => if n = 10 ∧ filter = .IntentSubmitted then [exampleLog] else []

/-- The watcher starts at block 10, and polls when block 11 is far enough behind the head. -/
theorem example_polled : ∃ w s, (Host exampleConfig).Leads (Watcher.Answered fun _ _ _ => True)
    ({ chain := exampleChain, records := fun _ => none }, none) (w, s) ∧ w.cursor = some 12 ∧ w.initial = some 10 ∧
    w.chain = exampleChain := by
  have h0 : (Host exampleConfig).Leads (Watcher.Answered fun _ _ _ => True)
      ({ chain := exampleChain, records := fun _ => none }, none) ({ chain := exampleChain }, none) := .refl
  have h1 := h0.step (e := .start) trivial
    (.start (p := Watcher.watch (bootstrapBlockNumber exampleConfig) (poll exampleConfig) 1) ⟨rfl, 1, rfl⟩)
  have h2 := h1.answer (c := WatcherCall.rpc Rpc.getBlockNumber) (.ok (10 : Nat)) (Watcher.Serves.rpc trivial) trivial
  have h3 := h2.answer (c := WatcherCall.setCursor 10) (.ok ()) Watcher.Serves.setCursor trivial
  have h4 := h3.answer (c := WatcherCall.rpc Rpc.getBlockNumber) (.ok (14 : Nat)) (Watcher.Serves.rpc trivial) trivial
  have h5 := h4.answer (c := WatcherCall.rpc (Rpc.queryFilter .IntentSubmitted 10 11)) (.ok [exampleLog])
    (Watcher.Serves.rpc rfl) trivial
  have h6 := h5.answer (c := WatcherCall.rpc (Rpc.queryFilter .IntentExecuted 10 11)) (.ok [])
      (Watcher.Serves.rpc rfl) trivial
  have h7 := h6.answer (c := WatcherCall.recordHop _) (.ok ()) (Watcher.Serves.recordHop 0) trivial
  have h8 := h7.answer (c := WatcherCall.setCursor 12) (.ok ()) Watcher.Serves.setCursor trivial
  exact ⟨_, _, h8, rfl, rfl, rfl⟩

end EvmWatcher

namespace SolanaWatcher

theorem example_recorded : ∃ w s, (Host exampleConfig).Leads (Watcher.Answered Shows)
    ({ chain := ⟨[], List.nodup_nil⟩, records := fun _ => none }, none) (w, s) ∧ Passed w := by
  obtain ⟨told, h0⟩ := example_polled Shows (some (some exampleTx.logMessages))
    ⟨exampleTx, List.mem_singleton_self _, rfl, rfl⟩ (fun h => absurd h (by decide))
    (fun _ => ⟨1, Nat.le_refl 1, rfl, Or.inr (by decide)⟩) ⟨exampleTx, List.mem_singleton_self _, rfl, fun _ h => h⟩
  have hevents : parseIntentSubmittedEvents ((some (some exampleTx.logMessages)).join.getD []) = [exampleSubmitted] :=
    exampleTx_events
  rw [hevents] at h0
  have h1 := h0.answer (c := WatcherCall.recordHop _) (.ok ()) (Watcher.Serves.recordHop 0) trivial
  have h2 := h1.answer (c := WatcherCall.setCursor (some "sig1")) (.ok ()) Watcher.Serves.setCursor trivial
  exact ⟨_, _, h2, rfl, rfl, rfl⟩

end SolanaWatcher

/-- The Solana transaction and the EVM log are recorded. -/
theorem origin_events_recorded_one :
    (∃ w : Watcher.World SolanaWatcher.Chain (Option String), SolanaWatcher.Passed w ∧
      (⟨SolanaWatcher.exampleSubmitted, "sig1"⟩ : SolanaWatcher.SolanaSubmittedEvent).tracked SolanaWatcher.exampleConfig ∈
        w.recorded) ∧
    ∃ w : Watcher.World EvmWatcher.Chain Nat, w.cursor = some 12 ∧
      ∃ hop, EvmWatcher.trackedOf EvmWatcher.exampleConfig EvmWatcher.exampleLog .IntentSubmitted = some hop ∧
        hop ∈ w.recorded := by
  have hall := origin_events_recorded SolanaWatcher.exampleConfig EvmWatcher.exampleConfig
  constructor
  · obtain ⟨w, s, hrun, hpassed⟩ := SolanaWatcher.example_recorded
    obtain ⟨hcursor, hinitial, hchain⟩ := id hpassed
    have hplace : w.chain.Place "sig1" 0 := by
      rw [hchain]
      exact ⟨SolanaWatcher.exampleTx, rfl, rfl⟩
    refine ⟨w, hpassed, hall.1 _ _ w s hrun _ _ hcursor hinitial 0 SolanaWatcher.exampleTx
      SolanaWatcher.exampleSubmitted (by rw [hchain]; rfl) rfl ?_ ?_ ⟨"sig1", 0, rfl, hplace, Nat.le_refl 0⟩⟩
    · rw [SolanaWatcher.exampleTx_events]
      exact List.mem_singleton_self _
    · intro signature j hnone
      cases hnone
  · obtain ⟨w, s, hrun, hcursor, hinitial, hchain⟩ := EvmWatcher.example_polled
    refine ⟨w, hcursor, _, rfl, hall.2 _ _ w s hrun _ _ hcursor hinitial 10 .IntentSubmitted EvmWatcher.exampleLog
      _ ?_ rfl (by decide) (by decide)⟩
    rw [hchain]
    exact List.mem_singleton_self _

/-- A transaction that is answered with null: the cursor passes it, and its event is not recorded. -/
theorem solana_event_lost :
    ¬∀ (cfg : SolanaWatcher.Config) chain records w s, (SolanaWatcher.Host cfg).Leads (fun _ _ => True)
        ({ chain := chain, records := records }, none) (w, s) →
      ∀ cursor initial, w.cursor = some cursor → w.initial = some initial →
      ∀ k tx ev, w.chain.txs[k]? = some tx → tx.err = false → ev ∈ parseIntentSubmittedEvents tx.logMessages →
        (∀ signature j, initial = some signature → w.chain.Place signature j → j < k) →
        (∃ signature j, cursor = some signature ∧ w.chain.Place signature j ∧ k ≤ j) →
        (⟨ev, tx.signature⟩ : SolanaWatcher.SolanaSubmittedEvent).tracked cfg ∈ w.recorded := by
  intro hall
  obtain ⟨told, h0⟩ := SolanaWatcher.example_polled (fun _ _ _ => True) none trivial trivial trivial trivial
  have h1 := h0.answer (c := WatcherCall.setCursor (some "sig1")) (.ok ()) Watcher.Serves.setCursor trivial
  have hrecorded := hall _ _ _ _ _ (h1.mono fun _ _ _ => trivial) (some "sig1") none rfl rfl 0 SolanaWatcher.exampleTx
    SolanaWatcher.exampleSubmitted rfl rfl (by rw [SolanaWatcher.exampleTx_events]; exact List.mem_singleton_self _)
    (fun signature j hnone => by cases hnone) ⟨"sig1", 0, rfl, ⟨SolanaWatcher.exampleTx, rfl, rfl⟩, Nat.le_refl 0⟩
  exact absurd hrecorded List.not_mem_nil

end Bosphor.Relayer

import Bosphor.Relayer.LifecycleWatcher

/-!
# The EVM lifecycle watcher

The watcher of `IntentSubmitted` and `IntentExecuted` on the EVM adapter. It
polls a few blocks behind the head, and its polls leave no log out
(`evm_fetches`): a failed query leaves the cursor where it is.
-/

namespace Bosphor.Relayer.EvmWatcher

open StagedIntentStore Async Watcher

def EVM_HEAD_LAG : Nat := 3
def EVM_BOOTSTRAP_MAX_ATTEMPTS : Nat := 8

structure Log where
  topics : List (List UInt8)
  data : List UInt8
  transactionHash : String
  deriving DecidableEq

/-- The arguments of a parsed log; an `IntentExecuted` log has the intent id alone. -/
structure ParsedArgs where
  intentId : IntentId
  sender : String := ""
  blobId : String := ""
  size : Nat := 0
  deadline : Nat := 0
  deriving DecidableEq

/-- The two events that are watched. -/
inductive Filter where
  | IntentSubmitted
  | IntentExecuted
  deriving DecidableEq

inductive Rpc where
  | getBlockNumber
  | queryFilter (filter : Filter) (fromBlock toBlock : Nat)

abbrev Reply : Rpc → Type
  | .getBlockNumber => Nat
  | .queryFilter .. => List Log

abbrev Program := WatcherProgram Rpc Nat Reply

/-- What is not the relayer's own: how ethers parses a log, and which errors pass for transient. -/
structure Config where
  parseLog : Log → Option ParsedArgs
  isTransientRpcError : String → Bool

variable (cfg : Config)

def getBlockNumber : Program Nat := Async.call (WatcherCall.rpc Rpc.getBlockNumber)

def queryFilter (filter : Filter) (fromBlock toBlock : Nat) : Program (List Log) :=
  Async.call (WatcherCall.rpc (Rpc.queryFilter filter fromBlock toBlock))

/-- The attempts that are left of `bootstrapBlockNumber`; the last one throws its error. -/
def bootstrapAttempts (left : Nat) : Program Nat :=
  match left with
  | 0 => getBlockNumber
  | left + 1 => tryCatch getBlockNumber fun err =>
    if !cfg.isTransientRpcError err then throw err else bootstrapAttempts left

def bootstrapBlockNumber : Program Nat := bootstrapAttempts cfg (EVM_BOOTSTRAP_MAX_ATTEMPTS - 1)

structure Submitted where
  intentId : IntentId
  sender : String
  blobId : String
  size : Nat
  deadlineMs : Nat
  txHash : String

structure Executed where
  intentId : IntentId
  txHash : String

structure EvmLifecycleEvents where
  submitted : List Submitted
  executed : List Executed
  newFromBlock : Nat

def submittedOf (log : Log) : Option Submitted :=
  (cfg.parseLog log).map fun args =>
    ⟨args.intentId, args.sender, args.blobId, args.size, args.deadline * 1000, log.transactionHash⟩

def executedOf (log : Log) : Option Executed :=
  (cfg.parseLog log).map fun args => ⟨args.intentId, log.transactionHash⟩

def pollLifecycleEvents (fromBlock : Nat) : Program EvmLifecycleEvents := do
  let head ← getBlockNumber
  let latestBlock : Int := head - EVM_HEAD_LAG
  if fromBlock > latestBlock then return ⟨[], [], fromBlock⟩
  tryCatch (do
    let submittedLogs ← queryFilter .IntentSubmitted fromBlock latestBlock.toNat
    let executedLogs ← queryFilter .IntentExecuted fromBlock latestBlock.toNat
    return ⟨submittedLogs.filterMap (submittedOf cfg), executedLogs.filterMap (executedOf cfg), latestBlock.toNat + 1⟩)
    fun _ => return ⟨[], [], fromBlock⟩

def Submitted.tracked (e : Submitted) : TrackedHop :=
  ⟨e.intentId, .submitted, {
    sender := some e.sender
    txHash := some e.txHash
    committedBlobId := some e.blobId
    size := some e.size
    deadline := some e.deadlineMs }⟩

def Executed.tracked (e : Executed) : TrackedHop := ⟨e.intentId, .confirmed, { txHash := some e.txHash }⟩

/-- What `pollOnce` fetches and tracks. -/
def poll (cursor : Nat) : Program (List TrackedHop × Nat) := do
  let events ← pollLifecycleEvents cfg cursor
  return (events.submitted.map Submitted.tracked ++ events.executed.map Executed.tracked, events.newFromBlock)

def pollOnce (cursor : Nat) : Program Nat := Watcher.pollOnce (poll cfg) cursor

/-! ## The chain -/

/-- The adapter's logs of each kind, block by block, as they are behind the head. -/
abbrev Chain := Nat → Filter → List Log

/-- An event is known by its block and its hop. -/
abbrev Item := Nat × TrackedHop

/-- The hop that a log of an event is tracked as. -/
def trackedOf (log : Log) : Filter → Option TrackedHop
  | .IntentSubmitted => (submittedOf cfg log).map Submitted.tracked
  | .IntentExecuted => (executedOf cfg log).map Executed.tracked

/-- The blocks before the cursor are read. A block behind the head is there to stay: no reorganisation reaches as far
as a query. -/
def feed : Feed Chain Nat Item where
  has chain x := ∃ filter, ∃ log ∈ chain x.1 filter, trackedOf cfg log filter = some x.2
  upTo _ c x := x.1 < c
  marks _ _ := True
  grows chain chain' := chain' = chain
  grows_marks _ _ := trivial
  grows_upTo _ h := h
  grows_before hgrows _ hhas hupTo := ⟨hgrows ▸ hhas, hupTo⟩

/-- How a query is answered: with an error, or with all the logs of its blocks. -/
def Reads (chain : Chain) : (q : Rpc) → Except String (Reply q) → Prop
  | .queryFilter filter fromBlock toBlock, .ok logs =>
    logs = (List.range' fromBlock (toBlock + 1 - fromBlock)).flatMap fun n => chain n filter
  | _, _ => True

abbrev Host := WatchHost (feed cfg) Reads (bootstrapBlockNumber cfg) (poll cfg)

variable {cfg}

section

variable {P : Told Rpc Nat Reply → WatcherCall Rpc Nat → Prop} {h : Told Rpc Nat Reply}

theorem wp_getBlockNumber {Q : Told Rpc Nat Reply → Except String Nat → Prop} :
    wp P Q h getBlockNumber ↔ P h (.rpc .getBlockNumber) ∧ ∀ r, Q (h ++ [⟨.rpc .getBlockNumber, r⟩]) r :=
  wp_call (Q := Q) (WatcherCall.rpc Rpc.getBlockNumber)

theorem wp_queryFilter {Q : Told Rpc Nat Reply → Except String (List Log) → Prop} (filter : Filter)
    (fromBlock toBlock : Nat) :
    wp P Q h (queryFilter filter fromBlock toBlock) ↔ P h (.rpc (.queryFilter filter fromBlock toBlock)) ∧
      ∀ r, Q (h ++ [⟨.rpc (.queryFilter filter fromBlock toBlock), r⟩]) r :=
  wp_call (Q := Q) (WatcherCall.rpc (Rpc.queryFilter filter fromBlock toBlock))

end

theorem bootstrapAttempts_seeds (left : Nat) {h : Told Rpc Nat Reply} :
    wp (fun _ c => c.Queries) (fun h r => ∀ c, r = .ok c → Seeds (feed cfg) Reads h c) h
      (bootstrapAttempts cfg left) := by
  induction left generalizing h with
  | zero =>
    unfold bootstrapAttempts
    exact wp_getBlockNumber.mpr ⟨trivial, fun _ _ _ _ _ => trivial⟩
  | succ left ih =>
    unfold bootstrapAttempts
    rw [wp_tryCatch, wp_getBlockNumber]
    refine ⟨trivial, fun r => ?_⟩
    cases r with
    | ok head => exact fun _ _ _ _ => trivial
    | error err =>
      rw [orElse_error]
      split
      · intro c hc
        cases hc
      · exact ih

/-- A poll fetches every log from its cursor up to the block it moves to. -/
theorem poll_fetches (h : Told Rpc Nat Reply) (c : Nat) :
    wp (fun _ c => c.Queries)
      (fun h r => ∀ hops c', r = .ok (hops, c') → Fetched (feed cfg) Prod.snd Reads h c hops c') h (poll cfg c) := by
  -- where nothing is fetched, the cursor stays
  have hstays : ∀ h : Told Rpc Nat Reply, Fetched (feed cfg) Prod.snd Reads h c [] c :=
    fun h s _ _ => ⟨trivial, .start⟩
  unfold poll pollLifecycleEvents
  rw [wp_bind, wp_bind, wp_getBlockNumber]
  refine ⟨trivial, fun r => ?_⟩
  cases r with
  | error e =>
    intro hops c' hc'
    cases hc'
  | ok head =>
    rw [andThen_ok]
    dsimp only
    split
    · intro hops c' hc'
      cases hc'
      exact hstays _
    · rename_i hbehind
      rw [wp_tryCatch, wp_bind, wp_queryFilter]
      refine ⟨trivial, fun r => ?_⟩
      cases r with
      | error e =>
        intro hops c' hc'
        cases hc'
        exact hstays _
      | ok submittedLogs =>
        rw [andThen_ok, wp_bind, wp_queryFilter]
        refine ⟨trivial, fun r => ?_⟩
        cases r with
        | error e =>
          intro hops c' hc'
          cases hc'
          exact hstays _
        | ok executedLogs =>
          intro hops c' hc'
          cases hc'
          refine fun chain htrusts _ => ⟨trivial, fun x hhas hupTo hafter => ?_⟩
          have hsubmitted := htrusts (.queryFilter .IntentSubmitted c (head - EVM_HEAD_LAG : Int).toNat)
            (.ok submittedLogs) (by simp)
          have hexecuted := htrusts (.queryFilter .IntentExecuted c (head - EVM_HEAD_LAG : Int).toNat)
            (.ok executedLogs) (by simp)
          obtain ⟨filter, log, hlog, htracked⟩ := hhas
          have hrange : x.1 ∈ List.range' c ((head - EVM_HEAD_LAG : Int).toNat + 1 - c) := by
            have hfrom : ¬x.1 < c := hafter
            have hto : x.1 < (head - EVM_HEAD_LAG : Int).toNat + 1 := hupTo
            rw [List.mem_range'_1]
            omega
          cases filter with
          | IntentSubmitted =>
            obtain ⟨e, he, heq⟩ := Option.map_eq_some_iff.mp htracked
            have hmem : log ∈ submittedLogs := hsubmitted ▸ List.mem_flatMap.mpr ⟨x.1, hrange, hlog⟩
            exact List.mem_append_left _ (List.mem_map.mpr ⟨e, List.mem_filterMap.mpr ⟨log, hmem, he⟩, heq⟩)
          | IntentExecuted =>
            obtain ⟨e, he, heq⟩ := Option.map_eq_some_iff.mp htracked
            have hmem : log ∈ executedLogs := hexecuted ▸ List.mem_flatMap.mpr ⟨x.1, hrange, hlog⟩
            exact List.mem_append_right _ (List.mem_map.mpr ⟨e, List.mem_filterMap.mpr ⟨log, hmem, he⟩, heq⟩)

theorem evm_fetches : Fetches (feed cfg) Prod.snd Reads (bootstrapBlockNumber cfg) (poll cfg) where
  bootstrap := bootstrapAttempts_seeds _
  poll := poll_fetches
  grows _ _ _ _ hgrows h := hgrows ▸ h

end Bosphor.Relayer.EvmWatcher

import Bosphor.Lib.Host
import Bosphor.Relayer.StagedIntentStore
import Bosphor.Relayer.WalrusBlobId

/-!
# The Sui checkpoint poll

The relayer's detection of `IntentReceived` events: it visits the checkpoints
after its cursor one by one, hands their events to `onReceived`, which records
them in the staged table, and moves the cursor, which is a file. `runCheckpointPoll`
is that loop, cut off after some passes; `SuiHost` is what it runs in.
-/

namespace Bosphor.Relayer.SuiCheckpoint

open StagedIntentStore

/-! ## The checkpoints, as gRPC answers them -/

/-- A protobuf `Value`, as far as it is read. -/
inductive Value where
  | stringValue (s : String)
  | numberValue (n : Nat)
  | otherValue
  deriving DecidableEq

/-- The fields of the struct that an `IntentReceived` event is rendered as. -/
structure StructFields where
  intentId : Option Value := none
  committedBlobId : Option Value := none
  size : Option Value := none
  encodingType : Option Value := none
  storageEpochs : Option Value := none
  deadline : Option Value := none
  srcEid : Option Value := none
  nonce : Option Value := none
  deriving DecidableEq

/-- An event; `json` is absent where it is not rendered, or not as a struct. -/
structure Event where
  eventType : String
  json : Option StructFields
  deriving DecidableEq

structure Transaction where
  digest : Option String
  events : Option (List Event)
  deriving DecidableEq

structure Checkpoint where
  transactions : List Transaction
  deriving DecidableEq

/-! ## Reading an event -/

def strVal : Option Value → Option String
  | some (.stringValue s) => some s
  | _ => none

def numVal : Option Value → Option Nat
  | some (.numberValue n) => some n
  | _ => none

/-- `Buffer.from(s, 'base64')`, which decodes both alphabets. -/
def b64Bytes (s : Option String) : List UInt8 := (s.map bufferFromBase64url).getD []

/-- `BigInt(text)`, of the decimal digits that gRPC writes for a number of 64 or 256 bits. -/
def bigInt (text : String) : Except String Nat :=
  if text.toList.all Char.isDigit then .ok (text.toList.foldl (fun n c => n * 10 + (c.toNat - 48)) 0)
  else .error s!"Cannot convert {text} to a BigInt"

theorem bigInt_toString (n : Nat) : bigInt (toString n) = .ok n := by
  have hdigits : (Nat.repr n).toList.all Char.isDigit = true := by
    rw [Nat.toList_repr]
    exact List.all_eq_true.mpr fun c hc => Nat.isDigit_of_mem_toDigits (by decide) (by decide) hc
  show bigInt (Nat.repr n) = .ok n
  unfold bigInt
  rw [if_pos hdigits, Nat.toList_repr]
  have hread := Nat.ofDigitChars_toDigits (b := 10) (n := n) (by decide) (by decide)
  rw [Nat.ofDigitChars_eq_foldl] at hread
  simp only [Nat.mul_comm 10] at hread
  exact congrArg _ hread

def u256ToHex (decimal : String) : String :=
  match bigInt decimal with
  | .ok n => "0x" ++ String.ofList (padStart 64 (Nat.toDigits 16 n))
  | .error _ => "0x" ++ String.ofList (List.replicate 64 '0')

structure SuiLzEvent where
  intentId : IntentId
  deliveryDigest : String
  committedBlobId : String
  size : Nat
  encodingType : Nat
  storageEpochs : Option Nat
  deadline : Nat
  srcEid : Nat
  nonce : Nat
  deriving DecidableEq

/-- The event that the fields make up, once the bytes of its intent id are known. -/
def lzEvent (deliveryDigest : String) (intentIdBytes : List UInt8) (structFields : StructFields) :
    Except String SuiLzEvent := do
  let deadline ← bigInt ((strVal structFields.deadline).getD "0")
  let nonce ← bigInt ((strVal structFields.nonce).getD "0")
  return {
    intentId := hexlify intentIdBytes
    deliveryDigest := deliveryDigest
    committedBlobId := (strVal structFields.committedBlobId).getD "0"
    size := (numVal structFields.size).getD 0
    encodingType := (numVal structFields.encodingType).getD 0
    storageEpochs := numVal structFields.storageEpochs
    deadline := deadline
    srcEid := (numVal structFields.srcEid).getD 0
    nonce := nonce }

/-- What `onReceived` records of an event. The source multiplies the deadline as a double, which is exact below 2⁵³. -/
def SuiLzEvent.details (event : SuiLzEvent) : ReceivedDetails where
  srcEid := event.srcEid
  committedBlobId := u256ToHex event.committedBlobId
  deadline := event.deadline * 1000
  deliveryDigest := if event.deliveryDigest = "" then none else some event.deliveryDigest
  storageEpochs := event.storageEpochs

/-! ## The poll -/

/-- The calls that the poll awaits, and what it reads and writes between them. -/
inductive Call where
  | readFile
  | writeFile (checkpoint : Nat)
  | stopped
  | getServiceInfo
  | getCheckpoint (sequenceNumber : Nat)
  | markReceived (id : IntentId) (details : ReceivedDetails)
  | get (id : IntentId)

abbrev Call.Answer : Call → Type
  | .readFile => Nat
  | .writeFile _ => Unit
  | .stopped => Bool
  | .getServiceInfo => Nat
  | .getCheckpoint _ => Option Checkpoint
  -- whether the statement returned the row
  | .markReceived .. => Bool
  | .get _ => Option StagedState

/-- A program of the poll; an error is known by its message. -/
abbrev Program := Async Call Call.Answer String

abbrev call (c : Call) : Program c.Answer := Async.call c

structure Config where
  lzPackageId : String
  /-- Whether the durable store is configured. -/
  staged : Bool := true

variable (cfg : Config)

def Config.eventType : String := cfg.lzPackageId ++ "::lz_receiver::IntentReceived"

/-- The cursor; a file that cannot be read is as good as none. -/
def readCursor : Program (Option Nat) :=
  tryCatch (do
    let checkpoint ← call .readFile
    return some checkpoint) fun _ => return none

inductive ReceivedOutcome where
  | recorded
  | late (state : Option StagedState)

def markReceived (id : IntentId) (details : ReceivedDetails) : Program ReceivedOutcome := do
  if ← call (.markReceived id details) then return .recorded
  let state ← call (.get id)
  return .late state

/-- `IntentProcessor.onReceived`: a failure to record the event is logged and reported, and dropped. -/
def onReceived (event : SuiLzEvent) : Program Unit :=
  if !cfg.staged then return ()
  else
    tryCatch (do
      let _ ← markReceived event.intentId event.details
      return ()) fun _ => return ()

def processEvent (deliveryDigest : String) (event : Event) : Program Unit :=
  if event.eventType ≠ cfg.eventType then return ()
  else
    match event.json with
    | none => return ()
    | some structFields =>
      let intentIdBytes := b64Bytes (strVal structFields.intentId)
      if intentIdBytes.length = 0 then return ()
      else
        match lzEvent deliveryDigest intentIdBytes structFields with
        | .ok event => onReceived cfg event
        | .error message => throw message

def processCheckpoint (checkpoint : Checkpoint) (sequenceNumber : Nat) : Program Unit := do
  checkpoint.transactions.forM fun tx =>
    (tx.events.getD []).forM fun event => processEvent cfg (tx.digest.getD "") event
  call (.writeFile sequenceNumber)

/-- The loop of `backfill`, over the next `remaining` checkpoints from `seq` on. -/
def backfillLoop (remaining seq : Nat) : Program Unit :=
  match remaining with
  | 0 => return ()
  | remaining + 1 => do
    if ← call .stopped then return ()
    match ← call (.getCheckpoint seq) with
    | some checkpoint => processCheckpoint cfg checkpoint seq
    | none => pure ()
    backfillLoop remaining (seq + 1)

def backfill (fromCheckpoint : Nat) : Program Unit := do
  let current ← call .getServiceInfo
  if fromCheckpoint ≥ current then return ()
  backfillLoop cfg (current - fromCheckpoint) (fromCheckpoint + 1)

/-- The passes of the poll; one that fails is retried after a while. -/
def pollLoop (passes : Nat) : Program Unit :=
  match passes with
  | 0 => return ()
  | passes + 1 => do
    if ← call .stopped then return ()
    tryCatch (do
      match ← readCursor with
      | some cursor => backfill cfg cursor
      | none => pure ()) fun _ => return ()
    pollLoop passes

/-- From the current checkpoint on the first run. -/
def runCheckpointPoll (passes : Nat) : Program Unit := do
  if (← readCursor).isNone then
    let current ← call .getServiceInfo
    call (.writeFile current)
  pollLoop cfg passes

/-! ## What it runs in -/

/-- The cursor file and the staged table, with what has become of the events. -/
structure World where
  cursor : Option Nat := none
  rows : Rows := fun _ => none
  /-- The cursor as it was first written. -/
  initial : Option Nat := none
  /-- The events that `markReceived` recorded. -/
  recorded : List (IntentId × ReceivedDetails) := []
  /-- The events for which it found a terminal row. -/
  late : List (IntentId × ReceivedDetails) := []

/-- Whether the statement of `markReceived` returns a row. -/
def Takes (rows : Rows) (id : IntentId) : Bool := (rows id).all fun r => r.state == .active

/-- The world after the statement of `markReceived`. -/
def World.receive (w : World) (id : IntentId) (details : ReceivedDetails) (now : Nat) : World :=
  { w with
    rows := (Op.markReceived id details now).run w.rows
    recorded := if Takes w.rows id then (id, details) :: w.recorded else w.recorded
    late := if Takes w.rows id then w.late else (id, details) :: w.late }

def World.write (w : World) (checkpoint : Nat) : World :=
  { w with cursor := some checkpoint, initial := w.initial.orElse fun _ => some checkpoint }

/-- The row that the statement returns is the one it inserts, or the one it finds, flagged. -/
theorem run_markReceived {rows : Rows} {id : IntentId} (htakes : Takes rows id = true)
    (details : ReceivedDetails) (now : Nat) :
    ∃ r, (Op.markReceived id details now).run rows id = some r ∧ (r = receivedInserted details now ∨
      ∃ r₀, r₀.state = .active ∧ r = receivedMerged details now r₀) := by
  unfold Takes at htakes
  show ∃ r, ((Op.markReceived id details now).statement.write rows id (rows id)).getD (rows id) = some r ∧ _
  cases hrow : rows id with
  | none =>
    rw [show (Op.markReceived id details now).statement.write rows id none =
      some (some (receivedInserted details now)) from
      upsert_some.mpr ⟨rfl, Or.inl ⟨rfl, rfl⟩⟩]
    exact ⟨_, rfl, Or.inl rfl⟩
  | some r =>
    have hactive : r.state = .active := by simpa [hrow] using htakes
    rw [show (Op.markReceived id details now).statement.write rows id (some r) =
      some (some (receivedMerged details now r))
      from upsert_some.mpr ⟨rfl, Or.inr ⟨r, rfl, hactive, rfl⟩⟩]
    exact ⟨_, rfl, Or.inr ⟨r, hactive, rfl⟩⟩

/-- A recorded event is in the row. -/
theorem World.receive_takes {w : World} {id : IntentId} (details : ReceivedDetails) (now : Nat)
    (htakes : Takes w.rows id = true) : ∃ r, (w.receive id details now).rows id = some r ∧ r.state = .active ∧
      r.received = true ∧ r.srcEid = some details.srcEid ∧ r.committedBlobId = some details.committedBlobId ∧
      r.deadline = some details.deadline := by
  obtain ⟨r, hrow, rfl | ⟨r₀, hactive, rfl⟩⟩ := run_markReceived htakes details now
  · exact ⟨_, hrow, rfl, rfl, rfl, rfl, rfl⟩
  · exact ⟨_, hrow, hactive, rfl, rfl, rfl, rfl⟩

/-- A late event has found a terminal row. -/
theorem World.receive_late {w : World} {id : IntentId} (details : ReceivedDetails) (now : Nat)
    (hlate : Takes w.rows id = false) : ∃ r, (w.receive id details now).rows id = some r ∧ r.Terminal := by
  unfold Takes at hlate
  obtain ⟨r, hrow, hterminal⟩ : ∃ r, w.rows id = some r ∧ r.Terminal := by
    cases hrow : w.rows id with
    | none => simp [hrow] at hlate
    | some r => exact ⟨r, rfl, by simpa [hrow, Row.Terminal] using hlate⟩
  refine ⟨r, ?_, hterminal⟩
  show ((Op.markReceived id details now).statement.write w.rows id (w.rows id)).getD (w.rows id) = some r
  have hnone : (Op.markReceived id details now).statement.write w.rows id (some r) = none := by
    by_contra hne
    obtain ⟨v, hv⟩ := Option.ne_none_iff_exists'.mp hne
    obtain ⟨-, h | ⟨r', hr', hactive, -⟩⟩ := upsert_some.mp hv
    · cases h.1
    · cases hr'
      exact hterminal hactive
  rw [hrow, hnone]
  rfl

/-- An event as it is shown: rendered, or not. -/
def Event.Shows (event shown : Event) : Prop :=
  shown.eventType = event.eventType ∧ (shown.json = event.json ∨ shown.json = none)

def Transaction.Shows (tx shown : Transaction) : Prop :=
  shown.digest = tx.digest ∧ List.Forall₂ Event.Shows (tx.events.getD []) (shown.events.getD [])

def Checkpoint.Shows (checkpoint shown : Checkpoint) : Prop :=
  List.Forall₂ Transaction.Shows checkpoint.transactions shown.transactions

/-- How a call is answered. -/
inductive Serves (chain : Nat → Checkpoint) : World → (c : Call) → Except String c.Answer → World → Prop
  | readFile {w n} (h : w.cursor = some n) : Serves chain w .readFile (.ok n) w
  | readFails {w} (e) : Serves chain w .readFile (.error e) w
  | writeFile {w n} : Serves chain w (.writeFile n) (.ok ()) (w.write n)
  | writeFails {w n} (e) : Serves chain w (.writeFile n) (.error e) w
  -- a write that is cut off leaves the first digits
  | writeTorn {w n m} (e) (h : m ≤ n) : Serves chain w (.writeFile n) (.error e) (w.write m)
  | stopped {w} (b) : Serves chain w .stopped (.ok b) w
  | getServiceInfo {w} (r) : Serves chain w .getServiceInfo r w
  | noCheckpoint {w seq} : Serves chain w (.getCheckpoint seq) (.ok none) w
  | getCheckpoint {w seq shown} (h : (chain seq).Shows shown) : Serves chain w (.getCheckpoint seq) (.ok (some shown)) w
  | getCheckpointFails {w seq} (e) : Serves chain w (.getCheckpoint seq) (.error e) w
  | markReceived {w id details} (now) :
    Serves chain w (.markReceived id details) (.ok (Takes w.rows id)) (w.receive id details now)
  | markReceivedFails {w id details} (e) : Serves chain w (.markReceived id details) (.error e) w
  -- the statement may have run all the same
  | markReceivedLost {w id details} (e) (now) :
    Serves chain w (.markReceived id details) (.error e) (w.receive id details now)
  | get {w id} : Serves chain w (.get id) (.ok ((w.rows id).map (·.state))) w
  | getFails {w id} (e) : Serves chain w (.get id) (.error e) w

/-- The relayer is started again and again, while others use the table. -/
def SuiHost (chain : Nat → Checkpoint) : Async.Host World Call Call.Answer String Unit where
  starts w p w' := w' = w ∧ ∃ passes, p = runCheckpointPoll cfg passes
  serves := Serves chain
  moves w w' := ∃ op : Op, w' = { w with rows := op.run w.rows }

end Bosphor.Relayer.SuiCheckpoint

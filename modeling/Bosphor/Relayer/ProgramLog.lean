import Bosphor.Relayer.SolanaIntentCodec

/-!
# Who wrote a Solana log

A log is written by the programs that a transaction invokes, which may invoke
others, and by the runtime between them. The parser of `IntentSubmitted` events
reads the lines of all of them: it yields events of the adapter alone exactly
when no line of another program reads as an event that the adapter did not emit
(`yields_own_iff`).
-/

namespace Bosphor.Relayer

def BASE58 : List Char := "123456789ABCDEFGHJKLMNPQRSTUVWXYZabcdefghijkmnopqrstuvwxyz".toList

/-- A program, by its address. -/
structure ProgramId where
  address : List Char
  base58 : ∀ c ∈ address, c ∈ BASE58

/-- What a program leaves in the log. -/
inductive LogEntry where
  | log (message : List Char)
  /-- Anchor emits an event as one field. -/
  | data (fields : List (List UInt8))
  | returned (bytes : List UInt8)
  | failed (reason : List Char)
  /-- The compute units that are left, which a program may ask for. -/
  | consumption (units : Nat)
  /-- A line of a native program or a loader, which stands without a prefix. -/
  | native (line : List Char)

/-- The line of an entry. -/
def LogEntry.text (program : ProgramId) : LogEntry → List Char
  | .log message => "Program log: ".toList ++ message
  | .data fields => PROGRAM_DATA_PREFIX.toList ++ [' '].intercalate (fields.map base64)
  | .returned bytes => "Program return: ".toList ++ program.address ++ " ".toList ++ base64 bytes
  | .failed reason => "Program ".toList ++ program.address ++ " failed: ".toList ++ reason
  | .consumption units => "Program consumption: ".toList ++ Nat.toDigits 10 units ++ " units remaining".toList
  | .native line => line

/-- The event that an entry emits, if it is one. -/
def LogEntry.event : LogEntry → Option SolanaIntentSubmitted
  | .data [payload] => decodeIntentSubmitted payload
  | _ => none

/-- How an invocation comes back: the compute units it consumed, if they are metered, and whether it succeeded. -/
structure Closing where
  consumed : Option (Nat × Nat) := none
  success : Bool := true

/-- What is logged while a program runs. -/
inductive ProgramLog where
  | done
  | entry (e : LogEntry) (rest : ProgramLog)
  | invoke (program : ProgramId) (inner : ProgramLog) (closing : Closing) (rest : ProgramLog)

/-! ## The lines of the runtime -/

def invokeLine (program : ProgramId) (depth : Nat) : List Char :=
  "Program ".toList ++ program.address ++ " invoke [".toList ++ Nat.toDigits 10 depth ++ "]".toList

def consumedLine (program : ProgramId) (units limit : Nat) : List Char :=
  "Program ".toList ++ program.address ++ " consumed ".toList ++ Nat.toDigits 10 units ++ " of ".toList ++
    Nat.toDigits 10 limit ++ " compute units".toList

def successLine (program : ProgramId) : List Char := "Program ".toList ++ program.address ++ " success".toList

def LOG_TRUNCATED : List Char := "Log truncated".toList

/-- The lines of an invocation, those of its program in the middle. -/
def framed (program : ProgramId) (depth : Nat) (closing : Closing) (inner : List (List Char)) : List (List Char) :=
  invokeLine program depth :: inner ++ (closing.consumed.map fun (units, limit) =>
    consumedLine program units limit).toList ++
    if closing.success then [successLine program] else []

/-! ## The log of a transaction -/

def ProgramLog.lines (program : ProgramId) (depth : Nat) : ProgramLog → List (List Char)
  | .done => []
  | .entry e rest => e.text program :: rest.lines program depth
  | .invoke callee inner closing rest =>
    framed callee (depth + 1) closing (inner.lines callee (depth + 1)) ++ rest.lines program depth

/-- The entries with the programs that wrote them, in order. -/
def ProgramLog.entries (program : ProgramId) : ProgramLog → List (ProgramId × LogEntry)
  | .done => []
  | .entry e rest => (program, e) :: rest.entries program
  | .invoke callee inner _ rest => inner.entries callee ++ rest.entries program

/-- An instruction of a transaction. -/
structure Instruction where
  program : ProgramId
  log : ProgramLog
  closing : Closing := {}

def Instruction.lines (i : Instruction) : List (List Char) := framed i.program 1 i.closing (i.log.lines i.program 1)

def Instruction.entries (i : Instruction) : List (ProgramId × LogEntry) := i.log.entries i.program

/-- A transaction with its log; where the log is too long, lines are left out. -/
structure LoggedTx where
  signature : String
  err : Bool
  instructions : List Instruction
  logMessages : List (List Char)
  logged : (logMessages.filter (· ≠ LOG_TRUNCATED)).Sublist (instructions.flatMap Instruction.lines)

def LoggedTx.entries (tx : LoggedTx) : List (ProgramId × LogEntry) := tx.instructions.flatMap Instruction.entries

/-- A program emits an event. -/
def LoggedTx.Emits (tx : LoggedTx) (program : ProgramId) (ev : SolanaIntentSubmitted) : Prop :=
  ∃ e, (program, e) ∈ tx.entries ∧ e.event = some ev

/-- A line that is none of the adapter's events reads as an event only if the adapter emits that event too. -/
def LoggedTx.Unforged (tx : LoggedTx) (adapter : ProgramId) : Prop :=
  ∀ program e, (program, e) ∈ tx.entries → e.text program ∈ tx.logMessages → program ≠ adapter ∨ e.event = none →
    ∀ ev, parseLine (e.text program) = some ev → tx.Emits adapter ev

/-! ## What the parser reads -/

theorem textAfter_subset {part text rest : List Char} (h : textAfter part text = some rest) : ∀ c ∈ part, c ∈ text := by
  induction text with
  | nil =>
    unfold textAfter at h
    split at h
    · rename_i hprefix
      exact (List.isPrefixOf_iff_prefix.mp hprefix).subset
    · cases h
  | cons c text ih =>
    unfold textAfter at h
    split at h
    · rename_i hprefix
      exact (List.isPrefixOf_iff_prefix.mp hprefix).subset
    · exact fun d hd => List.mem_cons_of_mem _ (ih h d hd)

theorem colon_mem_prefix : ':' ∈ PROGRAM_DATA_PREFIX.toList := by
  unfold PROGRAM_DATA_PREFIX
  simp

/-- A line without a colon is no event. -/
theorem parseLine_of_no_colon {line : List Char} (h : ':' ∉ line) : parseLine line = none := by
  unfold parseLine
  cases hafter : textAfter PROGRAM_DATA_PREFIX.toList line with
  | none => rfl
  | some rest => exact absurd (textAfter_subset hafter ':' colon_mem_prefix) h

theorem ProgramId.no_colon (program : ProgramId) : ':' ∉ program.address := by
  intro h
  have hbase58 : ':' ∈ BASE58 := program.base58 _ h
  unfold BASE58 at hbase58
  simp at hbase58

theorem digits_no_colon (n : Nat) : ':' ∉ Nat.toDigits 10 n := by
  intro h
  have hdigit : (':').isDigit = true := Nat.isDigit_of_mem_toDigits (by decide) (by decide) h
  exact absurd hdigit (by decide)

theorem invokeLine_no_colon (program : ProgramId) (depth : Nat) : ':' ∉ invokeLine program depth := by
  unfold invokeLine
  simp only [List.mem_append, not_or]
  refine ⟨⟨⟨⟨?_, program.no_colon⟩, ?_⟩, digits_no_colon depth⟩, ?_⟩
  all_goals simp

theorem consumedLine_no_colon (program : ProgramId) (units limit : Nat) : ':' ∉ consumedLine program units limit := by
  unfold consumedLine
  simp only [List.mem_append, not_or]
  refine ⟨⟨⟨⟨⟨⟨?_, program.no_colon⟩, ?_⟩, digits_no_colon units⟩, ?_⟩, digits_no_colon limit⟩, ?_⟩
  all_goals simp

theorem successLine_no_colon (program : ProgramId) : ':' ∉ successLine program := by
  unfold successLine
  simp only [List.mem_append, not_or]
  refine ⟨⟨?_, program.no_colon⟩, ?_⟩
  all_goals simp

theorem logTruncated_no_colon : ':' ∉ LOG_TRUNCATED := by
  unfold LOG_TRUNCATED
  simp

/-- A line of an invocation that may be an event is one of its program. -/
theorem mem_framed {program : ProgramId} {depth : Nat} {closing : Closing} {inner : List (List Char)} {line : List Char}
    (h : line ∈ framed program depth closing inner) (hcolon : ':' ∈ line) : line ∈ inner := by
  simp only [framed, List.mem_append, List.mem_cons, Option.mem_toList, Option.map_eq_some_iff, Prod.exists] at h
  obtain ((rfl | hinner) | ⟨units, limit, -, rfl⟩) | hsuccess := h
  · exact absurd hcolon (invokeLine_no_colon program depth)
  · exact hinner
  · exact absurd hcolon (consumedLine_no_colon program units limit)
  · split at hsuccess
    · obtain rfl := List.mem_singleton.mp hsuccess
      exact absurd hcolon (successLine_no_colon program)
    · exact absurd hsuccess List.not_mem_nil

/-- A line that may be an event is that of an entry. -/
theorem ProgramLog.mem_lines {program : ProgramId} {depth : Nat} {log : ProgramLog} {line : List Char}
    (h : line ∈ log.lines program depth) (hcolon : ':' ∈ line) :
    ∃ writer e, (writer, e) ∈ log.entries program ∧ line = e.text writer := by
  induction log generalizing program depth with
  | done => exact absurd h List.not_mem_nil
  | entry e rest ih =>
    obtain rfl | h := List.mem_cons.mp h
    · exact ⟨program, e, List.mem_cons_self, rfl⟩
    · obtain ⟨writer, e', he, hline⟩ := ih h
      exact ⟨writer, e', List.mem_cons_of_mem _ he, hline⟩
  | invoke callee inner closing rest ihinner ihrest =>
    obtain h | h := List.mem_append.mp h
    · obtain ⟨writer, e, he, hline⟩ := ihinner (mem_framed h hcolon)
      exact ⟨writer, e, List.mem_append_left _ he, hline⟩
    · obtain ⟨writer, e, he, hline⟩ := ihrest h
      exact ⟨writer, e, List.mem_append_right _ he, hline⟩

theorem LoggedTx.mem_logMessages {tx : LoggedTx} {line : List Char} (h : line ∈ tx.logMessages) (hcolon : ':' ∈ line) :
    ∃ writer e, (writer, e) ∈ tx.entries ∧ line = e.text writer := by
  have hkept : line ∈ tx.logMessages.filter (· ≠ LOG_TRUNCATED) := by
    rw [List.mem_filter, decide_eq_true_iff]
    refine ⟨h, ?_⟩
    rintro rfl
    exact logTruncated_no_colon hcolon
  obtain ⟨i, hi, hline⟩ := List.mem_flatMap.mp (tx.logged.subset hkept)
  obtain ⟨writer, e, he, htext⟩ := ProgramLog.mem_lines (mem_framed hline hcolon) hcolon
  exact ⟨writer, e, List.mem_flatMap.mpr ⟨i, hi, he⟩, htext⟩

/-- An emitted event is read as what it is. -/
theorem LogEntry.parseLine_text {e : LogEntry} {program : ProgramId} (h : e.event ≠ none) :
    parseLine (e.text program) = e.event := by
  unfold LogEntry.event at h ⊢
  split at h
  · rename_i payload
    show parseLine (PROGRAM_DATA_PREFIX.toList ++ [' '].intercalate ([payload].map base64)) = _
    rw [List.map_singleton, List.intercalate_singleton, parseLine_data]
  · exact absurd rfl h

/-- Every event that the parser yields is the adapter's exactly when no other line is taken for one. -/
theorem yields_own_iff (adapter : ProgramId) (tx : LoggedTx) :
    (∀ ev ∈ parseIntentSubmittedEvents tx.logMessages, tx.Emits adapter ev) ↔ tx.Unforged adapter := by
  constructor
  · intro h program e _ hline _ ev hev
    exact h ev (List.mem_filterMap.mpr ⟨_, hline, hev⟩)
  · intro h ev hev
    obtain ⟨line, hline, hparse⟩ := List.mem_filterMap.mp hev
    have hcolon : ':' ∈ line := by
      by_contra hno
      rw [parseLine_of_no_colon hno] at hparse
      cases hparse
    obtain ⟨writer, e, he, rfl⟩ := tx.mem_logMessages hline hcolon
    by_cases hown : writer = adapter ∧ e.event ≠ none
    · obtain ⟨rfl, hevent⟩ := hown
      rw [LogEntry.parseLine_text hevent] at hparse
      exact ⟨e, he, hparse⟩
    · exact h writer e he hline (by tauto) ev hparse

end Bosphor.Relayer

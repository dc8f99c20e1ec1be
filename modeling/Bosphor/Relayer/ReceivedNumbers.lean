import Bosphor.Lib.Double
import Bosphor.Relayer.SuiCheckpoint
import Bosphor.Sui.Records

/-!
# The numbers of a received intent

The numbers of an `IntentReceived` event reach their columns as JavaScript
numbers: the deadline is scaled to milliseconds in double precision, each number
is sent as its decimal text, and a column refuses what it cannot hold. So an
intent is recorded with the epochs and the deadline that the chain committed to
just when the narrower numbers fit and the deadline `Scales`
(`received_recorded_iff`); the failure of the statement is logged, and the
intent is dropped.
-/

namespace Bosphor.Relayer.ReceivedNumbers

open StagedIntentStore SuiCheckpoint Double

/-! ## From the event to the columns -/

/-- `Number(event.deadline) * 1000`, of a deadline in seconds. -/
def deadlineMs (deadline : Nat) : Nat := Double.round (Double.round deadline * 1000)

/-- A type of whole numbers of the database. -/
structure IntType where
  name : String
  bits : Nat

def integer : IntType := ⟨"integer", 32⟩

def bigint : IntType := ⟨"bigint", 64⟩

/-- What a column makes of a parameter, which is sent as text. -/
def IntType.input (t : IntType) (text : String) : Except String Int :=
  match Decimal.readInt text with
  | none => .error s!"invalid input syntax for type {t.name}: \"{text}\""
  | some n =>
    if -2 ^ (t.bits - 1) ≤ n ∧ n < 2 ^ (t.bits - 1) then .ok n
    else .error s!"value \"{text}\" is out of range for type {t.name}"

/-- What the columns hold of an event; a number is sent as `toString()` writes it. -/
def columns (event : SuiLzEvent) : Except String ReceivedDetails := do
  let srcEid ← integer.input (toText event.srcEid)
  let deadline ← bigint.input (toText (deadlineMs event.deadline))
  let storageEpochs ← match event.storageEpochs with
    | some n => do
      let n ← integer.input (toText n)
      pure (some n)
    | none => pure none
  return {
    srcEid := srcEid.toNat
    committedBlobId := u256ToHex event.committedBlobId
    deadline := deadline.toNat
    deliveryDigest := if event.deliveryDigest = "" then none else some event.deliveryDigest
    storageEpochs := storageEpochs.map Int.toNat }

inductive Outcome where
  | recorded
  | late (state : Option StagedState)
  | failed (message : String)

/-- `onReceived`; an error is logged and reported. -/
def onReceived (event : SuiLzEvent) (now : Nat) (rows : Rows) : Outcome × Rows :=
  match columns event with
  | .error message => (.failed message, rows)
  | .ok details =>
    let written := (Op.markReceived event.intentId details now).run rows
    if Takes rows event.intentId then (.recorded, written)
    else (.late ((rows event.intentId).map (·.state)), written)

/-- `processCheckpoint`, for one event of the package. -/
def processEvent (deliveryDigest : String) (structFields : StructFields) (now : Nat) (rows : Rows) :
    Except String (Option Outcome × Rows) :=
  let intentIdBytes := b64Bytes (strVal structFields.intentId)
  if intentIdBytes.length = 0 then return (none, rows)
  else do
    let event ← lzEvent deliveryDigest intentIdBytes structFields
    let (outcome, rows) := onReceived event now rows
    return (some outcome, rows)

/-! ## Deadlines in milliseconds -/

/-- The deadlines whose milliseconds are written as they are where doubles are 1024 apart. Two deadlines a second apart
may be the same double there, which is written as the one that is a multiple of ten, or else as the nearer; their
remainders tell which they are. An odd number above `2 ^ 53` is no double itself. -/
def ScalesHigh (deadline : Nat) : Prop :=
  (deadline % 128 = 21 ∨ deadline % 128 = 107 ∨ deadline % 256 = 64 ∨ deadline % 256 = 192 → deadline % 10 = 0) ∧
  (deadline % 128 = 22 ∨ deadline % 256 = 193 → deadline % 10 ≠ 1) ∧
  (deadline % 128 = 106 ∨ deadline % 256 = 63 → deadline % 10 ≠ 9) ∧
  (2 ^ 53 < deadline → deadline % 2 = 1 → deadline % 256 = 63 ∨ deadline % 256 = 193)

/-- The deadlines whose milliseconds fit the column, and are written as they are. -/
def Scales (deadline : Nat) : Prop :=
  1000 * deadline < 2 ^ 63 ∧ (2 ^ 62 ≤ 1000 * deadline → ScalesHigh deadline)

instance (deadline : Nat) : Decidable (ScalesHigh deadline) := inferInstanceAs (Decidable (_ ∧ _))

instance (deadline : Nat) : Decidable (Scales deadline) := inferInstanceAs (Decidable (_ ∧ _))

variable {x d e : Nat}

/-- A number of seconds that is written for the double `x`, against the others that read as it. -/
structure Chosen (x d : Nat) : Prop where
  reads : Double.round (1000 * d) = x
  rounder : ∀ e, Double.round (1000 * e) = x → e % 10 = 0 → d % 10 = 0
  nearer : d % 10 ≠ 0 → ∀ e, Double.round (1000 * e) = x → Nat.dist (1000 * d) x ≤ Nat.dist (1000 * e) x

theorem chosen_of_shortest (hpos : 0 < x) (hx : Double.round x = x) (h : shortest x = 1000 * d) : Chosen x d := by
  obtain ⟨i, hw⟩ := shortest_written hpos hx
  rw [h] at hw
  refine ⟨hw.reads, fun e he hten => ?_, fun hten e he => ?_⟩
  · have := dvd_shortest (j := 4) hpos hx (show 10 ^ 4 ∣ 1000 * e by omega) he
    omega
  · have hi : i ≤ 3 := by
      by_contra hlt
      have := (Nat.pow_dvd_pow 10 (show 4 ≤ i by omega)).trans hw.dvd
      omega
    have hdvd : 10 ^ i ∣ 1000 := Nat.pow_dvd_pow 10 hi
    exact hw.near (1000 * e) (hdvd.mul_right e) he

/-- What is written for a double that some number of seconds reads as. -/
theorem exists_chosen (hpos : 0 < x) (hd : Double.round (1000 * d) = x) : ∃ e, shortest x = 1000 * e ∧ Chosen x e := by
  have hx : Double.round x = x := hd ▸ round_round _
  obtain ⟨e, he⟩ := dvd_shortest (j := 3) hpos hx (show 10 ^ 3 ∣ 1000 * d by omega) hd
  have he : shortest x = 1000 * e := he
  exact ⟨e, he, chosen_of_shortest hpos hx he⟩

/-- Numbers of seconds that read as one double are one, below `2 ^ 62`, and a second apart at most, below `2 ^ 63`. -/
theorem reads_apart (h : Double.round (1000 * d) = Double.round (1000 * e)) :
    (1000 * d < 2 ^ 62 → e = d) ∧ (1000 * d < 2 ^ 63 → 1000 * e < 2 ^ 63 → e ≤ d + 1 ∧ d ≤ e + 1) := by
  have hd := round_near (1000 * d)
  have he := round_near (1000 * e)
  refine ⟨fun hlt => ?_, fun hlt hlt' => ?_⟩
  · have hle : Double.round (1000 * e) ≤ 2 ^ 62 := by
      rw [← h, ← round_two_pow 62]
      exact round_mono hlt.le
    have hlt' : 1000 * e < 2 ^ 63 := by
      by_contra hge
      have := round_mono (show 2 ^ 63 ≤ 1000 * e by omega)
      rw [round_two_pow] at this
      omega
    have := unit_le hlt
    have := unit_le hlt'
    omega
  · have := unit_le hlt
    have := unit_le hlt'
    omega

/-- Below `2 ^ 62` the milliseconds are written as they are. -/
theorem shortest_low (hlt : 1000 * d < 2 ^ 62) : shortest (deadlineMs d) = 1000 * d := by
  have hround : Double.round d = d := round_of_lt (by omega)
  rw [deadlineMs, hround, Nat.mul_comm]
  by_cases hzero : d = 0
  · subst hzero
    rfl
  · have hpos : 0 < Double.round (1000 * d) := by
      have := round_mono (show 1 ≤ 1000 * d by omega)
      rw [round_of_lt (by decide)] at this
      omega
    obtain ⟨e, he, hchosen⟩ := exists_chosen hpos rfl
    rw [he, (reads_apart hchosen.reads.symm).1 hlt]

/-! ### The last binade -/

/-- There, the doubles are the multiples of 1024. -/
theorem round_high (hlow : 4611686018427388 ≤ d) (hhigh : d ≤ 9223372036854775) :
    Double.round (1000 * d) = nearest 1024 (1000 * d) := by
  have hunit : unit (1000 * d) = 1024 := unit_eq (k := 62) (by omega) (by omega)
  rw [Double.round, hunit]

/-- Which deadlines are the same double as the next. -/
theorem nearest_succ (d : Nat) : nearest 1024 (1000 * (d + 1)) = nearest 1024 (1000 * d) ↔
    d % 128 = 21 ∨ d % 128 = 106 ∨ d % 256 = 63 ∨ d % 256 = 192 := by
  have htable : ∀ r < 256, nearest 1024 (1000 * r + 1000) = nearest 1024 (1000 * r) ↔
      r % 128 = 21 ∨ r % 128 = 106 ∨ r % 256 = 63 ∨ r % 256 = 192 := by decide +kernel
  have h := htable (d % 256) (Nat.mod_lt _ (by decide))
  have hd : 1000 * d = 2 * (125 * (d / 256)) * 1024 + 1000 * (d % 256) := by omega
  rw [Nat.mul_succ, hd, Nat.add_assoc, nearest_add (by decide), nearest_add (by decide), Nat.add_left_cancel_iff, h]
  omega

/-- Of two such deadlines the double is nearer to the second, or to the first. -/
theorem nearest_second (h : d % 128 = 21 ∨ d % 256 = 192) : 1000 * d + 500 < nearest 1024 (1000 * d) := by
  have hr : d % 256 = 21 ∨ d % 256 = 149 ∨ d % 256 = 192 := by omega
  unfold nearest
  obtain hr | hr | hr := hr
  · split <;> omega
  · split <;> omega
  · split <;> omega

theorem nearest_first (h : d % 128 = 106 ∨ d % 256 = 63) :
    1000 * d < nearest 1024 (1000 * d) ∧ nearest 1024 (1000 * d) < 1000 * d + 500 := by
  have hr : d % 256 = 106 ∨ d % 256 = 234 ∨ d % 256 = 63 := by omega
  unfold nearest
  obtain hr | hr | hr := hr
  · split <;> omega
  · split <;> omega
  · split <;> omega

/-- A number of seconds as a double. -/
theorem round_seconds (hhigh : d < 9223372036854775) : (Double.round d = d ∧ (2 ^ 53 < d → d % 2 = 0)) ∨
    (2 ^ 53 < d ∧ d % 4 = 1 ∧ Double.round d + 1 = d) ∨ (2 ^ 53 < d ∧ d % 4 = 3 ∧ Double.round d = d + 1) := by
  obtain hlt | hge := Nat.lt_or_ge d (2 ^ 53)
  · exact Or.inl ⟨round_of_lt hlt, by omega⟩
  · have hunit : unit d = 2 := unit_eq (k := 53) hge (by omega)
    rw [Double.round, hunit]
    unfold nearest
    split <;> omega

/-- An odd one above `2 ^ 53` is the same double in milliseconds where the remainders say so. -/
theorem nearest_seconds (hhigh : d < 9223372036854775) :
    nearest 1024 (1000 * d) = nearest 1024 (1000 * Double.round d) ↔
      (2 ^ 53 < d → d % 2 = 1 → d % 256 = 63 ∨ d % 256 = 193) := by
  have hseconds := round_seconds hhigh
  generalize Double.round d = y at hseconds
  obtain ⟨rfl, heven⟩ | ⟨hbig, hfour, rfl⟩ | ⟨hbig, hfour, rfl⟩ := hseconds
  · refine iff_of_true rfl fun hbig => ?_
    omega
  · rw [nearest_succ]
    omega
  · rw [eq_comm, nearest_succ]
    omega

/-- The first of two deadlines that are the same double is written if it is nearer, or a multiple of ten. -/
theorem Chosen.first (h : Chosen x d) (hx : nearest 1024 (1000 * d) = x) (hnext : Double.round (1000 * (d + 1)) = x) :
    (d % 128 = 21 ∨ d % 256 = 192 → d % 10 = 0) ∧ (d % 128 = 106 ∨ d % 256 = 63 → d % 10 ≠ 9) := by
  refine ⟨fun hsecond => ?_, fun _ hnine => ?_⟩
  · by_contra hten
    have hdist := h.nearer hten (d + 1) hnext
    have hhalf := nearest_second hsecond
    simp only [Nat.dist] at hdist
    omega
  · have := h.rounder (d + 1) hnext (by omega)
    omega

theorem Chosen.second (h : Chosen x (d + 1)) (hx : nearest 1024 (1000 * d) = x)
    (hbefore : Double.round (1000 * d) = x) :
    (d % 128 = 21 ∨ d % 256 = 192 → d % 10 ≠ 0) ∧ (d % 128 = 106 ∨ d % 256 = 63 → d % 10 = 9) := by
  refine ⟨fun _ hten => ?_, fun hfirst => ?_⟩
  · have := h.rounder d hbefore hten
    omega
  · by_contra hnine
    have hdist := h.nearer (by omega) d hbefore
    have hhalf := nearest_first hfirst
    simp only [Nat.dist] at hdist
    omega

theorem Chosen.scales (h : Chosen x d) (hlow : 4611686018427388 < d) (hhigh : d < 9223372036854775) :
    (d % 128 = 21 ∨ d % 128 = 107 ∨ d % 256 = 64 ∨ d % 256 = 192 → d % 10 = 0) ∧
    (d % 128 = 22 ∨ d % 256 = 193 → d % 10 ≠ 1) ∧ (d % 128 = 106 ∨ d % 256 = 63 → d % 10 ≠ 9) := by
  have hx : nearest 1024 (1000 * d) = x := (round_high (by omega) (by omega)).symm.trans h.reads
  obtain ⟨c, rfl⟩ : ∃ c, d = c + 1 := ⟨d - 1, by omega⟩
  have hfirst (hr : (c + 1) % 128 = 21 ∨ (c + 1) % 128 = 106 ∨ (c + 1) % 256 = 63 ∨ (c + 1) % 256 = 192) :=
    h.first hx (by rw [round_high (by omega) (by omega), (nearest_succ (c + 1)).mpr hr, hx])
  have hsecond (hr : c % 128 = 21 ∨ c % 128 = 106 ∨ c % 256 = 63 ∨ c % 256 = 192) :=
    have hc : nearest 1024 (1000 * c) = x := ((nearest_succ c).mpr hr).symm.trans hx
    h.second hc ((round_high (by omega) (by omega)).trans hc)
  refine ⟨fun hr => ?_, fun hr => ?_, fun hr => (hfirst (by omega)).2 hr⟩
  · obtain hr | hr | hr | hr := hr
    · exact (hfirst (by omega)).1 (by omega)
    · have := (hsecond (by omega)).2 (by omega)
      omega
    · have := (hsecond (by omega)).2 (by omega)
      omega
    · exact (hfirst (by omega)).1 (by omega)
  · have := (hsecond (by omega)).1 (by omega)
    omega

/-- A deadline that scales is not passed over for another that is the same double. -/
theorem Chosen.eq_of_scales (h : Chosen x e) (hd : Double.round (1000 * d) = x) (hscales : ScalesHigh d)
    (hlow : 4611686018427388 < d) (hhigh : d < 9223372036854775) (hfit : 1000 * e < 2 ^ 63) : e = d := by
  obtain ⟨hfar, hone, hnine, -⟩ := hscales
  have hx : nearest 1024 (1000 * d) = x := (round_high (by omega) (by omega)).symm.trans hd
  have hapart := (reads_apart (hd.trans h.reads.symm)).2 (by omega) hfit
  have hex : nearest 1024 (1000 * e) = x := (round_high (by omega) (by omega)).symm.trans h.reads
  by_contra hne
  obtain rfl | rfl : e = d + 1 ∨ d = e + 1 := by omega
  · obtain ⟨hsecond, hfirst⟩ := h.second hx hd
    obtain hr | hr | hr | hr := (nearest_succ d).mp (hex.trans hx.symm)
    · exact hsecond (Or.inl hr) (hfar (Or.inl hr))
    · exact hnine (Or.inl hr) (hfirst (Or.inl hr))
    · exact hnine (Or.inr hr) (hfirst (Or.inr hr))
    · exact hsecond (Or.inr hr) (hfar (by omega))
  · obtain ⟨hsecond, hfirst⟩ := h.first hex hd
    obtain hr | hr | hr | hr := (nearest_succ e).mp (hx.trans hex.symm)
    · have := hsecond (Or.inl hr)
      exact hone (by omega) (by omega)
    · have := hfar (by omega)
      exact hfirst (Or.inl hr) (by omega)
    · have := hfar (by omega)
      exact hfirst (Or.inr hr) (by omega)
    · have := hsecond (Or.inr hr)
      exact hone (by omega) (by omega)

theorem shortest_high (hlow : 4611686018427388 < d) (hhigh : d < 9223372036854775) :
    shortest (deadlineMs d) = 1000 * d ↔ ScalesHigh d := by
  have hseconds := round_seconds hhigh
  have hreads : Double.round (1000 * Double.round d) = deadlineMs d := by rw [deadlineMs, Nat.mul_comm]
  have hy : Double.round (1000 * Double.round d) = nearest 1024 (1000 * Double.round d) :=
    round_high (by omega) (by omega)
  have hd : Double.round (1000 * d) = nearest 1024 (1000 * d) := round_high (by omega) (by omega)
  have hlast : Double.round (1000 * 9223372036854775) < 2 ^ 63 := by decide
  have hsmall : deadlineMs d ≤ Double.round (1000 * 9223372036854775) := by
    rw [← hreads]
    exact round_mono (by omega)
  have hpos : 0 < deadlineMs d := by
    have := round_mono (show 1 ≤ 1000 * Double.round d by omega)
    rw [hreads, round_of_lt (by decide)] at this
    omega
  constructor
  · intro h
    have hchosen := chosen_of_shortest hpos (round_round _) h
    obtain ⟨hfar, hone, hnine⟩ := hchosen.scales hlow hhigh
    refine ⟨hfar, hone, hnine, (nearest_seconds hhigh).mp ?_⟩
    rw [← hd, ← hy, hchosen.reads, hreads]
  · intro hscales
    have hsame : Double.round (1000 * d) = deadlineMs d := by
      rw [hd, (nearest_seconds hhigh).mpr hscales.2.2.2, ← hy, hreads]
    obtain ⟨e, he, hchosen⟩ := exists_chosen hpos hsame
    have hfit : 1000 * e < 2 ^ 63 := by
      by_contra hge
      have := round_mono (show 2 ^ 63 ≤ 1000 * e by omega)
      rw [round_two_pow, hchosen.reads] at this
      omega
    rw [he, hchosen.eq_of_scales hsame hscales hlow hhigh hfit]

/-- The milliseconds of a deadline are written as they are, and fit the column, just when the deadline scales. -/
theorem shortest_scales (d : Nat) : shortest (deadlineMs d) = 1000 * d ∧ 1000 * d < 2 ^ 63 ↔ Scales d := by
  have hends : (shortest (deadlineMs 4611686018427388) = 1000 * 4611686018427388 ∧ ScalesHigh 4611686018427388) ∧
      ¬ shortest (deadlineMs 9223372036854775) = 1000 * 9223372036854775 ∧ ¬ ScalesHigh 9223372036854775 := by
    decide +kernel
  rw [and_comm, Scales]
  refine and_congr_right fun hfit => ?_
  obtain hlow | hhigh := Nat.lt_or_ge (1000 * d) (2 ^ 62)
  · exact iff_of_true (shortest_low hlow) fun hge => absurd hge (by omega)
  · rw [imp_iff_right hhigh]
    obtain rfl | rfl | ⟨h, h'⟩ : d = 4611686018427388 ∨ d = 9223372036854775 ∨
        (4611686018427388 < d ∧ d < 9223372036854775) := by omega
    · exact iff_of_true hends.1.1 hends.1.2
    · exact iff_of_false hends.2.1 hends.2.2
    · exact shortest_high h h'

/-! ## Events in the table -/

/-- A column takes a number whose digits fit it. -/
theorem input_toText {t : IntType} (ht : t.bits ≤ 64) {v : Int} :
    t.input (toText x) = .ok v ↔ shortest x < 2 ^ (t.bits - 1) ∧ v = shortest x := by
  have hbits : 2 ^ (t.bits - 1) ≤ 2 ^ 63 := Nat.pow_le_pow_right (by decide) (by omega)
  have hcast : (2 : Int) ^ (t.bits - 1) = ((2 ^ (t.bits - 1) : Nat) : Int) := by push_cast; rfl
  unfold IntType.input
  rw [readInt_toText]
  by_cases htext : shortest x < 10 ^ 21
  · rw [if_pos htext]
    dsimp only
    rw [hcast]
    split
    · rename_i hin
      simp only [Except.ok.injEq, eq_comm (a := v)]
      omega
    · rename_i hout
      simp only [reduceCtorEq, false_iff]
      omega
  · rw [if_neg htext]
    simp only [reduceCtorEq, false_iff]
    omega

/-- What is recorded of an event when every column takes its number. -/
def taken (event : SuiLzEvent) : ReceivedDetails :=
  { event.details with deadline := shortest (deadlineMs event.deadline) }

theorem columns_ok {event : SuiLzEvent} {details : ReceivedDetails} {epochs : Nat}
    (hepochs : event.storageEpochs = some epochs) (hsrc : event.srcEid < 2 ^ 53) (hlt : epochs < 2 ^ 53) :
    columns event = .ok details ↔ event.srcEid < 2 ^ 31 ∧ epochs < 2 ^ 31 ∧
      shortest (deadlineMs event.deadline) < 2 ^ 63 ∧
      details = taken event := by
  have hinteger {n : Nat} (hn : n < 2 ^ 53) {v : Int} : integer.input (toText n) = .ok v ↔ n < 2 ^ 31 ∧ v = n := by
    rw [input_toText (by decide), shortest_of_lt hn]
    rfl
  have hbigint {v : Int} : bigint.input (toText (deadlineMs event.deadline)) = .ok v ↔
      shortest (deadlineMs event.deadline) < 2 ^ 63 ∧ v = shortest (deadlineMs event.deadline) :=
        input_toText (by decide)
  simp only [columns, hepochs, Result.bind_ok, hinteger hsrc, hbigint, hinteger hlt, Result.pure_ok]
  constructor
  · rintro ⟨_, ⟨hs, rfl⟩, _, ⟨hd, rfl⟩, _, ⟨he, rfl⟩, _, rfl, rfl⟩
    exact ⟨hs, he, hd, by simp only [taken, SuiLzEvent.details, hepochs, Int.toNat_natCast, Option.map_some]⟩
  · rintro ⟨hs, he, hd, rfl⟩
    exact ⟨_, ⟨hs, rfl⟩, _, ⟨hd, rfl⟩, _, ⟨he, rfl⟩, _, rfl,
      by simp only [taken, SuiLzEvent.details, hepochs, Int.toNat_natCast, Option.map_some]⟩

/-- How the node renders an event: a byte vector in base64, a number of up to 32 bits as a number, and a wider one in
its decimal digits. -/
def Renders : Sui.Event → StructFields → Prop
  | .intentReceived intentId committedBlobId size encodingType storageEpochs deadline srcEid nonce _, json =>
    b64Bytes (strVal json.intentId) = intentId ∧
    json.committedBlobId = some (.stringValue (toString committedBlobId.toNat)) ∧
    json.size = some (.numberValue size.toNat) ∧
    json.encodingType = some (.numberValue encodingType.toNat) ∧
    json.storageEpochs = some (.numberValue storageEpochs.toNat) ∧
    json.deadline = some (.stringValue (toString deadline.toNat)) ∧
    json.srcEid = some (.numberValue srcEid.toNat) ∧
    json.nonce = some (.stringValue (toString nonce.toNat))
  | _, _ => False

/-- The intent is recorded, with the epochs and the deadline that the event says. -/
def Records (intentId : List UInt8) (storageEpochs : UInt32) (deadline : UInt64)
    (result : Except String (Option Outcome × Rows)) : Prop :=
  ∃ rows r, result = .ok (some .recorded, rows) ∧ rows (hexlify intentId) = some r ∧ r.received = true ∧
    r.storageEpochs = some storageEpochs.toNat ∧ r.deadline = some (1000 * deadline.toNat)

/-- When an event is recorded, and what the table is then. -/
theorem onReceived_recorded {event : SuiLzEvent} {now : Nat} {rows rows' : Rows} :
    onReceived event now rows = (.recorded, rows') ↔ ∃ details, columns event = .ok details ∧
      Takes rows event.intentId = true ∧ rows' = (Op.markReceived event.intentId details now).run rows := by
  unfold onReceived
  cases hcolumns : columns event with
  | error message => simp
  | ok details =>
    cases htakes : Takes rows event.intentId with
    | true => simp [eq_comm]
    | false => simp

theorem processEvent_ok {event : SuiLzEvent} {deliveryDigest : String} {json : StructFields} {now : Nat} {rows : Rows}
    (hlength : (b64Bytes (strVal json.intentId)).length ≠ 0)
    (hlz : lzEvent deliveryDigest (b64Bytes (strVal json.intentId)) json = .ok event) :
    processEvent deliveryDigest json now rows =
      .ok (some (onReceived event now rows).1, (onReceived event now rows).2) := by
  unfold processEvent
  rw [if_neg hlength, hlz]
  rfl

theorem processEvent_failed {event : SuiLzEvent} {deliveryDigest message : String} {json : StructFields} {now : Nat}
    {rows : Rows} (hlength : (b64Bytes (strVal json.intentId)).length ≠ 0)
    (hlz : lzEvent deliveryDigest (b64Bytes (strVal json.intentId)) json = .ok event)
    (hcolumns : columns event = .error message) :
    processEvent deliveryDigest json now rows = .ok (some (.failed message), rows) := by
  have hfailed : onReceived event now rows = (.failed message, rows) := by
    unfold onReceived
    rw [hcolumns]
  rw [processEvent_ok hlength hlz, hfailed]

/-- An event is recorded with these epochs and this deadline just when its numbers fit their columns. -/
theorem onReceived_holds (event : SuiLzEvent) {epochs : Nat} (hepochs : event.storageEpochs = some epochs)
    (hsrc : event.srcEid < 2 ^ 53) (hlt : epochs < 2 ^ 53) (now : Nat) (rows : Rows) :
    (∃ rows' r, onReceived event now rows = (.recorded, rows') ∧ rows' event.intentId = some r ∧ r.received = true ∧
      r.storageEpochs = some epochs ∧ r.deadline = some (1000 * event.deadline)) ↔
    Takes rows event.intentId = true ∧ event.srcEid < 2 ^ 31 ∧ epochs < 2 ^ 31 ∧ Scales event.deadline := by
  have hrow (htakes : Takes rows event.intentId = true) :
      ∃ r, (Op.markReceived event.intentId (taken event) now).run rows event.intentId = some r ∧ r.received = true ∧
        r.storageEpochs = some epochs ∧ r.deadline = some (shortest (deadlineMs event.deadline)) := by
    have hstored : (taken event).storageEpochs = some epochs := hepochs
    have hdeadline : (taken event).deadline = shortest (deadlineMs event.deadline) := by simp only [taken]
    rw [← hdeadline]
    obtain ⟨r, hr, rfl | ⟨r₀, -, rfl⟩⟩ := run_markReceived htakes (taken event) now
    · exact ⟨_, hr, rfl, hstored, rfl⟩
    · refine ⟨_, hr, rfl, ?_, rfl⟩
      simp only [receivedMerged, hstored, Option.orElse_some]
  constructor
  · rintro ⟨rows', r, hrecorded, hr, -, -, hdeadline⟩
    obtain ⟨details, hcolumns, htakes, rfl⟩ := onReceived_recorded.mp hrecorded
    obtain ⟨hs, he, hfit, rfl⟩ := (columns_ok hepochs hsrc hlt).mp hcolumns
    obtain ⟨r', hr', -, -, hdeadline'⟩ := hrow htakes
    rw [hr', Option.some.injEq] at hr
    subst hr
    have hsame := Option.some.inj (hdeadline'.symm.trans hdeadline)
    exact ⟨htakes, hs, he, (shortest_scales _).mp ⟨hsame, hsame ▸ hfit⟩⟩
  · rintro ⟨htakes, hs, he, hscales⟩
    obtain ⟨hsame, hfit⟩ := (shortest_scales _).mpr hscales
    rw [← hsame] at hfit ⊢
    obtain ⟨r, hr, hreceived, hstored, hdeadline⟩ := hrow htakes
    have hcolumns := (columns_ok hepochs hsrc hlt).mpr ⟨hs, he, hfit, rfl⟩
    exact ⟨_, r, onReceived_recorded.mpr ⟨_, hcolumns, htakes, rfl⟩, hr, hreceived, hstored, hdeadline⟩

/-- An event is read as it was emitted. -/
theorem lzEvent_renders {intentId : List UInt8} {committedBlobId : Sui.U256} {size : UInt32} {encodingType : UInt8}
    {storageEpochs : UInt32} {deadline : UInt64} {srcEid : UInt32} {nonce : UInt64} {guid : Bytes 32}
    {json : StructFields}
    (hjson : Renders (.intentReceived intentId committedBlobId size encodingType storageEpochs deadline srcEid nonce guid) json)
    (deliveryDigest : String) :
    lzEvent deliveryDigest (b64Bytes (strVal json.intentId)) json = .ok {
      intentId := hexlify intentId, deliveryDigest := deliveryDigest, committedBlobId := toString committedBlobId.toNat
      size := size.toNat, encodingType := encodingType.toNat, storageEpochs := some storageEpochs.toNat
      deadline := deadline.toNat, srcEid := srcEid.toNat, nonce := nonce.toNat } := by
  obtain ⟨hid, hblob, hsize, henc, hepochs, hdeadline, hsrc, hnonce⟩ := hjson
  rw [hid]
  simp only [lzEvent, hblob, hsize, henc, hepochs, hdeadline, hsrc, hnonce, strVal, numVal, Option.getD_some,
    bigInt_toString, Result.ok_bind]
  rfl

/-- Every event that the receiver emits is recorded, with its epochs and its deadline, just when no terminal row has its
intent, its chain id and its epochs fit their columns, and its deadline scales. -/
theorem received_recorded_iff {s s' : Sui.State} {time now : Nat} {sender : Sui.Address} {fromEndpoint : Bool}
    {packet : Sui.Packet} {value : Option Nat} {intentId : List UInt8} {committedBlobId : Sui.U256} {size : UInt32}
    {encodingType : UInt8} {storageEpochs : UInt32} {deadline : UInt64} {srcEid : UInt32} {nonce : UInt64}
    {guid : Bytes 32} (hreceive : Sui.lzReceive time sender fromEndpoint packet value s = .ok s')
    (hemitted : s'.log = s.log ++ [⟨time, .intentReceived intentId committedBlobId size encodingType storageEpochs deadline
      srcEid nonce guid⟩]) {json : StructFields}
    (hjson : Renders (.intentReceived intentId committedBlobId size encodingType storageEpochs deadline srcEid nonce guid) json)
    (deliveryDigest : String) (rows : Rows) :
    Records intentId storageEpochs deadline (processEvent deliveryDigest json now rows) ↔
      Takes rows (hexlify intentId) = true ∧ srcEid.toNat < 2 ^ 31 ∧ storageEpochs.toNat < 2 ^ 31 ∧
        Scales deadline.toNat := by
  have hlength : intentId.length ≠ 0 := by
    obtain ⟨-, -, id, c, -, -, rfl⟩ := Sui.lzReceive_ok.mp hreceive
    have hlast := List.append_cancel_left hemitted
    simp only [List.cons.injEq, Sui.Entry.mk.injEq, Sui.Event.intentReceived.injEq] at hlast
    rw [← hlast.1.2.1, id.property]
    decide
  have hid : b64Bytes (strVal json.intentId) = intentId := hjson.1
  have hlz := lzEvent_renders hjson deliveryDigest
  generalize hevent : SuiLzEvent.mk _ _ _ _ _ _ _ _ _ = event at hlz
  have hholds := onReceived_holds event (by rw [← hevent])
    (by rw [← hevent]; exact srcEid.toNat_lt.trans (by decide)) (storageEpochs.toNat_lt.trans (by decide)) now rows
  rw [← hevent] at hholds
  rw [← hholds]
  unfold Records
  rw [processEvent_ok (hid ▸ hlength) hlz, ← hevent]
  constructor
  · rintro ⟨rows', r, hresult, hrest⟩
    obtain ⟨houtcome, hrows⟩ := Prod.mk.inj (Except.ok.inj hresult)
    exact ⟨rows', r, Prod.ext (Option.some.inj houtcome) hrows, hrest⟩
  · rintro ⟨rows', r, hresult, hrest⟩
    exact ⟨rows', r, by rw [hresult], hrest⟩

/-! ## Two deliveries -/

def exampleState : Sui.State := { Sui.init 0 (Bytes.zero 32) with peers := fun _ => some (Bytes.zero 32) }

/-- A delivery of an intent of the id zero. -/
def examplePacket (c : Commitment) : Sui.Packet :=
    ⟨40161, Bytes.zero 32, 1, Bytes.zero 32, (Bytes.zero 32).val ++ c.wire⟩

def exampleEvent (c : Commitment) : Sui.Event :=
  .intentReceived (Bytes.zero 32).val (Sui.blobNumber c.blobId) c.size c.encodingType c.storageEpochs c.deadline 40161 1
    (Bytes.zero 32)

def exampleJson (c : Commitment) : StructFields where
  intentId := some (.stringValue "AAAAAAAAAAAAAAAAAAAAAAAAAAAAAAAAAAAAAAAAAAA=")
  committedBlobId := some (.stringValue (toString (Sui.blobNumber c.blobId).toNat))
  size := some (.numberValue c.size.toNat)
  encodingType := some (.numberValue c.encodingType.toNat)
  storageEpochs := some (.numberValue c.storageEpochs.toNat)
  deadline := some (.stringValue (toString c.deadline.toNat))
  srcEid := some (.numberValue 40161)
  nonce := some (.stringValue (toString 1))

theorem example_emitted (c : Commitment) : ∃ s', Sui.lzReceive 0 (Bytes.zero 32) true
    (examplePacket c) none exampleState = .ok s' ∧
    s'.log = exampleState.log ++ [⟨0, exampleEvent c⟩] :=
  ⟨_, Sui.lzReceive_ok.mpr ⟨rfl, rfl, Bytes.zero 32, c, rfl, rfl, rfl⟩, rfl⟩

theorem example_renders (c : Commitment) : Renders (exampleEvent c) (exampleJson c) := by
  refine ⟨?_, rfl, rfl, rfl, rfl, rfl, rfl, rfl⟩
  show b64Bytes (some "AAAAAAAAAAAAAAAAAAAAAAAAAAAAAAAAAAAAAAAAAAA=") = _
  decide +kernel

theorem received_recorded : Records (Bytes.zero 32).val Bosphor.exampleCommitment.storageEpochs Bosphor.exampleCommitment.deadline
    (processEvent "0xd16e57" (exampleJson Bosphor.exampleCommitment) 0 fun _ => none) := by
  obtain ⟨s', hreceive, hemitted⟩ := example_emitted Bosphor.exampleCommitment
  have hrenders := example_renders Bosphor.exampleCommitment
  exact (received_recorded_iff hreceive hemitted hrenders "0xd16e57" fun _ => none).mpr
    ⟨rfl, by decide, by decide, by decide⟩

/-- The deadline that stands for none. -/
def unbounded : Commitment := { Bosphor.exampleCommitment with deadline := UInt64.ofNat (2 ^ 64 - 1) }

/-- A delivery whose deadline is the last that there is: the statement fails, and the intent is dropped. -/
theorem received_dropped : (∃ s', Sui.lzReceive 0 (Bytes.zero 32) true
    (examplePacket unbounded) none exampleState = .ok s' ∧
      s'.log = exampleState.log ++ [⟨0, exampleEvent unbounded⟩]) ∧
        Renders (exampleEvent unbounded) (exampleJson unbounded) ∧
    processEvent "0xd16e57" (exampleJson unbounded) 0 (fun _ => none) =
      .ok (some (.failed "invalid input syntax for type bigint: \"1.8446744073709552e+22\""), fun _ => none) ∧
    ¬ Records (Bytes.zero 32).val unbounded.storageEpochs unbounded.deadline
      (processEvent "0xd16e57" (exampleJson unbounded) 0 fun _ => none) := by
  have hdropped : processEvent "0xd16e57" (exampleJson unbounded) 0 (fun _ => none) =
      .ok (some (.failed "invalid input syntax for type bigint: \"1.8446744073709552e+22\""), fun _ => none) := by
    have hsrc : integer.input (toText 40161) = .ok 40161 := by decide +kernel
    have hinput : bigint.input (toText (deadlineMs unbounded.deadline.toNat)) =
        .error "invalid input syntax for type bigint: \"1.8446744073709552e+22\"" := by decide +kernel
    refine processEvent_failed ?_ (lzEvent_renders (example_renders unbounded) "0xd16e57") ?_
    · rw [(example_renders unbounded).1]
      decide
    · have hid : (40161 : UInt32).toNat = 40161 := rfl
      simp only [columns, hid, hsrc, hinput, Result.ok_bind, Result.error_bind]
  refine ⟨example_emitted unbounded, example_renders unbounded, hdropped, ?_⟩
  rintro ⟨rows, r, hresult, -⟩
  rw [hdropped] at hresult
  cases hresult

end Bosphor.Relayer.ReceivedNumbers

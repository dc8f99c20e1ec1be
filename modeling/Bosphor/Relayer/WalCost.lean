import Bosphor.Relayer.StoreDuration

/-!
# The Walrus cost model

The cost calculator under either encoding, with every check of its inputs and
the whole breakdown; `Relayer.computeWalCost` is its total under the encoding
that is written (`computeWalCost_rs2`). Each of its roundings is the least
number that reaches a bound (`symbolSize_le`, `storageUnitsFromSize_le`), so it
grows with the bound; the cost's monotonicity is assembled from these.
-/

namespace Bosphor.Relayer.WalCost

open Ts (JsNumber)

inductive WalrusEncodingType where
  | RS2
  | RedStuff
  deriving DecidableEq

structure WalrusSystemState where
  nShards : JsNumber
  storagePricePerUnitSize : Int
  writePricePerUnitSize : Int
  encodingType : Option WalrusEncodingType

structure WalCostBreakdown where
  unencodedSize : Nat
  encodedSize : Nat
  storageUnits : Nat
  epochs : Nat
  storageCostFrost : Int
  writeCostFrost : Int
  totalCostFrost : Int
  deriving DecidableEq

def decodingSafetyLimit (nShards : Nat) : WalrusEncodingType → Nat
  | .RedStuff => min 5 (getMaxFaultyNodes nShards / 5)
  | .RS2 => 0

structure SourceSymbols where
  primarySymbols : Nat
  secondarySymbols : Nat
  deriving DecidableEq

-- no subtraction here is below zero: what is left of the last one is positive
def getSourceSymbols (nShards : Nat) (encodingType : WalrusEncodingType) : SourceSymbols :=
  let safetyLimit := decodingSafetyLimit nShards encodingType
  let maxFaulty := getMaxFaultyNodes nShards
  let minCorrect := nShards - maxFaulty
  { primarySymbols := minCorrect - maxFaulty - safetyLimit
    secondarySymbols := minCorrect - safetyLimit }

/-- The `symbolSize` of `encodedSliverSize`. -/
def symbolSize (unencodedLength nShards : Nat) (encodingType : WalrusEncodingType) : Nat :=
  let symbols := getSourceSymbols nShards encodingType
  let symbolSize := (max unencodedLength 1 - 1) / (symbols.primarySymbols * symbols.secondarySymbols) + 1
  if encodingType = .RS2 ∧ symbolSize % 2 = 1 then symbolSize + 1 else symbolSize

def encodedSliverSize (unencodedLength nShards : Nat) (encodingType : WalrusEncodingType) : Nat :=
  let symbols := getSourceSymbols nShards encodingType
  (symbols.primarySymbols + symbols.secondarySymbols) * symbolSize unencodedLength nShards encodingType * nShards

def encodedBlobLength (unencodedLength nShards : Nat) (encodingType : WalrusEncodingType) : Nat :=
  nShards * (nShards * DIGEST_LEN * 2 + BLOB_ID_LEN) + encodedSliverSize unencodedLength nShards encodingType

/-- The end of `computeWalCost`, behind its checks. -/
def breakdown (unencodedSize epochs nShards : Nat) (state : WalrusSystemState) : WalCostBreakdown :=
  let encodedSize := encodedBlobLength unencodedSize nShards (state.encodingType.getD .RS2)
  let storageUnits := storageUnitsFromSize encodedSize
  let storageCostFrost := storageUnits * state.storagePricePerUnitSize * epochs
  let writeCostFrost := storageUnits * state.writePricePerUnitSize
  { unencodedSize, encodedSize, storageUnits, epochs, storageCostFrost, writeCostFrost
    totalCostFrost := storageCostFrost + writeCostFrost }

/-- A check of an input, which throws the message. -/
def checked (message : String) : Option Nat → Except String Nat
  | some n => .ok n
  | none => .error message

-- how a number is written into a message
variable (text : JsNumber → String)

def computeWalCost (unencodedSize epochs : JsNumber) (state : WalrusSystemState) : Except String WalCostBreakdown := do
  let size ← checked s!"Invalid blob size: {text unencodedSize} (must be a non-negative integer)"
    (toCount unencodedSize)
  let epochs ← checked s!"Invalid epochs: {text epochs} (must be a positive integer)" ((toCount epochs).filter (1 ≤ ·))
  let nShards ← checked s!"Invalid shard count: {text state.nShards} (must be a positive integer)"
    ((toCount state.nShards).filter (1 ≤ ·))
  if state.storagePricePerUnitSize < 0 then
    .error s!"Invalid storage price: {state.storagePricePerUnitSize}"
  else if state.writePricePerUnitSize < 0 then
    .error s!"Invalid write price: {state.writePricePerUnitSize}"
  else
    .ok (breakdown size epochs nShards state)

/-! ## The roundings -/

variable {text} {n m e e' : Nat} {enc : WalrusEncodingType}

theorem primarySymbols_pos (hn : 1 ≤ n) : 0 < (getSourceSymbols n enc).primarySymbols := by
  cases enc with
  | RS2 =>
    show 0 < n - (n - 1) / 3 - (n - 1) / 3 - 0
    omega
  | RedStuff =>
    show 0 < n - (n - 1) / 3 - (n - 1) / 3 - min 5 ((n - 1) / 3 / 5)
    omega

/-- A blob has more secondary symbols than primary ones, and no more than there are shards. -/
theorem symbols_le : (getSourceSymbols n enc).primarySymbols ≤ (getSourceSymbols n enc).secondarySymbols ∧
    (getSourceSymbols n enc).secondarySymbols ≤ n := by
  show n - (n - 1) / 3 - (n - 1) / 3 - decodingSafetyLimit n enc ≤ n - (n - 1) / 3 - decodingSafetyLimit n enc ∧
    n - (n - 1) / 3 - decodingSafetyLimit n enc ≤ n
  omega

/-- How many bytes a blob holds, of which each symbol holds `k`. -/
def capacity (n : Nat) (enc : WalrusEncodingType) (k : Nat) : Nat :=
  (getSourceSymbols n enc).primarySymbols * (getSourceSymbols n enc).secondarySymbols * k

/-- The size of a symbol that the encoding takes: RS2 takes even ones alone. -/
def Takes (enc : WalrusEncodingType) (k : Nat) : Prop := enc = .RS2 → k % 2 = 0

theorem symbolSize_takes (m n : Nat) : Takes enc (symbolSize m n enc) := by
  intro hencoding
  simp only [symbolSize, hencoding, true_and]
  split <;> omega

/-- A symbol is no larger than one that the encoding takes exactly if that one is large enough. -/
theorem symbolSize_le (hn : 1 ≤ n) {k : Nat} (hk : Takes enc k) :
    symbolSize m n enc ≤ k ↔ max m 1 ≤ capacity n enc k := by
  have hprimary : 0 < (getSourceSymbols n enc).primarySymbols := primarySymbols_pos hn
  have hpos : 0 < (getSourceSymbols n enc).primarySymbols * (getSourceSymbols n enc).secondarySymbols :=
    Nat.mul_pos hprimary (hprimary.trans_le symbols_le.1)
  have hceil : (max m 1 - 1) / ((getSourceSymbols n enc).primarySymbols * (getSourceSymbols n enc).secondarySymbols)
      < k ↔ max m 1 ≤ capacity n enc k := by
    rw [Nat.div_lt_iff_lt_mul hpos, Nat.mul_comm k]
    show _ < capacity n enc k ↔ _
    omega
  rw [← hceil]
  simp only [symbolSize]
  split
  case isTrue h =>
    have hk := hk h.1
    omega
  case isFalse => omega

theorem symbolSize_mono (hn : 1 ≤ n) {m' : Nat} (h : m ≤ m') : symbolSize m n enc ≤ symbolSize m' n enc := by
  rw [symbolSize_le hn (symbolSize_takes m' n)]
  exact (max_le_max_right 1 h).trans ((symbolSize_le hn (symbolSize_takes m' n)).mp le_rfl)

/-- The smallest size that the encoding takes of symbols that hold the blob. -/
theorem symbolSize_isLeast (hn : 1 ≤ n) (m : Nat) :
    IsLeast {k | Takes enc k ∧ max m 1 ≤ capacity n enc k} (symbolSize m n enc) :=
  ⟨⟨symbolSize_takes m n, (symbolSize_le hn (symbolSize_takes m n)).mp le_rfl⟩,
    fun _ hk => (symbolSize_le hn hk.1).mpr hk.2⟩

/-- The units are as many as it takes to hold the bytes. -/
theorem storageUnitsFromSize_le {size units : Nat} :
    storageUnitsFromSize size ≤ units ↔ size ≤ units * BYTES_PER_UNIT_SIZE := by
  show (size + 1048576 - 1) / 1048576 ≤ units ↔ size ≤ units * 1048576
  omega

theorem storageUnitsFromSize_isLeast (size : Nat) :
    IsLeast {units | size ≤ units * BYTES_PER_UNIT_SIZE} (storageUnitsFromSize size) :=
  ⟨storageUnitsFromSize_le.mp le_rfl, fun _ => storageUnitsFromSize_le.mpr⟩

theorem storageUnitsFromSize_mono {size size' : Nat} (h : size ≤ size') :
    storageUnitsFromSize size ≤ storageUnitsFromSize size' :=
  storageUnitsFromSize_le.mpr (h.trans (storageUnitsFromSize_le.mp le_rfl))

/-! ## The encoded length -/

theorem encodedBlobLength_mono (hn : 1 ≤ n) {m' : Nat} (h : m ≤ m') :
    encodedBlobLength m n enc ≤ encodedBlobLength m' n enc := by
  have hsymbol : symbolSize m n enc ≤ symbolSize m' n enc := symbolSize_mono hn h
  exact Nat.add_le_add_left (Nat.mul_le_mul_right n (Nat.mul_le_mul_left _ hsymbol)) _

/-- Each shard holds a sliver as long as all secondary symbols, so that all of them hold the blob. -/
theorem size_le_encodedBlobLength (hn : 1 ≤ n) (m : Nat) : m ≤ encodedBlobLength m n enc := by
  obtain ⟨hprimary, hsecondary⟩ : (getSourceSymbols n enc).primarySymbols ≤ (getSourceSymbols n enc).secondarySymbols ∧
    (getSourceSymbols n enc).secondarySymbols ≤ n := symbols_le
  calc m ≤ max m 1 := le_max_left m 1
    _ ≤ capacity n enc (symbolSize m n enc) := (symbolSize_isLeast hn m).1.2
    _ = (getSourceSymbols n enc).secondarySymbols * symbolSize m n enc * (getSourceSymbols n enc).primarySymbols := by
      rw [capacity]
      ring
    _ ≤ encodedSliverSize m n enc := by
      unfold encodedSliverSize
      exact Nat.mul_le_mul (Nat.mul_le_mul_right _ (Nat.le_add_left ..)) (hprimary.trans hsecondary)
    _ ≤ encodedBlobLength m n enc := Nat.le_add_left ..

/-! ## The cost -/

/-- A state that is accepted, for its `n` shards. -/
structure WalrusSystemState.Valid (state : WalrusSystemState) (n : Nat) : Prop where
  shards : toCount state.nShards = some n
  positive : 1 ≤ n
  storage : 0 ≤ state.storagePricePerUnitSize
  write : 0 ≤ state.writePricePerUnitSize

variable {state : WalrusSystemState} {b b' : WalCostBreakdown} {size epochs : JsNumber}

theorem checked_ok {message : String} {x : Option Nat} : checked message x = .ok n ↔ x = some n := by
  cases x with
  | none => exact ⟨(nomatch ·), (nomatch ·)⟩
  | some k => simp only [checked, Except.ok.injEq, Option.some.injEq]

theorem computeWalCost_ok : computeWalCost text size epochs state = .ok b ↔ ∃ m e n, toCount size = some m ∧
    toCount epochs = some e ∧ 1 ≤ e ∧ state.Valid n ∧ b = breakdown m e n state := by
  simp only [computeWalCost, Result.bind_ok, checked_ok, Option.filter_eq_some_iff, decide_eq_true_eq]
  constructor
  · rintro ⟨m, hm, e, ⟨he, hepoch⟩, n, ⟨hn, hshard⟩, h⟩
    split at h
    · cases h
    · split at h
      · cases h
      · exact ⟨m, e, n, hm, he, hepoch, ⟨hn, hshard, by omega, by omega⟩, (Except.ok.inj h).symm⟩
  · rintro ⟨m, e, n, hm, he, hepoch, h, rfl⟩
    refine ⟨m, hm, e, ⟨he, hepoch⟩, n, ⟨h.shards, h.positive⟩, ?_⟩
    rw [if_neg (Int.not_lt.mpr h.storage), if_neg (Int.not_lt.mpr h.write)]

/-- Of whole numbers of bytes and epochs, the breakdown is computed. -/
theorem computeWalCost_count (h : state.Valid n) (he : 1 ≤ e) :
    computeWalCost text (ofCount m) (ofCount e) state = .ok b ↔ b = breakdown m e n state := by
  rw [computeWalCost_ok]
  constructor
  · rintro ⟨_, _, k, hm, he, -, hk, rfl⟩
    obtain rfl := Option.some.inj ((toCount_natCast m).symm.trans hm)
    obtain rfl := Option.some.inj ((toCount_natCast _).symm.trans he)
    obtain rfl := Option.some.inj (h.shards.symm.trans hk.shards)
    rfl
  · rintro rfl
    exact ⟨m, e, n, toCount_natCast m, toCount_natCast e, he, h, rfl⟩

theorem totalCostFrost_mono (h : state.Valid n) {m' : Nat} (hm : m ≤ m') (he : e ≤ e') :
    (breakdown m e n state).totalCostFrost ≤ (breakdown m' e' n state).totalCostFrost := by
  have hunits : (breakdown m e n state).storageUnits ≤ (breakdown m' e' n state).storageUnits :=
    storageUnitsFromSize_mono (encodedBlobLength_mono h.positive hm)
  have hstorage := h.storage
  have hwrite := h.write
  show ((breakdown m e n state).storageUnits : Int) * state.storagePricePerUnitSize * e +
      (breakdown m e n state).storageUnits * state.writePricePerUnitSize ≤
    (breakdown m' e' n state).storageUnits * state.storagePricePerUnitSize * e' +
      (breakdown m' e' n state).storageUnits * state.writePricePerUnitSize
  gcongr

theorem storageCostFrost_add (m e e' n : Nat) (state : WalrusSystemState) :
    (breakdown m (e + e') n state).storageCostFrost =
      (breakdown m e n state).storageCostFrost + (breakdown m e' n state).storageCostFrost := by
  show (_ : Int) * (e + e' : Nat) = _ * e + _ * e'
  rw [Nat.cast_add, mul_add]

/-- The calculator of the encoding that is written computes this total. -/
theorem computeWalCost_rs2 (sys : Relayer.WalrusSystemState) (hn : 1 ≤ sys.nShards) (he : 1 ≤ e) :
    Relayer.computeWalCost m e sys = (computeWalCost text (ofCount m) (ofCount e)
      ⟨ofCount sys.nShards, sys.storagePricePerUnitSize, sys.writePricePerUnitSize, none⟩).map
        (·.totalCostFrost.toNat) := by
  have hvalid : WalrusSystemState.Valid ⟨ofCount sys.nShards, sys.storagePricePerUnitSize,
      sys.writePricePerUnitSize, none⟩
    sys.nShards := ⟨toCount_natCast _, hn, Int.natCast_nonneg _, Int.natCast_nonneg _⟩
  have hsymbols : Relayer.encodedBlobLength m sys.nShards = encodedBlobLength m sys.nShards .RS2 := by
    simp only [Relayer.encodedBlobLength, Relayer.encodedSliverSize, Relayer.getSourceSymbols, encodedBlobLength,
      encodedSliverSize, symbolSize, getSourceSymbols, decodingSafetyLimit, Nat.sub_zero, true_and]
    congr
  rw [(computeWalCost_count hvalid he).mpr rfl, Relayer.computeWalCost, if_neg (by omega), if_neg (by omega), hsymbols]
  exact congrArg Except.ok (Int.toNat_natCast _).symm

/-- What the model of the costs promises for the `n` shards of a state, whatever the blob and the epochs are. -/
structure CostModel (text : JsNumber → String) (state : WalrusSystemState) (n : Nat)
    (enc : WalrusEncodingType) : Prop where
  symbols : 0 < (getSourceSymbols n enc).primarySymbols ∧ 0 < (getSourceSymbols n enc).secondarySymbols
  symbol : ∀ m, IsLeast {k | Takes enc k ∧ max m 1 ≤ capacity n enc k} (symbolSize m n enc)
  computed : ∀ m e, 1 ≤ e → ∃ b, computeWalCost text (ofCount m) (ofCount e) state = .ok b ∧
    m ≤ b.encodedSize ∧ IsLeast {units | b.encodedSize ≤ units * BYTES_PER_UNIT_SIZE} b.storageUnits
  grows : ∀ {m m' e e' b b'}, 1 ≤ e → m ≤ m' → e ≤ e' → computeWalCost text (ofCount m) (ofCount e) state = .ok b →
    computeWalCost text (ofCount m') (ofCount e') state = .ok b' → b.totalCostFrost ≤ b'.totalCostFrost
  adds : ∀ {m e e' b b' sum}, 1 ≤ e → 1 ≤ e' → computeWalCost text (ofCount m) (ofCount e) state = .ok b →
    computeWalCost text (ofCount m) (ofCount e') state = .ok b' →
    computeWalCost text (ofCount m) (ofCount (e + e')) state = .ok sum →
    sum.storageCostFrost = b.storageCostFrost + b'.storageCostFrost

theorem costModel (text : JsNumber → String) (h : state.Valid n) :
    CostModel text state n (state.encodingType.getD .RS2) where
  symbols := ⟨primarySymbols_pos h.positive, (primarySymbols_pos h.positive).trans_le symbols_le.1⟩
  symbol := symbolSize_isLeast h.positive
  computed m e he := ⟨_, (computeWalCost_count h he).mpr rfl, size_le_encodedBlobLength h.positive m,
    storageUnitsFromSize_isLeast _⟩
  grows he hm hle hb hb' := by
    rw [computeWalCost_count h he] at hb
    rw [computeWalCost_count h (he.trans hle)] at hb'
    subst hb hb'
    exact totalCostFrost_mono h hm hle
  adds he he' hb hb' hsum := by
    rw [computeWalCost_count h he] at hb
    rw [computeWalCost_count h he'] at hb'
    rw [computeWalCost_count h (he.trans (Nat.le_add_right ..))] at hsum
    subst hb hb' hsum
    exact storageCostFrost_add ..

/-- The shards and the prices of the main network. -/
def exampleState : WalrusSystemState := ⟨ofCount 1000, 100000, 20000, none⟩

theorem costModel_thousand : CostModel (fun _ => "") exampleState 1000 .RS2 :=
  costModel _ ⟨toCount_natCast 1000, by decide, by decide, by decide⟩

-- an empty blob still takes an even symbol, and the metadata of every shard
example : breakdown 0 5 1000 exampleState = ⟨0, 66034000, 63, 5, 31500000, 1260000, 32760000⟩ := by decide

end Bosphor.Relayer.WalCost

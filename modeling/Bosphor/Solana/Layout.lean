import Bosphor.Sha256
import Bosphor.Solana.InstructionData

/-!
# Anchor's layout

Accounts, events and the arguments of instructions in bytes, as Anchor lays them
out: eight bytes of a SHA-256 that name the type (`discriminator`), then the
fields in the order of their declaration, in Borsh. A field stands behind the
widths of the fields before it (`slice_field`), so that a reader at a fixed
offset can be told from a drift of any of them.
-/

namespace Bosphor.Solana

open Borsh
open Bytes (slice)

/-- `sha256("<kind>:<name>")[..8]`. -/
def discriminator (kind name : String) : Bytes 8 :=
  ⟨(Sha256.digest (kind ++ ":" ++ name).toUTF8.data.toList).take 8,
    List.length_take_of_le (by rw [Sha256.length_digest]; decide)⟩

/-! ## Fields at their offsets -/

section

variable {fields : List (List UInt8)} {widths : List Nat} {field rest tag : List UInt8} {i start len : Nat}

/-- A field is behind the widths of those before it. -/
theorem slice_field (hwidths : fields.map List.length = widths) (hfield : fields[i]? = some field)
    (hstart : (widths.take i).sum = start) (hlen : widths[i]? = some len) :
    slice (fields.flatten ++ rest) start len = field := by
  obtain ⟨hi, hget⟩ := List.getElem?_eq_some_iff.mp hfield
  have hsplit : fields = fields.take i ++ field :: fields.drop (i + 1) := by
    rw [← hget, List.getElem_cons_drop, List.take_append_drop]
  have hbefore : (fields.take i).flatten.length = start := by
    rw [List.length_flatten, List.map_take, hwidths, hstart]
  have hwidth : field.length = len := by
    rw [← hwidths, List.getElem?_map, hfield] at hlen
    exact Option.some.inj hlen
  rw [hsplit, List.flatten_append, List.flatten_cons, List.append_assoc, List.append_assoc]
  exact Bytes.slice_mid _ _ _ _ _ hbefore hwidth

/-- The offsets behind a tag. -/
theorem slice_behind (htag : tag.length = 8) (start : Nat) :
    slice (tag ++ rest) (8 + start) len = slice rest start len := by
  unfold slice
  rw [← List.drop_drop, ← htag, List.drop_left]

theorem getD_of_slice {data : List UInt8} {b : UInt8} (h : slice data start 1 = [b]) : data.getD start 0 = b := by
  have hget : (slice data start 1)[0]? = data[start]? := Bytes.getElem?_slice Nat.one_pos
  rw [h] at hget
  rw [List.getD_eq_getElem?_getD, ← hget]
  rfl

end

theorem ofLE_uint32 (v : UInt32) : ofLE (toLE 4 v.toNat) = v.toNat := by
  rw [ofLE_toLE]
  exact Nat.mod_eq_of_lt v.toNat_lt

theorem ofLE_uint64 (v : UInt64) : ofLE (toLE 8 v.toNat) = v.toNat := by
  rw [ofLE_toLE]
  exact Nat.mod_eq_of_lt v.toNat_lt

/-! ## Accounts -/

/-- A `bool` is a byte. -/
def boolByte (b : Bool) : UInt8 := if b then 1 else 0

def IntentState.fields (intent : IntentState) : List (List UInt8) :=
  [intent.committedBlobId.val, toLE 4 intent.size.toNat, toLE 4 intent.storageEpochs.toNat,
    toLE 8 intent.deadline.toNat,
    intent.sender.val, toLE 8 intent.nonce.toNat, [boolByte intent.executed],
      toLE 8 intent.endEpoch.toNat, [intent.bump]]

theorem IntentState.data_eq (tag : Bytes 8) (intent : IntentState) :
    intent.data tag = tag.val ++ intent.fields.flatten := by
  simp only [data, head, fields, boolByte, List.flatten_cons, List.flatten_nil, List.append_assoc, List.append_nil,
    List.cons_append, List.nil_append]

def EscrowVault.fields (vault : EscrowVault) : List (List UInt8) :=
  [vault.payer.val, vault.beneficiary.val, toLE 8 vault.amount.toNat, toLE 8 vault.deadline.toNat, [vault.status],
    [vault.bump]]

/-- The account's data. -/
def EscrowVault.data (tag : Bytes 8) (vault : EscrowVault) : List UInt8 := tag.val ++ vault.fields.flatten

theorem IntentState.widths (intent : IntentState) : intent.fields.map List.length = [32, 4, 4, 8, 32, 8, 1, 8, 1] := by
  simp only [fields, List.map_cons, List.map_nil, length_toLE, intent.committedBlobId.property, intent.sender.property,
    List.length_singleton]

theorem EscrowVault.widths (vault : EscrowVault) : vault.fields.map List.length = [32, 32, 8, 8, 1, 1] := by
  simp only [fields, List.map_cons, List.map_nil, length_toLE, vault.payer.property, vault.beneficiary.property,
    List.length_singleton]

/-- Where the fields of a vault are, behind the tag. -/
theorem EscrowVault.slices (vault : EscrowVault) (rest : List UInt8) :
    slice (vault.fields.flatten ++ rest) 0 32 = vault.payer.val ∧
    slice (vault.fields.flatten ++ rest) 32 32 = vault.beneficiary.val ∧
    slice (vault.fields.flatten ++ rest) 64 8 = toLE 8 vault.amount.toNat ∧
    slice (vault.fields.flatten ++ rest) 72 8 = toLE 8 vault.deadline.toNat ∧
    slice (vault.fields.flatten ++ rest) 80 1 = [vault.status] ∧
    slice (vault.fields.flatten ++ rest) 81 1 = [vault.bump] :=
  ⟨slice_field (i := 0) vault.widths rfl rfl rfl, slice_field (i := 1) vault.widths rfl rfl rfl,
    slice_field (i := 2) vault.widths rfl rfl rfl, slice_field (i := 3) vault.widths rfl rfl rfl,
    slice_field (i := 4) vault.widths rfl rfl rfl, slice_field (i := 5) vault.widths rfl rfl rfl⟩

theorem IntentState.slices (intent : IntentState) (rest : List UInt8) :
    slice (intent.fields.flatten ++ rest) 0 32 = intent.committedBlobId.val ∧
    slice (intent.fields.flatten ++ rest) 32 4 = toLE 4 intent.size.toNat ∧
    slice (intent.fields.flatten ++ rest) 36 4 = toLE 4 intent.storageEpochs.toNat ∧
    slice (intent.fields.flatten ++ rest) 40 8 = toLE 8 intent.deadline.toNat ∧
    slice (intent.fields.flatten ++ rest) 48 32 = intent.sender.val ∧
    slice (intent.fields.flatten ++ rest) 80 8 = toLE 8 intent.nonce.toNat ∧
    slice (intent.fields.flatten ++ rest) 88 1 = [boolByte intent.executed] ∧
    slice (intent.fields.flatten ++ rest) 89 8 = toLE 8 intent.endEpoch.toNat ∧
    slice (intent.fields.flatten ++ rest) 97 1 = [intent.bump] :=
  ⟨slice_field (i := 0) intent.widths rfl rfl rfl, slice_field (i := 1) intent.widths rfl rfl rfl,
    slice_field (i := 2) intent.widths rfl rfl rfl, slice_field (i := 3) intent.widths rfl rfl rfl,
    slice_field (i := 4) intent.widths rfl rfl rfl, slice_field (i := 5) intent.widths rfl rfl rfl,
    slice_field (i := 6) intent.widths rfl rfl rfl, slice_field (i := 7) intent.widths rfl rfl rfl,
    slice_field (i := 8) intent.widths rfl rfl rfl⟩

/-! ## Events -/

def Event.name : Event → String
  | .intentSubmitted .. => "IntentSubmitted"
  | .intentExecuted .. => "IntentExecuted"
  | .escrowRefunded .. => "EscrowRefunded"

def Event.fields : Event → List (List UInt8)
  | .intentSubmitted intentId sender nonce c dstEid guid lzNonce =>
    [intentId.val, sender.val, toLE 8 nonce.toNat, c.blobId.val, toLE 4 c.size.toNat, [c.encodingType],
      toLE 4 c.storageEpochs.toNat, toLE 8 c.deadline.toNat, toLE 4 dstEid.toNat, guid.val, toLE 8 lzNonce.toNat]
  | .intentExecuted intentId returnedBlobId endEpoch srcEid =>
    [intentId.val, returnedBlobId.val, toLE 8 endEpoch.toNat, toLE 4 srcEid.toNat]
  | .escrowRefunded intentId payer amount => [intentId.val, payer.val, toLE 8 amount.toNat]

theorem Event.widths (intentId : IntentId) (sender : Pubkey) (nonce : UInt64) (c : Commitment) (dstEid : UInt32)
    (guid : Bytes 32) (lzNonce : UInt64) :
    (Event.intentSubmitted intentId sender nonce c dstEid guid lzNonce).fields.map List.length =
      [32, 32, 8, 32, 4, 1, 4, 8, 4, 32, 8] := by
  simp only [fields, List.map_cons, List.map_nil, length_toLE, intentId.property, sender.property, c.blobId.property,
    guid.property, List.length_singleton]

theorem Event.slices (intentId : IntentId) (sender : Pubkey) (nonce : UInt64) (c : Commitment) (dstEid : UInt32)
    (guid : Bytes 32) (lzNonce : UInt64) {body rest : List UInt8}
    (hbody : body = (Event.intentSubmitted intentId sender nonce c dstEid guid lzNonce).fields.flatten ++ rest) :
    slice body 0 32 = intentId.val ∧ slice body 32 32 = sender.val ∧ slice body 72 32 = c.blobId.val ∧
    slice body 104 4 = toLE 4 c.size.toNat ∧ slice body 108 1 = [c.encodingType] ∧
    slice body 109 4 = toLE 4 c.storageEpochs.toNat ∧ slice body 113 8 = toLE 8 c.deadline.toNat ∧
    slice body 121 4 = toLE 4 dstEid.toNat := by
  have hwidths := widths intentId sender nonce c dstEid guid lzNonce
  rw [hbody]
  exact ⟨slice_field (i := 0) hwidths rfl rfl rfl, slice_field (i := 1) hwidths rfl rfl rfl,
    slice_field (i := 3) hwidths rfl rfl rfl, slice_field (i := 4) hwidths rfl rfl rfl,
    slice_field (i := 5) hwidths rfl rfl rfl, slice_field (i := 6) hwidths rfl rfl rfl,
    slice_field (i := 7) hwidths rfl rfl rfl, slice_field (i := 8) hwidths rfl rfl rfl⟩

/-- What is logged of an event. -/
def Event.data (e : Event) : List UInt8 := (discriminator "event" e.name).val ++ e.fields.flatten

/-! ## Arguments -/

def SubmitIntentParams.fields (p : SubmitIntentParams) : List (List UInt8) :=
  [p.blobId.val, toLE 4 p.size.toNat, [p.encodingType], toLE 4 p.storageEpochs.toNat, toLE 8 p.deadline.toNat,
    toLE 4 p.dstEid.toNat, toLE 4 p.options.length, p.options, toLE 8 p.nativeFee.toNat, toLE 8 p.escrowAmount.toNat]

def SubmitIntentParams.data (p : SubmitIntentParams) : List UInt8 :=
  (discriminator "global" "submit_intent").val ++ p.fields.flatten

/-- The data of `confirm_execution`. -/
def confirmExecutionData (intentId returnedBlobId : Bytes 32) (endEpoch : UInt64) : List UInt8 :=
  (discriminator "global" "confirm_execution").val ++ [intentId.val, returnedBlobId.val, toLE 8 endEpoch.toNat].flatten

/-- The handler is called with the arguments that are laid out. -/
theorem decodeSubmitIntent_data (p : SubmitIntentParams) (h : p.options.length < 2 ^ 32) :
    decodeSubmitIntent (discriminator "global" "submit_intent") p.data = some p := by
  have hlen : (UInt32.ofNat p.options.length).toNat = p.options.length := UInt32.toNat_ofNat_of_lt' h
  have hescrow : u64 (toLE 8 p.escrowAmount.toNat) = some (UInt64.ofNat p.escrowAmount.toNat, []) := by
    rw [← List.append_nil (toLE 8 p.escrowAmount.toNat), u64_append]
  have hread : readSubmitIntent p.fields.flatten = some (p, []) := by
    simp only [SubmitIntentParams.fields, List.flatten_cons, List.flatten_nil, List.append_nil, List.cons_append,
      List.nil_append]
    rw [readSubmitIntent, bind_some (array_append p.blobId _), bind_some (u32_append _ _), bind_some (u8_cons _ _),
      bind_some (u32_append _ _), bind_some (u64_append _ _), bind_some (u32_append _ _),
      bind_some (vecU8_append p.options _ hlen.le), hlen, List.take_length, List.drop_length, List.nil_append,
      bind_some (u64_append _ _), bind_some hescrow]
    simp only [UInt32.ofNat_toNat, UInt64.ofNat_toNat]
    rfl
  rw [decodeSubmitIntent, SubmitIntentParams.data, array_append]
  simp only [Option.bind_eq_bind, Option.bind_some, guard, if_true, hread]
  rfl

theorem decodeConfirmExecution_data (intentId returnedBlobId : Bytes 32) (endEpoch : UInt64) :
    decodeConfirmExecution (discriminator "global" "confirm_execution")
      (confirmExecutionData intentId returnedBlobId endEpoch) =
        some (.confirmExecution intentId returnedBlobId endEpoch) := by
  have hdecode := decodeConfirmExecution_encoded (discriminator "global" "confirm_execution") intentId returnedBlobId
    endEpoch.toNat
  rw [UInt64.ofNat_toNat] at hdecode
  rwa [confirmExecutionData, List.flatten_cons, List.flatten_cons, List.flatten_singleton]

end Bosphor.Solana

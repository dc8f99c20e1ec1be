import Bosphor.Sdk.SolanaProgram
import Bosphor.Solana.Layout

/-!
# The Solana program's layouts in the SDK

The SDK's `ByteReader`, which walks over the fields of an account and fails where
the buffer ends, and the accounts decoded with it. A decoder looks at the tag
first; what it reads behind it is as long as the account (`Reads`), so that
nothing shorter is decoded. The encoders write the data of an instruction as
Anchor lays it out (`encodeSubmitIntentData_data`,
`encodeConfirmExecutionData_data`).
-/

namespace Bosphor.Sdk

open Ts (JsError toUint32)
open Borsh (ofLE toLE)
open Bytes (slice)
open Relayer (hexlify)

/-! ## Discriminators -/

def accountDiscriminator (pascalName : String) : Bytes 8 := Solana.discriminator "account" pascalName

/-- The library's decoder of hexadecimal text, with the tags of the instructions. -/
def codecsWith (hexToBytes : String → Except JsError (List UInt8)) : Codecs where
  hexToBytes := hexToBytes
  instructionDiscriminator := Solana.discriminator "global"

/-! ## The reader -/

structure ByteReader where
  data : List UInt8
  o : Nat := 0

abbrev Read (α : Type) := StateT ByteReader (Except JsError) α

namespace ByteReader

/-- The next `n` bytes; `subarray` stops at the end of the buffer. -/
def take (n : Nat) : Read (List UInt8) := fun r =>
  let s := slice r.data r.o n
  let o := r.o
  if s.length ≠ n then .error (.error s!"unexpected end of buffer at offset {o}")
  else .ok (s, { r with o := o + n })

def u8 : Read UInt8 := do
  let s ← take 1
  return s.getD 0 0

def u32 : Read Nat := do
  let s ← take 4
  return ofLE s

def u64 : Read Nat := do
  let s ← take 8
  return ofLE s

def bool : Read Bool := do
  let b ← u8
  return b != 0

variable {α β : Type} {r r' : ByteReader}

theorem bind_read {x : Read α} {f : α → Read β} {a : α} (h : x r = .ok (a, r')) : (x >>= f) r = f a r' := by
  show (x r >>= fun p => f p.1 p.2) = _
  rw [h]
  rfl

variable {data field : List UInt8} {o n : Nat}

theorem take_ok (h : slice data o n = field) (hlen : field.length = n) :
    take n ⟨data, o⟩ = .ok (field, ⟨data, o + n⟩) := by
  simp only [take, h, hlen, ne_eq, not_true, if_false]

theorem u8_ok {b : UInt8} (h : slice data o 1 = [b]) : u8 ⟨data, o⟩ = .ok (b, ⟨data, o + 1⟩) := by
  rw [u8, bind_read (take_ok h rfl)]
  rfl

theorem u32_ok {v : UInt32} (h : slice data o 4 = toLE 4 v.toNat) : u32 ⟨data, o⟩ = .ok (v.toNat, ⟨data, o + 4⟩) := by
  rw [u32, bind_read (take_ok h (Borsh.length_toLE ..)), Solana.ofLE_uint32]
  rfl

theorem u64_ok {v : UInt64} (h : slice data o 8 = toLE 8 v.toNat) : u64 ⟨data, o⟩ = .ok (v.toNat, ⟨data, o + 8⟩) := by
  rw [u64, bind_read (take_ok h (Borsh.length_toLE ..)), Solana.ofLE_uint64]
  rfl

theorem bool_ok {b : Bool} (h : slice data o 1 = [Solana.boolByte b]) : bool ⟨data, o⟩ = .ok (b, ⟨data, o + 1⟩) := by
  rw [bool, bind_read (u8_ok h)]
  cases b with
  | false => rfl
  | true => rfl

/-- What the reader returned took `n` bytes of the buffer. -/
def Reads (n : Nat) (x : Read α) : Prop :=
  ∀ r a r', x r = .ok (a, r') → r.o ≤ r.data.length → r'.data = r.data ∧ r'.o = r.o + n ∧ r'.o ≤ r.data.length

theorem reads_take (n : Nat) : Reads n (take n) := by
  intro r a r' h ho
  simp only [take] at h
  split at h
  case isTrue => cases h
  case isFalse hlen =>
    cases h
    have hslice : (slice r.data r.o n).length = n := not_not.mp hlen
    rw [slice, List.length_take, List.length_drop] at hslice
    refine ⟨rfl, rfl, ?_⟩
    show r.o + n ≤ r.data.length
    omega

theorem reads_pure (a : α) : Reads 0 (pure a : Read α) := by
  intro r b r' h ho
  cases h
  exact ⟨rfl, rfl, ho⟩

theorem Reads.bind {m : Nat} {x : Read α} {f : α → Read β} (hx : Reads m x) (hf : ∀ a, Reads n (f a)) :
    Reads (m + n) (x >>= f) := by
  intro r b r'' h ho
  obtain ⟨⟨a, r'⟩, hread, hrest⟩ := Result.bind_ok.mp (show (x r >>= fun p => f p.1 p.2) = .ok (b, r'') from h)
  obtain ⟨hdata, hoffset, hle⟩ := hx r a r' hread ho
  obtain ⟨hdata', hoffset', hle'⟩ := hf a r' b r'' hrest (hdata ▸ hle)
  exact ⟨hdata'.trans hdata, by rw [hoffset', hoffset, Nat.add_assoc], hdata ▸ hle'⟩

theorem reads_u8 : Reads 1 u8 := (reads_take 1).bind fun _ => reads_pure _
theorem reads_u32 : Reads 4 u32 := (reads_take 4).bind fun _ => reads_pure _
theorem reads_u64 : Reads 8 u64 := (reads_take 8).bind fun _ => reads_pure _
theorem reads_bool : Reads 1 bool := reads_u8.bind fun _ => reads_pure _

end ByteReader

open ByteReader

/-! ## Accounts -/

/-- The fields behind a tag, which is looked at first. -/
def decodeAccount {α : Type} (name : String) (fields : Read α) (data : List UInt8) : Except JsError α := do
  if data.take 8 ≠ (accountDiscriminator name).val then
    throw (.error ("account is not an " ++ name ++ " (discriminator mismatch)"))
  let (account, _) ← fields ⟨data.drop 8, 0⟩
  return account

structure EscrowVaultAccount where
  payer : List UInt8
  beneficiary : List UInt8
  amount : Nat
  deadline : Nat
  status : UInt8
  bump : UInt8
  deriving DecidableEq

def readEscrowVault : Read EscrowVaultAccount := do
  let payer ← take 32
  let beneficiary ← take 32
  let amount ← u64
  let deadline ← u64
  let status ← u8
  let bump ← u8
  return { payer, beneficiary, amount, deadline, status, bump }

def decodeEscrowVault : List UInt8 → Except JsError EscrowVaultAccount := decodeAccount "EscrowVault" readEscrowVault

structure IntentStateAccount where
  committedBlobId : String
  size : Nat
  storageEpochs : Nat
  deadline : Nat
  sender : List UInt8
  nonce : Nat
  executed : Bool
  endEpoch : Nat
  bump : UInt8
  deriving DecidableEq

def readIntentState : Read IntentStateAccount := do
  let committedBlobId ← take 32
  let size ← u32
  let storageEpochs ← u32
  let deadline ← u64
  let sender ← take 32
  let nonce ← u64
  let executed ← bool
  let endEpoch ← u64
  let bump ← u8
  return { committedBlobId := hexlify committedBlobId, size, storageEpochs, deadline, sender, nonce, executed, endEpoch, bump }

def decodeIntentState : List UInt8 → Except JsError IntentStateAccount := decodeAccount "IntentState" readIntentState

section

variable {α : Type} {name : String} {fields : Read α} {data : List UInt8} {n : Nat}

theorem decodeAccount_ok {body : List UInt8} {account : α} {r : ByteReader} (h : fields ⟨body, 0⟩ = .ok (account, r)) :
    decodeAccount name fields ((accountDiscriminator name).val ++ body) = .ok account := by
  have htag := (accountDiscriminator name).property
  have htake : ((accountDiscriminator name).val ++ body).take 8 = (accountDiscriminator name).val :=
    List.take_left' htag
  have hdrop : ((accountDiscriminator name).val ++ body).drop 8 = body := List.drop_left' htag
  simp only [decodeAccount, htake, hdrop, h, ne_eq, not_true, if_false]
  rfl

/-- A buffer that is decoded has the tag, and holds the fields. -/
theorem of_decodeAccount {account : α} (hfields : Reads n fields) (h : decodeAccount name fields data = .ok account) :
    8 + n ≤ data.length ∧ data.take 8 = (accountDiscriminator name).val := by
  by_cases htag : data.take 8 = (accountDiscriminator name).val
  · simp only [decodeAccount, htag, ne_eq, not_true, if_false] at h
    obtain ⟨⟨a, r⟩, hread, -⟩ := Result.bind_ok.mp h
    obtain ⟨-, hoffset, hle⟩ := hfields _ a r hread (Nat.zero_le _)
    have hlength := congrArg List.length htag
    rw [List.length_take, (accountDiscriminator name).property] at hlength
    rw [hoffset] at hle
    have hbody : 0 + n ≤ (data.drop 8).length := hle
    rw [List.length_drop] at hbody
    exact ⟨by omega, htag⟩
  · simp only [decodeAccount, ne_eq, htag, not_false_eq_true, if_true] at h
    cases h

theorem decodeAccount_rejects (hfields : Reads n fields)
    (h : data.length < 8 + n ∨ data.take 8 ≠ (accountDiscriminator name).val) :
    ∃ e, decodeAccount name fields data = .error e := by
  cases hdecode : decodeAccount name fields data with
  | error e => exact ⟨e, rfl⟩
  | ok account =>
    obtain ⟨hlength, htag⟩ := of_decodeAccount hfields hdecode
    exact absurd h (by rw [not_or]; exact ⟨by omega, not_not.mpr htag⟩)

end

theorem reads_escrowVault : Reads 82 readEscrowVault :=
  (reads_take 32).bind fun _ => (reads_take 32).bind fun _ => reads_u64.bind fun _ => reads_u64.bind fun _ =>
    reads_u8.bind fun _ => reads_u8.bind fun _ => reads_pure _

theorem reads_intentState : Reads 98 readIntentState :=
  (reads_take 32).bind fun _ => reads_u32.bind fun _ => reads_u32.bind fun _ => reads_u64.bind fun _ =>
    (reads_take 32).bind fun _ => reads_u64.bind fun _ => reads_bool.bind fun _ => reads_u64.bind fun _ =>
      reads_u8.bind fun _ => reads_pure _

/-- The vault as the SDK shows it. -/
def EscrowVaultAccount.of (vault : Solana.EscrowVault) : EscrowVaultAccount :=
  ⟨vault.payer.val, vault.beneficiary.val, vault.amount.toNat, vault.deadline.toNat, vault.status, vault.bump⟩

def IntentStateAccount.of (intent : Solana.IntentState) : IntentStateAccount where
  committedBlobId := hexlify intent.committedBlobId.val
  size := intent.size.toNat
  storageEpochs := intent.storageEpochs.toNat
  deadline := intent.deadline.toNat
  sender := intent.sender.val
  nonce := intent.nonce.toNat
  executed := intent.executed
  endEpoch := intent.endEpoch.toNat
  bump := intent.bump

/-- The fields are read one behind the other. -/
theorem readEscrowVault_fields (vault : Solana.EscrowVault) (rest : List UInt8) :
    ∃ r, readEscrowVault ⟨vault.fields.flatten ++ rest, 0⟩ = .ok (.of vault, r) := by
  obtain ⟨hpayer, hbeneficiary, hamount, hdeadline, hstatus, hbump⟩ := vault.slices rest
  refine ⟨⟨vault.fields.flatten ++ rest, 82⟩, ?_⟩
  rw [readEscrowVault, bind_read (take_ok hpayer vault.payer.property),
    bind_read (take_ok hbeneficiary vault.beneficiary.property), bind_read (u64_ok hamount),
    bind_read (u64_ok hdeadline), bind_read (u8_ok hstatus), bind_read (u8_ok hbump)]
  rfl

theorem readIntentState_fields (intent : Solana.IntentState) (rest : List UInt8) :
    ∃ r, readIntentState ⟨intent.fields.flatten ++ rest, 0⟩ = .ok (.of intent, r) := by
  obtain ⟨hblob, hsize, hepochs, hdeadline, hsender, hnonce, hexecuted, hend, hbump⟩ := intent.slices rest
  refine ⟨⟨intent.fields.flatten ++ rest, 98⟩, ?_⟩
  rw [readIntentState, bind_read (take_ok hblob intent.committedBlobId.property), bind_read (u32_ok hsize),
    bind_read (u32_ok hepochs), bind_read (u64_ok hdeadline), bind_read (take_ok hsender intent.sender.property),
    bind_read (u64_ok hnonce), bind_read (bool_ok hexecuted), bind_read (u64_ok hend), bind_read (u8_ok hbump)]
  rfl

/-- A vault is decoded to its fields. -/
theorem decodeEscrowVault_data (vault : Solana.EscrowVault) (rest : List UInt8) :
    decodeEscrowVault (vault.data (accountDiscriminator "EscrowVault") ++ rest) = .ok (.of vault) := by
  obtain ⟨r, hread⟩ := readEscrowVault_fields vault rest
  rw [Solana.EscrowVault.data, List.append_assoc]
  exact decodeAccount_ok hread

theorem decodeIntentState_data (intent : Solana.IntentState) (rest : List UInt8) :
    decodeIntentState (intent.data (accountDiscriminator "IntentState") ++ rest) = .ok (.of intent) := by
  obtain ⟨r, hread⟩ := readIntentState_fields intent rest
  rw [Solana.IntentState.data_eq, List.append_assoc]
  exact decodeAccount_ok hread

/-! ## Instructions -/

section

variable (codecs : Codecs)

/-- `encodeConfirmExecutionData(intentId, returnedBlobId, endEpoch)`. -/
def encodeConfirmExecutionData (intentId returnedBlobId : String) (endEpoch : Int) : Except JsError (List UInt8) := do
  let id ← codecs.hexToBytes (strip0x intentId)
  let blob ← codecs.hexToBytes (strip0x returnedBlobId)
  let idLen := id.length
  if idLen ≠ 32 then throw (.error s!"intentId must be 32 bytes, got {idLen}")
  let blobLen := blob.length
  if blobLen ≠ 32 then throw (.error s!"returnedBlobId must be 32 bytes, got {blobLen}")
  let writer : ByteWriter := {}
  ((((writer.bytes (codecs.instructionDiscriminator "confirm_execution").val).bytes id).bytes blob).u64 endEpoch).finish

end

/-- The parameters as the SDK takes them, with the text of the blob id. -/
def SubmitIntentArgs.of (p : Solana.SubmitIntentParams) (blobId : String) : SubmitIntentArgs where
  blobId := blobId
  size := .finite (p.size.toNat : Nat)
  encodingType := .finite (p.encodingType.toNat : Nat)
  storageEpochs := .finite (p.storageEpochs.toNat : Nat)
  deadline := p.deadline.toNat
  dstEid := .finite (p.dstEid.toNat : Nat)
  options := p.options
  nativeFee := p.nativeFee.toNat
  escrowAmount := p.escrowAmount.toNat

variable {hexToBytes : String → Except JsError (List UInt8)}

theorem encodeSubmitIntentData_data (p : Solana.SubmitIntentParams) {blobId : String}
    (hblob : hexToBytes (strip0x blobId) = .ok p.blobId.val) :
    encodeSubmitIntentData (codecsWith hexToBytes) (.of p blobId) = .ok p.data := by
  have hlength : toLE 4 (toUint32 (.finite p.options.length)).toNat = toLE 4 p.options.length := by
    rw [← Borsh.toLE_mod 4 p.options.length, Ts.toUint32_toBigInt (Ts.toBigInt_natCast p.options.length)]
    rfl
  simp only [encodeSubmitIntentData, codecsWith, SubmitIntentArgs.of, hblob, Result.ok_bind, p.blobId.property, ne_eq,
    not_true, if_false, ByteWriter.finish_ok, ByteWriter.bytes, ByteWriter.u8, ByteWriter.u32, ByteWriter.u64,
    ByteWriter.vecU8, hlength, Ts.toUint8_natCast, Ts.toUint32_natCast, Ts.toUint64_natCast, List.nil_append,
    List.cons_append, Solana.SubmitIntentParams.data, Solana.SubmitIntentParams.fields, List.flatten_cons]

theorem encodeConfirmExecutionData_data {intentId returnedBlobId : String} {id blob : Bytes 32} (endEpoch : UInt64)
    (hid : hexToBytes (strip0x intentId) = .ok id.val) (hblob : hexToBytes (strip0x returnedBlobId) = .ok blob.val) :
    encodeConfirmExecutionData (codecsWith hexToBytes) intentId returnedBlobId endEpoch.toNat =
      .ok (Solana.confirmExecutionData id blob endEpoch) := by
  simp only [encodeConfirmExecutionData, codecsWith, hid, hblob, Result.ok_bind, id.property, blob.property, ne_eq,
    not_true, if_false, ByteWriter.finish_ok, ByteWriter.bytes, ByteWriter.u64, Ts.toUint64_natCast, List.nil_append,
    List.cons_append, Solana.confirmExecutionData, List.flatten_cons]

end Bosphor.Sdk

import Bosphor.Relayer.SolanaIntentCodec
import Bosphor.Scripts.SolanaReturn
import Bosphor.Solana.DeliveryPlan
import Bosphor.Solana.Layout

/-!
# The return packet

A proof comes back to Solana as a LayerZero packet, whose bytes are in an event
on Sui. The worker reads it off the event (`packetFromEvent`), keeps those of
its own pathway (`isOurReturn`) and builds the `lz_receive` instruction from it
and from the accounts that the program plans (`lzReceiveIx`). In between the
packet is hexadecimal text.

`packetFromEvent_iff`: the worker reads exactly the packets of the layout
(`PacketV1.encode`), whichever way the event shows their bytes.
`return_relayed`: what it then gives the program is that packet, with the
planned accounts and itself as the executor.
-/

namespace Bosphor.Scripts.ReturnPacket

open Borsh
open Bytes (toBE ofBE slice)
open Relayer (bytesOfHex bufferFromBase64url base64 hexlify padStart digitsOfBytes base64Char)
open Solana (AccountMeta Key LzReceiveParams boolByte slice_field)

/-! ## Packets -/

/-- `LzPacket`; byte strings are hexadecimal text. -/
structure LzPacket where
  version : UInt8
  nonce : Nat
  srcEid : Nat
  sender : String
  dstEid : Nat
  receiver : String
  guid : String
  message : String
  header : String
  payloadHash : String
  deriving DecidableEq

/-- The bytes of hexadecimal text, behind `0x` or without it. -/
def hexToBytes (hex : String) : List UInt8 :=
  match hex.toList with
  | '0' :: 'x' :: digits => bytesOfHex digits
  | digits => bytesOfHex digits

inductive EncodedPayload where
  | text (hex : String)
  | bytes (bytes : List UInt8)

def toBuf : EncodedPayload → List UInt8
  | .text hex => hexToBytes hex
  | .bytes bytes => bytes

/-- The packet in the bytes of its buffer. -/
def readPacket (b : List UInt8) : Except String LzPacket :=
  if b.length < 113 then .error s!"packet too short: {b.length} bytes"
  else if b.headD 0 ≠ 1 then .error s!"unsupported packet version {b.headD 0}"
  else
    .ok {
      version := b.headD 0
      nonce := ofBE (slice b 1 8)
      srcEid := ofBE (slice b 9 4)
      sender := hexlify (slice b 13 32)
      dstEid := ofBE (slice b 45 4)
      receiver := hexlify (slice b 49 32)
      guid := hexlify (slice b 81 32)
      message := hexlify (b.drop 113)
      header := hexlify (slice b 0 81)
      payloadHash := hexlify (slice b 81 32 ++ b.drop 113) }

def decodePacket (encodedPayload : EncodedPayload) : Except String LzPacket := readPacket (toBuf encodedPayload)

/-- What an event shows as `encoded_packet`. -/
inductive EventField where
  | numbers (v : List Nat)
  | text (v : String)
  | absent

def bytesFieldToHex : EventField → Option String
  | .numbers v => some (hexlify (v.map UInt8.ofNat))
  | .text v =>
    match v.toList with
    | [] => none
    | '0' :: 'x' :: _ => some v
    | _ => some (hexlify (bufferFromBase64url v))
  | .absent => none

def packetFromEvent (encodedPacket : EventField) : Option LzPacket := do
  let hex ← bytesFieldToHex encodedPacket
  (decodePacket (.text hex)).toOption

/-- The packet's bytes, put together again. -/
def packetBytes (pkt : LzPacket) : List UInt8 :=
  hexToBytes pkt.header ++ (hexToBytes pkt.guid ++ hexToBytes pkt.message)

/-! ## The pathway -/

/-- 64 digits in lower case, padded from the left. -/
def toBytes32Hex (hex : String) : Except String String :=
  let digits := match hex.toList with
    | '0' :: 'x' :: digits => digits
    | digits => digits
  if digits.length > 64 then .error s!"value exceeds 32 bytes: {hex}"
  else .ok (String.ofList (padStart 64 (digits.map Char.toLower)))

structure Config where
  SUI_EID : Nat
  SOLANA_EID : Nat
  SUI_OAPP_SENDER_B32 : String
  SOLANA_STORE_B32 : String

def isOurReturn (cfg : Config) (pkt : LzPacket) : Except String Bool := do
  if pkt.srcEid ≠ cfg.SUI_EID ∨ pkt.dstEid ≠ cfg.SOLANA_EID then return false
  else
    let sender ← toBytes32Hex pkt.sender
    if sender ≠ cfg.SUI_OAPP_SENDER_B32 then return false
    else
      let receiver ← toBytes32Hex pkt.receiver
      return receiver == cfg.SOLANA_STORE_B32

/-! ## The instruction -/

/-- Four bytes, of a number that fits. -/
def writeUInt32LE (v : Nat) : Except String (List UInt8) :=
  if v < 2 ^ 32 then .ok (toLE 4 v) else .error "ERR_OUT_OF_RANGE"

def writeBigUInt64LE (v : Nat) : Except String (List UInt8) :=
  if v < 2 ^ 64 then .ok (toLE 8 v) else .error "ERR_OUT_OF_RANGE"

structure ReceiveFields where
  srcEid : Nat
  sender : List UInt8
  nonce : Nat
  guid : List UInt8
  message : List UInt8
  extraData : List UInt8

def serializeLzReceiveParams (p : ReceiveFields) : Except String (List UInt8) := do
  if p.sender.length ≠ 32 then throw "sender must be 32 bytes"
  else if p.guid.length ≠ 32 then throw "guid must be 32 bytes"
  else
    let srcEid ← writeUInt32LE p.srcEid
    let nonce ← writeBigUInt64LE p.nonce
    let msgLen ← writeUInt32LE p.message.length
    let extraLen ← writeUInt32LE p.extraData.length
    return srcEid ++ (p.sender ++ (nonce ++ (p.guid ++ (msgLen ++ (p.message ++ (extraLen ++ p.extraData))))))

/-- The params that `deliver` gives `lz_receive` and `lz_receive_types`. -/
def receiveParams (cfg : Config) (pkt : LzPacket) : Except String (List UInt8) :=
  serializeLzReceiveParams {
    srcEid := cfg.SUI_EID
    sender := hexToBytes pkt.sender
    nonce := pkt.nonce
    guid := hexToBytes pkt.guid
    message := hexToBytes pkt.message
    extraData := [] }

structure LzAccountMeta where
  pubkey : List UInt8
  isSigner : Bool
  isWritable : Bool
  deriving DecidableEq

/-- The public key of at most 32 bytes. -/
def publicKey (bytes : List UInt8) : List UInt8 := List.replicate (32 - bytes.length) 0 ++ bytes

/-- The account at `off` of the return data. -/
def lzAccountAt (buf : List UInt8) (off : Nat) : LzAccountMeta where
  pubkey := publicKey (slice buf off 32)
  isSigner := buf[off + 32]? == some 1
  isWritable := buf[off + 33]? == some 1

def decodeLzAccounts (returnDataB64 : String) : Except String (List LzAccountMeta) :=
  let buf := bufferFromBase64url returnDataB64
  if buf.length < 4 then .error "ERR_OUT_OF_RANGE"
  else .ok ((List.range (ofLE (slice buf 0 4))).map fun i => lzAccountAt buf (4 + 34 * i))

/-- The worker in the slot of the payer. -/
def substituteWorker (worker : List UInt8) : List LzAccountMeta → List LzAccountMeta
  | [] => []
  | _ :: metas => ⟨worker, true, true⟩ :: metas

def DISC_LZ_RECEIVE : List UInt8 := [0x08, 0xb3, 0x78, 0x6d, 0x21, 0x76, 0xbd, 0x50]

structure TransactionInstruction where
  keys : List LzAccountMeta
  data : List UInt8

/-- The instruction of `deliver`, with the accounts of `resolveLzReceiveAccounts`. -/
def lzReceiveIx (cfg : Config) (worker : List UInt8) (returnDataB64 : String) (pkt : LzPacket) :
    Except String TransactionInstruction := do
  let params ← receiveParams cfg pkt
  let metas ← decodeLzAccounts returnDataB64
  return ⟨substituteWorker worker metas, DISC_LZ_RECEIVE ++ params⟩

/-! ## The program's side -/

def readLzReceiveParams : Reader LzReceiveParams := do
  let srcEid ← u32
  let sender ← array 32
  let nonce ← u64
  let guid ← array 32
  let message ← vecU8
  let _extraData ← vecU8
  return ⟨srcEid, sender, nonce, guid, message⟩

/-- The params, when the data names the instruction. -/
def decodeLzReceive (discriminator : Bytes 8) (data : List UInt8) : Option LzReceiveParams := do
  let (name, rest) ← array 8 data
  guard (name = discriminator)
  let (params, _) ← readLzReceiveParams rest
  return params

/-- An `LzAccount` in Borsh; `address` says where an account is. -/
def lzAccountData (address : Key → Bytes 32) (a : AccountMeta) : List UInt8 :=
  (address a.pubkey).val ++ [boolByte a.isSigner, boolByte a.isWritable]

/-- The return data of `lz_receive_types`. -/
def lzAccountsData (address : Key → Bytes 32) (accounts : List AccountMeta) : List UInt8 :=
  toLE 4 accounts.length ++ accounts.flatMap (lzAccountData address)

/-! ## The layout -/

/-- A packet of version 1. -/
structure PacketV1 where
  nonce : UInt64
  srcEid : UInt32
  sender : Bytes 32
  dstEid : UInt32
  receiver : Bytes 32
  guid : Bytes 32
  message : List UInt8

namespace PacketV1

variable (p : PacketV1)

def fields : List (List UInt8) :=
  [[1], toBE 8 p.nonce.toNat, toBE 4 p.srcEid.toNat, p.sender.val, toBE 4 p.dstEid.toNat, p.receiver.val, p.guid.val]

def encode : List UInt8 := p.fields.flatten ++ p.message

/-- What the worker makes of it. -/
def shown : LzPacket where
  version := 1
  nonce := p.nonce.toNat
  srcEid := p.srcEid.toNat
  sender := hexlify p.sender.val
  dstEid := p.dstEid.toNat
  receiver := hexlify p.receiver.val
  guid := hexlify p.guid.val
  message := hexlify p.message
  header := hexlify ((p.fields.take 6).flatten)
  payloadHash := hexlify (p.guid.val ++ p.message)

/-- What the endpoint hands to the receiver. -/
def params : LzReceiveParams := ⟨p.srcEid, p.sender, p.nonce, p.guid, p.message⟩

theorem widths : p.fields.map List.length = [1, 8, 4, 32, 4, 32, 32] := by
  simp only [fields, List.map_cons, List.map_nil, Bytes.length_toBE, p.sender.property, p.receiver.property,
    p.guid.property, List.length_singleton]

theorem length_flatten : p.fields.flatten.length = 113 := by
  rw [List.length_flatten, p.widths]
  rfl

theorem encode_cons : ∃ rest, p.encode = 1 :: rest :=
  ⟨_, by simp only [encode, fields, List.flatten_cons, List.cons_append, List.nil_append]; rfl⟩

end PacketV1

/-! ## Text and bytes -/

theorem toList_hexlify (bytes : List UInt8) : (hexlify bytes).toList =
    '0' :: 'x' :: bytes.flatMap fun b => padStart 2 (Nat.toDigits 16 b.toNat) := by
  simp only [hexlify, String.toList_append, String.toList_ofList]
  rfl

@[simp] theorem hexToBytes_hexlify (bytes : List UInt8) : hexToBytes (hexlify bytes) = bytes := by
  rw [hexToBytes, toList_hexlify]
  exact Relayer.bytesOfHex_digits bytes

/-- The ways in which an event shows bytes. -/
inductive Renders : EventField → List UInt8 → Prop
  | numbers (bytes : List UInt8) : Renders (.numbers (bytes.map UInt8.toNat)) bytes
  | hex (bytes : List UInt8) : Renders (.text (hexlify bytes)) bytes
  | base64 (bytes : List UInt8) : Renders (.text (String.ofList (base64 bytes))) bytes

/-- The base64 of a packet does not look like hexadecimal text. -/
theorem base64_one (rest : List UInt8) : ∃ text, base64 (1 :: rest) = 'A' :: text := by
  have hfirst : base64Char ((1 : UInt8).toNat / 4) = 'A' := rfl
  match rest with
  | [] => exact ⟨_, rfl⟩
  | [b] => exact ⟨_, by rw [base64, digitsOfBytes, List.map_cons, hfirst, List.cons_append]⟩
  | b :: c :: rest => exact ⟨_, by rw [base64, digitsOfBytes, List.map_cons, hfirst, List.cons_append]⟩

theorem bytesFieldToHex_renders {field : EventField} {rest : List UInt8} (h : Renders field (1 :: rest)) :
    bytesFieldToHex field = some (hexlify (1 :: rest)) := by
  generalize hbytes : 1 :: rest = bytes at h
  cases h with
  | numbers =>
    have hmap : (bytes.map UInt8.toNat).map UInt8.ofNat = bytes := by
      rw [List.map_map]
      exact (List.map_congr_left fun b _ => UInt8.ofNat_toNat).trans (List.map_id bytes)
    rw [bytesFieldToHex, hmap]
  | hex => simp only [bytesFieldToHex, toList_hexlify]
  | base64 =>
    subst hbytes
    obtain ⟨text, htext⟩ := base64_one rest
    have hread := Relayer.bufferFromBase64url_base64 (1 :: rest)
    rw [htext] at hread
    simp only [bytesFieldToHex, String.toList_ofList, htext, hread]
    rfl

/-! ## Decoding -/

/-- The worker reads what the layout writes. -/
theorem readPacket_encode (p : PacketV1) : readPacket p.encode = .ok p.shown := by
  have hlength : ¬p.encode.length < 113 := by
    rw [PacketV1.encode, List.length_append, p.length_flatten]
    omega
  obtain ⟨rest, hrest⟩ := p.encode_cons
  have hversion : p.encode.headD 0 = 1 := by rw [hrest]; rfl
  have hnonce : slice p.encode 1 8 = toBE 8 p.nonce.toNat := slice_field (i := 1) p.widths rfl rfl rfl
  have hsrc : slice p.encode 9 4 = toBE 4 p.srcEid.toNat := slice_field (i := 2) p.widths rfl rfl rfl
  have hsender : slice p.encode 13 32 = p.sender.val := slice_field (i := 3) p.widths rfl rfl rfl
  have hdst : slice p.encode 45 4 = toBE 4 p.dstEid.toNat := slice_field (i := 4) p.widths rfl rfl rfl
  have hreceiver : slice p.encode 49 32 = p.receiver.val := slice_field (i := 5) p.widths rfl rfl rfl
  have hguid : slice p.encode 81 32 = p.guid.val := slice_field (i := 6) p.widths rfl rfl rfl
  have hmessage : p.encode.drop 113 = p.message := List.drop_left' p.length_flatten
  have hheader : slice p.encode 0 81 = (p.fields.take 6).flatten := by
    have hfront : p.encode = (p.fields.take 6).flatten ++ (p.guid.val ++ p.message) := by
      simp only [PacketV1.encode, PacketV1.fields, List.take_succ_cons, List.take_zero, List.flatten_cons,
        List.flatten_nil, List.append_assoc, List.append_nil]
    rw [slice, List.drop_zero, hfront]
    refine List.take_left' ?_
    rw [List.length_flatten, List.map_take, p.widths]
    rfl
  unfold readPacket
  simp only [hversion, hnonce, hsrc, hsender, hdst, hreceiver, hguid, hmessage, hheader]
  rw [if_neg hlength, if_neg (not_not.mpr rfl), Bytes.ofBE_toBE p.nonce.toNat_lt, Bytes.ofBE_toBE p.srcEid.toNat_lt,
    Bytes.ofBE_toBE p.dstEid.toNat_lt]
  rfl

/-- It reads nothing else. -/
theorem readPacket_ok {b : List UInt8} {pkt : LzPacket} (h : readPacket b = .ok pkt) :
    ∃ p : PacketV1, b = p.encode ∧ pkt = p.shown := by
  have hfirst : ¬b.length < 113 ∧ b.headD 0 = 1 := by
    unfold readPacket at h
    by_cases hlength : b.length < 113
    · rw [if_pos hlength] at h
      cases h
    · by_cases hversion : b.headD 0 ≠ 1
      · rw [if_neg hlength, if_pos hversion] at h
        cases h
      · exact ⟨hlength, not_not.mp hversion⟩
  obtain ⟨hlength, hversion⟩ := hfirst
  have hle : 113 ≤ b.length := Nat.le_of_not_lt hlength
  have hlengths : ∀ start len, start + len ≤ 113 → (slice b start len).length = len := fun start len hfits =>
    Bytes.length_slice (hfits.trans hle)
  obtain ⟨p, hp⟩ : ∃ p : PacketV1, p = ⟨UInt64.ofNat (ofBE (slice b 1 8)), UInt32.ofNat (ofBE (slice b 9 4)),
    ⟨slice b 13 32, hlengths 13 32 (by omega)⟩, UInt32.ofNat (ofBE (slice b 45 4)),
    ⟨slice b 49 32, hlengths 49 32 (by omega)⟩, ⟨slice b 81 32, hlengths 81 32 (by omega)⟩, b.drop 113⟩ := ⟨_, rfl⟩
  have hfields : p.fields = [slice b 0 1, slice b 1 8, slice b 9 4, slice b 13 32, slice b 45 4, slice b 49 32,
      slice b 81 32] := by
    have hone : slice b 0 1 = [1] := by
      match b, hversion with
      | [], hnone => cases hnone
      | c :: rest, hsome =>
        obtain rfl : c = 1 := hsome
        rfl
    rw [hp, PacketV1.fields, hone, Bytes.toNat_uint64_ofBE (hlengths 1 8 (by omega)),
      Bytes.toNat_uint32_ofBE (hlengths 9 4 (by omega)), Bytes.toNat_uint32_ofBE (hlengths 45 4 (by omega)),
      Bytes.toBE_ofBE_of_length (hlengths 1 8 (by omega)), Bytes.toBE_ofBE_of_length (hlengths 9 4 (by omega)),
      Bytes.toBE_ofBE_of_length (hlengths 45 4 (by omega))]
  have hencode : b = p.encode := by
    have hfront : p.fields.flatten = slice b 0 113 := by
      rw [hfields]
      simp only [List.flatten_cons, List.flatten_nil, List.append_nil]
      have hjoin := Bytes.slice_append_slice b
      rw [hjoin 49 32 32, hjoin 45 4 64, hjoin 13 32 68, hjoin 9 4 100, hjoin 1 8 104, hjoin 0 1 112]
    rw [PacketV1.encode, hfront, hp]
    exact (List.take_append_drop 113 b).symm
  refine ⟨p, hencode, ?_⟩
  rw [hencode, readPacket_encode] at h
  exact (Except.ok.inj h).symm

/-- The bytes that an event shows, as the worker takes them. -/
def fieldBytes : EventField → Option (List UInt8)
  | .numbers v => some (v.map UInt8.ofNat)
  | .text v =>
    match v.toList with
    | [] => none
    | '0' :: 'x' :: digits => some (bytesOfHex digits)
    | _ => some (bufferFromBase64url v)
  | .absent => none

theorem bytesFieldToHex_bytes (field : EventField) : (bytesFieldToHex field).map hexToBytes = fieldBytes field := by
  unfold bytesFieldToHex fieldBytes
  cases field with
  | numbers v => simp
  | absent => rfl
  | text v =>
    simp only
    split
    · rfl
    · rename_i digits hdigits
      simp [hexToBytes, hdigits]
    · simp

/-- The packets that the worker reads off an event are those whose bytes it shows. -/
theorem packetFromEvent_iff {field : EventField} {pkt : LzPacket} :
    packetFromEvent field = some pkt ↔ ∃ p : PacketV1, fieldBytes field = some p.encode ∧ pkt = p.shown := by
  rw [← bytesFieldToHex_bytes, packetFromEvent]
  cases bytesFieldToHex field with
  | none => simp
  | some hex =>
    show (readPacket (hexToBytes hex)).toOption = some pkt ↔ _
    simp only [Option.map_some, Option.some.injEq]
    constructor
    · intro h
      cases hread : readPacket (hexToBytes hex) with
      | error e =>
        rw [hread] at h
        cases h
      | ok pkt' =>
        rw [hread] at h
        cases h
        exact readPacket_ok hread
    · rintro ⟨p, hp, rfl⟩
      rw [hp, readPacket_encode]
      rfl

theorem packetBytes_shown (p : PacketV1) : packetBytes p.shown = p.encode := by
  simp only [packetBytes, PacketV1.shown, hexToBytes_hexlify, PacketV1.encode, PacketV1.fields, List.take_succ_cons,
    List.take_zero, List.flatten_cons, List.flatten_nil, List.append_assoc, List.append_nil]

/-! ## Our returns -/

/-- The hexadecimal digits of bytes. -/
def hexDigits (bytes : List UInt8) : List Char := bytes.flatMap fun b => padStart 2 (Nat.toDigits 16 b.toNat)

theorem hexDigits_lower (bytes : List UInt8) : (hexDigits bytes).map Char.toLower = hexDigits bytes := by
  have hbyte : ∀ n < 256, (padStart 2 (Nat.toDigits 16 n)).map Char.toLower = padStart 2 (Nat.toDigits 16 n) := by
    decide +kernel
  rw [hexDigits, List.map_flatMap]
  exact List.flatMap_congr fun b _ => hbyte b.toNat b.toNat_lt

theorem length_hexDigits (bytes : List UInt8) : (hexDigits bytes).length = 2 * bytes.length := by
  have hbyte : ∀ n < 256, (padStart 2 (Nat.toDigits 16 n)).length = 2 := by decide +kernel
  induction bytes with
  | nil => rfl
  | cons b rest ih =>
    have hcons : hexDigits (b :: rest) = padStart 2 (Nat.toDigits 16 b.toNat) ++ hexDigits rest := List.flatMap_cons
    rw [hcons, List.length_append, ih, hbyte b.toNat b.toNat_lt, List.length_cons]
    omega

/-- 32 bytes are their digits. -/
theorem toBytes32Hex_hexlify (b : Bytes 32) : toBytes32Hex (hexlify b.val) = .ok (String.ofList (hexDigits b.val)) := by
  have hlength : (hexDigits b.val).length = 64 := by rw [length_hexDigits, b.property]
  have hpad : padStart 64 ((hexDigits b.val).map Char.toLower) = hexDigits b.val := by
    rw [hexDigits_lower, padStart, hlength]
    rfl
  unfold toBytes32Hex
  simp only [toList_hexlify]
  show (if (hexDigits b.val).length > 64 then _ else Except.ok (String.ofList (padStart 64 ((hexDigits b.val).map
    Char.toLower)))) = _
  rw [hpad, if_neg (by omega)]

theorem hexDigits_inj {b b' : Bytes 32} (h : String.ofList (hexDigits b.val) = String.ofList (hexDigits b'.val)) :
    b = b' := by
  refine Subtype.ext ?_
  rw [← Relayer.bytesOfHex_digits b.val, ← Relayer.bytesOfHex_digits b'.val]
  exact congrArg bytesOfHex (String.ofList_injective h)

/-- The pathway of a worker: from the package on Sui to the store on Solana. -/
structure Pathway (cfg : Config) (oapp store : Bytes 32) : Prop where
  sender : cfg.SUI_OAPP_SENDER_B32 = String.ofList (hexDigits oapp.val)
  receiver : cfg.SOLANA_STORE_B32 = String.ofList (hexDigits store.val)

/-- The packet goes from the one end of the pathway to the other. -/
def Ours (cfg : Config) (oapp store : Bytes 32) (p : PacketV1) : Prop :=
  p.srcEid.toNat = cfg.SUI_EID ∧ p.dstEid.toNat = cfg.SOLANA_EID ∧ p.sender = oapp ∧ p.receiver = store

theorem isOurReturn_shown {cfg : Config} {oapp store : Bytes 32} (h : Pathway cfg oapp store) (p : PacketV1) :
    ∃ ours, isOurReturn cfg p.shown = .ok ours ∧ (ours = true ↔ Ours cfg oapp store p) := by
  unfold isOurReturn
  simp only [PacketV1.shown, toBytes32Hex_hexlify, h.sender, h.receiver]
  by_cases heids : p.srcEid.toNat ≠ cfg.SUI_EID ∨ p.dstEid.toNat ≠ cfg.SOLANA_EID
  · refine ⟨false, if_pos heids, iff_of_false Bool.false_ne_true fun hours => ?_⟩
    exact heids.elim (fun hne => hne hours.1) fun hne => hne hours.2.1
  · rw [if_neg heids]
    rw [not_or, not_not, not_not] at heids
    by_cases hsender : p.sender = oapp
    · refine ⟨_, if_neg (not_not.mpr (by rw [hsender])), ?_⟩
      rw [beq_iff_eq]
      refine ⟨fun heq => ⟨heids.1, heids.2, hsender, hexDigits_inj heq⟩, fun hours => ?_⟩
      rw [hours.2.2.2]
    · refine ⟨false, if_pos fun heq => hsender (hexDigits_inj heq), ?_⟩
      exact iff_of_false Bool.false_ne_true fun hours => hsender hours.2.2.1

/-- A packet as the worker's loop keeps it, its texts read as bytes. -/
def LzPacket.looped (pkt : LzPacket) : SolanaReturn.LzPacket where
  nonce := pkt.nonce
  srcEid := pkt.srcEid
  sender := hexToBytes pkt.sender
  dstEid := pkt.dstEid
  receiver := hexToBytes pkt.receiver
  guid := hexToBytes pkt.guid

/-- The settings of the loop for a pathway. -/
def Config.looped (cfg : Config) (run : Bool) (minNonce : Nat) : SolanaReturn.Config where
  run := run
  suiEid := cfg.SUI_EID
  solanaEid := cfg.SOLANA_EID
  suiOappSender := bytesOfHex cfg.SUI_OAPP_SENDER_B32.toList
  solanaStore := bytesOfHex cfg.SOLANA_STORE_B32.toList
  minNonce := minNonce

/-- The loop keeps the same packets. -/
theorem isOurReturn_looped {cfg : Config} {oapp store : Bytes 32} (h : Pathway cfg oapp store) (run : Bool)
    (minNonce : Nat) (p : PacketV1) :
    isOurReturn cfg p.shown = .ok (SolanaReturn.isOurReturn (cfg.looped run minNonce) p.shown.looped) := by
  obtain ⟨ours, hours, hiff⟩ := isOurReturn_shown h p
  have hsame : SolanaReturn.isOurReturn (cfg.looped run minNonce) p.shown.looped = true ↔ Ours cfg oapp store p := by
    simp only [SolanaReturn.isOurReturn, Config.looped, LzPacket.looped, PacketV1.shown, h.sender, h.receiver,
      String.toList_ofList, hexToBytes_hexlify, hexDigits, Relayer.bytesOfHex_digits, Bool.and_eq_true, beq_iff_eq,
      Subtype.val_inj, and_assoc, Ours]
  rw [hours]
  exact congrArg Except.ok (Bool.eq_iff_iff.mpr (hiff.trans hsame.symm))

/-! ## The instruction -/

theorem writeUInt32LE_ok {v : Nat} (h : v < 2 ^ 32) : writeUInt32LE v = .ok (toLE 4 v) := if_pos h

theorem writeBigUInt64LE_ok {v : Nat} (h : v < 2 ^ 64) : writeBigUInt64LE v = .ok (toLE 8 v) := if_pos h

/-- The params of a packet, in Borsh; there is no extra data. -/
def PacketV1.borsh (p : PacketV1) : List UInt8 :=
  toLE 4 p.srcEid.toNat ++ (p.sender.val ++ (toLE 8 p.nonce.toNat ++ (p.guid.val ++ (toLE 4 p.message.length ++
    (p.message ++ toLE 4 0)))))

theorem receiveParams_shown {cfg : Config} {p : PacketV1} (hsrc : p.srcEid.toNat = cfg.SUI_EID)
    (hmessage : p.message.length < 2 ^ 32) : receiveParams cfg p.shown = .ok p.borsh := by
  have hsender : ¬p.sender.val.length ≠ 32 := not_not.mpr p.sender.property
  have hguid : ¬p.guid.val.length ≠ 32 := not_not.mpr p.guid.property
  unfold receiveParams serializeLzReceiveParams
  simp only [PacketV1.shown, hexToBytes_hexlify, if_neg hsender, if_neg hguid, ← hsrc,
    writeUInt32LE_ok p.srcEid.toNat_lt, writeBigUInt64LE_ok p.nonce.toNat_lt, writeUInt32LE_ok hmessage]
  show Except.ok _ = _
  simp only [PacketV1.borsh, List.length_nil, List.append_nil]

/-- The program reads the params of the packet. -/
theorem decodeLzReceive_borsh (discriminator : Bytes 8) (p : PacketV1) (hmessage : p.message.length < 2 ^ 32) :
    decodeLzReceive discriminator (discriminator.val ++ p.borsh) = some p.params := by
  have hlength : (UInt32.ofNat p.message.length).toNat = p.message.length := UInt32.toNat_ofNat_of_lt' hmessage
  have hmsg : vecU8 (toLE 4 p.message.length ++ (p.message ++ toLE 4 0)) = some (p.message, toLE 4 0) := by
    rw [vecU8_append _ _ (Nat.le_of_eq hlength), hlength, List.take_length, List.drop_length, List.nil_append]
  have hextra : vecU8 (toLE 4 0) = some ([], []) := vecU8_append [] [] (Nat.le_refl 0)
  have hread : readLzReceiveParams p.borsh = some (p.params, []) := by
    rw [readLzReceiveParams, PacketV1.borsh, bind_some (u32_append _ _), bind_some (array_append p.sender _),
      bind_some (u64_append _ _), bind_some (array_append p.guid _), bind_some hmsg, bind_some hextra,
      UInt32.ofNat_toNat, UInt64.ofNat_toNat]
    rfl
  rw [decodeLzReceive, array_append]
  simp only [Option.bind_eq_bind, Option.bind_some, guard, if_true, hread]
  rfl

/-! ## The accounts -/

/-- An account as the worker takes it. -/
def lzAccountMeta (address : Key → Bytes 32) (a : AccountMeta) : LzAccountMeta :=
  ⟨(address a.pubkey).val, a.isSigner, a.isWritable⟩

variable (address : Key → Bytes 32)

theorem length_lzAccountData (a : AccountMeta) : (lzAccountData address a).length = 34 := by
  rw [lzAccountData, List.length_append, (address a.pubkey).property]
  rfl

theorem boolByte_eq_one (b : Bool) : (some (boolByte b) == some 1) = b := by cases b <;> rfl

/-- The account in front. -/
theorem lzAccountAt_front (a : AccountMeta) (before rest : List UInt8) {off : Nat} (hoff : before.length = off) :
    lzAccountAt (before ++ (lzAccountData address a ++ rest)) off = lzAccountMeta address a := by
  subst hoff
  have hkey : slice (before ++ (lzAccountData address a ++ rest)) before.length 32 = (address a.pubkey).val := by
    rw [lzAccountData, List.append_assoc]
    exact Bytes.slice_mid _ _ _ _ _ rfl (address a.pubkey).property
  have hbyte : ∀ i, (before ++ (lzAccountData address a ++ rest))[before.length + i]? =
      (lzAccountData address a ++ rest)[i]? := fun i => by
    rw [List.getElem?_append_right (Nat.le_add_right _ _), Nat.add_sub_cancel_left]
  have hflag : ∀ i, ((address a.pubkey).val ++ ([boolByte a.isSigner, boolByte a.isWritable] ++ rest))[32 + i]? =
      ([boolByte a.isSigner, boolByte a.isWritable] ++ rest)[i]? := fun i => by
    rw [List.getElem?_append_right (by rw [(address a.pubkey).property]; omega), (address a.pubkey).property,
      Nat.add_sub_cancel_left]
  have hsigner := hflag 0
  have hwritable := hflag 1
  rw [lzAccountAt, hkey, publicKey, (address a.pubkey).property, hbyte, hbyte, lzAccountData, List.append_assoc,
    hsigner, hwritable]
  show LzAccountMeta.mk (address a.pubkey).val (some (boolByte a.isSigner) == some 1)
    (some (boolByte a.isWritable) == some 1) = _
  rw [boolByte_eq_one, boolByte_eq_one, lzAccountMeta]

/-- Every account is where the worker looks for it. -/
theorem lzAccountAt_flatMap {accounts : List AccountMeta} (before : List UInt8) {off : Nat}
    (hoff : before.length = off) : (List.range accounts.length).map (fun i =>
      lzAccountAt (before ++ accounts.flatMap (lzAccountData address)) (off + 34 * i)) =
        accounts.map (lzAccountMeta address) := by
  induction accounts generalizing before off with
  | nil => rfl
  | cons a accounts ih =>
    have hnext : (before ++ lzAccountData address a).length = off + 34 := by
      rw [List.length_append, length_lzAccountData, hoff]
    have hrest := ih (before ++ lzAccountData address a) hnext
    rw [List.length_cons, List.range_succ_eq_map, List.map_cons, List.map_map, List.map_cons, ← hrest]
    simp only [List.flatMap_cons]
    rw [Nat.mul_zero, Nat.add_zero, lzAccountAt_front address a before _ hoff]
    refine congrArg (_ :: ·) (List.map_congr_left fun i _ => ?_)
    show lzAccountAt _ (off + 34 * (i + 1)) = _
    rw [List.append_assoc, show off + 34 * (i + 1) = off + 34 + 34 * i by omega]

theorem decodeLzAccounts_encoded {accounts : List AccountMeta} (h : accounts.length < 2 ^ 32) :
    decodeLzAccounts (String.ofList (base64 (lzAccountsData address accounts))) =
      .ok (accounts.map (lzAccountMeta address)) := by
  have hlength : ¬(lzAccountsData address accounts).length < 4 := by
    rw [lzAccountsData, List.length_append, length_toLE]
    omega
  have hcount : ofLE (slice (lzAccountsData address accounts) 0 4) = accounts.length := by
    have hfront : slice (lzAccountsData address accounts) 0 4 = toLE 4 accounts.length :=
      Bytes.slice_mid [] _ _ 0 4 rfl (length_toLE 4 _)
    rw [hfront, ofLE_toLE]
    exact Nat.mod_eq_of_lt h
  unfold decodeLzAccounts
  simp only [Relayer.bufferFromBase64url_base64]
  rw [if_neg hlength, hcount, lzAccountsData, lzAccountAt_flatMap address _ (length_toLE 4 _)]

/-- The worker takes the slot that the planner leaves to the executor. -/
theorem substituteWorker_planned {getAccountsForClear : Solana.AccountsForClear} {params : LzReceiveParams}
    {s : Solana.State} {plan : List AccountMeta} (hplan : Solana.lzReceiveTypes getAccountsForClear params s = .ok plan)
    {worker : Solana.Pubkey} (hworker : address (.wallet worker) = worker) :
    substituteWorker worker.val (plan.map (lzAccountMeta address)) =
      (Solana.withExecutor worker plan).map (lzAccountMeta address) := by
  rw [Solana.lzReceiveTypes, Result.bind_ok] at hplan
  obtain ⟨store, -, hplan⟩ := hplan
  obtain ⟨_, -, hplan⟩ := Result.bind_ok.mp hplan
  cases hplan
  simp only [Solana.withExecutor, List.cons_append, List.modifyHead_cons, List.map_cons, substituteWorker,
    lzAccountMeta, hworker]

theorem receive_tag : (Solana.discriminator "global" "lz_receive").val = DISC_LZ_RECEIVE := by decide +kernel

variable {address}

/-- A packet in an event of Sui: the worker reads it, knows whether it is for its own pathway, and gives the program the
params of the packet, with the accounts that the program planned for them and itself as the executor. -/
theorem return_relayed {cfg : Config} {oapp store : Bytes 32} (hpath : Pathway cfg oapp store) {field : EventField}
    {p : PacketV1} (hfield : Renders field p.encode) (hmessage : p.message.length < 2 ^ 32)
    {getAccountsForClear : Solana.AccountsForClear} {s : Solana.State} {plan : List AccountMeta}
    (hplan : Solana.lzReceiveTypes getAccountsForClear p.params s = .ok plan) (hshort : plan.length < 2 ^ 32)
    {worker : Solana.Pubkey} (hworker : address (.wallet worker) = worker) :
    ∃ pkt ours, packetFromEvent field = some pkt ∧ packetBytes pkt = p.encode ∧
      isOurReturn cfg pkt = .ok ours ∧ (ours = true ↔ Ours cfg oapp store p) ∧
      (ours = true → ∃ ix, lzReceiveIx cfg worker.val (String.ofList (base64 (lzAccountsData address plan))) pkt =
          .ok ix ∧
        decodeLzReceive (Solana.discriminator "global" "lz_receive") ix.data = some p.params ∧
        ix.keys = (Solana.withExecutor worker plan).map (lzAccountMeta address)) := by
  obtain ⟨ours, hours, hiff⟩ := isOurReturn_shown hpath p
  obtain ⟨rest, hrest⟩ := p.encode_cons
  have hevent : packetFromEvent field = some p.shown := by
    have hhex := bytesFieldToHex_renders (hrest ▸ hfield)
    rw [packetFromEvent, hhex]
    show (readPacket (hexToBytes (hexlify (1 :: rest)))).toOption = _
    rw [hexToBytes_hexlify, ← hrest, readPacket_encode]
    rfl
  refine ⟨p.shown, ours, hevent, packetBytes_shown p, hours, hiff, fun htrue => ?_⟩
  have hparams : receiveParams cfg p.shown = .ok p.borsh := receiveParams_shown (hiff.mp htrue).1 hmessage
  refine ⟨⟨substituteWorker worker.val (plan.map (lzAccountMeta address)), DISC_LZ_RECEIVE ++ p.borsh⟩, ?_, ?_, ?_⟩
  · rw [lzReceiveIx, hparams, decodeLzAccounts_encoded address hshort]
    rfl
  · rw [← receive_tag]
    exact decodeLzReceive_borsh _ p hmessage
  · exact substituteWorker_planned address hplan hworker

/-! ## One return -/

/-- The packet with the proof of a submission. -/
def exampleReturn : PacketV1 where
  nonce := Solana.theProof.nonce
  srcEid := Solana.theProof.srcEid
  sender := Solana.theProof.sender
  dstEid := 40168
  receiver := Solana.walletOf 8
  guid := Solana.theProof.guid
  message := Solana.theProof.message

def exampleConfig : Config where
  SUI_EID := 30
  SOLANA_EID := 40168
  SUI_OAPP_SENDER_B32 := String.ofList (hexDigits (Solana.walletOf 6).val)
  SOLANA_STORE_B32 := String.ofList (hexDigits (Solana.walletOf 8).val)

/-- Wallets at their own addresses, and the program's accounts at one other. -/
def exampleAddress : Key → Bytes 32
  | .wallet key => key
  | _ => Solana.walletOf 8

theorem exampleReturn_message : exampleReturn.message.length < 2 ^ 32 := by
  have hlength : exampleReturn.message.length = 97 := length_proofWire ..
  omega

/-- The program plans the accounts for it. -/
theorem exampleReturn_planned : ∃ plan : List AccountMeta, plan.length = 14 ∧
    Solana.lzReceiveTypes Solana.exampleClear exampleReturn.params Solana.oneSubmission = .ok plan := by
  obtain ⟨as, has⟩ := Solana.oneSubmission_reached
  obtain ⟨hstore, -, -, hbumps, -, -⟩ := Solana.oneSubmission_open
  have hplanned : Solana.Planned Solana.oneSubmission :=
    has ▸ Solana.run_planned (fun _ => 255) (fun size => size) (fun _ => true) Solana.exampleLamports as
  have hload : Solana.loadStore Solana.oneSubmission = .ok ⟨Solana.walletOf 4, Solana.walletOf 2, 255⟩ :=
    Solana.load_ok.mpr ⟨hstore, by rw [hbumps]⟩
  exact ⟨_, rfl, Result.bind_ok.mpr ⟨_, hload, Result.bind_ok.mpr
    ⟨(), Solana.require_ok.mpr (hplanned.types _ hstore), rfl⟩⟩⟩

/-- The event shows it in base64. -/
theorem return_relayed_one : ∃ pkt plan ix,
    packetFromEvent (.text (String.ofList (base64 exampleReturn.encode))) = some pkt ∧
      lzReceiveIx exampleConfig (Solana.walletOf 9).val
        (String.ofList (base64 (lzAccountsData exampleAddress plan))) pkt = .ok ix ∧
      decodeLzReceive (Solana.discriminator "global" "lz_receive") ix.data = some Solana.theProof := by
  have hpath : Pathway exampleConfig (Solana.walletOf 6) (Solana.walletOf 8) := ⟨rfl, rfl⟩
  obtain ⟨plan, hlength, hplan⟩ := exampleReturn_planned
  have hworker : exampleAddress (.wallet (Solana.walletOf 9)) = Solana.walletOf 9 := rfl
  obtain ⟨pkt, ours, hevent, -, -, hours, hix⟩ := return_relayed hpath (.base64 exampleReturn.encode)
    exampleReturn_message hplan (show plan.length < 2 ^ 32 by omega) hworker
  obtain ⟨ix, hbuilt, hdata, -⟩ := hix (hours.mpr ⟨rfl, rfl, rfl, rfl⟩)
  exact ⟨pkt, plan, ix, hevent, hbuilt, hdata⟩

end Bosphor.Scripts.ReturnPacket

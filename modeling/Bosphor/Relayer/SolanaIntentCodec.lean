import Bosphor.Relayer.StagedIntentStore
import Bosphor.Relayer.WalrusBlobId

/-!
# `IntentSubmitted` events in Solana logs

The log of a transaction is one list of text lines, whichever programs its
instructions invoke; an event is a line `Program data: <base64>`. The parser
decodes every such line, and knows nothing of who wrote it.
-/

namespace Bosphor.Relayer

open StagedIntentStore

/-! ## Base64 -/

/-- The character of a base64 digit. -/
def base64Char (d : Nat) : Char :=
  if d < 26 then Char.ofNat (d + 65)
  else if d < 52 then Char.ofNat (d + 71)
  else if d < 62 then Char.ofNat (d - 4)
  else if d = 62 then '+'
  else '/'

/-- Base64, padded to a multiple of four characters. -/
def base64 (bytes : List UInt8) : List Char :=
  (digitsOfBytes bytes).map base64Char ++ List.replicate ((3 - bytes.length % 3) % 3) '='

theorem base64Digit_base64Char {d : Nat} (h : d < 64) : base64Digit (base64Char d) = some d := by
  have hall : ∀ d : Fin 64, base64Digit (base64Char d) = some d.val := by decide
  exact hall ⟨d, h⟩

theorem base64Char_ne_pad {d : Nat} (h : d < 64) : base64Char d ≠ '=' := by
  have hall : ∀ d : Fin 64, base64Char d ≠ '=' := by decide
  exact hall ⟨d, h⟩

/-- Decoding undoes encoding. -/
theorem bufferFromBase64url_base64 (bytes : List UInt8) :
    bufferFromBase64url (String.ofList (base64 bytes)) = bytes := by
  unfold bufferFromBase64url base64
  rw [String.toList_ofList, digits_read base64Digit_base64Char base64Char_ne_pad (digitsOfBytes_lt bytes),
    bytesOfDigits_digitsOfBytes]

/-! ## The decoder -/

def INTENT_SUBMITTED_DISC : List UInt8 := [0xce, 0x64, 0xe7, 0x8d, 0xf5, 0x1e, 0x50, 0x63]
def PROGRAM_DATA_PREFIX : String := "Program data: "
def BODY_LEN : Nat := 165

structure SolanaIntentSubmitted where
  intentId : IntentId
  sender : List UInt8
  committedBlobId : String
  size : Nat
  encodingType : Nat
  storageEpochs : Nat
  deadline : Nat
  dstEid : Nat
  deriving DecidableEq

/-- An unsigned number, the least significant byte first. -/
def readLE (data : List UInt8) (offset len : Nat) : Nat := Bytes.ofBE (Bytes.slice data offset len).reverse

def decodeIntentSubmitted (data : List UInt8) : Option SolanaIntentSubmitted :=
  if data.length < 8 + BODY_LEN then none
  else if data.take 8 ≠ INTENT_SUBMITTED_DISC then none
  else some {
    intentId := hexlify (Bytes.slice data 8 32)
    sender := Bytes.slice data 40 32
    -- the nonce is passed over
    committedBlobId := hexlify (Bytes.slice data 80 32)
    size := readLE data 112 4
    encodingType := (data.getD 116 0).toNat
    storageEpochs := readLE data 117 4
    deadline := readLE data 121 8
    dstEid := readLE data 129 4 }

/-- What comes after the first `part` in the text. -/
def textAfter (part : List Char) (text : List Char) : Option (List Char) :=
  if part.isPrefixOf text then some (text.drop part.length)
  else
    match text with
    | [] => none
    | _ :: rest => textAfter part rest

/-- The event of a line, if it is one. -/
def parseLine (line : List Char) : Option SolanaIntentSubmitted :=
  (textAfter PROGRAM_DATA_PREFIX.toList line).bind fun rest =>
    decodeIntentSubmitted (bufferFromBase64url (String.ofList (Text.trim rest)))

theorem base64_no_space (bytes : List UInt8) : ∀ c ∈ base64 bytes, Text.isSpace c = false := by
  have hdigit : ∀ d : Fin 64, Text.isSpace (base64Char d) = false := by decide
  intro c hc
  obtain hc | hc := List.mem_append.mp hc
  · obtain ⟨d, hd, rfl⟩ := List.mem_map.mp hc
    exact hdigit ⟨d, digitsOfBytes_lt bytes d hd⟩
  · rw [List.eq_of_mem_replicate hc]
    rfl

/-- A line of logged data is parsed as what was logged. -/
theorem parseLine_data (payload : List UInt8) :
    parseLine (PROGRAM_DATA_PREFIX.toList ++ base64 payload) = decodeIntentSubmitted payload := by
  have hafter : textAfter PROGRAM_DATA_PREFIX.toList (PROGRAM_DATA_PREFIX.toList ++ base64 payload) =
      some (base64 payload) := by
    unfold textAfter
    rw [if_pos (List.isPrefixOf_iff_prefix.mpr (List.prefix_append ..)), List.drop_left]
  unfold parseLine
  have htrim : Text.trim (base64 payload) = base64 payload :=
    Text.trim_eq_self (fun c hc => base64_no_space payload c (List.mem_of_mem_head? hc))
      fun c hc => base64_no_space payload c (List.mem_of_mem_getLast? hc)
  rw [hafter, Option.bind_some, htrim, bufferFromBase64url_base64]

def parseIntentSubmittedEvents (logs : List (List Char)) : List SolanaIntentSubmitted := logs.filterMap parseLine

end Bosphor.Relayer

import Bosphor.Delivery
import Bosphor.Sdk.SolanaProgram
import Bosphor.Solana.Custody

/-!
# The intent id of the Solana backend

`submitIntent` of the SDK derives the intent id off chain, from a nonce that it
read some time before, and puts it into the addresses of the transaction's
accounts. The program derives the id from the arguments and the nonce it has
then, and refuses other addresses. So the id that the SDK returns for a
transaction that succeeds is the program's, and no other transaction that
succeeds later has it (`submitIntent_id`).
-/

namespace Bosphor.Sdk

open Ts (JsNumber JsError toUint32)
open Solana (Pubkey IntentId AccountMeta)

/-- The libraries' functions: with the codecs of `program.ts`, `bytesToHex`. -/
structure Libraries extends Codecs where
  bytesToHex : List UInt8 → String

structure SolanaSubmitFields where
  blobId : String
  size : JsNumber
  encodingType : JsNumber
  storageEpochs : JsNumber
  deadline : Int
  dstEid : JsNumber
  options : String
  nativeFee : Int
  escrowAmount : Option Int

/-- The transaction of `submitIntent`, with the id that it is to return. -/
structure Transaction where
  intentId : String
  data : List UInt8
  keys : List AccountMeta

variable (lib : Libraries)

def Libraries.toHex (bytes : List UInt8) : String := "0x" ++ lib.bytesToHex bytes

def Libraries.bytes32 (hex : String) : Except JsError (Bytes 32) := do
  let b ← lib.hexToBytes (strip0x hex)
  let len := b.length
  if h : b.length = 32 then return ⟨b, h⟩
  else throw (.error s!"expected 32 bytes, got {len}")

/-- `currentNonce(owner)`, of what `getAccountInfo` gives: eight bytes that name the account, the nonce, and a bump. -/
def currentNonce (info : Option (List UInt8)) : Except JsError Int :=
  match info with
  | none => return 0
  | some data =>
    if 16 ≤ data.length then return Borsh.ofLE (Bytes.slice data 8 8)
    else throw .rangeError

/-- What is given to `encodeSubmitIntentData`. -/
def SolanaSubmitFields.args (fields : SolanaSubmitFields) (options : List UInt8) : SubmitIntentArgs where
  blobId := fields.blobId
  size := fields.size
  encodingType := fields.encodingType
  storageEpochs := fields.storageEpochs
  deadline := fields.deadline
  dstEid := fields.dstEid
  options := options
  nativeFee := fields.nativeFee
  escrowAmount := fields.escrowAmount.getD 0

/-- `submitIntent(fields)`, up to the transaction. -/
def submitIntent (payerKey : Pubkey) (endpointAccounts : List AccountMeta) (info : Option (List UInt8))
    (fields : SolanaSubmitFields) : Except JsError Transaction := do
  let nonce ← currentNonce info
  let blobId ← lib.bytes32 fields.blobId
  let intentIdBytes ← Ts.deriveIntentId
    ⟨blobId.val, fields.size, fields.encodingType, fields.storageEpochs, fields.deadline⟩ payerKey.val nonce
  let intentId := lib.toHex intentIdBytes.val
  let options ← lib.hexToBytes (strip0x fields.options)
  let data ← encodeSubmitIntentData lib.toCodecs (fields.args options)
  -- the addresses of `intentPda(intentId)` and `escrowPda(intentId)`
  let seed ← lib.bytes32 intentId
  return {
    intentId := intentId
    data := data
    keys := [⟨.wallet payerKey, true, true⟩, ⟨.nonce payerKey, false, true⟩, ⟨.intent seed, false, true⟩,
      ⟨.escrow seed, false, true⟩, ⟨.store, false, false⟩, ⟨.peer (toUint32 fields.dstEid), false, false⟩,
      ⟨Solana.systemProgramId, false, false⟩] ++ endpointAccounts }

/-- The end of `submitIntent`, with the id that the transaction's logs show, if any. -/
def crossCheck (intentId : String) (fromEvent : Option String) : Except JsError String :=
  match fromEvent with
  | some shown =>
    if shown ≠ "" ∧ shown ≠ intentId then
      throw (.error s!"intent id mismatch: derived {intentId} but the IntentSubmitted event emitted {shown}")
    else return intentId
  | none => return intentId

/-- The transaction's instruction succeeds on chain. -/
def Transaction.Lands (clearAccounts : Nat) (tx : Transaction) (s s' : Solana.State) : Prop :=
  ∃ params now endpoint receipt,
    Solana.decodeSubmitIntent (lib.instructionDiscriminator "submit_intent") tx.data = some params ∧
    Solana.process clearAccounts ⟨now, params.instruction, tx.keys, endpoint, receipt⟩ s = .ok s'

/-- A transaction that the backend builds for a wallet, whatever nonce it read. -/
def Transaction.Built (payerKey : Pubkey) (tx : Transaction) : Prop :=
  ∃ endpointAccounts info fields, submitIntent lib payerKey endpointAccounts info fields = .ok tx

/-- The program has derived this id for an intent of the wallet, recorded it, and sent it to the destination. -/
structure Submits (payerKey : Pubkey) (id : IntentId) (c : Commitment) (dstEid : UInt32)
    (s s' : Solana.State) : Prop where
  derived : Solana.computeIntentId c payerKey (s.nextNonce payerKey) = .ok id
  fresh : s.intents id = none
  recorded : ∃ bump, s'.intents id = some ⟨c.blobId, c.size, c.storageEpochs, c.deadline, payerKey,
    s.nextNonce payerKey,
    false, 0, bump⟩
  logged : ∃ now guid lzNonce,
    s'.log = s.log ++ [⟨now, .intentSubmitted id payerKey (s.nextNonce payerKey) c dstEid guid lzNonce⟩]
  sent : ∃ peer, s'.sent = s.sent ++ [⟨dstEid, peer, id.val ++ c.wire⟩]

/-! ## The accounts decide -/

/-- The seed of the intent's account is the id that the program derives for the signer. -/
theorem submitIntentAccounts_seed {c : Commitment} {dstEid : UInt32} {s : Solana.State} {payerKey key : Pubkey}
    {nonce escrow store peer system : AccountMeta} {seed : IntentId} {rest : List AccountMeta}
    (h : Solana.submitIntentAccounts c dstEid s
      (⟨.wallet payerKey, true, true⟩ :: nonce :: ⟨.intent seed, false, true⟩ ::
      escrow :: store :: peer :: system :: rest) = .ok key) :
    key = payerKey ∧ seed = Solana.submissionId c payerKey (s.nextNonce payerKey) := by
  unfold Solana.submitIntentAccounts at h
  obtain ⟨signer, hsigner, h⟩ := Result.bind_ok.mp h
  obtain rfl : payerKey = signer := Except.ok.inj hsigner
  obtain ⟨-, -, h⟩ := Result.bind_ok.mp h
  obtain ⟨-, -, h⟩ := Result.bind_ok.mp h
  obtain ⟨-, -, h⟩ := Result.bind_ok.mp h
  obtain ⟨id, hid, h⟩ := Result.bind_ok.mp h
  obtain ⟨_, hseed, h⟩ := Result.bind_ok.mp h
  rw [Solana.computeIntentId_eq] at hid
  obtain rfl := Except.ok.inj hid
  have hsame : Solana.Key.intent seed = .intent (Solana.submissionId c payerKey (s.nextNonce payerKey)) :=
    Solana.check_ok.mp hseed
  refine ⟨?_, Solana.Key.intent.inj hsame⟩
  obtain ⟨-, -, h⟩ := Result.bind_ok.mp h
  obtain ⟨-, -, h⟩ := Result.bind_ok.mp h
  obtain ⟨-, -, h⟩ := Result.bind_ok.mp h
  obtain ⟨-, -, h⟩ := Result.bind_ok.mp h
  obtain ⟨-, -, h⟩ := Result.bind_ok.mp h
  obtain ⟨-, -, h⟩ := Result.bind_ok.mp h
  exact (Except.ok.inj h).symm

/-- The accounts that the seeds name pass. -/
theorem submitIntentAccounts_named (c : Commitment) (dstEid : UInt32) (s : Solana.State) (payerKey : Pubkey) :
    Solana.submitIntentAccounts c dstEid s [⟨.wallet payerKey, true, true⟩, ⟨.nonce payerKey, false, true⟩,
      ⟨.intent (Solana.submissionId c payerKey (s.nextNonce payerKey)), false, true⟩,
      ⟨.escrow (Solana.submissionId c payerKey (s.nextNonce payerKey)), false, true⟩, ⟨.store, false, false⟩,
      ⟨.peer dstEid, false, false⟩, ⟨Solana.systemProgramId, false, false⟩] = .ok payerKey := by
  unfold Solana.submitIntentAccounts
  have hid := Solana.computeIntentId_eq c payerKey (s.nextNonce payerKey)
  refine Result.bind_ok.mpr ⟨payerKey, rfl, Result.bind_ok.mpr ⟨(), rfl, ?_⟩⟩
  refine Result.bind_ok.mpr ⟨(), Solana.check_ok.mpr rfl, Result.bind_ok.mpr ⟨(), rfl, ?_⟩⟩
  refine Result.bind_ok.mpr ⟨Solana.submissionId c payerKey (s.nextNonce payerKey), ?_, ?_⟩
  · show Except.mapError _ (Solana.computeIntentId c payerKey (s.nextNonce payerKey)) = _
    rw [hid]
    rfl
  · refine Result.bind_ok.mpr ⟨(), Solana.check_ok.mpr rfl, Result.bind_ok.mpr ⟨(), rfl, ?_⟩⟩
    refine Result.bind_ok.mpr ⟨(), Solana.check_ok.mpr rfl, Result.bind_ok.mpr ⟨(), rfl, ?_⟩⟩
    refine Result.bind_ok.mpr ⟨(), Solana.check_ok.mpr rfl, ?_⟩
    refine Result.bind_ok.mpr ⟨(), Solana.check_ok.mpr rfl, ?_⟩
    exact Result.bind_ok.mpr ⟨(), Solana.check_ok.mpr rfl, rfl⟩

/-- An id is read back from its text. -/
theorem Libraries.bytes32_toHex (hhex : ∀ b, lib.hexToBytes (lib.bytesToHex b) = .ok b) (id : Bytes 32) :
    lib.bytes32 (lib.toHex id.val) = .ok id := by
  have hstrip : strip0x (lib.toHex id.val) = lib.bytesToHex id.val := by
    rw [strip0x, Libraries.toHex, String.toList_append]
    exact String.ofList_toList
  rw [Libraries.bytes32, hstrip, hhex, Result.ok_bind, dif_pos id.property]
  rfl

/-- A transaction names its instruction's accounts by the id that it returns. -/
theorem Transaction.Built.keys {payerKey : Pubkey} {tx : Transaction}
    (hhex : ∀ b, lib.hexToBytes (lib.bytesToHex b) = .ok b) (h : tx.Built lib payerKey) :
    ∃ (seed : IntentId) (eid : UInt32) (endpointAccounts : List AccountMeta), tx.intentId = lib.toHex seed.val ∧
      tx.keys = ⟨.wallet payerKey, true, true⟩ :: ⟨.nonce payerKey, false, true⟩ :: ⟨.intent seed, false, true⟩ ::
        ⟨.escrow seed, false, true⟩ :: ⟨.store, false, false⟩ :: ⟨.peer eid, false, false⟩ ::
        ⟨Solana.systemProgramId, false, false⟩ :: endpointAccounts := by
  obtain ⟨endpointAccounts, info, fields, hbuild⟩ := h
  obtain ⟨nonce, -, hbuild⟩ := Result.bind_ok.mp hbuild
  obtain ⟨blobId, -, hbuild⟩ := Result.bind_ok.mp hbuild
  obtain ⟨id, -, hbuild⟩ := Result.bind_ok.mp hbuild
  obtain ⟨options, -, hbuild⟩ := Result.bind_ok.mp hbuild
  obtain ⟨data, -, hbuild⟩ := Result.bind_ok.mp hbuild
  obtain ⟨seed, hseed, hbuild⟩ := Result.bind_ok.mp hbuild
  rw [lib.bytes32_toHex hhex] at hseed
  obtain rfl := Except.ok.inj hseed
  cases hbuild
  exact ⟨id, toUint32 fields.dstEid, endpointAccounts, rfl, rfl⟩

/-- What a transaction that lands has done, under the id that it returns. -/
theorem Transaction.Lands.submits {clearAccounts : Nat} {payerKey : Pubkey} {tx : Transaction} {s s' : Solana.State}
    (hhex : ∀ b, lib.hexToBytes (lib.bytesToHex b) = .ok b) (hbuilt : tx.Built lib payerKey)
    (hlands : tx.Lands lib clearAccounts s s') :
    ∃ id c dstEid, tx.intentId = lib.toHex id.val ∧ Submits payerKey id c dstEid s s' := by
  obtain ⟨seed, eid, endpointAccounts, hid, hkeys⟩ := hbuilt.keys lib hhex
  obtain ⟨params, now, endpoint, receipt, -, hprocess⟩ := hlands
  rw [hkeys] at hprocess
  obtain ⟨key, haccounts, hsubmit⟩ := Result.bind_ok.mp hprocess
  obtain ⟨rfl, rfl⟩ := submitIntentAccounts_seed haccounts
  obtain ⟨store, peer, r, lamports, -, hsubmittable, rfl⟩ := Solana.submitIntent_effect (Solana.mapError_ok.mp hsubmit)
  exact ⟨_, params.commitment, params.dstEid, hid, {
    derived := Solana.computeIntentId_eq _ _ _
    fresh := hsubmittable.newIntent
    recorded := ⟨_, Function.update_self ..⟩
    logged := ⟨now, r.guid, r.nonce, rfl⟩
    sent := ⟨peer.address, rfl⟩ }⟩

/-! ## The ids of a wallet's transactions -/

theorem Libraries.toHex_inj (hhex : ∀ b, lib.hexToBytes (lib.bytesToHex b) = .ok b) {id id' : IntentId}
    (h : lib.toHex id.val = lib.toHex id'.val) : id = id' := by
  have hsame : lib.bytesToHex id.val = lib.bytesToHex id'.val := String.append_right_inj _ |>.mp h
  have hbytes := (hhex id.val).symm.trans (hsame ▸ hhex id'.val)
  exact Subtype.ext (Except.ok.inj hbytes)

/-- What is returned is the id of the transaction. -/
theorem crossCheck_ok {intentId returned : String} {fromEvent : Option String}
    (h : crossCheck intentId fromEvent = .ok returned) : returned = intentId := by
  cases fromEvent with
  | none => exact (Except.ok.inj h).symm
  | some shown =>
    unfold crossCheck at h
    dsimp only at h
    split at h
    · cases h
    · exact (Except.ok.inj h).symm

/-- An intent stays recorded. -/
theorem run_intent {clearAccounts : Nat} {s : Solana.State} {id : IntentId} (hs : s.intents id ≠ none)
    (as : List Solana.Action) : (Machine.run (Solana.perform clearAccounts) s as).intents id ≠ none := by
  refine Machine.run_inv (P := fun t : Solana.State => t.intents id ≠ none) as (fun a _ s s' h hs => ?_) hs
  obtain ⟨x, -, hstep⟩ := Solana.perform_step h
  exact (Solana.step_effect hstep).intent hs

/-- When the transaction of a submission succeeds, whatever nonce it was built with, the id that the backend returns is
the one that the program derived, recorded and sent; and a transaction that succeeds later, of the same wallet or
another, has another id. -/
theorem submitIntent_id {clearAccounts : Nat} {payerKey : Pubkey} {tx : Transaction} {s s' : Solana.State}
    {fromEvent : Option String} {returned : String} (hhex : ∀ b, lib.hexToBytes (lib.bytesToHex b) = .ok b)
    (hbuilt : tx.Built lib payerKey) (hlands : tx.Lands lib clearAccounts s s')
    (hreturned : crossCheck tx.intentId fromEvent = .ok returned) :
    (∃ id c dstEid, returned = lib.toHex id.val ∧ Submits payerKey id c dstEid s s') ∧
    ∀ (as : List Solana.Action) (payerKey' : Pubkey) (tx' : Transaction) (t : Solana.State),
      tx'.Built lib payerKey' → tx'.Lands lib clearAccounts (Machine.run (Solana.perform clearAccounts) s' as) t →
      tx'.intentId ≠ returned := by
  obtain rfl := crossCheck_ok hreturned
  obtain ⟨id, c, dstEid, hid, hsubmits⟩ := hlands.submits lib hhex hbuilt
  refine ⟨⟨id, c, dstEid, hid, hsubmits⟩, fun as payerKey' tx' t hbuilt' hlands' hsame => ?_⟩
  obtain ⟨id', c', dstEid', hid', hsubmits'⟩ := hlands'.submits lib hhex hbuilt'
  obtain rfl : id' = id := lib.toHex_inj hhex (hid'.symm.trans (hsame.trans hid))
  obtain ⟨bump, hrecorded⟩ := hsubmits.recorded
  have hstays := @run_intent clearAccounts _ _ (fun hnone => by rw [hrecorded] at hnone; cases hnone) as
  exact hstays hsubmits'.fresh

/-! ## One submission -/

def exampleLibraries : Libraries where
  toCodecs := exampleCodecs
  bytesToHex bytes := String.ofList (bytes.flatMap fun b => Relayer.padStart 2 (Nat.toDigits 16 b.toNat))

theorem exampleLibraries_hex (b : List UInt8) :
    exampleLibraries.hexToBytes (exampleLibraries.bytesToHex b) = .ok b := by
  show Except.ok (Relayer.bytesOfHex (String.ofList _).toList) = .ok b
  rw [String.toList_ofList, Relayer.bytesOfHex_digits]

def exampleFields : SolanaSubmitFields where
  blobId := "0x" ++ String.ofList (List.replicate 64 '0')
  size := .finite (exampleCommitment.size.toNat : Nat)
  encodingType := .finite (exampleCommitment.encodingType.toNat : Nat)
  storageEpochs := .finite (exampleCommitment.storageEpochs.toNat : Nat)
  deadline := exampleCommitment.deadline.toNat
  dstEid := .finite ((30 : UInt32).toNat : Nat)
  options := "0x"
  nativeFee := 2
  escrowAmount := some 9

/-- The backend builds a transaction for a wallet that has not submitted before, and the program takes it. -/
theorem exampleTransaction : ∃ (tx : Transaction) (s' : Solana.State),
    tx.Built exampleLibraries (Solana.walletOf 7) ∧ tx.Lands exampleLibraries 8 Solana.peered s' := by
  obtain ⟨s', hs'⟩ := Solana.peered_submits
  have hblob : exampleLibraries.hexToBytes (strip0x exampleFields.blobId) = .ok (Bytes.zero 32).val := by decide +kernel
  have hblob32 : exampleLibraries.bytes32 exampleFields.blobId = .ok (Bytes.zero 32) := by decide +kernel
  have hid : Ts.deriveIntentId (Ts.Commitment.of exampleCommitment) (Solana.walletOf 7).val 0 = .ok Solana.theId :=
    (deriveIntentId_agree exampleCommitment 0 (Nat.le_of_eq (Solana.walletOf 7).property)).1
  obtain ⟨data, params, hdata, hparams, hcommitment, hdst, hfees⟩ :=
    encodeSubmitIntentData_ok exampleLibraries.toCodecs (exampleFields.args []) (Bytes.zero 32) hblob
  have hread : params.commitment = exampleCommitment := hcommitment.trans (Ts.Commitment.cut_of exampleCommitment)
  have hinstruction : params.instruction = .submitIntent exampleCommitment 30 2 9 := by
    have hfields : toUint32 (exampleFields.args []).dstEid = 30 ∧ Ts.toUint64 (exampleFields.args []).nativeFee = 2 ∧
      Ts.toUint64 (exampleFields.args []).escrowAmount = 9 := by decide +kernel
    obtain ⟨hfee, hescrow⟩ := hfees (by decide)
    rw [Solana.SubmitIntentParams.instruction, hread, hdst, hfee, hescrow, hfields.1, hfields.2.1, hfields.2.2]
  obtain ⟨tx, hbuild, htx⟩ : ∃ tx, submitIntent exampleLibraries (Solana.walletOf 7) [] none exampleFields = .ok tx ∧
      tx.data = data ∧ tx.keys = [⟨.wallet (Solana.walletOf 7), true, true⟩, ⟨.nonce (Solana.walletOf 7), false, true⟩,
        ⟨.intent Solana.theId, false, true⟩, ⟨.escrow Solana.theId, false, true⟩, ⟨.store, false, false⟩,
        ⟨.peer (toUint32 exampleFields.dstEid), false, false⟩, ⟨Solana.systemProgramId, false, false⟩] := by
    refine ⟨_, Result.bind_ok.mpr ⟨0, rfl, Result.bind_ok.mpr ⟨_, hblob32, Result.bind_ok.mpr ⟨_, hid,
      Result.bind_ok.mpr ⟨[], by decide +kernel, Result.bind_ok.mpr ⟨data, hdata, Result.bind_ok.mpr
        ⟨_, exampleLibraries.bytes32_toHex exampleLibraries_hex _, rfl⟩⟩⟩⟩⟩⟩, rfl, rfl⟩
  have haccounts : Solana.submitIntentAccounts exampleCommitment 30 Solana.peered tx.keys =
      .ok (Solana.walletOf 7) := by
    rw [htx.2, show toUint32 exampleFields.dstEid = 30 by decide +kernel]
    exact submitIntentAccounts_named _ _ _ _
  refine ⟨tx, s', ⟨[], none, exampleFields, hbuild⟩, params, 5, true, some ⟨Solana.walletOf 0, 1, 2, Solana.walletOf 9⟩,
    htx.1 ▸ hparams, ?_⟩
  rw [hinstruction]
  exact Result.bind_ok.mpr ⟨_, haccounts, Solana.mapError_ok.mpr hs'⟩

theorem submitIntent_id_one : ∃ (tx : Transaction) (s' : Solana.State) (id : IntentId) (c : Commitment)
    (dstEid : UInt32),
    tx.intentId = exampleLibraries.toHex id.val ∧ Submits (Solana.walletOf 7) id c dstEid Solana.peered s' := by
  obtain ⟨tx, s', hbuilt, hlands⟩ := exampleTransaction
  obtain ⟨⟨id, c, dstEid, hid, hsubmits⟩, -⟩ := submitIntent_id exampleLibraries exampleLibraries_hex hbuilt hlands
    (show crossCheck tx.intentId none = .ok tx.intentId from rfl)
  exact ⟨tx, s', id, c, dstEid, hid, hsubmits⟩

end Bosphor.Sdk

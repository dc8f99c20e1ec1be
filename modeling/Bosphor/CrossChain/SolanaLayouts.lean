import Bosphor.Relayer.ConfirmExecution
import Bosphor.Relayer.SolanaIntentCodec
import Bosphor.Sdk.SolanaAccounts

/-!
# The layouts that are written by hand

The program's accounts, events and arguments are transcribed four times: in the
SDK's readers and writers, in the relayer's decoder of events, in its reads of
accounts at fixed offsets and in its encoder. Each agrees with Anchor's layout
on every value (`solanaLayouts`).

A decoder of the SDK, and that of events, rejects whatever is shorter or has
another tag. The two reads of accounts look at the length alone, at an address
that is derived for that account; they take any tag (`untagged_accepted`).
-/

namespace Bosphor.CrossChain

open Solana (discriminator slice_behind getD_of_slice)
open Relayer (Call Failure Rpc RpcError SolanaIntentSubmitted decodeIntentSubmitted decodeVault hexlify showsExecuted)
open Bytes (slice)

/-! ## The relayer's reads at fixed offsets -/

theorem decodeVault_data (tag : Bytes 8) (vault : Solana.EscrowVault) (rest : List UInt8) :
    decodeVault (vault.data tag ++ rest) = some (vault.amount.toNat, vault.status.toNat) := by
  obtain ⟨-, -, hamount, -, hstatus, -⟩ := vault.slices rest
  have hlength : ¬(tag.val ++ (vault.fields.flatten ++ rest)).length < 90 := by
    have hfields : vault.fields.flatten.length = 82 := by rw [List.length_flatten, vault.widths]; rfl
    rw [List.length_append, List.length_append, hfields, tag.property]
    omega
  have hstatus : (tag.val ++ (vault.fields.flatten ++ rest)).getD 88 0 = vault.status :=
    getD_of_slice ((slice_behind tag.property 80).trans hstatus)
  rw [Solana.EscrowVault.data, List.append_assoc, decodeVault, if_neg hlength, hstatus,
    slice_behind tag.property 64, hamount]
  exact congrArg (fun n => some (n, _)) (Solana.ofLE_uint64 vault.amount)

theorem decodeVault_short {data : List UInt8} (h : data.length < Solana.EscrowVault.space) : decodeVault data = none :=
  if_pos h

theorem showsExecuted_data (tag : Bytes 8) (intent : Solana.IntentState) (rest : List UInt8) :
    showsExecuted (intent.data tag ++ rest) = intent.executed := by
  obtain ⟨-, -, -, -, -, -, hexecuted, -⟩ := intent.slices rest
  have hlength : (tag.val ++ (intent.fields.flatten ++ rest)).length > 96 := by
    have hfields : intent.fields.flatten.length = 98 := by rw [List.length_flatten, intent.widths]; rfl
    rw [List.length_append, List.length_append, hfields, tag.property]
    omega
  have hbyte : (tag.val ++ (intent.fields.flatten ++ rest)).getD 96 0 = Solana.boolByte intent.executed :=
    getD_of_slice ((slice_behind tag.property 88).trans hexecuted)
  rw [Solana.IntentState.data_eq, List.append_assoc, showsExecuted, decide_eq_true hlength, Bool.true_and, hbyte]
  cases intent.executed with
  | false => rfl
  | true => rfl

theorem showsExecuted_short {data : List UInt8} (h : data.length ≤ 96) : showsExecuted data = false := by
  rw [showsExecuted, decide_eq_false (Nat.not_lt.mpr h), Bool.false_and]

/-- `getEscrow` decodes the account that it is given. -/
theorem getEscrow_result {cfg : Relayer.Config} {o : ∀ c : Call, Except Failure c.Answer} {id : Relayer.IntentId}
    {data : List UInt8} (hcfg : cfg.solanaConfigured = true) (hacc : o (.getAccountInfo id) = .ok (some data)) :
    Async.result o (Relayer.solanaGetEscrow cfg id) = .ok (decodeVault data) := by
  rw [Relayer.solanaGetEscrow, if_pos hcfg, Async.result_tryCatch, Async.result_bind, Async.result_call, hacc]
  rfl

theorem isIntentExecuted_result {o : ∀ c : Rpc, Except RpcError c.Answer} {account : Solana.Key} {data : List UInt8}
    (hacc : o (.getAccountInfo account) = .ok (some data)) :
    Async.result o (Relayer.isIntentExecuted account) = .ok (showsExecuted data) := by
  rw [Relayer.isIntentExecuted, Async.result_tryCatch, Async.result_bind, Async.result_call, hacc]
  rfl

/-! ## Events -/

theorem event_tag : (discriminator "event" "IntentSubmitted").val = Relayer.INTENT_SUBMITTED_DISC := by decide +kernel

theorem confirm_tag : discriminator "global" "confirm_execution" = Relayer.CONFIRM_EXECUTION_DISC := by decide +kernel

/-- What the relayer keeps of an event. -/
def shown (intentId : Bytes 32) (sender : Solana.Pubkey) (c : Commitment) (dstEid : UInt32) :
    SolanaIntentSubmitted where
  intentId := hexlify intentId.val
  sender := sender.val
  committedBlobId := hexlify c.blobId.val
  size := c.size.toNat
  encodingType := c.encodingType.toNat
  storageEpochs := c.storageEpochs.toNat
  deadline := c.deadline.toNat
  dstEid := dstEid.toNat

theorem decodeIntentSubmitted_data (intentId : Bytes 32) (sender : Solana.Pubkey) (nonce : UInt64) (c : Commitment)
    (dstEid : UInt32) (guid : Bytes 32) (lzNonce : UInt64) (rest : List UInt8) :
    decodeIntentSubmitted ((Solana.Event.intentSubmitted intentId sender nonce c dstEid guid lzNonce).data ++ rest) =
      some (shown intentId sender c dstEid) := by
  obtain ⟨body, hbody⟩ : ∃ body, body =
      (Solana.Event.intentSubmitted intentId sender nonce c dstEid guid lzNonce).fields.flatten ++ rest := ⟨_, rfl⟩
  obtain ⟨hid, hsender, hblob, hsize, htype, hepochs, hdeadline, hdst⟩ :=
    Solana.Event.slices intentId sender nonce c dstEid guid lzNonce hbody
  have htag := (discriminator "event" "IntentSubmitted").property
  have hdata : (Solana.Event.intentSubmitted intentId sender nonce c dstEid guid lzNonce).data ++ rest =
      (discriminator "event" "IntentSubmitted").val ++ body := by
    rw [hbody, Solana.Event.data, List.append_assoc]
    rfl
  have hlength : ¬((discriminator "event" "IntentSubmitted").val ++ body).length < 8 + Relayer.BODY_LEN := by
    have hfields := congrArg List.sum (Solana.Event.widths intentId sender nonce c dstEid guid lzNonce)
    rw [← List.length_flatten] at hfields
    rw [List.length_append, htag, hbody, List.length_append, hfields]
    show ¬8 + (165 + _) < 8 + 165
    omega
  have htake : ((discriminator "event" "IntentSubmitted").val ++ body).take 8 = Relayer.INTENT_SUBMITTED_DISC :=
    (List.take_left' htag).trans event_tag
  have hbehind : ∀ start len, slice ((discriminator "event" "IntentSubmitted").val ++ body) (8 + start) len =
      slice body start len := fun start _ => slice_behind htag start
  have htype : ((discriminator "event" "IntentSubmitted").val ++ body).getD 116 0 = c.encodingType :=
    getD_of_slice ((hbehind 108 1).trans htype)
  rw [hdata, decodeIntentSubmitted, if_neg hlength, if_neg (not_not.mpr htake), hbehind 0, hbehind 32, hbehind 72,
    Relayer.readLE, Relayer.readLE, Relayer.readLE, Relayer.readLE, hbehind 104, hbehind 109, hbehind 113, hbehind 121,
    htype, hid, hsender, hblob, hsize, hepochs, hdeadline, hdst]
  have hsize := Solana.ofLE_uint32 c.size
  have hepochs := Solana.ofLE_uint32 c.storageEpochs
  have hdeadline := Solana.ofLE_uint64 c.deadline
  have hdst := Solana.ofLE_uint32 dstEid
  unfold Borsh.ofLE at hsize hepochs hdeadline hdst
  rw [hsize, hepochs, hdeadline, hdst]
  rfl

theorem decodeIntentSubmitted_rejects {data : List UInt8}
    (h : data.length < 173 ∨ data.take 8 ≠ (discriminator "event" "IntentSubmitted").val) :
    decodeIntentSubmitted data = none := by
  unfold decodeIntentSubmitted
  split
  case isTrue => rfl
  case isFalse hlength => rw [if_pos (event_tag ▸ h.resolve_left hlength)]

/-! ## All of them -/

/-- The buffer is shorter than the account, or has another tag. -/
def Foreign (tag : Bytes 8) (space : Nat) (data : List UInt8) : Prop := data.length < space ∨ data.take 8 ≠ tag.val

/-- Every reader and every writer agrees with Anchor's layout; behind what is laid out may stand anything. -/
structure Layouts (hexToBytes : String → Except Ts.JsError (List UInt8)) : Prop where
  decodeEscrowVault : ∀ (vault : Solana.EscrowVault) rest,
    Sdk.decodeEscrowVault (vault.data (discriminator "account" "EscrowVault") ++ rest) = .ok (.of vault)
  decodeEscrowVault_foreign : ∀ data, Foreign (discriminator "account" "EscrowVault") Solana.EscrowVault.space data →
    ∃ e, Sdk.decodeEscrowVault data = .error e
  decodeIntentState : ∀ (intent : Solana.IntentState) rest,
    Sdk.decodeIntentState (intent.data (discriminator "account" "IntentState") ++ rest) = .ok (.of intent)
  decodeIntentState_foreign : ∀ data, Foreign (discriminator "account" "IntentState") Solana.IntentState.space data →
    ∃ e, Sdk.decodeIntentState data = .error e
  decodeIntentSubmitted : ∀ intentId sender nonce c dstEid guid lzNonce rest,
    Relayer.decodeIntentSubmitted
        ((Solana.Event.intentSubmitted intentId sender nonce c dstEid guid lzNonce).data ++ rest) =
      some (shown intentId sender c dstEid)
  decodeIntentSubmitted_foreign : ∀ data, Foreign (discriminator "event" "IntentSubmitted") 173 data →
    Relayer.decodeIntentSubmitted data = none
  -- whatever the tag
  getEscrow : ∀ cfg (o : ∀ c : Call, Except Failure c.Answer) id tag (vault : Solana.EscrowVault) rest,
    cfg.solanaConfigured = true → o (.getAccountInfo id) = .ok (some (vault.data tag ++ rest)) →
      Async.result o (Relayer.solanaGetEscrow cfg id) = .ok (some (vault.amount.toNat, vault.status.toNat))
  getEscrow_short : ∀ cfg (o : ∀ c : Call, Except Failure c.Answer) id data, cfg.solanaConfigured = true →
    o (.getAccountInfo id) = .ok (some data) → data.length < Solana.EscrowVault.space →
      Async.result o (Relayer.solanaGetEscrow cfg id) = .ok none
  isIntentExecuted : ∀ (o : ∀ c : Rpc, Except RpcError c.Answer) account tag (intent : Solana.IntentState) rest,
    o (.getAccountInfo account) = .ok (some (intent.data tag ++ rest)) →
      Async.result o (Relayer.isIntentExecuted account) = .ok intent.executed
  isIntentExecuted_short : ∀ (o : ∀ c : Rpc, Except RpcError c.Answer) account data,
    o (.getAccountInfo account) = .ok (some data) → data.length ≤ 96 →
      Async.result o (Relayer.isIntentExecuted account) = .ok false
  encodeSubmitIntentData : ∀ (p : Solana.SubmitIntentParams) blobId, p.options.length < 2 ^ 32 →
    hexToBytes (Sdk.strip0x blobId) = .ok p.blobId.val →
      Sdk.encodeSubmitIntentData (Sdk.codecsWith hexToBytes) (.of p blobId) = .ok p.data ∧
      Solana.decodeSubmitIntent (discriminator "global" "submit_intent") p.data = some p
  encodeConfirmExecutionData_sdk : ∀ intentId returnedBlobId (id blob : Bytes 32) (endEpoch : UInt64),
    hexToBytes (Sdk.strip0x intentId) = .ok id.val → hexToBytes (Sdk.strip0x returnedBlobId) = .ok blob.val →
      Sdk.encodeConfirmExecutionData (Sdk.codecsWith hexToBytes) intentId returnedBlobId endEpoch.toNat =
        .ok (Solana.confirmExecutionData id blob endEpoch)
  encodeConfirmExecutionData_relayer : ∀ intentId (id blob : Bytes 32) (endEpoch : UInt64),
    Relayer.getBytes intentId = .ok id.val →
      Relayer.encodeConfirmExecutionData intentId blob.val endEpoch.toNat =
        .ok (Solana.confirmExecutionData id blob endEpoch)
  decodeConfirmExecution : ∀ (id blob : Bytes 32) endEpoch,
    Solana.decodeConfirmExecution (discriminator "global" "confirm_execution")
      (Solana.confirmExecutionData id blob endEpoch) = some (.confirmExecution id blob endEpoch)

/-- The hand-written layouts are the program's, for whatever decoder of hexadecimal text the SDK uses. -/
theorem solanaLayouts (hexToBytes : String → Except Ts.JsError (List UInt8)) : Layouts hexToBytes where
  decodeEscrowVault := Sdk.decodeEscrowVault_data
  decodeEscrowVault_foreign _ := Sdk.decodeAccount_rejects Sdk.reads_escrowVault
  decodeIntentState := Sdk.decodeIntentState_data
  decodeIntentState_foreign _ := Sdk.decodeAccount_rejects Sdk.reads_intentState
  decodeIntentSubmitted := decodeIntentSubmitted_data
  decodeIntentSubmitted_foreign _ := decodeIntentSubmitted_rejects
  getEscrow _ _ _ tag vault rest hcfg hacc := by rw [getEscrow_result hcfg hacc, decodeVault_data]
  getEscrow_short _ _ _ _ hcfg hacc hlength := by rw [getEscrow_result hcfg hacc, decodeVault_short hlength]
  isIntentExecuted _ _ tag intent rest hacc := by rw [isIntentExecuted_result hacc, showsExecuted_data]
  isIntentExecuted_short _ _ _ hacc hlength := by rw [isIntentExecuted_result hacc, showsExecuted_short hlength]
  encodeSubmitIntentData p _ hoptions hblob :=
    ⟨Sdk.encodeSubmitIntentData_data p hblob, Solana.decodeSubmitIntent_data p hoptions⟩
  encodeConfirmExecutionData_sdk _ _ _ _ endEpoch hid hblob := Sdk.encodeConfirmExecutionData_data endEpoch hid hblob
  encodeConfirmExecutionData_relayer _ _ blob endEpoch hid := by
    rw [Relayer.encodeConfirmExecutionData_ok hid blob.property endEpoch.toNat_lt, ← confirm_tag]
    simp only [Solana.confirmExecutionData, List.flatten_cons, List.flatten_nil, List.append_nil]
  decodeConfirmExecution := Solana.decodeConfirmExecution_data

/-! ## What the relayer reads without a tag -/

def untaggedVault : List UInt8 := List.replicate 90 0

/-- The bytes of an intent up to its flag, without a tag and without what follows. -/
def untaggedIntent : List UInt8 := List.replicate 96 0 ++ [1]

/-- The relayer's two reads take an account that the SDK's decoders reject. -/
theorem untagged_accepted :
    (Foreign (discriminator "account" "EscrowVault") Solana.EscrowVault.space untaggedVault ∧
      decodeVault untaggedVault = some (0, 0)) ∧
    Foreign (discriminator "account" "IntentState") Solana.IntentState.space untaggedIntent ∧
      untaggedIntent.length < Solana.IntentState.space ∧ showsExecuted untaggedIntent = true := by
  have hvault : untaggedVault.take 8 ≠ (discriminator "account" "EscrowVault").val := by decide +kernel
  have hlength : untaggedIntent.length < Solana.IntentState.space := by decide
  exact ⟨⟨Or.inr hvault, by decide +kernel⟩, Or.inl hlength, hlength, by decide⟩

end Bosphor.CrossChain

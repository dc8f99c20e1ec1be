import Bosphor.Evm.Effects
import Bosphor.Lib.Host
import Bosphor.Lib.Places
import Bosphor.Relayer.ConfirmExecution
import Bosphor.Relayer.OneIntent
import Bosphor.Solana.Effects

/-!
# Confirmations that landed

The adapter of an origin refuses to confirm an intent twice, and a confirmation
may land although its sender is told of an error. So a sender that is to tell
the two refusals apart has to look at the intent.

* `Network`: the two adapters and the transactions that the relayer's wallet
  sent on EVM; `Network.Moves` is what happens there, `Serves` how the calls of
  a confirmation are answered. A call may report an error whatever became of it.
* `confirms_iff`: a confirmation of an intent that its origin has executed
  succeeds exactly on Solana, where the account was read back
  (`Confirmation.Rebuilt`). The EVM service never looks, and throws.
* `Returns`: the network with the table of the relayer, under return legs, each
  run by `returnStep` and settled as a failed or as a completed attempt.
* `landed_confirmations`: a row whose intent was executed is not dead-lettered
  as undelivered in runs whose confirmations of it are all rebuilt.
* `landed_confirmation_lost`: a run on EVM in which it is.
-/

namespace Bosphor

/-- What was executed stays executed. -/
theorem Evm.call_executed {now : Nat} {c : Evm.Call} {s s' : Evm.State} {id : Evm.IntentId}
    (h : Evm.call now c s = .ok s') (hexecuted : s.executed id = true) : s'.executed id = true :=
  (Evm.call_effects c (fun _ _ => trivial : ∀ op ∈ c.ops, (fun _ => True) op) s s' h 0).keeps
    (P := fun p => p.1.executed id = true) (fun p q heffect hp => by
      cases heffect with
      | @prove s r value packet id' blobId endEpoch ha hdec hprov =>
        show Function.update s.executed id' true id = true
        rw [Function.update_apply]
        split
        · rfl
        · exact hp
      | @confirm s r id' proof ha hi hx =>
        show Function.update s.executed id' true id = true
        rw [Function.update_apply]
        split
        · rfl
        · exact hp
      | _ => exact hp) hexecuted

/-- Whether the program has recorded the result of an intent. -/
def Solana.State.Executed (s : Solana.State) (id : Solana.IntentId) : Prop :=
  ∃ intent, s.intents id = some intent ∧ intent.executed = true

/-- What was executed stays executed. -/
theorem Solana.perform_executed {clearAccounts : Nat} {a : Solana.Action} {s s' : Solana.State} {id : Solana.IntentId}
    (h : Solana.perform clearAccounts a s = .ok s') (hexecuted : s.Executed id) : s'.Executed id := by
  obtain ⟨⟨now, op⟩, -, hstep⟩ := Solana.perform_step h
  obtain ⟨intent, hintent, hx⟩ := hexecuted
  cases Solana.step_effect hstep with
  | @submit s payer c dstEid nativeFee escrowAmount store peer r lamports hs =>
    refine ⟨intent, ?_, hx⟩
    have hne : id ≠ Solana.submissionId c payer (s.nextNonce payer) := by
      rintro rfl
      rw [hs.newIntent] at hintent
      cases hintent
    exact (Function.update_of_ne hne ..).trans hintent
  | @release s params beneficiary proof intent' vault hd =>
    show ∃ i, Function.update s.intents proof.intentId _ id = some i ∧ _
    rw [Function.update_apply]
    split
    · exact ⟨_, rfl, rfl⟩
    · exact ⟨intent, hintent, hx⟩
  | @confirm s store intent' id' endEpoch hstore hi hx' =>
    show ∃ i, Function.update s.intents id' _ id = some i ∧ _
    rw [Function.update_apply]
    split
    · exact ⟨_, rfl, rfl⟩
    · exact ⟨intent, hintent, hx⟩
  | _ => exact ⟨intent, hintent, hx⟩

namespace Relayer

open Async StagedIntentStore

/-! ## The network -/

/-- What became of a transaction that was sent. -/
inductive TxStatus where
  | pending
  | succeeded
  | failed
  deriving DecidableEq

/-- A transaction of the relayer's wallet that calls `confirmExecution`. -/
structure EvmTx where
  intentId : Evm.IntentId
  proof : List UInt8
  nonce : Nat
  status : TxStatus := .pending

/-- The adapters of both origins, and the transactions that the wallet sent. -/
structure Network where
  adapter : Evm.State
  sent : List EvmTx
  program : Solana.State

/-- Who the relayer is on the origins, and what is theirs. -/
structure Chains where
  wallet : Evm.Address
  admin : Solana.Pubkey
  /-- How many accounts the endpoint's `clear` takes. -/
  clearAccounts : Nat
  intentDiscriminator : Bytes 8

/-- Where an intent comes from. -/
inductive OriginChain where
  | evm
  | solana
  deriving DecidableEq

/-- The origin has marked the intent executed. -/
def Network.Executed (w : Network) (key : Bytes 32) : OriginChain → Prop
  | .evm => w.adapter.executed key = true
  | .solana => w.program.Executed key

variable (chains : Chains)

/-- The network once a transaction is mined, which the adapter may refuse. -/
def Network.mined (w : Network) (now k : Nat) (tx : EvmTx) : Network :=
  match Evm.confirmExecution now chains.wallet tx.intentId tx.proof w.adapter with
  | .ok adapter => { w with adapter, sent := w.sent.set k { tx with status := .succeeded } }
  | .error _ => { w with sent := w.sent.set k { tx with status := .failed } }

/-- What happens on the origins, whoever does it. -/
inductive Network.Moves : Network → Network → Prop
  | evm {w adapter} (now : Nat) (c : Evm.Call) (h : Evm.call now c w.adapter = .ok adapter) :
    Moves w { w with adapter }
  -- sent by a call that reports an error, or by another program of the relayer
  | send {w} (intentId : Evm.IntentId) (proof : List UInt8) (nonce : Nat) :
    Moves w { w with sent := w.sent ++ [⟨intentId, proof, nonce, .pending⟩] }
  -- one transaction of a nonce is mined
  | mine {w k tx} (now : Nat) (hk : w.sent[k]? = some tx) (hpending : tx.status = .pending)
    (hnonce : ∀ t ∈ w.sent, t.status ≠ .pending → t.nonce ≠ tx.nonce) : Moves w (w.mined chains now k tx)
  | solana {w program} (a : Solana.Action) (h : Solana.perform chains.clearAccounts a w.program = .ok program) :
    Moves w { w with program }

/-- How a call is answered, and what it leaves. Any call may fail; whether what it sent landed is up to the moves. A
read of an account that is answered shows the account as it is then. -/
def Serves (w : Network) : (c : Rpc) → Except RpcError c.Answer → Network → Prop
  | _, .error _, w' => w' = w
  | .getFeeData, .ok _, w' => w' = w
  | .getTransactionCount, .ok _, w' => w' = w
  | .sleep _, .ok _, w' => w' = w
  | .confirmExecution intentId proof nonce _, .ok tx, w' => ∃ key : Evm.IntentId, getBytes intentId = .ok key.val ∧
      tx = w.sent.length ∧ w' = { w with sent := w.sent ++ [⟨key, proof, nonce, .pending⟩] }
  -- a receipt is that of a transaction that was mined and did not revert
  | .wait tx, .ok _, w' => (∃ t, w.sent[tx]? = some t ∧ t.status = .succeeded) ∧ w' = w
  | .sendAndConfirmTransaction keys data, .ok _, w' => ∃ now instruction program,
      Solana.decodeConfirmExecution CONFIRM_EXECUTION_DISC data = some instruction ∧
      Solana.process chains.clearAccounts ⟨now, instruction, keys, true, none⟩ w.program = .ok program ∧
      w' = { w with program }
  | .getAccountInfo (.intent key), .ok acc, w' =>
      acc = (w.program.intents key).map (·.data chains.intentDiscriminator) ∧ w' = w
  | .getAccountInfo _, .ok _, w' => w' = w

/-! ## Confirmations -/

/-- A call of a service's `confirmExecution`. -/
inductive Confirmation where
  | evm (intentId : IntentId) (proof : List UInt8)
  | solana (intentId : IntentId) (blobId : List UInt8) (endEpoch : Nat)

def Confirmation.intentId : Confirmation → IntentId
  | .evm intentId _ => intentId
  | .solana intentId _ _ => intentId

def Confirmation.origin : Confirmation → OriginChain
  | .evm .. => .evm
  | .solana .. => .solana

variable (cfg : Config)

def Confirmation.program : Confirmation → RpcProgram String
  | .evm intentId proof => sendConfirmExecution intentId proof
  | .solana intentId blobId endEpoch =>
    solanaConfirmExecution cfg.solanaCanConfirm chains.admin intentId blobId endEpoch

def rpcHost : Host Network Rpc Rpc.Answer RpcError String where
  starts _ _ _ := False
  serves := Serves chains
  moves := Network.Moves chains

/-- The call, made in `w`, ends with `r` and leaves `w'`. -/
def Confirms (w : Network) (c : Confirmation) (told : RpcTold) (r : Except RpcError String) (w' : Network) : Prop :=
  (rpcHost chains).Leads (fun _ _ => True) (w, some ⟨[], c.program chains cfg⟩) (w', some ⟨told, Async.ofExcept r⟩)

/-- No read of an account failed. -/
def ReadsAnswered (told : RpcTold) : Prop := ∀ account e, ⟨.getAccountInfo account, .error e⟩ ∉ told

/-- That the intent was executed is seen by the client: on Solana, with a signer and arguments that can be written, from
the account. -/
def Confirmation.Rebuilt (told : RpcTold) : Confirmation → Prop
  | .evm .. => False
  | .solana _ blobId endEpoch =>
    cfg.solanaCanConfirm = true ∧ blobId.length = 32 ∧ endEpoch < 2 ^ 64 ∧ ReadsAnswered told

variable {chains cfg} {w w' : Network} {key : Bytes 32} {o : OriginChain} {intentId : IntentId} {told : RpcTold}
  {r : Except RpcError String}

/-! ## What stays executed -/

theorem Network.mined_executed {now k : Nat} {tx : EvmTx} (h : w.Executed key o) :
    (w.mined chains now k tx).Executed key o := by
  unfold Network.mined
  split
  · rename_i adapter hconfirm
    cases o with
    | evm =>
      obtain ⟨-, -, -, rfl⟩ := Evm.confirmExecution_ok.mp hconfirm
      show Function.update w.adapter.executed tx.intentId true key = true
      rw [Function.update_apply]
      split
      · rfl
      · exact h
    | solana => exact h
  · cases o <;> exact h

theorem Network.Moves.executed (hmove : Network.Moves chains w w') (h : w.Executed key o) : w'.Executed key o := by
  cases hmove with
  | evm now c hcall =>
    cases o with
    | evm => exact Evm.call_executed hcall h
    | solana => exact h
  | send => cases o <;> exact h
  | mine now hk hpending hnonce => exact Network.mined_executed h
  | solana a hperform =>
    cases o with
    | evm => exact h
    | solana => exact Solana.perform_executed hperform h

/-- A call leaves the network alone, or adds a transaction, or runs an instruction. -/
theorem Serves.cases {c : Rpc} {r : Except RpcError c.Answer} (h : Serves chains w c r w') :
    w' = w ∨ (∃ tx, w' = { w with sent := w.sent ++ [tx] }) ∨ ∃ a program,
      Solana.perform chains.clearAccounts a w.program = .ok program ∧ w' = { w with program } := by
  cases r with
  | error e => exact Or.inl (by cases c <;> exact h)
  | ok a =>
    cases c with
    | confirmExecution intentId proof nonce fees =>
      obtain ⟨k, -, -, rfl⟩ := h
      exact Or.inr (Or.inl ⟨_, rfl⟩)
    | wait tx => exact Or.inl h.2
    | sendAndConfirmTransaction keys data =>
      obtain ⟨now, instruction, program, -, hprocess, rfl⟩ := h
      exact Or.inr (Or.inr ⟨.invoke ⟨now, instruction, keys, true, none⟩, program, hprocess, rfl⟩)
    | getAccountInfo account =>
      cases account with
      | intent k => exact Or.inl h.2
      | _ => exact Or.inl h
    | _ => exact Or.inl h

theorem Serves.executed {c : Rpc} {r : Except RpcError c.Answer} (hserves : Serves chains w c r w')
    (h : w.Executed key o) :
    w'.Executed key o := by
  obtain rfl | ⟨tx, rfl⟩ | ⟨a, program, hperform, rfl⟩ := hserves.cases
  · exact h
  · cases o <;> exact h
  · cases o with
    | evm => exact h
    | solana => exact Solana.perform_executed hperform h

/-! ## On EVM -/

/-- A confirmation waits for what it sent. -/
def WaitsForSent (intentId : IntentId) (told : RpcTold) (c : Rpc) : Prop :=
  ∀ tx, c = .wait tx → ∃ proof nonce fees, ⟨.confirmExecution intentId proof nonce fees, .ok tx⟩ ∈ told

theorem WaitsForSent.of_ne {c : Rpc} (h : ∀ tx, c ≠ .wait tx) : WaitsForSent intentId told c :=
  fun tx htx => absurd htx (h tx)

/-- No receipt was answered. -/
def NoReceipt (told : RpcTold) : Prop := ∀ tx hash, ⟨.wait tx, .ok hash⟩ ∉ told

/-- Without a receipt the attempts end in an error. -/
theorem wp_confirmAttempts (proof : List UInt8) (left : Nat) (fees : FeeOverrides) (nonce feeBumps : Nat)
    (told : RpcTold) :
    wp (WaitsForSent intentId) (fun told r => NoReceipt told → ∃ e, r = .error e) told
      (confirmAttempts intentId proof left fees nonce feeBumps) := by
  induction left generalizing fees nonce feeBumps told with
  | zero => exact fun _ => ⟨_, rfl⟩
  | succ left ih =>
    -- an error is followed by the same, whichever call it is of
    have hretry : ∀ told err, wp (WaitsForSent intentId) (fun told r => NoReceipt told → ∃ e, r = .error e) told
        (afterError intentId proof left fees nonce feeBumps err) := by
      intro told err
      unfold afterError
      split
      · exact fun _ => ⟨_, rfl⟩
      · split
        · rw [wp_bind]
          refine (wp_call _).mpr ⟨.of_ne (by simp), fun r => ?_⟩
          cases r with
          | error e => exact fun _ => ⟨_, rfl⟩
          | ok count =>
            rw [andThen_ok]
            split
            · exact ih ..
            · exact ih ..
        · rw [wp_bind]
          refine (wp_call _).mpr ⟨.of_ne (by simp), fun r => ?_⟩
          cases r with
          | error e => exact fun _ => ⟨_, rfl⟩
          | ok _ => exact ih ..
    rw [confirmAttempts, wp_tryCatch, wp_bind]
    refine (wp_call _).mpr ⟨.of_ne (by simp), fun r => ?_⟩
    cases r with
    | error e => exact hretry _ e
    | ok tx =>
      rw [andThen_ok]
      refine (wp_call _).mpr ⟨?_, ?_⟩
      · intro tx' htx
        cases htx
        exact ⟨proof, nonce, fees, List.mem_append_right _ (List.mem_singleton.mpr rfl)⟩
      · intro r
        cases r with
        | error e => exact hretry _ e
        | ok hash => exact fun hnone => absurd (List.mem_append_right _ (List.mem_singleton.mpr rfl)) (hnone tx hash)

theorem wp_sendConfirmExecution (proof : List UInt8) : wp (WaitsForSent intentId)
    (fun told r => NoReceipt told → ∃ e, r = .error e) [] (sendConfirmExecution intentId proof) := by
  rw [sendConfirmExecution, wp_bind, initialFeeOverrides, wp_bind]
  refine (wp_call _).mpr ⟨.of_ne (by simp), fun r => ?_⟩
  cases r with
  | error e => exact fun _ => ⟨_, rfl⟩
  | ok feeData =>
    rw [andThen_ok, wp_pure, andThen_ok, wp_bind]
    refine (wp_call _).mpr ⟨.of_ne (by simp), fun r => ?_⟩
    cases r with
    | error e => exact fun _ => ⟨_, rfl⟩
    | ok nonce => exact wp_confirmAttempts ..

/-- What was sent for the intent has not succeeded. -/
structure Unreceipted (key : Bytes 32) (intentId : IntentId) (w : Network) (told : RpcTold) : Prop where
  sent : ∀ tx proof nonce fees, ⟨.confirmExecution intentId proof nonce fees, .ok tx⟩ ∈ told →
    ∃ t, w.sent[tx]? = some t ∧ t.intentId = key ∧ t.status ≠ .succeeded
  receipts : NoReceipt told

/-- A transaction for an intent that was executed does not succeed. -/
theorem Network.Moves.unsucceeded (hmove : Network.Moves chains w w') (h : w.adapter.executed key = true) {k : Nat}
    {t : EvmTx} (hk : w.sent[k]? = some t) (hkey : t.intentId = key) (hstatus : t.status ≠ .succeeded) :
    ∃ t', w'.sent[k]? = some t' ∧ t'.intentId = key ∧ t'.status ≠ .succeeded := by
  cases hmove with
  | evm now c hcall => exact ⟨t, hk, hkey, hstatus⟩
  | solana a hperform => exact ⟨t, hk, hkey, hstatus⟩
  | send intentId proof nonce =>
    exact ⟨t, Places.get_append hk _, hkey, hstatus⟩
  | @mine j tx now hj hpending hnonce =>
    by_cases hsame : j = k
    · subst hsame
      obtain rfl := Option.some.inj (hk.symm.trans hj)
      unfold Network.mined
      split
      · rename_i adapter hconfirm
        obtain ⟨-, -, hnot, -⟩ := Evm.confirmExecution_ok.mp hconfirm
        rw [hkey, h] at hnot
        cases hnot
      · exact ⟨{ t with status := .failed }, Places.get_set_self hk, hkey, TxStatus.noConfusion⟩
    · have hsent : (w.mined chains now j tx).sent[k]? = w.sent[k]? := by
        unfold Network.mined
        split
        · exact List.getElem?_set_ne hsame
        · exact List.getElem?_set_ne hsame
      exact ⟨t, hsent.trans hk, hkey, hstatus⟩

theorem Unreceipted.nil : Unreceipted key intentId w [] where
  sent _ _ _ _ hmem := absurd hmem List.not_mem_nil
  receipts _ _ := List.not_mem_nil

theorem Unreceipted.moves (h : Unreceipted key intentId w told) (hmove : Network.Moves chains w w')
    (hexecuted : w.adapter.executed key = true) : Unreceipted key intentId w' told where
  sent tx proof nonce fees hmem := by
    obtain ⟨t, ht, hkey, hstatus⟩ := h.sent tx proof nonce fees hmem
    exact hmove.unsucceeded hexecuted ht hkey hstatus
  receipts := h.receipts

/-- What a call is answered for an intent that was executed is no success. -/
theorem Serves.refused {c : Rpc} {r : Except RpcError c.Answer} (hserves : Serves chains w c r w')
    (hid : getBytes intentId = .ok key.val) (hwaits : WaitsForSent intentId told c)
    (h : Unreceipted key intentId w told) :
    Unreceipted key intentId w' (told ++ [⟨c, r⟩]) := by
  -- what was sent before is still there
  have hkept : ∀ {tx : Nat} {t : EvmTx}, w.sent[tx]? = some t → w'.sent[tx]? = some t := by
    intro tx t ht
    obtain rfl | ⟨new, rfl⟩ | ⟨a, program, -, rfl⟩ := hserves.cases
    · exact ht
    · exact Places.get_append ht _
    · exact ht
  constructor
  · intro tx proof nonce fees hmem
    obtain hold | hnew := List.mem_append.mp hmem
    · obtain ⟨t, ht, hkey, hstatus⟩ := h.sent tx proof nonce fees hold
      exact ⟨t, hkept ht, hkey, hstatus⟩
    · cases List.mem_singleton.mp hnew
      obtain ⟨key', hkey', rfl, rfl⟩ := hserves
      have hsame : key' = key := Subtype.ext (Except.ok.inj (hkey'.symm.trans hid))
      exact ⟨⟨key', proof, nonce, .pending⟩, List.getElem?_concat_length, hsame, TxStatus.noConfusion⟩
  · intro tx hash hmem
    obtain hold | hnew := List.mem_append.mp hmem
    · exact h.receipts tx hash hold
    · cases List.mem_singleton.mp hnew
      obtain ⟨⟨t, ht, hsucceeded⟩, -⟩ := hserves
      obtain ⟨proof, nonce, fees, hsent⟩ := hwaits tx rfl
      obtain ⟨t', ht', -, hstatus⟩ := h.sent tx proof nonce fees hsent
      obtain rfl := Option.some.inj (ht.symm.trans ht')
      exact hstatus hsucceeded

/-- The service throws for an intent that was executed, whatever it is answered. -/
theorem Confirms.evm_throws {proof : List UInt8} (h : Confirms chains cfg w (.evm intentId proof) told r w')
    (hid : getBytes intentId = .ok key.val) (hexecuted : w.Executed key .evm) : ∃ e, r = .error e := by
  have hkeeps := Host.Leads.keeps (I := fun w : Network => w.Executed key .evm) (J := Unreceipted key intentId)
    (P := WaitsForSent intentId) (Q := fun told r => NoReceipt told → ∃ e, r = .error e)
    (fun w p w' _ _ hstarts => False.elim hstarts)
    (fun w told c next r w' hI hJ hP _ hserves => ⟨Serves.executed hserves hI, Serves.refused hserves hid hP hJ⟩)
    (fun w s w' hI _ hmove => ⟨Network.Moves.executed hmove hI, fun told hJ => hJ.moves hmove hI⟩)
    h ⟨hexecuted, fun s hs => by
      cases hs
      exact ⟨.nil, wp_sendConfirmExecution proof⟩⟩
  obtain ⟨hrefused, hend⟩ := hkeeps.2 _ rfl
  rw [wp_ofExcept] at hend
  exact hend hrefused.receipts

/-! ## On Solana -/

/-- A confirmation sends nothing but the instruction that confirms its intent. -/
def SendsConfirmation (key : Bytes 32) (c : Rpc) : Prop := ∀ keys data, c = .sendAndConfirmTransaction keys data →
  ∃ blobId endEpoch, Solana.decodeConfirmExecution CONFIRM_EXECUTION_DISC data =
    some (.confirmExecution key blobId endEpoch)

theorem SendsConfirmation.of_ne {c : Rpc} (h : ∀ keys data, c ≠ .sendAndConfirmTransaction keys data) :
    SendsConfirmation key c :=
  fun keys data hc => absurd hc (h keys data)

/-- No send was answered, and a read showed that the intent was executed. -/
structure Shown (key : Bytes 32) (told : RpcTold) : Prop where
  sends : ∀ keys data signature, ⟨.sendAndConfirmTransaction keys data, .ok signature⟩ ∉ told
  reads : ∀ acc, ⟨.getAccountInfo (.intent key), .ok acc⟩ ∈ told → acc.any showsExecuted = true

theorem Shown.nil : Shown key [] where
  sends _ _ _ := List.not_mem_nil
  reads _ hmem := absurd hmem List.not_mem_nil

/-- The end that a confirmation of an executed intent comes to. -/
def RebuiltEnd (cfg : Config) (key : Bytes 32) (c : Confirmation) (told : RpcTold)
    (r : Except RpcError String) : Prop :=
  Shown key told → ((∃ signature, r = .ok signature) ↔ c.Rebuilt cfg told)

/-- With a signer and arguments that can be written, the end is up to the read. -/
theorem wp_solana_written (blobId : Bytes 32) {endEpoch : Nat} (hid : getBytes intentId = .ok key.val)
    (hcan : cfg.solanaCanConfirm = true) (hepoch : endEpoch < 2 ^ 64) :
    wp (fun _ => SendsConfirmation key) (RebuiltEnd cfg key (.solana intentId blobId.val endEpoch)) []
      (solanaConfirmExecution cfg.solanaCanConfirm chains.admin intentId blobId.val endEpoch) := by
  have hrebuilt : ∀ told, (Confirmation.solana intentId blobId.val endEpoch).Rebuilt cfg told ↔ ReadsAnswered told :=
    fun told => ⟨fun h => h.2.2.2, fun h => ⟨hcan, blobId.property, hepoch, h⟩⟩
  simp only [solanaConfirmExecution, hcan, Bool.not_true, Bool.false_eq_true, if_false, intentPda_ok hid,
    encodeConfirmExecutionData_ok hid blobId.property hepoch]
  show wp _ _ [] (tryCatch (Async.call (Rpc.sendAndConfirmTransaction _ _)) _)
  rw [wp_tryCatch]
  refine (wp_call _).mpr ⟨fun keys data hc => ?_, fun r => ?_⟩
  · cases hc
    exact ⟨blobId, _, Solana.decodeConfirmExecution_encoded _ key blobId endEpoch⟩
  · cases r with
    | ok signature =>
      exact fun hshown => absurd (List.mem_append_right _ (List.mem_singleton.mpr rfl)) (hshown.sends _ _ signature)
    | error err =>
      rw [orElse_error, wp_bind, isIntentExecuted, wp_tryCatch, wp_bind]
      refine (wp_call _).mpr ⟨.of_ne (by simp), fun r => ?_⟩
      cases r with
      | ok acc =>
        rw [andThen_ok, wp_pure, orElse_ok, andThen_ok]
        -- the read shows it
        by_cases hshows : acc.any showsExecuted = true
        · rw [if_pos hshows, wp_pure]
          refine fun _ => iff_of_true ⟨_, rfl⟩ ((hrebuilt _).mpr fun account e hmem => ?_)
          simp only [List.nil_append, List.cons_append, List.mem_cons, List.not_mem_nil, or_false] at hmem
          obtain h | h := hmem
          · cases h
          · cases h
        · rw [if_neg hshows, wp_throw]
          exact fun hshown => absurd (hshown.reads acc (List.mem_append_right _ (List.mem_singleton.mpr rfl))) hshows
      | error e =>
        rw [andThen_error, orElse_error, wp_pure, andThen_ok, if_neg Bool.false_ne_true, wp_throw]
        refine fun _ => iff_of_false (fun ⟨_, h⟩ => by cases h) fun h => ?_
        exact (hrebuilt _).mp h (.intent key) e (List.mem_append_right _ (List.mem_singleton.mpr rfl))

theorem wp_solanaConfirmExecution {blobId : List UInt8} {endEpoch : Nat} (hid : getBytes intentId = .ok key.val) :
    wp (fun _ => SendsConfirmation key) (RebuiltEnd cfg key (.solana intentId blobId endEpoch)) []
      (solanaConfirmExecution cfg.solanaCanConfirm chains.admin intentId blobId endEpoch) := by
  by_cases hcan : cfg.solanaCanConfirm = true
  · by_cases hwritten : blobId.length = 32 ∧ endEpoch < 2 ^ 64
    · exact wp_solana_written ⟨blobId, hwritten.1⟩ hid hcan hwritten.2
    · obtain ⟨e, he⟩ := encodeConfirmExecutionData_error hid hwritten
      simp only [solanaConfirmExecution, hcan, Bool.not_true, Bool.false_eq_true, if_false, intentPda_ok hid, he]
      exact fun _ => iff_of_false (fun ⟨_, h⟩ => by cases h) fun h => hwritten ⟨h.2.1, h.2.2.1⟩
  · simp only [solanaConfirmExecution, Bool.eq_false_of_not_eq_true hcan, Bool.not_false, if_true]
    exact fun _ => iff_of_false (fun ⟨_, h⟩ => by cases h) fun h => hcan h.1

/-- The account of an executed intent shows it. -/
theorem shows_executed {s : Solana.State} (h : s.Executed key) (discriminator : Bytes 8) :
    ((s.intents key).map (·.data discriminator)).any showsExecuted = true := by
  obtain ⟨intent, hintent, hx⟩ := h
  obtain ⟨hlength, hbyte⟩ := intent.data_executed discriminator
  rw [hintent, Option.map_some, Option.any_some, showsExecuted, hbyte, hx, decide_eq_true hlength]
  rfl

/-- The program refuses to confirm an executed intent, and its account shows it. -/
theorem Serves.shown {c : Rpc} {r : Except RpcError c.Answer} (hserves : Serves chains w c r w')
    (hsends : SendsConfirmation key c) (hexecuted : w.program.Executed key) (h : Shown key told) :
    Shown key (told ++ [⟨c, r⟩]) := by
  obtain ⟨intent, hintent, hx⟩ := hexecuted
  constructor
  · intro keys data signature hmem
    obtain hold | hnew := List.mem_append.mp hmem
    · exact h.sends keys data signature hold
    · cases List.mem_singleton.mp hnew
      obtain ⟨now, instruction, program, hdecode, hprocess, -⟩ := hserves
      obtain ⟨blobId, endEpoch, hdecode'⟩ := hsends keys data rfl
      obtain rfl := Option.some.inj (hdecode.symm.trans hdecode')
      obtain ⟨admin, -, hconfirm⟩ := Result.bind_ok.mp hprocess
      obtain ⟨store, intent', -, -, -, hintent', -, hx', -⟩ :=
        Solana.confirmExecution_ok.mp (Solana.mapError_ok.mp hconfirm)
      obtain rfl := Option.some.inj (hintent.symm.trans hintent')
      rw [hx] at hx'
      cases hx'
  · intro acc hmem
    obtain hold | hnew := List.mem_append.mp hmem
    · exact h.reads acc hold
    · cases List.mem_singleton.mp hnew
      obtain ⟨rfl, -⟩ := hserves
      exact shows_executed ⟨intent, hintent, hx⟩ chains.intentDiscriminator

/-- The service succeeds for an intent that was executed exactly where it reads that it was. -/
theorem Confirms.solana_iff {blobId : List UInt8} {endEpoch : Nat}
    (h : Confirms chains cfg w (.solana intentId blobId endEpoch) told r w') (hid : getBytes intentId = .ok key.val)
    (hexecuted : w.Executed key .solana) :
    (∃ signature, r = .ok signature) ↔ (Confirmation.solana intentId blobId endEpoch).Rebuilt cfg told := by
  have hkeeps := Host.Leads.keeps (I := fun w : Network => w.Executed key .solana) (J := fun _ => Shown key)
    (P := fun _ => SendsConfirmation key) (Q := RebuiltEnd cfg key (.solana intentId blobId endEpoch))
    (fun w p w' _ _ hstarts => False.elim hstarts)
    (fun w told c next r w' hI hJ hP _ hserves => ⟨Serves.executed hserves hI, Serves.shown hserves hP hI hJ⟩)
    (fun w s w' hI _ hmove => ⟨Network.Moves.executed hmove hI, fun told hJ => hJ⟩)
    h ⟨hexecuted, fun s hs => by
      cases hs
      exact ⟨.nil, wp_solanaConfirmExecution hid⟩⟩
  obtain ⟨hshown, hend⟩ := hkeeps.2 _ rfl
  rw [wp_ofExcept] at hend
  exact hend hshown

/-- A confirmation of an intent that its origin has executed succeeds exactly where that was rebuilt. -/
theorem confirms_iff {c : Confirmation} (h : Confirms chains cfg w c told r w') (hid : c.intentId = hexlify key.val)
    (hexecuted : w.Executed key c.origin) : (∃ signature, r = .ok signature) ↔ c.Rebuilt cfg told := by
  have hkey : getBytes c.intentId = .ok key.val := hid ▸ getBytes_hexlify key.val
  cases c with
  | evm intentId proof =>
    obtain ⟨e, rfl⟩ := h.evm_throws hkey hexecuted
    exact iff_of_false (fun ⟨_, h⟩ => by cases h) id
  | solana intentId blobId endEpoch => exact h.solana_iff hkey hexecuted

/-- A confirmation does not undo what was executed. -/
theorem Confirms.executed {c : Confirmation} (h : Confirms chains cfg w c told r w') (hexecuted : w.Executed key o) :
    w'.Executed key o :=
  (Host.Leads.keeps (I := fun w : Network => w.Executed key o) (J := fun _ _ => True) (P := fun _ _ => True)
    (Q := fun _ _ => True) (fun _ _ _ _ _ hstarts => False.elim hstarts)
    (fun _ _ _ _ _ _ hI _ _ _ hserves => ⟨Serves.executed hserves hI, trivial⟩)
    (fun _ _ _ hI _ hmove => ⟨Network.Moves.executed hmove hI, fun _ _ => trivial⟩) h
    ⟨hexecuted, fun s _ => ⟨trivial, wp_frame (I := fun _ => True) (fun _ _ _ _ _ => trivial) (fun _ _ _ _ => trivial)
      (fun _ _ _ => trivial) (calls_true s.rest) trivial⟩⟩).1

/-! ## Rows given up as undelivered -/

/-- The text of a row whose return was given up. -/
def undeliveredText (attempts : Nat) (text : String) : String :=
  s!"return proof undelivered after {attempts} attempts (capped): {text}"

/-- The row was dead-lettered as undelivered. -/
def Undelivered (r : Row) : Prop := r.state = .dead ∧ ∃ attempts text,
    r.lastError = some (undeliveredText attempts text)

/-- The intent's row was not dead-lettered as undelivered. -/
def Spared (rows : Rows) (id : IntentId) : Prop := ∀ r, rows id = some r → ¬Undelivered r

/-- The statement writes no such text. -/
def StagedIntentStore.Op.Spares : Op → Prop
  | .markDead _ lastError _ => ∀ attempts text, lastError ≠ undeliveredText attempts text
  | .reschedule _ _ _ lastError _ => ∀ attempts text, lastError ≠ undeliveredText attempts text
  | _ => True

theorem Undelivered.of_text {lastError : String} {r : Row}
    (h : ∀ attempts text, lastError ≠ undeliveredText attempts text)
    (hr : r.lastError = some lastError) : ¬Undelivered r := by
  rintro ⟨-, attempts, text, htext⟩
  exact h attempts text (Option.some.inj (hr.symm.trans htext))

theorem Undelivered.of_state {r : Row} (h : r.state ≠ .dead) : ¬Undelivered r := fun hdead => h hdead.1

theorem Undelivered.of_same {r r' : Row} (h : ¬Undelivered r) (hstate : r'.state = r.state)
    (herror : r'.lastError = r.lastError) : ¬Undelivered r' := by
  unfold Undelivered
  rw [hstate, herror]
  exact h

variable {rows : Rows} {id : IntentId}

theorem StagedIntentStore.Op.Spares.write {op : Op} (hop : op.Spares) {latest : Option Row} {r' : Row}
    (h : op.statement.write rows id latest = some (some r')) (hlatest : ∀ r, latest = some r → ¬Undelivered r) :
    ¬Undelivered r' := by
  cases op with
  | upsertBytes | markReceived =>
    obtain ⟨-, ⟨rfl, hv⟩ | ⟨r, rfl, hactive, hv⟩⟩ := upsert_some.mp h
    · cases hv
      exact Undelivered.of_state StagedState.noConfusion
    · cases hv
      exact Undelivered.of_state (hactive ▸ StagedState.noConfusion)
  | rescheduleByteRecovery | persistUpload | persistStore | markLedgered | markReturned | freeBytes =>
    obtain ⟨-, r, rfl, -, hv⟩ := updateRow_some.mp h
    cases hv
    exact Undelivered.of_same (hlatest r rfl) rfl rfl
  | markDone =>
    obtain ⟨-, r, rfl, -, hv⟩ := updateRow_some.mp h
    cases hv
    exact Undelivered.of_state StagedState.noConfusion
  | markDead | reschedule =>
    obtain ⟨-, r, rfl, -, hv⟩ := updateRow_some.mp h
    cases hv
    exact Undelivered.of_text hop rfl
  | drainDue =>
    obtain ⟨r, rfl, -, hv⟩ := rewrite_some.mp h
    cases hv
    exact Undelivered.of_same (hlatest r rfl) rfl rfl
  | expireDue | expireUnreceived =>
    obtain ⟨r, rfl, -, hv⟩ := rewrite_some.mp h
    cases hv
    exact Undelivered.of_state StagedState.noConfusion
  | purgeTerminal =>
    obtain ⟨r, -, -, hv⟩ := purge_some.mp h
    cases hv

theorem StagedIntentStore.Op.Spares.run {op : Op} (hop : op.Spares) (h : Spared rows id) : Spared (op.run rows) id := by
  intro r' hr'
  obtain hsame | hwrite := op.run_cases rows id
  · exact h r' (hsame ▸ hr')
  · rw [hr'] at hwrite
    exact hop.write hwrite h

/-- What a text begins with. -/
theorem head_append {front : String} {c : Char} (h : front.toList.head? = some c) (back : String) :
    (front ++ back).toList.head? = some c := by
  rw [String.toList_append, List.head?_append, h]
  rfl

theorem undeliveredText_head (attempts : Nat) (text : String) :
    (undeliveredText attempts text).toList.head? = some 'r' :=
  head_append (head_append (head_append (by decide +kernel) _) _) _

theorem ne_undeliveredText {text : String} {c : Char} (h : text.toList.head? = some c) (hc : c ≠ 'r') (attempts : Nat)
    (last : String) : text ≠ undeliveredText attempts last := by
  rintro rfl
  exact hc (Option.some.inj (h.symm.trans (undeliveredText_head attempts last)))

variable (cfg) in
theorem AttemptError.text_head (err : AttemptError) : ∃ c, (err.text cfg).toList.head? = some c ∧ c ≠ 'r' := by
  cases err with
  | timeout => exact ⟨'T', head_append (head_append (by decide +kernel) _) _, by decide⟩
  | failed e =>
    cases e with
    | error message => exact ⟨'E', head_append (by decide +kernel) _, by decide⟩
    | storeError message phase => exact ⟨'S', head_append (by decide +kernel) _, by decide⟩

/-- An attempt that failed before its return leg is not given up as undelivered. -/
theorem attemptFailed_spares {row : StagedIntentRow} {err : AttemptError} (h : err.isPost = false) (now : Nat) :
    (attemptFailed cfg row err now).Spares := by
  obtain ⟨c, htext, hc⟩ := err.text_head cfg
  unfold attemptFailed
  simp only [h, Bool.false_eq_true, if_false]
  split
  · exact ne_undeliveredText (c := 'p') (head_append (head_append (head_append (by decide +kernel) _) _) _) (by decide)
  · exact ne_undeliveredText htext hc

/-! ## Return legs -/

/-- The network, with the relayer's table. -/
structure Returns where
  network : Network
  rows : Rows

/-- The confirmation that a call of the pipeline is. -/
def Call.confirmation : Call → Option Confirmation
  | .evmConfirmExecution id proof => some (.evm id proof)
  | .solanaConfirmExecution id blobId endEpoch => some (.solana id blobId endEpoch)
  | _ => none

/-- What a confirmation reports to the pipeline. -/
def reported (r : Except RpcError String) : Except Failure String := r.mapError fun e => .error e.message

section

variable (chains cfg) (R : Confirmation → RpcTold → Prop)

/-- How a call of the pipeline is answered, if its confirmations meet `R`. A call that reports an error may have landed
all the same. -/
def LegServes (σ : Returns) : (c : Call) → Except Failure c.Answer → Returns → Prop
  | .evmConfirmExecution id proof, r, τ => ∃ told result, Confirms chains cfg σ.network
    (.evm id proof) told result τ.network ∧
      R (.evm id proof) told ∧ r = reported result ∧ τ.rows = σ.rows
  | .solanaConfirmExecution id blobId endEpoch, r, τ => ∃ told result,
      Confirms chains cfg σ.network (.solana id blobId endEpoch) told result τ.network ∧
      R (.solana id blobId endEpoch) told ∧ r = reported result ∧ τ.rows = σ.rows
  | c, r, τ => τ.network = σ.network ∧ (∀ e, r = .error e → ∃ message, e = .error message) ∧
      ∃ now landed, (r.isOk = true → landed = true) ∧ τ.rows = if landed then c.run now σ.rows else σ.rows

def legHost : Host Returns Call Call.Answer Failure Unit where
  starts _ _ _ := False
  serves := LegServes chains cfg R
  moves σ τ := Network.Moves chains σ.network τ.network ∧ τ.rows = σ.rows

/-- The statement that settles an attempt whose program stands at `rest`, if one is run. -/
inductive Settles (row : StagedIntentRow) : Program Unit → Option Op → Prop
  | done (now : Nat) : Settles row (.done ()) (some (.markDone row.intentId now))
  | failed (e : Failure) (now : Nat) : Settles row (.fail e) (some (attemptFailed cfg row (.failed e) now))
  | timeout (rest : Program Unit) (now : Nat) : Settles row rest (some (attemptFailed cfg row .timeout now))
  -- the process is gone, or the statement failed
  | lost (rest : Program Unit) : Settles row rest none

/-- A step, if its return leg meets `P` and the confirmations of it meet `R`. What other programs of the relayer do on
the origins meanwhile is among the moves. -/
inductive Returns.Step (P : StagedIntentRow → UploadResult → Prop) : Returns → Returns → Prop
  | network {σ w} (h : Network.Moves chains σ.network w) : Step P σ { σ with network := w }
  | statement {σ} (op : Op) (hop : Op.Outside op) : Step P σ { σ with rows := op.run σ.rows }
  | leg {σ τ} (row : StagedIntentRow) (up : UploadResult) {told rest op} (hrow : σ.rows row.intentId = some row.toRow)
    (hP : P row up)
    (h : (legHost chains cfg R).Leads (fun _ _ => True) (σ, some ⟨[], returnStep cfg row up⟩) (τ, some ⟨told, rest⟩))
    (hop : Settles cfg row rest op) : Step P σ { τ with rows := op.elim τ.rows (·.run τ.rows) }

/-- Some steps. -/
abbrev Returns.Leads (P : StagedIntentRow → UploadResult → Prop) : Returns → Returns → Prop :=
  Relation.ReflTransGen (Returns.Step chains cfg R P)

end

/-- Where the intent of a row comes from. -/
def originOf (cfg : Config) (row : StagedIntentRow) : OriginChain :=
  if row.srcEid = some cfg.solanaSrcEid then .solana else .evm

/-- A return leg that comes as far as its confirmation, if it has to. -/
structure Deliverable (cfg : Config) (row : StagedIntentRow) (up : UploadResult) : Prop where
  field : ∃ field, walrusBlobIdToField up.walrusBlobId = .ok field
  signer : originOf cfg row = .solana → cfg.solanaCanConfirm = true

/-- The calls of a return leg: the confirmation is of its intent, on its origin. -/
structure LegCall (cfg : Config) (row : StagedIntentRow) (c : Call) : Prop where
  own : ∀ k, c.confirmation = some k → k.intentId = row.intentId ∧ k.origin = originOf cfg row
  alive : ∀ now op, c.op now = some op → op.Spares

/-- Every confirmation succeeded, and no other call fails as a return leg does. -/
structure Landed (told : History Call Call.Answer Failure) : Prop where
  confirmed : ∀ c r, ⟨c, r⟩ ∈ told → c.confirmation.isSome = true → r.isOk = true
  plain : ∀ c e, ⟨c, .error e⟩ ∈ told → c.confirmation = none → ∃ message, e = .error message

variable {row : StagedIntentRow} {up : UploadResult} {R : Confirmation → RpcTold → Prop}
  {ltold : History Call Call.Answer Failure}

theorem LegCall.of_plain {c : Call} (hconfirmation : c.confirmation = none)
    (hop : ∀ now op, c.op now = some op → op.Spares) :
    LegCall cfg row c where
  own k hk := by
    rw [hconfirmation] at hk
    cases hk
  alive := hop

/-- A call that neither confirms nor writes the table. -/
theorem LegCall.of_none {c : Call} (hconfirmation : c.confirmation = none) (hop : ∀ now, c.op now = none) :
    LegCall cfg row c :=
  .of_plain hconfirmation fun now op h => by
    rw [hop now] at h
    cases h

/-- A hop for the feed never fails. -/
theorem wp_trackHop (ltold : History Call Call.Answer Failure) (id : IntentId) (hop : IntentHop)
    (details : HopDetails) :
    wp (fun _ => LegCall cfg row) (fun _ r => r = .ok ()) ltold (trackHop id hop details) := by
  rw [trackHop, wp_tryCatch]
  refine (wp_call (Call.recordHop id hop details)).mpr ⟨LegCall.of_none rfl fun _ => rfl, fun r => ?_⟩
  cases r with
  | ok _ => rfl
  | error e => rfl

theorem calls_lzReturn (id : IntentId) (walrusBlobId : String) (endEpoch dstEid : Nat) :
    Calls (LegCall cfg row) (lzReturn id walrusBlobId endEpoch dstEid) := by
  refine (calls_call (LegCall.of_none rfl fun _ => rfl)).bind fun quotedFee => ?_
  refine (calls_call (LegCall.of_none rfl fun _ => rfl)).bind fun lzDigest => ?_
  exact Calls.of_wp (wp_trackHop [] ..)

/-- What a leg comes to that can be delivered, and whose confirmations succeed. -/
def LegEnd (cfg : Config) (row : StagedIntentRow) (up : UploadResult) (ltold : History Call Call.Answer Failure)
    (r : Except Failure Unit) : Prop :=
  Deliverable cfg row up → Landed ltold → r = .ok ()

/-- A leg that falls back on its confirmation ends as the confirmation does. -/
theorem wp_fallback {id : IntentId} {walrusBlobId : String} {endEpoch dstEid : Nat} {handle : Failure → Program Unit}
    (h : ∀ ltold e, wp (fun _ => LegCall cfg row) (LegEnd cfg row up) ltold (handle e)) :
    wp (fun _ => LegCall cfg row) (LegEnd cfg row up) ltold
      (tryCatch (lzReturn id walrusBlobId endEpoch dstEid) handle) := by
  rw [wp_tryCatch]
  refine wp_frame (I := fun _ => True) (fun _ _ _ _ _ => trivial) (fun _ _ _ hc => hc) (fun ltold r _ => ?_)
    (calls_lzReturn id walrusBlobId endEpoch dstEid) trivial
  cases r with
  | ok _ => exact fun _ _ => rfl
  | error e => exact h ltold e

/-- The blob id of a leg that can be delivered has a field. -/
theorem wp_canonicalBlobId {f : List UInt8 → Program Unit}
    (h : ∀ field, wp (fun _ => LegCall cfg row) (LegEnd cfg row up) ltold (f field)) :
    wp (fun _ => LegCall cfg row) (LegEnd cfg row up) ltold (canonicalBlobId up.walrusBlobId >>= f) := by
  rw [wp_bind]
  unfold canonicalBlobId
  cases hfield : walrusBlobIdToField up.walrusBlobId with
  | ok field => exact h field
  | error message =>
    intro hdeliverable
    obtain ⟨field, hfield'⟩ := hdeliverable.field
    rw [hfield] at hfield'
    cases hfield'

/-- The failure of the confirmation is not of a leg whose confirmations succeed. -/
theorem LegEnd.of_unconfirmed {c : Call} {e : Failure} {r : Except Failure Unit} (hc : c.confirmation.isSome = true) :
    LegEnd cfg row up (ltold ++ [⟨c, .error e⟩]) r := by
  intro _ hlanded
  have hok := hlanded.confirmed c (.error e) (List.mem_append_right _ (List.mem_singleton.mpr rfl)) hc
  cases hok

theorem wp_returnToEvm (horigin : originOf cfg row = .evm) : wp (fun _ => LegCall cfg row) (LegEnd cfg row up) ltold
    (returnToEvm cfg row.intentId up.walrusBlobId up.endEpoch) := by
  refine wp_fallback fun ltold e => wp_canonicalBlobId fun field => ?_
  rw [wp_bind]
  refine (wp_call _).mpr ⟨⟨?_, fun _ _ h => by cases h⟩, fun r => ?_⟩
  · intro k hk
    cases hk
    exact ⟨rfl, horigin.symm⟩
  · cases r with
    | ok digest => exact wp_mono (wp_trackHop ..) (fun _ _ => id) fun _ _ hr _ _ => hr
    | error e => exact .of_unconfirmed rfl

theorem wp_returnToSolana (horigin : originOf cfg row = .solana) :
    wp (fun _ => LegCall cfg row) (LegEnd cfg row up) ltold
    (returnToSolana cfg row.intentId up.walrusBlobId up.endEpoch) := by
  refine wp_fallback fun ltold e => ?_
  by_cases hcan : cfg.solanaCanConfirm = true
  · simp only [hcan, Bool.not_true, Bool.false_eq_true, if_false]
    refine wp_canonicalBlobId fun field => ?_
    rw [wp_bind]
    refine (wp_call _).mpr ⟨⟨?_, fun _ _ h => by cases h⟩, fun r => ?_⟩
    · intro k hk
      cases hk
      exact ⟨rfl, horigin.symm⟩
    · cases r with
      | error e => exact .of_unconfirmed rfl
      | ok signature =>
        rw [andThen_ok, wp_bind]
        refine wp_mono (wp_trackHop ..) (fun _ _ => id) fun ltold r hr => ?_
        subst hr
        exact wp_mono (wp_trackHop ..) (fun _ _ => id) fun _ _ hr _ _ => hr
  · simp only [Bool.eq_false_of_not_eq_true hcan, Bool.not_false, if_true]
    exact fun hdeliverable => absurd (hdeliverable.signer horigin) hcan

/-- A leg that can be delivered, and whose confirmations succeed, does not fail as undelivered. -/
theorem wp_returnStep (row : StagedIntentRow) (up : UploadResult) : wp (fun _ => LegCall cfg row)
    (fun ltold r => Deliverable cfg row up → Landed ltold → ∀ message, r ≠ .error (.storeError message .post)) ltold
    (returnStep cfg row up) := by
  rw [returnStep]
  split
  · rw [wp_bind, wp_tryCatch]
    have hleg : wp (fun _ => LegCall cfg row) (LegEnd cfg row up) ltold
        (if row.srcEid = some cfg.solanaSrcEid then returnToSolana cfg row.intentId up.walrusBlobId up.endEpoch
        else returnToEvm cfg row.intentId up.walrusBlobId up.endEpoch) := by
      split
      · rename_i horigin
        exact wp_returnToSolana (if_pos horigin)
      · rename_i horigin
        exact wp_returnToEvm (if_neg horigin)
    refine wp_mono hleg (fun _ _ => id) fun ltold r hr => ?_
    cases r with
    | error e => exact fun hdeliverable hlanded => by cases hr hdeliverable hlanded
    | ok _ =>
      rw [orElse_ok, andThen_ok]
      refine (wp_call (Call.markReturned row.intentId)).mpr ⟨LegCall.of_plain rfl ?_, fun r => ?_⟩
      · intro now op hop
        cases hop
        trivial
      · intro _ hlanded message hr
        subst hr
        obtain ⟨_, he⟩ := hlanded.plain _ _ (List.mem_append_right _ (List.mem_singleton.mpr rfl)) rfl
        cases he
  · exact fun _ _ _ h => by cases h

/-- Every confirmation of the intent is rebuilt. -/
def Rebuilds (cfg : Config) (id : IntentId) (c : Confirmation) (told : RpcTold) :
    Prop := c.intentId = id → c.Rebuilt cfg told

/-- The return legs of the intent, from the origin `o`, come as far as their confirmations. -/
def Delivers (cfg : Config) (id : IntentId) (o : OriginChain) (row : StagedIntentRow) (up : UploadResult) : Prop :=
  row.intentId = id → originOf cfg row = o ∧ Deliverable cfg row up

theorem Landed.nil : Landed [] where
  confirmed _ _ hmem := absurd hmem List.not_mem_nil
  plain _ _ hmem := absurd hmem List.not_mem_nil

variable {σ τ : Returns}

/-- A call of a leg leaves the intent executed and its row spared. -/
theorem LegServes.keeps {c : Call} {a : Except Failure c.Answer} (h : LegServes chains cfg R σ c a τ)
    (hcall : LegCall cfg row c)
    (hI : σ.network.Executed key o ∧ Spared σ.rows id) : τ.network.Executed key o ∧ Spared τ.rows id := by
  have hplain : (τ.network = σ.network ∧ ∃ now landed, (a.isOk = true → landed = true) ∧
      τ.rows = if landed then c.run now σ.rows else σ.rows) → τ.network.Executed key o ∧ Spared τ.rows id := by
    rintro ⟨hnetwork, now, landed, -, hrows⟩
    rw [hnetwork, hrows]
    refine ⟨hI.1, ?_⟩
    cases landed with
    | false => exact hI.2
    | true =>
      show Spared (((c.op now).map fun op => op.run σ.rows).getD σ.rows) id
      cases hop : c.op now with
      | none => exact hI.2
      | some op => exact (hcall.alive now op hop).run hI.2
  cases c with
  | evmConfirmExecution | solanaConfirmExecution =>
    obtain ⟨told, result, hconfirms, -, -, hrows⟩ := h
    exact ⟨hconfirms.executed hI.1, hrows ▸ hI.2⟩
  | _ => exact hplain ⟨h.1, h.2.2⟩

theorem LegServes.executed {c : Call} {a : Except Failure c.Answer} (h : LegServes chains cfg R σ c a τ)
    (hexecuted : σ.network.Executed key o) : τ.network.Executed key o := by
  cases c with
  | evmConfirmExecution | solanaConfirmExecution =>
    obtain ⟨told, result, hconfirms, -⟩ := h
    exact hconfirms.executed hexecuted
  | _ => exact h.1 ▸ hexecuted

/-- The confirmations of a leg for an executed intent succeed, if they are rebuilt. -/
theorem LegServes.landed {c : Call} {a : Except Failure c.Answer} (h : LegServes chains cfg R σ c a τ)
    (hcall : LegCall cfg row c)
    (hR : row.intentId = id → ∀ c told, R c told → Rebuilds cfg id c told) (hid : row.intentId = id)
    (hkey : id = hexlify key.val) (hexecuted : σ.network.Executed key (originOf cfg row)) (hlanded : Landed ltold) :
    Landed (ltold ++ [⟨c, a⟩]) := by
  constructor
  · intro c' a' hmem hsome
    obtain hold | hnew := List.mem_append.mp hmem
    · exact hlanded.confirmed c' a' hold hsome
    · cases List.mem_singleton.mp hnew
      have hok : ∀ {k : Confirmation} {told result}, c.confirmation = some k →
          Confirms chains cfg σ.network k told result τ.network →
          R k told → (reported result).isOk = true := by
        intro k told result hk hconfirms hRk
        obtain ⟨hkid, hkorigin⟩ := hcall.own k hk
        obtain ⟨signature, rfl⟩ := (confirms_iff hconfirms (hkid.trans (hid.trans hkey)) (hkorigin ▸ hexecuted)).mpr
          (hR hid k told hRk (hkid.trans hid))
        rfl
      cases c with
      | evmConfirmExecution | solanaConfirmExecution =>
        obtain ⟨told, result, hconfirms, hRk, rfl, -⟩ := h
        exact hok rfl hconfirms hRk
      | _ => cases hsome
  · intro c' e hmem hnone
    obtain hold | hnew := List.mem_append.mp hmem
    · exact hlanded.plain c' e hold hnone
    · cases List.mem_singleton.mp hnew
      cases c with
      | evmConfirmExecution | solanaConfirmExecution => cases hnone
      | _ => exact h.2.1 e rfl

/-- What a run keeps of an executed intent. -/
def Kept (key : Bytes 32) (o : OriginChain) (σ : Returns) : Prop :=
  σ.network.Executed key o ∧ Spared σ.rows (hexlify key.val)

theorem Kept.moves (hI : Kept key o σ) (hmove : Network.Moves chains σ.network τ.network ∧ τ.rows = σ.rows) :
    Kept key o τ :=
  ⟨hmove.1.executed hI.1, hmove.2 ▸ hI.2⟩

/-- A leg leaves an executed intent executed and spared, and does not fail as undelivered where its confirmations are
rebuilt. -/
theorem leg_keeps {rest : Program Unit} (hdelivers : Delivers cfg (hexlify key.val) o row up)
    (h : (legHost chains cfg (Rebuilds cfg (hexlify key.val))).Leads (fun _ _ => True)
      (σ, some ⟨[], returnStep cfg row up⟩) (τ, some ⟨ltold, rest⟩)) (hI : Kept key o σ) :
    Kept key o τ ∧ (row.intentId = hexlify key.val → ∀ message, rest ≠ .fail (.storeError message .post)) := by
  have hkeeps := Host.Leads.keeps (I := Kept key o) (J := fun _ ltold => row.intentId = hexlify key.val → Landed ltold)
    (P := fun _ => LegCall cfg row)
    (Q := fun ltold r => Deliverable cfg row up → Landed ltold → ∀ message, r ≠ .error (.storeError message .post))
    (fun σ p σ' _ _ hstarts => False.elim hstarts)
    (fun σ ltold c next r σ' hI hJ hcall _ hserves => ⟨LegServes.keeps hserves hcall hI, fun hid =>
      LegServes.landed hserves hcall (fun _ c told hR => hR) hid rfl ((hdelivers hid).1 ▸ hI.1) (hJ hid)⟩)
    (fun σ s σ' hI _ hmove => ⟨Kept.moves hI hmove, fun ltold hJ => hJ⟩)
    h ⟨hI, fun s hs => by
      cases hs
      exact ⟨fun _ => .nil, wp_returnStep row up⟩⟩
  refine ⟨hkeeps.1, fun hid message hrest => ?_⟩
  obtain ⟨hlanded, hend⟩ := hkeeps.2 _ rfl
  subst hrest
  exact hend (hdelivers hid).2 (hlanded hid) message rfl

/-- A statement that settles an attempt is for its row alone. -/
theorem Settles.update {rest : Program Unit} {op : Op} (h : Settles cfg row rest (some op)) :
    ∃ guard set, op.statement = updateRow row.intentId guard set := by
  have hfailed : ∀ err now, ∃ guard set, (attemptFailed cfg row err now).statement =
      updateRow row.intentId guard set := by
    intro err now
    simp only [attemptFailed]
    split
    · split <;> exact ⟨_, _, rfl⟩
    · split <;> exact ⟨_, _, rfl⟩
  cases h with
  | done now => exact ⟨_, _, rfl⟩
  | failed e now => exact hfailed _ now
  | timeout rest now => exact hfailed _ now

/-- A statement that settles an attempt spares the rows of other intents, and its own unless the leg failed as
undelivered. -/
theorem Settles.spares {rest : Program Unit} {op : Op} (h : Settles cfg row rest (some op))
    (hrest : row.intentId = id → ∀ message, rest ≠ .fail (.storeError message .post)) (hrows : Spared rows id) :
    Spared (op.run rows) id := by
  by_cases hid : row.intentId = id
  · have hop : op.Spares := by
      cases h with
      | done now => trivial
      | timeout rest now => exact attemptFailed_spares (show AttemptError.isPost .timeout = false from rfl) now
      | failed e now =>
        refine attemptFailed_spares ?_ now
        cases e with
        | error message => rfl
        | storeError message phase =>
          cases phase with
          | pre => rfl
          | post => exact absurd rfl (hrest hid message)
    exact hop.run hrows
  · have hother : op.run rows id = rows id := by
      obtain hsame | hwrite := op.run_cases rows id
      · exact hsame
      · obtain ⟨guard, set, hop⟩ := h.update
        rw [hop] at hwrite
        exact absurd (updateRow_some.mp hwrite).1.symm hid
    exact fun r hr => hrows r (hother ▸ hr)

theorem Returns.Step.keeps (hstep : Returns.Step chains cfg (Rebuilds cfg (hexlify key.val))
    (Delivers cfg (hexlify key.val) o) σ τ) (hI : Kept key o σ) : Kept key o τ := by
  cases hstep with
  | network hmove => exact ⟨hmove.executed hI.1, hI.2⟩
  | statement op hop =>
    refine ⟨hI.1, Op.Spares.run ?_ hI.2⟩
    cases op <;> trivial
  | leg row up hrow hdelivers h hsettles =>
    obtain ⟨hkept, hrest⟩ := leg_keeps hdelivers h hI
    refine ⟨hkept.1, ?_⟩
    rename_i op
    cases op with
    | none => exact hkept.2
    | some op => exact hsettles.spares hrest hkept.2

/-- No step undoes what was executed, whatever its leg. -/
theorem Returns.Step.executed {P : StagedIntentRow → UploadResult → Prop} (hstep : Returns.Step chains cfg R P σ τ)
    (hexecuted : σ.network.Executed key o) : τ.network.Executed key o := by
  cases hstep with
  | network hmove => exact hmove.executed hexecuted
  | statement op hop => exact hexecuted
  | leg row up hrow hP h hsettles =>
    refine (Host.Leads.keeps (I := fun σ : Returns => σ.network.Executed key o) (J := fun _ _ => True)
      (P := fun _ => LegCall cfg row) (Q := fun _ _ => True) (fun _ _ _ _ _ hstarts => False.elim hstarts)
      (fun σ ltold c next r σ' hI _ _ _ hserves => ⟨LegServes.executed hserves hI, trivial⟩)
      (fun σ s σ' hI _ hmove => ⟨Network.Moves.executed (And.left hmove) hI, fun _ _ => trivial⟩) h
      ⟨hexecuted, fun s hs => ?_⟩).1
    cases hs
    exact ⟨trivial, wp_mono (wp_returnStep row up) (fun _ _ => id) fun _ _ _ => trivial⟩

/-- In every run from a state in which the origin has executed an intent, a confirmation of it succeeds exactly where
that was rebuilt; and in every run whose legs of it come as far as their confirmations, and whose confirmations of it
are all rebuilt, its row is not dead-lettered as undelivered. -/
theorem landed_confirmations (hexecuted : σ.network.Executed key o) :
    (∀ R P τ, Returns.Leads chains cfg R P σ τ → ∀ c told r w, c.intentId = hexlify key.val → c.origin = o →
      Confirms chains cfg τ.network c told r w → ((∃ signature, r = .ok signature) ↔ c.Rebuilt cfg told)) ∧
    ∀ τ, Returns.Leads chains cfg (Rebuilds cfg (hexlify key.val)) (Delivers cfg (hexlify key.val) o) σ τ →
      Spared σ.rows (hexlify key.val) → Spared τ.rows (hexlify key.val) := by
  constructor
  · intro R P τ hrun c told r w hid horigin hconfirms
    have hthen : τ.network.Executed key o := hrun.keeps (P := fun σ => σ.network.Executed key o)
      (fun _ _ hstep h => hstep.executed h) hexecuted
    exact confirms_iff hconfirms hid (horigin ▸ hthen)
  · intro τ hrun hspared
    have hkept : Kept key o τ := hrun.keeps (P := Kept key o) (fun _ _ hstep h => hstep.keeps h) ⟨hexecuted, hspared⟩
    exact hkept.2

/-! ## A confirmation that is lost -/

variable {x : Host.State Network Rpc Rpc.Answer RpcError String} {proof : List UInt8} {left nonce feeBumps : Nat}
  {fees : FeeOverrides} {err : RpcError}

/-- Behind an error that is no nonce conflict the same is tried again. -/
theorem retries (hconflict : isNonceConflictError err = false) (hleft : left ≠ 0)
    (hrun : (rpcHost chains).Leads (fun _ _ => True) x
      (w, some ⟨told, afterError intentId proof left fees nonce feeBumps err⟩)) :
    ∃ told, (rpcHost chains).Leads (fun _ _ => True) x
      (w, some ⟨told, confirmAttempts intentId proof left fees nonce feeBumps⟩) := by
  rw [afterError, if_neg hleft, if_neg (by simp [hconflict])] at hrun
  exact ⟨_, Host.Leads.answer (c := Rpc.sleep 2000) hrun (.ok ()) rfl trivial⟩

/-- An attempt may fail without a trace. -/
theorem attempt_fails (err : RpcError)
    (hrun : (rpcHost chains).Leads (fun _ _ => True) x
      (w, some ⟨told, confirmAttempts intentId proof (left + 1) fees nonce feeBumps⟩)) :
    ∃ told, (rpcHost chains).Leads (fun _ _ => True) x
      (w, some ⟨told, afterError intentId proof left fees nonce feeBumps err⟩) :=
  ⟨_, Host.Leads.answer (c := Rpc.confirmExecution intentId proof nonce fees) hrun (.error err) rfl trivial⟩

/-- The last two attempts may fail. -/
theorem attempts_fail (hconflict : isNonceConflictError err = false)
    (hrun : (rpcHost chains).Leads (fun _ _ => True) x
      (w, some ⟨told, confirmAttempts intentId proof 2 fees nonce feeBumps⟩)) :
    ∃ told, (rpcHost chains).Leads (fun _ _ => True) x (w, some ⟨told, Async.fail err⟩) := by
  obtain ⟨told, hrun⟩ := attempt_fails err hrun
  obtain ⟨told, hrun⟩ := retries hconflict (by omega) hrun
  exact attempt_fails err hrun

variable (chains cfg) in
/-- A confirmation comes to its first attempt. -/
theorem confirm_begins (w : Network) (intentId : IntentId) (proof : List UInt8) (nonce : Nat) :
    ∃ told fees, (rpcHost chains).Leads (fun _ _ => True)
      (w, some ⟨[], (Confirmation.evm intentId proof).program chains cfg⟩)
      (w, some ⟨told, confirmAttempts intentId proof 3 fees nonce 0⟩) := by
  have hbegin : (rpcHost chains).Leads (fun _ _ => True)
      (w, some ⟨[], (Confirmation.evm intentId proof).program chains cfg⟩)
      (w, some ⟨[], (Confirmation.evm intentId proof).program chains cfg⟩) := .refl
  have hfees := hbegin.answer (c := Rpc.getFeeData) (.ok (⟨none, none, none⟩ : FeeData)) rfl trivial
  exact ⟨_, _, hfees.answer (c := Rpc.getTransactionCount) (.ok nonce) rfl trivial⟩

variable (chains cfg) in
/-- A confirmation may be refused as often as it is tried. -/
theorem confirm_refused (hconflict : isNonceConflictError err = false) (w : Network) (intentId : IntentId)
    (proof : List UInt8) :
    ∃ told, Confirms chains cfg w (.evm intentId proof) told (.error err) w := by
  obtain ⟨told, fees, hrun⟩ := confirm_begins chains cfg w intentId proof 0
  obtain ⟨told, hrun⟩ := attempt_fails err hrun
  obtain ⟨told, hrun⟩ := retries hconflict (by omega) hrun
  exact attempts_fail hconflict hrun

/-- A confirmation that lands, with an error in the place of its receipt, is reported as a failure. -/
theorem confirm_lost {adapter : Evm.State} {now : Nat} (hconflict : isNonceConflictError err = false)
    (hid : getBytes intentId = .ok key.val) (hsent : w.sent = [])
    (haccepts : Evm.confirmExecution now chains.wallet key proof w.adapter = .ok adapter) :
    ∃ told, Confirms chains cfg w (.evm intentId proof) told (.error err)
      { w with adapter, sent := [⟨key, proof, 0, .succeeded⟩] } := by
  obtain ⟨told, fees, hrun⟩ := confirm_begins chains cfg w intentId proof 0
  have hserves : Serves chains w (.confirmExecution intentId proof 0 fees) (.ok w.sent.length)
      { w with sent := w.sent ++ [⟨key, proof, 0, .pending⟩] } := ⟨key, hid, rfl, rfl⟩
  have hpool := hrun.answer (.ok w.sent.length) hserves trivial
  rw [hsent, List.nil_append] at hpool
  have hmove : Network.Moves chains { w with sent := [⟨key, proof, 0, .pending⟩] }
      { w with adapter, sent := [⟨key, proof, 0, .succeeded⟩] } := by
    let pool : Network := { w with sent := [⟨key, proof, 0, .pending⟩] }
    have hmine : Network.Moves chains pool (pool.mined chains now 0 ⟨key, proof, 0, .pending⟩) :=
      .mine now rfl rfl fun t ht hstatus => by
        obtain rfl := List.mem_singleton.mp ht
        exact absurd rfl hstatus
    simp only [pool, Network.mined, haccepts] at hmine
    exact hmine
  have hmined := hpool.step trivial (.move hmove)
  have hwait := hmined.answer (.error err) rfl trivial
  obtain ⟨told, hrun⟩ := retries hconflict (show 2 ≠ 0 by omega) hwait
  exact attempts_fail hconflict hrun

/-- A leg whose quote and confirmation fail: its program, call by call. -/
theorem returnStep_fails {field : List UInt8} (horigin : row.srcEid ≠ some cfg.solanaSrcEid)
    (hreturned : row.returned = false)
    (hfield : walrusBlobIdToField up.walrusBlobId = .ok field) (e : Failure) (message : String) :
    ∃ next, returnStep cfg row up = .await (.quoteLzFee row.intentId up.walrusBlobId up.endEpoch cfg.evmDstEid) next ∧
      ∃ next', next (.error e) = .await (.evmConfirmExecution row.intentId (field ++ Bytes.toBE 32 up.endEpoch)) next' ∧
        next' (.error (.error message)) = .fail (.storeError (Failure.error message).text .post) := by
  simp only [returnStep, hreturned, Bool.not_false, if_true, if_neg horigin, returnToEvm]
  refine ⟨_, rfl, ?_⟩
  show ∃ next', Async.bind (Async.tryCatch (canonicalBlobId up.walrusBlobId >>= _) _) _ = .await _ next' ∧ _
  simp only [canonicalBlobId, hfield]
  exact ⟨_, rfl, rfl⟩

/-- A leg on EVM fails as its confirmation does. -/
theorem leg_fails (row : StagedIntentRow) (rows : Rows) {field : List UInt8} {told : RpcTold}
    (horigin : row.srcEid ≠ some cfg.solanaSrcEid)
    (hreturned : row.returned = false) (hfield : walrusBlobIdToField up.walrusBlobId = .ok field)
    (hconfirms : Confirms chains cfg w (.evm row.intentId (field ++ Bytes.toBE 32 up.endEpoch)) told (.error err) w') :
    ∃ ltold, (legHost chains cfg fun _ _ => True).Leads (fun _ _ => True) (⟨w, rows⟩, some ⟨[], returnStep cfg row up⟩)
      (⟨w', rows⟩, some ⟨ltold, .fail (.storeError (Failure.error err.message).text .post)⟩) := by
  obtain ⟨next, hbegin, next', hfallback, hend⟩ :=
    returnStep_fails horigin hreturned hfield (.error "timeout") err.message
  have hrun : (legHost chains cfg fun _ _ => True).Leads (fun _ _ => True) (⟨w, rows⟩, some ⟨[], returnStep cfg row up⟩)
      (⟨w, rows⟩, some ⟨[], returnStep cfg row up⟩) := .refl
  rw [hbegin] at hrun ⊢
  have hquote := Host.Leads.answer hrun (.error (.error "timeout"))
    ⟨rfl, fun e he => ⟨"timeout", (Except.error.inj he).symm⟩, 0, false, id, rfl⟩ trivial
  rw [hfallback] at hquote
  have hserves : LegServes chains cfg (fun _ _ => True) ⟨w, rows⟩
      (.evmConfirmExecution row.intentId (field ++ Bytes.toBE 32 up.endEpoch))
        (.error (.error err.message)) ⟨w', rows⟩ :=
    ⟨told, .error err, hconfirms, trivial, rfl, rfl⟩
  have hconfirm := hquote.answer (.error (.error err.message)) hserves trivial
  rw [hend] at hconfirm
  exact ⟨_, hconfirm⟩

/-- The failures of an attempt that are counted up to the limit, and the one at the limit. -/
theorem Returns.Leads.fails (row : Row) {field : List UInt8} {told : RpcTold} (now : Nat)
    (hrow : rows id = some row) (horigin : row.srcEid ≠ some cfg.solanaSrcEid) (hreturned : row.returned = false)
    (hfield : walrusBlobIdToField up.walrusBlobId = .ok field)
    (hconfirms : Confirms chains cfg w (.evm id (field ++ Bytes.toBE 32 up.endEpoch)) told (.error err) w') :
    Returns.Leads chains cfg (fun _ _ => True) (fun _ _ => True) ⟨w, rows⟩ ⟨w', (attemptFailed cfg ⟨row, id⟩
      (.failed (.storeError (Failure.error err.message).text .post)) now).run rows⟩ := by
  obtain ⟨ltold, hleg⟩ := leg_fails ⟨row, id⟩ rows horigin hreturned hfield hconfirms
  exact .single (.leg ⟨row, id⟩ up hrow trivial hleg (.failed _ now))

/-- The origins of the example: an intent that was submitted on EVM, to the adapter of the relayer's wallet. -/
def landedKey : Bytes 32 := Bytes.zero 32
def landedChains : Chains := ⟨Evm.accountOf 3, Bytes.zero 32, 0, Bytes.zero 8⟩
def landedNetwork : Network :=
  ⟨{ Evm.exampleAdapter with intents := Function.update (fun _ => false) landedKey true }, [], Solana.exampleProgram⟩

/-- Its row, which was stored, and has failed to be returned 18 times. -/
def landedRow : Row :=
  { exampleRow with
    walrusObjectId := some "0x0b", walrusBlobId := some exampleBlobId, endEpoch := some 10
    storeDigest := some "d1", attempts := 18 }

def landedUpload : UploadResult := ⟨"0x0b", exampleBlobId, 10⟩

def landedRows : Rows := Rows.one (hexlify landedKey.val) landedRow

def landedTimeout : RpcError := .mk (some "TIMEOUT") "timeout" none

/-- The proof that its return leg confirms it with, and the origins once that has landed. -/
def landedProof : List UInt8 := List.replicate 32 0 ++ Bytes.toBE 32 landedUpload.endEpoch
def landedConfirmed : Network where
  adapter := { landedNetwork.adapter with
    executed := Function.update landedNetwork.adapter.executed landedKey true
    log := landedNetwork.adapter.log ++ [⟨0, .intentExecuted landedKey landedProof⟩] }
  sent := [⟨landedKey, landedProof, 0, .succeeded⟩]
  program := landedNetwork.program

theorem landedConfirmed_executed : landedConfirmed.Executed landedKey .evm := by
  show Function.update landedNetwork.adapter.executed landedKey true landedKey = true
  rw [Function.update_self]

theorem landedNetwork_accepts :
    Evm.confirmExecution 0 landedChains.wallet landedKey landedProof landedNetwork.adapter =
      .ok landedConfirmed.adapter := by
  refine Evm.confirmExecution_ok.mpr ⟨rfl, ?_, rfl, rfl⟩
  show Function.update (fun _ => false) landedKey true landedKey = true
  rw [Function.update_self]

/-- The row behind its 19th failure. -/
def landedRetried : Row := rescheduled 19 300000 "StoreError: Error: timeout" 0 landedRow

/-- The failure of an attempt whose confirmation was told of the timeout. -/
abbrev landedFailure : AttemptError := .failed (.storeError (Failure.error landedTimeout.message).text .post)

theorem landedRow_retried : (attemptFailed exampleConfig ⟨landedRow, hexlify landedKey.val⟩ landedFailure 0).run
    (Rows.one (hexlify landedKey.val) landedRow) = Rows.one (hexlify landedKey.val) landedRetried :=
  (Op.run_update rfl Rows.one_self rfl).trans (Rows.one_update _)

theorem landedRetried_dead : (attemptFailed exampleConfig ⟨landedRetried, hexlify landedKey.val⟩ landedFailure 0).run
    (Rows.one (hexlify landedKey.val) landedRetried) =
      Rows.one (hexlify landedKey.val) (dead (undeliveredText 20 (landedFailure.text exampleConfig)) 0 landedRetried) :=
  (Op.run_update rfl Rows.one_self rfl).trans (Rows.one_update _)

/-- The 19th attempt lands and is told of a timeout; the 20th is refused, and the row is given up as undelivered. -/
theorem landed_confirmation_lost : ∃ τ υ, ¬landedNetwork.Executed landedKey .evm ∧
    Returns.Leads landedChains exampleConfig (fun _ _ => True) (fun _ _ => True) ⟨landedNetwork, landedRows⟩ τ ∧
    τ.network.Executed landedKey .evm ∧
    (∃ proof told e w, Confirms landedChains exampleConfig τ.network
      (.evm (hexlify landedKey.val) proof) told (.error e) w) ∧
    Returns.Leads landedChains exampleConfig (fun _ _ => True) (fun _ _ => True) τ υ ∧
    ¬Spared υ.rows (hexlify landedKey.val) := by
  have hconflict : isNonceConflictError landedTimeout = false := by decide +kernel
  have hfield : walrusBlobIdToField landedUpload.walrusBlobId = .ok (List.replicate 32 0) := by decide +kernel
  obtain ⟨told, hlost⟩ : ∃ told, Confirms landedChains exampleConfig landedNetwork
    (.evm (hexlify landedKey.val) landedProof)
      told (.error landedTimeout) landedConfirmed :=
    confirm_lost hconflict (getBytes_hexlify landedKey.val) rfl landedNetwork_accepts
  obtain ⟨told', hrefused⟩ := confirm_refused landedChains exampleConfig hconflict landedConfirmed
    (hexlify landedKey.val) landedProof
  -- 18 failures are counted, then 19
  have hfirst := Returns.Leads.fails landedRow 0 Rows.one_self (by decide) rfl hfield hlost
  have hsecond := Returns.Leads.fails landedRetried 0 Rows.one_self (by decide) rfl hfield hrefused
  rw [show (attemptFailed ..).run _ = _ from landedRow_retried] at hfirst
  rw [show (attemptFailed ..).run _ = _ from landedRetried_dead] at hsecond
  refine ⟨_, _, Bool.false_ne_true, hfirst, landedConfirmed_executed, ⟨_, _, _, _, hrefused⟩, hsecond,
    fun hspared => ?_⟩
  have hrow : Rows.one (hexlify landedKey.val)
      (dead (undeliveredText 20 (landedFailure.text exampleConfig)) 0 landedRetried) (hexlify landedKey.val) = some _ :=
    Rows.one_self
  exact hspared _ hrow ⟨rfl, 20, landedFailure.text exampleConfig, rfl⟩

/-! ## A confirmation that is read back -/

variable (chains cfg) in
/-- A send that reports an error, and the read that shows why: the confirmation succeeds. -/
theorem confirm_rebuilt (blobId : Bytes 32) {endEpoch : Nat} (hid : getBytes intentId = .ok key.val)
    (hcan : cfg.solanaCanConfirm = true) (hepoch : endEpoch < 2 ^ 64) (hexecuted : w.program.Executed key)
    (err : RpcError) : ∃ told, ReadsAnswered told ∧
      Confirms chains cfg w (.solana intentId blobId.val endEpoch) told (.ok ALREADY_EXECUTED) w := by
  let account := (w.program.intents key).map (·.data chains.intentDiscriminator)
  have hshows : account.any showsExecuted = true :=
    shows_executed hexecuted chains.intentDiscriminator
  obtain ⟨keys, data, next, hbegin, next', hfallback, hend⟩ :
      ∃ keys data next, (Confirmation.solana intentId blobId.val endEpoch).program chains cfg =
        .await (.sendAndConfirmTransaction keys data) next ∧
      ∃ next', next (.error err) = .await (.getAccountInfo (.intent key)) next' ∧
        next' (.ok account) = .done ALREADY_EXECUTED := by
    simp only [Confirmation.program, solanaConfirmExecution, hcan, Bool.not_true, Bool.false_eq_true, if_false,
      intentPda_ok hid, encodeConfirmExecutionData_ok hid blobId.property hepoch]
    refine ⟨_, _, _, rfl, _, rfl, ?_⟩
    show (if account.any showsExecuted then _ else _) = _
    rw [if_pos hshows]
    rfl
  have hrun : (rpcHost chains).Leads (fun _ _ => True)
      (w, some ⟨[], (Confirmation.solana intentId blobId.val endEpoch).program chains cfg⟩)
      (w, some ⟨[], (Confirmation.solana intentId blobId.val endEpoch).program chains cfg⟩) := .refl
  rw [hbegin] at hrun
  have hsend := hrun.answer (.error err) rfl trivial
  rw [hfallback] at hsend
  have hread := hsend.answer (.ok account) ⟨rfl, rfl⟩ trivial
  rw [hend] at hread
  refine ⟨_, fun account e hmem => ?_, hbegin ▸ hread⟩
  simp only [List.nil_append, List.cons_append, List.mem_cons, List.not_mem_nil, or_false] at hmem
  obtain h | h := hmem
  · cases h
  · cases h

/-- A leg on Solana whose quote fails and whose confirmation succeeds: its program, call by call. -/
theorem returnStep_confirms {field : List UInt8} (horigin : row.srcEid = some cfg.solanaSrcEid)
    (hreturned : row.returned = false) (hcan : cfg.solanaCanConfirm = true)
    (hfield : walrusBlobIdToField up.walrusBlobId = .ok field) (e : Failure) (signature : String) :
    ∃ next, returnStep cfg row up =
        .await (.quoteLzFee row.intentId up.walrusBlobId up.endEpoch cfg.solanaSrcEid) next ∧
      ∃ confirmed, next (.error e) = .await (.solanaConfirmExecution row.intentId field up.endEpoch) confirmed ∧
        ∃ sent, confirmed (.ok signature) =
          .await (.recordHop row.intentId .proofSent { txHash := some signature }) sent ∧
        ∃ told, sent (.ok ()) = .await (.recordHop row.intentId .confirmed { txHash := some signature }) told ∧
        ∃ returned, told (.ok ()) = .await (.markReturned row.intentId) returned ∧ returned (.ok ()) = .done () := by
  simp only [returnStep, hreturned, Bool.not_false, if_true, if_pos horigin, returnToSolana, hcan, Bool.not_true,
    Bool.false_eq_true, if_false]
  refine ⟨_, rfl, ?_⟩
  show ∃ next', Async.bind (Async.tryCatch (canonicalBlobId up.walrusBlobId >>= _) _) _ = .await _ next' ∧ _
  simp only [canonicalBlobId, hfield]
  exact ⟨_, rfl, _, rfl, _, rfl, _, rfl, rfl⟩

/-- A call that is answered, and neither confirms nor writes the table. -/
theorem LegServes.plain {c : Call} {a : c.Answer} {rows : Rows} (hop : c.op 0 = none)
    (hconfirmation : c.confirmation = none) : LegServes chains cfg R ⟨w, rows⟩ c (.ok a) ⟨w, rows⟩ := by
  have hrun : c.run 0 rows = rows := by
    unfold Call.run
    rw [hop]
    rfl
  have hplain : w = w ∧ (∀ e, Except.ok a = .error e → ∃ message, e = Failure.error message) ∧
      ∃ now landed, ((Except.ok a : Except Failure c.Answer).isOk = true → landed = true) ∧
        rows = if landed then c.run now rows else rows := by
    refine ⟨rfl, fun e he => ?_, 0, true, fun _ => rfl, hrun.symm⟩
    cases he
  cases c with
  | evmConfirmExecution | solanaConfirmExecution => cases hconfirmation
  | _ => exact hplain

/-- A leg on Solana ends well where its confirmation does. -/
theorem leg_confirms (row : Row) {field : List UInt8} {signature : String}
    (horigin : row.srcEid = some cfg.solanaSrcEid)
    (hreturned : row.returned = false) (hcan : cfg.solanaCanConfirm = true)
    (hfield : walrusBlobIdToField up.walrusBlobId = .ok field)
    (hconfirms : Confirms chains cfg w (.solana id field up.endEpoch) told (.ok signature) w)
    (hR : R (.solana id field up.endEpoch) told) :
    ∃ ltold, (legHost chains cfg R).Leads (fun _ _ => True)
      (⟨w, Rows.one id row⟩, some ⟨[], returnStep cfg ⟨row, id⟩ up⟩)
      (⟨w, Rows.one id { row with returned := true, updatedAt := 0 }⟩, some ⟨ltold, .done ()⟩) := by
  have hsolana : (⟨row, id⟩ : StagedIntentRow).srcEid = some cfg.solanaSrcEid := horigin
  obtain ⟨next, hbegin, confirmed, hfallback, sent, hsent, next', htold, returned, hmark, hend⟩ :=
    returnStep_confirms hsolana hreturned hcan hfield (.error "timeout") signature
  have hrun : (legHost chains cfg R).Leads (fun _ _ => True)
      (⟨w, Rows.one id row⟩, some ⟨[], returnStep cfg ⟨row, id⟩ up⟩)
      (⟨w, Rows.one id row⟩, some ⟨[], returnStep cfg ⟨row, id⟩ up⟩) := .refl
  rw [hbegin] at hrun ⊢
  have hquote := Host.Leads.answer hrun (.error (.error "timeout"))
    ⟨rfl, fun e he => ⟨"timeout", (Except.error.inj he).symm⟩, 0, false, fun h => h, rfl⟩ trivial
  rw [hfallback] at hquote
  have hserves : LegServes chains cfg R ⟨w, Rows.one id row⟩ (.solanaConfirmExecution id field up.endEpoch)
      (.ok signature) ⟨w, Rows.one id row⟩ := ⟨told, .ok signature, hconfirms, hR, rfl, rfl⟩
  have hconfirm := hquote.answer (.ok signature) hserves trivial
  rw [hsent] at hconfirm
  have hplain : ∀ hop : IntentHop, LegServes chains cfg R ⟨w, Rows.one id row⟩
      (.recordHop id hop { txHash := some signature }) (.ok ()) ⟨w, Rows.one id row⟩ := fun hop => .plain rfl rfl
  have hhop := hconfirm.answer (.ok ()) (hplain .proofSent) trivial
  rw [htold] at hhop
  have hhop' := hhop.answer (.ok ()) (hplain .confirmed) trivial
  rw [hmark] at hhop'
  have hmarks : LegServes chains cfg R ⟨w, Rows.one id row⟩ (.markReturned id) (.ok ())
      ⟨w, Rows.one id { row with returned := true, updatedAt := 0 }⟩ := by
    have hrows : (Op.markReturned id 0).run (Rows.one id row) =
        Rows.one id { row with returned := true, updatedAt := 0 } :=
      (Op.run_update rfl Rows.one_self rfl).trans (Rows.one_update _)
    refine ⟨rfl, fun e he => ?_, 0, true, fun _ => rfl, hrows.symm⟩
    cases he
  have hmarked := hhop'.answer (.ok ()) hmarks trivial
  rw [hend] at hmarked
  exact ⟨_, hmarked⟩

/-- The row of an intent that was executed on Solana. -/
def landedOnSolana : Returns where
  network := { landedNetwork with program := { Solana.exampleProgram with
    intents := fun _ => some ⟨landedKey, 1, 1, 3600, Bytes.zero 32, 0, true, 10, 255⟩ } }
  rows := Rows.one (hexlify landedKey.val) { landedRow with srcEid := some 40168 }

/-- The same once a leg of it went through. -/
def landedReturned : Returns where
  network := landedOnSolana.network
  rows := Rows.one (hexlify landedKey.val)
    (done 0 { landedRow with srcEid := some 40168, returned := true, updatedAt := 0 })

/-- The confirmation that its return leg makes once more. -/
def landedAgain : Confirmation := .solana (hexlify landedKey.val) (List.replicate 32 0) 10

/-- An intent that was executed on Solana is confirmed once more: the send reports a timeout, the read shows the intent,
and the return leg goes through. -/
theorem landed_confirmations_solana :
    (∃ told, Confirms landedChains exampleConfig landedReturned.network landedAgain told (.ok ALREADY_EXECUTED)
      landedReturned.network ∧ landedAgain.Rebuilt exampleConfig told) ∧
    Returns.Leads landedChains exampleConfig (Rebuilds exampleConfig (hexlify landedKey.val))
      (Delivers exampleConfig (hexlify landedKey.val) .solana) landedOnSolana landedReturned ∧
    Spared landedReturned.rows (hexlify landedKey.val) := by
  have hexecuted : landedOnSolana.network.Executed landedKey .solana := ⟨_, rfl, rfl⟩
  have hfield : walrusBlobIdToField landedUpload.walrusBlobId = .ok (List.replicate 32 0) := by decide +kernel
  obtain ⟨told, hreads, hconfirms⟩ := confirm_rebuilt landedChains exampleConfig landedKey
    (getBytes_hexlify landedKey.val) rfl (show 10 < 2 ^ 64 by decide) hexecuted landedTimeout
  have hrebuilt : Rebuilds exampleConfig (hexlify landedKey.val) landedAgain told :=
    fun _ => ⟨rfl, rfl, by decide, hreads⟩
  let row : Row := { landedRow with srcEid := some 40168 }
  obtain ⟨ltold, hleg⟩ := leg_confirms row rfl rfl rfl hfield hconfirms hrebuilt
  have hdelivers : Delivers exampleConfig (hexlify landedKey.val) .solana ⟨row, hexlify landedKey.val⟩ landedUpload :=
    fun _ => ⟨rfl, ⟨_, hfield⟩, fun _ => rfl⟩
  have hone : Rows.one (hexlify landedKey.val) row (hexlify landedKey.val) = some row := Rows.one_self
  have hrow : landedOnSolana.rows (hexlify landedKey.val) = some row := hone
  have hstep : Returns.Step landedChains exampleConfig (Rebuilds exampleConfig (hexlify landedKey.val))
      (Delivers exampleConfig (hexlify landedKey.val) .solana) landedOnSolana _ :=
    .leg ⟨row, hexlify landedKey.val⟩ landedUpload hrow hdelivers hleg (.done 0)
  have hdone : (Op.markDone (hexlify landedKey.val) 0).run
      (Rows.one (hexlify landedKey.val) { row with returned := true, updatedAt := 0 }) = landedReturned.rows :=
    (Op.run_update rfl Rows.one_self rfl).trans (Rows.one_update _)
  have hrun : Returns.Leads landedChains exampleConfig (Rebuilds exampleConfig (hexlify landedKey.val))
      (Delivers exampleConfig (hexlify landedKey.val) .solana) landedOnSolana landedReturned := by
    refine .single ?_
    rwa [Option.elim_some, hdone] at hstep
  have hspared : Spared landedOnSolana.rows (hexlify landedKey.val) := by
    intro r hr
    rw [hrow, Option.some.injEq] at hr
    subst hr
    exact Undelivered.of_state (by decide)
  obtain ⟨hsucceeds, hdelivered⟩ := landed_confirmations hexecuted
  have hagain := hsucceeds _ _ landedReturned hrun landedAgain told (.ok ALREADY_EXECUTED) landedReturned.network rfl
    rfl hconfirms
  exact ⟨⟨told, hconfirms, hagain.mp ⟨_, rfl⟩⟩, hrun, hdelivered landedReturned hrun hspared⟩

end Relayer

end Bosphor

import Bosphor.Delivery
import Bosphor.Solana.Custody

/-!
# The planned delivery of a proof

The executor asks `lz_receive_types` which accounts to give `lz_receive`. The
planner works from the store and the message, the constraints of `lz_receive`
from the intent and the vault; they agree since a vault's beneficiary is the
store's admin, who never changes. In every reachable state the planned accounts
fit as long as the admin is a system account (`planned_accounts_fit`); they do
not when the admin's account was given to another program
(`planned_accounts_refused`).
-/

namespace Bosphor.Solana

/-- `oapp::endpoint_cpi::get_accounts_for_clear`. -/
abbrev AccountsForClear :=
  (endpointProgram : Pubkey) → (receiver : Key) → (srcEid : UInt32) → (sender : Bytes 32) → (nonce : UInt64) →
    List AccountMeta

/-- `lz_receive_types`. -/
def lzReceiveTypes (getAccountsForClear : AccountsForClear) (params : LzReceiveParams) (s : State) :
    Except Error (List AccountMeta) := do
  let store ← loadStore s
  require (s.lzReceiveTypes.isSome = true) .accountNotInitialized
  let intentId := decodeIntentId params.message
  return [⟨.wallet (Bytes.zero 32), true, true⟩, ⟨.peer params.srcEid, false, false⟩, ⟨.store, false, false⟩,
    ⟨.intent intentId, false, true⟩, ⟨.escrow intentId, false, true⟩, ⟨.wallet store.admin, false, true⟩] ++
    getAccountsForClear store.endpointProgram .store params.srcEid params.sender params.nonce

/-- The planned accounts, with the executor in slot 0. -/
def withExecutor (executor : Pubkey) (accounts : List AccountMeta) : List AccountMeta :=
  accounts.modifyHead fun payer => { payer with pubkey := .wallet executor }

/-- The accounts meet every constraint of `LzReceive`. -/
structure AccountsFit (clearAccounts : Nat) (params : LzReceiveParams) (accounts : List AccountMeta)
    (s : State) : Prop where
  peer : ∃ peer, loadPeer params.srcEid s = .ok peer ∧ peer.address = params.sender
  store : ∃ store, loadStore s = .ok store
  intent : ∃ intent, loadIntent (decodeIntentId params.message) s = .ok intent
  /-- The keys, their order and their flags, and the address of the beneficiary. -/
  escrow : ∃ escrow, loadEscrow (decodeIntentId params.message) s = .ok escrow ∧
    s.systemOwned escrow.beneficiary = true ∧
    lzReceiveAccounts clearAccounts params s accounts = .ok escrow.beneficiary

/-- An error of the handler, after the accounts were let through. -/
inductive HandlerError : AccountError → Prop
  | invalidProof : HandlerError (.program .invalidProof)
  | endpoint : HandlerError (.program .endpoint)
  | alreadyExecuted : HandlerError (.program .alreadyExecuted)
  | blobIdMismatch : HandlerError (.program .blobIdMismatch)
  | escrowNotPending : HandlerError (.program .escrowNotPending)

theorem require_pos {p : Prop} [Decidable p] {e : Error} (h : p) : require p e = .ok () := if_pos h

theorem require_error {p : Prop} [Decidable p] {e e' : Error} (h : require p e = .error e') : e' = e := by
  rw [require] at h
  split at h
  · cases h
  · exact (Except.error.inj h).symm

theorem mapError_error {ε ε' α : Type} {f : ε → ε'} {x : Except ε α} {e : ε'} (h : x.mapError f = .error e) :
    ∃ e', x = .error e' ∧ e = f e' := by
  cases x with
  | ok a => cases h
  | error e' => exact ⟨e', rfl, (Except.error.inj h).symm⟩

/-- A delivery with accounts that fit does not fail on them. -/
theorem AccountsFit.delivered {clearAccounts : Nat} {params : LzReceiveParams} {accounts : List AccountMeta} {s : State}
    (h : AccountsFit clearAccounts params accounts s) {now : Int} {endpoint : Bool} {receipt : Option MessagingReceipt}
    {e : AccountError}
    (herror : process clearAccounts ⟨now, .lzReceive params, accounts, endpoint, receipt⟩ s = .error e) :
    HandlerError e := by
  obtain ⟨peer, hpeer, hsender⟩ := h.peer
  obtain ⟨store, hstore⟩ := h.store
  obtain ⟨intent, hintent⟩ := h.intent
  obtain ⟨escrow, hescrow, hsystem, haccounts⟩ := h.escrow
  simp only [process, haccounts, Result.ok_bind] at herror
  obtain ⟨err, herr, rfl⟩ := mapError_error herror
  simp only [lzReceive, hpeer, hstore, hintent, hescrow, require_pos hsender, require_pos hsystem,
    require_pos trivial, Result.ok_bind] at herr
  cases hdec : decodeProof params.message with
  | error err' =>
    rw [hdec] at herr
    cases herr
    exact .invalidProof
  | ok proof =>
    rw [hdec] at herr
    obtain hcleared | ⟨_, -, herr⟩ := Result.bind_error.mp herr
    · rw [require_error hcleared]
      exact .endpoint
    obtain hexecuted | ⟨_, -, herr⟩ := Result.bind_error.mp herr
    · rw [require_error hexecuted]
      exact .alreadyExecuted
    obtain hblob | ⟨_, -, herr⟩ := Result.bind_error.mp herr
    · rw [require_error hblob]
      exact .blobIdMismatch
    obtain hpending | ⟨_, -, herr⟩ := Result.bind_error.mp herr
    · rw [require_error hpending]
      exact .escrowNotPending
    cases herr

/-! ## What the planner relies on -/

/-- The vaults are for the admin of the store, which has its account list. -/
structure Planned (s : State) : Prop where
  beneficiary : ∀ id vault, s.escrows id = some vault → ∃ store, s.store = some store ∧ vault.beneficiary = store.admin
  types : ∀ store, s.store = some store → s.lzReceiveTypes.isSome = true

section

variable {now : Int} {op : Op} {s s' : State}

/-- The store never changes once it is there. -/
theorem Effect.store_eq (h : Effect now op s s') {store : Store} (hstore : s.store = some store) :
    s'.store = some store := by
  cases h with
  | initStore hnew hl =>
    rw [hnew] at hstore
    cases hstore
  | setPeer | submit | release | confirm | refund | transfer | assign => exact hstore

theorem Effect.planned (h : Effect now op s s') (hp : Planned s) : Planned s' where
  beneficiary id vault hv := by
    obtain hold | ⟨-, -, -, hstore, rfl⟩ := h.opened hv
    · obtain ⟨store, hstore, hadmin⟩ := hp.beneficiary id vault hold
      exact ⟨store, h.store_eq hstore, hadmin⟩
    · exact ⟨_, h.store_eq hstore, rfl⟩
  types store hstore := by
    cases h with
    | initStore hnew hl => rfl
    | setPeer | submit | release | confirm | refund | transfer | assign => exact hp.types store hstore

theorem initial_planned (bumps : Key → UInt8) (rent : Nat → Nat) (systemOwned : Pubkey → Bool)
    (lamports : Key → Nat) : Planned (initial bumps rent systemOwned lamports) where
  beneficiary _ _ h := by cases h
  types _ h := by cases h

theorem run_planned (bumps : Key → UInt8) (rent : Nat → Nat) (systemOwned : Pubkey → Bool) (lamports : Key → Nat)
    (as : List (Int × Op)) : Planned (Machine.run step (initial bumps rent systemOwned lamports) as) :=
  Machine.run_inv as (fun _ _ _ _ h hs => (step_effect h).planned hs) (initial_planned _ _ _ _)

/-! ## The plan -/

theorem check_true {p : Prop} [Decidable p] {e : AccountError} (h : p) : check p e = .ok () := if_pos h

/-- The planned accounts pass the checks of `LzReceive`, in its order. -/
theorem lzReceiveAccounts_planned {clearAccounts : Nat} {params : LzReceiveParams} {executor admin : Pubkey}
    {remaining : List AccountMeta} (hadmin : s.systemOwned admin = true) (hclear : clearAccounts ≤ remaining.length) :
    lzReceiveAccounts clearAccounts params s
      (⟨.wallet executor, true, true⟩ :: ⟨.peer params.srcEid, false, false⟩ :: ⟨.store, false, false⟩ ::
        ⟨.intent (decodeIntentId params.message), false, true⟩ ::
        ⟨.escrow (decodeIntentId params.message), false, true⟩ :: ⟨.wallet admin, false, true⟩ :: remaining) =
      .ok admin := by
  simp only [lzReceiveAccounts, AccountMeta.signer, AccountMeta.writable, AccountMeta.seeds,
    AccountMeta.systemAccount, check_true, hadmin, hclear]
  rfl

/-- In every reachable state, the accounts that `lz_receive_types` plans for a proof from the configured peer, of an
intent whose vault is open, meet every constraint of `lz_receive`, if the admin is a system account. -/
theorem planned_accounts_fit (getAccountsForClear : AccountsForClear) (clearAccounts : Nat)
    (hclear : ∀ endpointProgram receiver srcEid sender nonce,
      clearAccounts ≤ (getAccountsForClear endpointProgram receiver srcEid sender nonce).length)
    (bumps : Key → UInt8) (rent : Nat → Nat) (systemOwned : Pubkey → Bool) (lamports : Key → Nat)
    (as : List (Int × Op)) :
    let s := Machine.run step (initial bumps rent systemOwned lamports) as
    ∀ params proof vault peer store, decodeProof params.message = .ok proof →
      s.escrows proof.intentId = some vault → s.peers params.srcEid = some peer → peer.address = params.sender →
      s.store = some store → s.systemOwned store.admin = true →
      ∃ plan, lzReceiveTypes getAccountsForClear params s = .ok plan ∧
        ∀ executor, AccountsFit clearAccounts params (withExecutor executor plan) s ∧
          ∀ now endpoint receipt e, process clearAccounts
            ⟨now, .lzReceive params, withExecutor executor plan, endpoint, receipt⟩ s = .error e → HandlerError e := by
  intro s params proof vault peer store hdec hv hpeer hsender hstore hadmin
  have hs : Recorded s := run_recorded bumps rent systemOwned lamports as
  have hp : Planned s := run_planned bumps rent systemOwned lamports as
  have hid : decodeIntentId params.message = proof.intentId := by rw [decodeIntentId, hdec]
  obtain ⟨store', hstore', hbeneficiary⟩ := hp.beneficiary _ vault hv
  obtain rfl : store = store' := Option.some.inj (hstore.symm.trans hstore')
  obtain ⟨-, -, intent, hi, -⟩ := hs.vault _ vault hv
  have hload : loadStore s = .ok store := load_ok.mpr ⟨hstore, hs.storeBump store hstore⟩
  refine ⟨_, Result.bind_ok.mpr
    ⟨store, hload, Result.bind_ok.mpr ⟨(), require_ok.mpr (hp.types store hstore), rfl⟩⟩, ?_⟩
  intro executor
  suffices hfit : AccountsFit clearAccounts params _ s from ⟨hfit, fun _ _ _ _ => hfit.delivered⟩
  constructor
  case peer => exact ⟨peer, load_ok.mpr ⟨hpeer, hs.peerBump _ peer hpeer⟩, hsender⟩
  case store => exact ⟨store, hload⟩
  case intent => exact ⟨intent, hid ▸ load_ok.mpr ⟨hi, hs.intentBump _ intent hi⟩⟩
  case escrow =>
    refine ⟨vault, hid ▸ load_ok.mpr ⟨hv, hs.vaultBump _ vault hv⟩, hbeneficiary ▸ hadmin, ?_⟩
    rw [hbeneficiary]
    exact lzReceiveAccounts_planned hadmin (hclear _ _ _ _ _)

end

/-! ## The proof of one submission -/

/-- The accounts of `clear`: the endpoint, the receiver, its registry, nonce and payload hash, the endpoint's settings
and its event authority. -/
def exampleClear : AccountsForClear := fun endpointProgram receiver _ _ _ =>
  [⟨.wallet endpointProgram, false, false⟩, ⟨receiver, false, false⟩, ⟨.wallet (walletOf 20), false, false⟩,
    ⟨.wallet (walletOf 21), false, true⟩, ⟨.wallet (walletOf 22), false, true⟩, ⟨.wallet (walletOf 23), false, true⟩,
    ⟨.wallet (walletOf 24), false, false⟩, ⟨.wallet endpointProgram, false, false⟩]

/-- The plan for it fits. -/
theorem planned_accounts_fit_one : ∃ plan, lzReceiveTypes exampleClear theProof oneSubmission = .ok plan ∧
    AccountsFit 8 theProof (withExecutor (walletOf 11) plan) oneSubmission := by
  obtain ⟨as, has⟩ := oneSubmission_reached
  obtain ⟨hstore, hpeer, hsystem, -, -, hvault⟩ := oneSubmission_open
  have hplan := planned_accounts_fit exampleClear 8 (fun _ _ _ _ _ => le_rfl) (fun _ => 255) (fun size => size)
    (fun _ => true) exampleLamports as
  rw [show Machine.run step (initial (fun _ => 255) (fun size => size) (fun _ => true) exampleLamports) as =
    oneSubmission from has] at hplan
  obtain ⟨plan, hok, hfit⟩ := hplan theProof _ _ _ _ theProof_decodes hvault hpeer rfl hstore (congrFun hsystem _)
  exact ⟨plan, hok, (hfit (walletOf 11)).1⟩

/-- Once the admin's account is given to another program, the accounts planned for the proof are refused. -/
theorem planned_accounts_refused : ¬ ∀ (as : List (Int × Op)), let s := Machine.run step exampleProgram as
    ∀ params proof vault peer store, decodeProof params.message = .ok proof →
      s.escrows proof.intentId = some vault → s.peers params.srcEid = some peer → peer.address = params.sender →
      s.store = some store →
      ∃ plan, lzReceiveTypes exampleClear params s = .ok plan ∧
        ∀ executor, AccountsFit 8 params (withExecutor executor plan) s := by
  intro h
  obtain ⟨as, has⟩ := oneSubmission_reached
  obtain ⟨hstore, hpeer, -, -, -, hvault⟩ := oneSubmission_open
  have hplan := h (as ++ [(6, .assign (walletOf 4) false)])
  rw [Machine.run_append, has] at hplan
  obtain ⟨plan, -, hfit⟩ := hplan theProof _ _ _ _ theProof_decodes hvault hpeer rfl hstore
  obtain ⟨escrow, hescrow, hsystem, -⟩ := (hfit (walletOf 11)).escrow
  have hid : decodeIntentId theProof.message = theId := by rw [decodeIntentId, theProof_decodes]
  rw [hid] at hescrow
  have hloaded : escrow = ⟨walletOf 7, walletOf 4, 9, exampleCommitment.deadline, escrowPending, 255⟩ :=
    Option.some.inj ((load_ok.mp hescrow).1.symm.trans hvault)
  rw [hloaded] at hsystem
  have hassigned : Function.update oneSubmission.systemOwned (walletOf 4) false (walletOf 4) = true := hsystem
  rw [Function.update_self] at hassigned
  cases hassigned

end Bosphor.Solana

import Bosphor.Solana.Accounts
import Bosphor.Solana.Lamports
import Bosphor.Solana.Settlement

/-!
# The custody of an escrow

What happens to the lamports of a vault, whatever instructions are invoked with
whatever accounts: `Custody` says of a state that lamports only moved, that each
open vault holds its amount on top of its rent, that an open vault keeps what it
has until an instruction pays all of it out to the one whom its settlement is
for, that it is never opened again, and that a failed instruction changes
nothing. Every reachable state has it (`run_custody`).
-/

namespace Bosphor.Solana

/-! ## Paying out -/

/-- All lamports of the vault of `id` go to one wallet, and the vault is closed. -/
structure PaidOut (id : IntentId) (recipient : Pubkey) (s s' : State) : Prop where
  closed : s'.escrows id = none
  emptied : s'.lamports (.escrow id) = 0
  paid : s'.lamports (.wallet recipient) = s.lamports (.wallet recipient) + s.lamports (.escrow id)
  others : ∀ k, k ≠ .escrow id → k ≠ .wallet recipient → s'.lamports k = s.lamports k

theorem paidOut_of_close {id : IntentId} {recipient : Pubkey} {s s' : State}
    (he : s'.escrows = Function.update s.escrows id none)
    (hl : s'.lamports = moveLamports (.escrow id) (.wallet recipient) (s.lamports (.escrow id)) s.lamports) :
    PaidOut id recipient s s' := by
  have hne : Key.wallet recipient ≠ Key.escrow id := Key.noConfusion
  constructor
  case closed => rw [he, Function.update_self]
  case emptied => rw [hl, moveLamports, Function.update_of_ne hne.symm, Function.update_self, Nat.sub_self]
  case paid => rw [hl, moveLamports, Function.update_self, Function.update_of_ne hne]
  case others =>
    intro k hk hk'
    rw [hl, moveLamports, Function.update_of_ne hk', Function.update_of_ne hk]

/-- How an action ends the vault `v` of `id`: on a proof of the committed blob that a peer sent and the endpoint
delivered, or past the deadline. -/
inductive Ends (a : Action) (id : IntentId) (v : EscrowVault) (s s' : State) : Prop
  | released {x : Invocation} {params : LzReceiveParams} {peer : Peer} {proof : DecodedProof} {m : Submission}
      (hinvoke : a = .invoke x) (hreceive : x.instruction = .lzReceive params) (hcleared : x.endpoint = true)
      (hpeer : s.peers params.srcEid = some peer) (hsender : params.sender = peer.address)
      (hdecoded : decodeProof params.message = .ok proof) (hid : proof.intentId = id) (hm : m ∈ s.submissions)
      (hmid : m.id = id) (hblob : proof.blobId = m.commitment.blobId) (hpaid : PaidOut id v.beneficiary s s')
  | refunded {x : Invocation} {m : Submission} (hinvoke : a = .invoke x) (hrefund : x.instruction = .refundEscrow id)
      (hm : m ∈ s.submissions) (hmid : m.id = id) (hlate : m.commitment.deadline.toNat < x.now)
      (hpaid : PaidOut id m.sender s s')

/-- What one action does to the vault `v` of `id`. -/
def Holds (a : Action) (id : IntentId) (v : EscrowVault) (s s' : State) : Prop :=
  (s'.escrows id = some v ∧ s.lamports (.escrow id) ≤ s'.lamports (.escrow id)) ∨ Ends a id v s s'

/-! ## One step -/

section

variable {now : Int} {op : Op} {s s' : State} {id : IntentId} {v : EscrowVault}

/-- An open vault is kept, or paid out on an accepted proof or a refund. -/
theorem Effect.vault (h : Effect now op s s') (hv : s.escrows id = some v) :
    (s'.escrows id = some v ∧ s.lamports (.escrow id) ≤ s'.lamports (.escrow id)) ∨
      (∃ params proof intent, op = .lzReceive params v.beneficiary true ∧ proof.intentId = id ∧
        Deliverable params v.beneficiary proof intent v s ∧ PaidOut id v.beneficiary s s') ∨
      (op = .refundEscrow v.payer id ∧ v.deadline.toNat < now ∧ PaidOut id v.payer s s') := by
  cases h with
  | initStore _ hl => exact Or.inl ⟨hv, hl id⟩
  | setPeer _ hl => exact Or.inl ⟨hv, hl id⟩
  | transfer hl => exact Or.inl ⟨hv, hl id⟩
  | assign => exact Or.inl ⟨hv, le_rfl⟩
  | confirm _ _ _ => exact Or.inl ⟨hv, le_rfl⟩
  | submit hs =>
    refine Or.inl ⟨?_, hs.vaults id⟩
    refine (Function.update_of_ne ?_ _ _).trans hv
    rintro rfl
    rw [hs.newEscrow] at hv
    cases hv
  | @release _ params beneficiary proof intent vault hd =>
    by_cases hid : proof.intentId = id
    · subst hid
      obtain rfl : vault = v := Option.some.inj (hd.hasVault.symm.trans hv)
      obtain rfl := hd.recorded
      exact Or.inr (Or.inl ⟨params, proof, intent, rfl, rfl, hd, paidOut_of_close rfl rfl⟩)
    · refine Or.inl ⟨(Function.update_of_ne (Ne.symm hid) _ _).trans hv, Nat.le_of_eq ?_⟩
      show s.lamports (.escrow id) = moveLamports (.escrow proof.intentId)
        (.wallet beneficiary) _ s.lamports (.escrow id)
      rw [moveLamports, Function.update_of_ne Key.noConfusion,
        Function.update_of_ne fun h => hid (Key.escrow.inj h).symm]
  | @refund _ vault id' hv' hst hlate =>
    by_cases hid : id' = id
    · subst hid
      obtain rfl : vault = v := Option.some.inj (hv'.symm.trans hv)
      exact Or.inr (Or.inr ⟨rfl, hlate, paidOut_of_close rfl rfl⟩)
    · refine Or.inl ⟨(Function.update_of_ne (Ne.symm hid) _ _).trans hv, Nat.le_of_eq ?_⟩
      show s.lamports (.escrow id) = moveLamports (.escrow id') (.wallet vault.payer) _ s.lamports (.escrow id)
      rw [moveLamports, Function.update_of_ne Key.noConfusion,
        Function.update_of_ne fun h => hid (Key.escrow.inj h).symm]

/-- A submission opens the vault `v` of `id`. -/
inductive Opens (op : Op) (id : IntentId) (v : EscrowVault) (s : State) : Prop
  | submit {payer c dstEid nativeFee escrowAmount receipt store}
      (hop : op = .submitIntent payer c dstEid nativeFee escrowAmount receipt)
      (hid : id = submissionId c payer (s.nextNonce payer)) (hnew : s.intents id = none) (hstore : s.store = some store)
      (hvault : v = ⟨payer, store.admin, escrowAmount, c.deadline, escrowPending, s.bumps (.escrow id)⟩)

/-- A vault that is open after a step was open before, or a submission opened it. -/
theorem Effect.opened (h : Effect now op s s') (hv : s'.escrows id = some v) :
    s.escrows id = some v ∨ Opens op id v s := by
  cases h with
  | initStore | setPeer | transfer | assign | confirm => exact Or.inl hv
  | submit hs =>
    rcases Table.set_some.mp hv with ⟨rfl, rfl⟩ | ⟨-, hv⟩
    · exact Or.inr (.submit rfl rfl hs.newIntent hs.hasStore rfl)
    · exact Or.inl hv
  | release hd => exact Or.inl (Table.remove_some.mp hv).2
  | refund hv' hst hlate => exact Or.inl (Table.remove_some.mp hv).2

/-- An intent stays. -/
theorem Effect.intent (h : Effect now op s s') (hi : s.intents id ≠ none) : s'.intents id ≠ none := by
  have hset : ∀ id' (i : IntentState), Function.update s.intents id' (some i) id ≠ none := by
    intro id' i
    by_cases he : id = id'
    · rw [he, Function.update_self]
      exact Option.some_ne_none i
    · rw [Function.update_of_ne he]
      exact hi
  cases h with
  | initStore | setPeer | transfer | assign | refund => exact hi
  | submit hs => exact hset _ _
  | release hd => exact hset _ _
  | confirm => exact hset _ _

theorem Effect.rent_eq (h : Effect now op s s') : s'.rent = s.rent := by
  cases h <;> rfl

/-- Each open vault holds its amount on top of its rent. -/
def Funded (s : State) : Prop :=
  ∀ id v, s.escrows id = some v → s.rent EscrowVault.space + v.amount.toNat ≤ s.lamports (.escrow id)

theorem step_funded (h : step (now, op) s = .ok s') (hf : Funded s) : Funded s' := by
  have heffect := step_effect h
  intro id v hv
  rw [heffect.rent_eq]
  obtain hold | hopens := heffect.opened hv
  · obtain ⟨-, hle⟩ | ⟨_, _, _, _, _, _, hpaid⟩ | ⟨-, -, hpaid⟩ := heffect.vault hold
    · exact (hf id v hold).trans hle
    · rw [hpaid.closed] at hv
      cases hv
    · rw [hpaid.closed] at hv
      cases hv
  · obtain ⟨rfl, rfl, -, -, rfl⟩ := hopens
    exact (submitIntent_funds h).2

end

/-! ## Runs -/

/-- What holds of a state, and of every action from it on. -/
structure Custody (clearAccounts : Nat) (lamports : Key → Nat) (s : State) : Prop where
  conserved : Conserved lamports s.lamports
  funded : Funded s
  /-- An open vault keeps its lamports and its terms until all of it is paid out. -/
  vault : ∀ a s', perform clearAccounts a s = .ok s' → ∀ id v, s.escrows id = some v → Holds a id v s s'
  /-- A vault that was closed stays closed. -/
  final : ∀ before after id v, s.escrows id = some v →
    (Machine.run (perform clearAccounts) s before).escrows id = none →
      (Machine.run (perform clearAccounts) s (before ++ after)).escrows id = none
  failed : ∀ a e, perform clearAccounts a s = .error e → Machine.next (perform clearAccounts) s a = s

variable {clearAccounts : Nat} {a : Action} {s s' : State} {id : IntentId}

theorem perform_recorded (h : perform clearAccounts a s = .ok s') (hs : Recorded s) : Recorded s' := by
  obtain ⟨⟨now, op⟩, -, hstep⟩ := perform_step h
  exact (step_effect hstep).recorded hs

/-- An action on an open vault of a recorded state. -/
theorem perform_vault (h : perform clearAccounts a s = .ok s') (hs : Recorded s) {v : EscrowVault}
    (hv : s.escrows id = some v) : Holds a id v s s' := by
  obtain ⟨⟨now, op⟩, hruns, hstep⟩ := perform_step h
  obtain ⟨-, -, intent, hi, hpayer, hdeadline⟩ := hs.vault id v hv
  obtain ⟨m, hm, hmid, hblob, hlate, hsender⟩ := hs.intent id intent hi
  obtain hkept | ⟨params, proof, intent', rfl, hid, hd, hpaid⟩ | ⟨rfl, hpast, hpaid⟩ := (step_effect hstep).vault hv
  · exact Or.inl hkept
  · obtain ⟨peer, hpeer, -, hsender'⟩ := hd.hasPeer
    subst hid
    obtain rfl : intent = intent' := Option.some.inj (hi.symm.trans hd.hasIntent)
    cases hruns with
    | lzReceive =>
      exact Or.inr (.released rfl rfl rfl hpeer hsender'.symm hd.decoded rfl hm hmid (hd.committed.trans hblob.symm)
        hpaid)
  · rw [hpayer, ← hsender] at hpaid
    rw [hdeadline, ← hlate] at hpast
    cases hruns with
    | refundEscrow => exact Or.inr (.refunded rfl rfl hm hmid hpast hpaid)

/-- The vault of an intent that has none stays closed. -/
theorem perform_closed (h : perform clearAccounts a s = .ok s') (hclosed : s.intents id ≠ none ∧ s.escrows id = none) :
    s'.intents id ≠ none ∧ s'.escrows id = none := by
  obtain ⟨⟨now, op⟩, -, hstep⟩ := perform_step h
  have heffect := step_effect hstep
  refine ⟨heffect.intent hclosed.1, ?_⟩
  by_contra hopen
  obtain ⟨v, hv⟩ := Option.ne_none_iff_exists'.mp hopen
  obtain hold | ⟨-, -, hnew, -, -⟩ := heffect.opened hv
  · rw [hclosed.2] at hold
    cases hold
  · exact hclosed.1 hnew

/-- Every reachable state has custody of its vaults. -/
theorem run_custody (clearAccounts : Nat) (bumps : Key → UInt8) (rent : Nat → Nat) (systemOwned : Pubkey → Bool)
    (lamports : Key → Nat) (as : List Action) : Custody clearAccounts lamports
      (Machine.run (perform clearAccounts) (initial bumps rent systemOwned lamports) as) := by
  have hrecorded : Recorded (Machine.run (perform clearAccounts) (initial bumps rent systemOwned lamports) as) :=
    Machine.run_inv as (fun _ _ _ _ h hs => perform_recorded h hs) (initial_recorded _ _ _ _)
  constructor
  case conserved =>
    refine Machine.run_inv (P := fun s : State => Conserved lamports s.lamports) as
      (fun a _ s s' h hc => ?_) (.refl lamports)
    obtain ⟨⟨now, op⟩, -, hstep⟩ := perform_step h
    exact Conserved.trans hc (step_conserved hstep)
  case funded =>
    refine Machine.run_inv as (fun a _ s s' h hf => ?_) fun id v hv => by cases hv
    obtain ⟨⟨now, op⟩, -, hstep⟩ := perform_step h
    exact step_funded hstep hf
  case vault => exact fun a s' h id v hv => perform_vault h hrecorded hv
  case final =>
    intro before after id v hv hclosed
    obtain ⟨-, -, intent, hi, -⟩ := hrecorded.vault id v hv
    have hstays : ∀ a ∈ before, ∀ s s', perform clearAccounts a s = .ok s' → s.intents id ≠ none →
        s'.intents id ≠ none := by
      intro a _ s s' h hi
      obtain ⟨⟨now, op⟩, -, hstep⟩ := perform_step h
      exact (step_effect hstep).intent hi
    have hintent := Machine.run_inv before hstays (hi ▸ Option.some_ne_none intent)
    rw [Machine.run_append]
    exact (Machine.run_inv (P := fun s => s.intents id ≠ none ∧ s.escrows id = none) after
      (fun _ _ _ _ h hc => perform_closed h hc) ⟨hintent, hclosed⟩).2
  case failed => exact fun a e h => Machine.next_error h

end Bosphor.Solana

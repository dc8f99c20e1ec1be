import Mathlib.Data.Sum.Basic
import Bosphor.Evm.Effects
import Bosphor.Lib.Cover

/-!
# The escrow is solvent

What the adapter owes in an asset is the amounts of its pending escrows and
what accounts may withdraw. Each effect of a call moves money between what is
owed, what is in flight and what is held so that the holdings cover the rest
(`Effect.solvent`), hence so do calls and runs of calls:

* `Solvent.run`: every reachable state is solvent;
* `escrow_solvent`: the two sums never exceed the balance, in the native asset
  and in each token that moves exact amounts.
-/

namespace Bosphor.Evm

/-- What an escrow holds of `asset` while it is pending. -/
def Escrow.pendingAmount (e : Escrow) (asset : Address) : Nat :=
  if e.status = .pending ∧ e.token = asset then e.amount else 0

/-- What the adapter owes in `asset`: to the escrow of each id, and to each account. -/
def State.owed (s : State) (asset : Address) : IntentId ⊕ Address → Nat :=
  Sum.elim (fun id => (s.escrows id).pendingAmount asset) (s.withdrawableOf asset)

/-- What the adapter holds of `asset`. -/
def State.held (s : State) (asset : Address) : Nat :=
  if asset = nativeToken then s.balance else (s.tokens asset).balance

/-- The native asset, and the tokens that move exact amounts. -/
def State.Exact (s : State) (asset : Address) : Prop :=
  asset = nativeToken ∨ (s.tokens asset).exact = true

/-- What is in flight of `asset`; native value moves in one piece with the books. -/
def inFlight (r : Address → Nat) (asset : Address) : Nat :=
  if asset = nativeToken then 0 else r asset

/-- The holdings of every exact asset cover what is in flight and what is owed. -/
structure Solvent (p : State × (Address → Nat)) : Prop where
  covers : ∀ asset, p.1.Exact asset → Covers (p.1.held asset) (inFlight p.2 asset) (p.1.owed asset)
  fits : p.1.balance < uint256Size

/-! ## What changes in the books -/

/-- An escrow that is not pending, or not in the asset, owes nothing in it. -/
theorem Escrow.pendingAmount_eq_zero {e : Escrow} {asset : Address} (h : e.status = .pending → e.token ≠ asset) :
    e.pendingAmount asset = 0 := by
  rw [pendingAmount, if_neg fun hp => h hp.1 hp.2]

theorem Escrow.pendingAmount_self {e : Escrow} (h : e.status = .pending) : e.pendingAmount e.token = e.amount := by
  rw [pendingAmount, if_pos ⟨h, rfl⟩]

/-- Writing an escrow changes what is owed at its id. -/
theorem owed_of_escrows (s s' : State) {asset : Address} {id : IntentId} {e : Escrow}
    (he : s'.escrows = Function.update s.escrows id e)
    (hw : s'.withdrawableOf asset = s.withdrawableOf asset) :
    s'.owed asset = Function.update (s.owed asset) (.inl id) (e.pendingAmount asset) := by
  rw [State.owed, State.owed, Sum.update_elim_inl, hw, he]
  congr 1
  exact Function.comp_update (fun e : Escrow => e.pendingAmount asset) s.escrows id e

/-- Writing an account's credit changes what is owed to it. -/
theorem owed_of_withdrawable {s s' : State} {asset account : Address} {amount : Nat}
    (he : s'.escrows = s.escrows)
    (hw : s'.withdrawableOf asset = Function.update (s.withdrawableOf asset) account amount) :
    s'.owed asset = Function.update (s.owed asset) (.inr account) amount := by
  rw [State.owed, State.owed, Sum.update_elim_inr, hw, he]

theorem withdrawableOf_native (s : State) : s.withdrawableOf nativeToken = s.withdrawable := by
  funext account
  rw [State.withdrawableOf, if_pos rfl]

theorem withdrawableOf_token (s : State) {token : Address} (h : token ≠ nativeToken) :
    s.withdrawableOf token = s.withdrawableToken token := by
  funext account
  rw [State.withdrawableOf, if_neg h]

theorem withdrawableOf_credited_self (s : State) (asset recipient : Address) (amount : Nat) :
    (s.credited asset recipient amount).withdrawableOf asset =
      Function.update (s.withdrawableOf asset) recipient (s.withdrawableOf asset recipient + amount) := by
  funext account
  by_cases h : asset = nativeToken
  · simp only [State.credited, State.withdrawableOf, h, if_true]
    by_cases ha : account = recipient
    · subst ha
      rw [Function.update_self, Function.update_self]
    · rw [Function.update_of_ne ha, Function.update_of_ne ha]
      simp only [State.withdrawableOf, if_true]
  · simp only [State.credited, State.withdrawableOf, h, if_false, Function.update_self]
    by_cases ha : account = recipient
    · subst ha
      rw [Function.update_self, Function.update_self]
    · rw [Function.update_of_ne ha, Function.update_of_ne ha]
      simp only [State.withdrawableOf, h, if_false]

theorem withdrawableOf_credited_of_ne (s : State) {asset other : Address} (recipient : Address) (amount : Nat)
    (h : other ≠ asset) : (s.credited asset recipient amount).withdrawableOf other = s.withdrawableOf other := by
  funext account
  by_cases hn : asset = nativeToken
  · have ho : other ≠ nativeToken := fun ho => h (ho.trans hn.symm)
    simp only [State.credited, State.withdrawableOf, hn, ho, if_true, if_false]
  · by_cases ho : other = nativeToken
    · simp only [State.credited, State.withdrawableOf, hn, ho, if_true, if_false]
    · simp only [State.credited, State.withdrawableOf, hn, ho, if_false, Function.update_of_ne h]

/-- Settling a pending escrow moves its amount from the escrow to the recipient. -/
theorem covers_settled {s s' : State} {balance reserve : Nat} {id : IntentId} {status : EscrowStatus}
    {recipient asset : Address} (hp : (s.escrows id).status = .pending) (hs : status ≠ .pending)
    (he : s'.escrows = Function.update s.escrows id { s.escrows id with status })
    (hw : s'.withdrawableOf asset =
      (s.credited (s.escrows id).token recipient (s.escrows id).amount).withdrawableOf asset)
    (h : Covers balance reserve (s.owed asset)) : Covers balance reserve (s'.owed asset) := by
  have hzero : ({ s.escrows id with status } : Escrow).pendingAmount asset = 0 :=
    Escrow.pendingAmount_eq_zero fun hst => absurd hst hs
  by_cases ht : (s.escrows id).token = asset
  · subst ht
    -- Struck at the id, then owed to the recipient.
    let m : State := { s with escrows := Function.update s.escrows id { s.escrows id with status } }
    have hstruck := h.settle (c := 0) (.inl id)
      (show s.owed _ (.inl id) = 0 + (s.escrows id).amount from
        (Escrow.pendingAmount_self hp).trans (Nat.zero_add _).symm)
    have hmid : m.owed (s.escrows id).token = Function.update (s.owed (s.escrows id).token) (.inl id) 0 :=
      hzero ▸ owed_of_escrows s m rfl rfl
    have hend : s'.owed (s.escrows id).token = Function.update (m.owed (s.escrows id).token) (.inr recipient)
        (s.withdrawableOf (s.escrows id).token recipient + (s.escrows id).amount) :=
      owed_of_withdrawable (s := m) he (hw.trans (withdrawableOf_credited_self s _ _ _))
    rw [hend, hmid]
    exact hstruck.owe (.inr recipient)
  · have howed := owed_of_escrows s s' he (hw.trans (withdrawableOf_credited_of_ne s recipient _ (Ne.symm ht)))
    rw [hzero] at howed
    rw [howed, Function.update_eq_self_iff.mpr (Escrow.pendingAmount_eq_zero fun _ => ht).symm]
    exact h

/-- Opening an escrow of an id that has none makes money set aside owed to it. -/
theorem covers_opened {s s' : State} {asset : Address} {id : IntentId} {e : Escrow} {balance reserve : Nat}
    (hnone : (s.escrows id).status = .none) (he : s'.escrows = Function.update s.escrows id e)
    (hw : s'.withdrawableOf asset = s.withdrawableOf asset)
    (h : Covers balance (reserve + e.pendingAmount asset) (s.owed asset)) :
    Covers balance reserve (s'.owed asset) := by
  have hzero : s.owed asset (.inl id) = 0 := Escrow.pendingAmount_eq_zero fun hp => by
    rw [hnone] at hp
    cases hp
  have howe := h.owe (.inl id)
  rwa [hzero, Nat.zero_add, ← owed_of_escrows s s' he hw] at howe

/-- Striking what an account may withdraw sets it aside. -/
theorem covers_struck (s s' : State) (account : Address) {asset : Address} {balance reserve : Nat}
    (he : s'.escrows = s.escrows)
    (hw : s'.withdrawableOf asset = Function.update (s.withdrawableOf asset) account 0)
    (h : Covers balance reserve (s.owed asset)) :
    Covers balance (reserve + s.withdrawableOf asset account) (s'.owed asset) := by
  rw [owed_of_withdrawable he hw]
  exact h.settle (c := 0) (.inr account) (Nat.zero_add _).symm

theorem exact_tokenLeft {s : State} {token asset : Address} {balance : Nat} :
    (s.tokenLeft token balance).Exact asset ↔ s.Exact asset := by
  by_cases h : asset = token
  · subst h
    simp only [State.Exact, State.tokenLeft, Function.update_self]
  · simp only [State.Exact, State.tokenLeft, Function.update_of_ne h]

theorem held_tokenLeft_self {s : State} {token : Address} (balance : Nat) (h : token ≠ nativeToken) :
    (s.tokenLeft token balance).held token = balance := by
  simp only [State.held, State.tokenLeft, h, if_false, Function.update_self]

theorem held_tokenLeft_of_ne {s : State} {token asset : Address} (balance : Nat) (h : asset ≠ token) :
    (s.tokenLeft token balance).held asset = s.held asset := by
  simp only [State.held, State.tokenLeft, Function.update_of_ne h]

/-- A token contract changes the balance it keeps, and what is in flight in it; the native asset is
not its concern. -/
theorem Solvent.tokenLeft {s : State} {r r' : Address → Nat} {token : Address} {balance : Nat}
    (h : Solvent (s, r)) (hr : ∀ asset, asset ≠ token → r' asset = r asset)
    (hself : token ≠ nativeToken → (s.tokens token).exact = true →
      Covers (s.tokens token).balance (r token) (s.owed token) → Covers balance (r' token) (s.owed token)) :
    Solvent (s.tokenLeft token balance, r') := by
  refine ⟨fun asset hx => ?_, h.fits⟩
  have hexact : s.Exact asset := exact_tokenLeft.mp hx
  have hcov := h.covers asset hexact
  by_cases hn : asset = nativeToken
  · simp only [State.held, inFlight, hn, if_true] at hcov ⊢
    exact hcov
  · by_cases ht : asset = token
    · subst ht
      simp only [held_tokenLeft_self balance hn, inFlight, hn, if_false]
      simp only [State.held, inFlight, hn, if_false] at hcov
      exact hself hn (hexact.resolve_left hn) hcov
    · simp only [held_tokenLeft_of_ne balance ht, inFlight, hr asset ht]
      exact hcov

theorem add_single_of_ne (r : Address → Nat) {token asset : Address} (amount : Nat) (h : asset ≠ token) :
    (r + Pi.single token amount : Address → Nat) asset = r asset := by
  rw [Pi.add_apply, Pi.single_eq_of_ne h, Nat.add_zero]

theorem add_single_self (r : Address → Nat) (token : Address) (amount : Nat) :
    (r + Pi.single token amount : Address → Nat) token = r token + amount := by
  rw [Pi.add_apply, Pi.single_eq_same]

/-! ## Every effect -/

theorem Effect.solvent {now : Nat} {allowed : Op → Prop} {p q : State × (Address → Nat)}
    (h : Effect now allowed p q) (hp : Solvent p) : Solvent q := by
  obtain ⟨hc, hb⟩ := hp
  cases h with
  | @submit s r sender value nativeFee dstEid c ha h hnew hnone =>
    refine ⟨fun asset hx => ?_, ?_⟩
    · have hcov := hc asset hx
      refine covers_opened hnone rfl rfl ?_
      by_cases hn : asset = nativeToken
      · subst hn
        -- The value comes in, the fee goes out, the rest is what the escrow opens with.
        have hin := hcov.receive value
        have hsplit : inFlight r nativeToken + value =
            inFlight r nativeToken + (value - nativeFee) + nativeFee := by
          have := h.covered
          omega
        rw [hsplit] at hin
        exact hin.pay
      · have hz : Escrow.pendingAmount ⟨sender, nativeToken, value - nativeFee, c.deadline, .pending⟩ asset = 0 :=
          Escrow.pendingAmount_eq_zero fun _ => Ne.symm hn
        simp only [State.held, hn, if_false] at hcov ⊢
        rw [hz]
        exact hcov
    · exact (Nat.sub_le _ _).trans_lt h.fits
  | @prove s r value packet id blobId endEpoch ha hdec h =>
    refine ⟨fun asset hx => ?_, h.fits⟩
    have hcov : Covers (s.held asset) (inFlight r asset)
        ((proven now value packet id blobId endEpoch s).owed asset) :=
      covers_settled h.pending (by decide) rfl rfl (hc asset hx)
    refine hcov.mono ?_
    simp only [State.held, proven, State.settled, State.credited]
    split
    · exact Nat.le_add_right _ _
    · exact Nat.le_refl _
  | refund ha hpending hlate hfit =>
    exact ⟨fun asset hx => covers_settled hpending (by decide) rfl rfl (hc asset hx), hb⟩
  | receive hfit =>
    refine ⟨fun asset hx => (hc asset hx).mono ?_, hfit⟩
    simp only [State.held]
    split
    · exact Nat.le_add_right _ _
    · exact Nat.le_refl _
  | @tokenMoves s r token balance h =>
    exact Solvent.tokenLeft ⟨hc, hb⟩ (fun _ _ => rfl) fun _ hexact hcov => hcov.mono (h hexact)
  | @pull s r token amount left =>
    refine Solvent.tokenLeft ⟨hc, hb⟩ (fun asset hne => add_single_of_ne r amount hne) fun _ hexact hcov => ?_
    rw [if_pos hexact, add_single_self]
    exact hcov.receive amount
  | @payToken s r token amount left h =>
    refine Solvent.tokenLeft ⟨hc, hb⟩ (fun asset hne => (add_single_of_ne r amount hne).symm)
      fun _ hexact hcov => ?_
    rw [add_single_self] at hcov
    rw [if_pos hexact]
    exact hcov.pay
  | @openToken s r sender id deadline token amount left ha htoken hnone =>
    refine ⟨fun asset hx => covers_opened hnone rfl rfl ?_, hb⟩
    have hcov : Covers (s.held asset) (inFlight (r + Pi.single token amount) asset) (s.owed asset) := hc asset hx
    by_cases ht : asset = token
    · subst ht
      rw [Escrow.pendingAmount, if_pos ⟨rfl, rfl⟩, inFlight, if_neg htoken]
      rwa [inFlight, if_neg htoken, add_single_self] at hcov
    · rw [Escrow.pendingAmount_eq_zero fun _ => Ne.symm ht, Nat.add_zero]
      rwa [inFlight, add_single_of_ne r amount ht, ← inFlight] at hcov
  | @withdraw s r sender ha hentered hne hle =>
    refine ⟨fun asset hx => ?_, (Nat.sub_le _ _).trans_lt hb⟩
    have hcov : Covers (s.held asset) (inFlight r asset) (s.owed asset) := hc asset hx
    by_cases hn : asset = nativeToken
    · subst hn
      have hstruck := covers_struck s (s.nativeDrawn sender) sender rfl
        (by rw [withdrawableOf_native, withdrawableOf_native]; rfl) hcov
      rw [withdrawableOf_native] at hstruck
      exact hstruck.pay
    · have hheld : (s.nativeDrawn sender).held asset = s.held asset := by
        simp only [State.held, hn, if_false, State.nativeDrawn]
      have howed : (s.nativeDrawn sender).owed asset = s.owed asset := by
        simp only [State.owed, withdrawableOf_token _ hn, State.nativeDrawn]
      rwa [← hheld, ← howed] at hcov
  | @debitToken s r sender token left ha hentered hne =>
    refine ⟨fun asset hx => ?_, hb⟩
    have hcov : Covers (s.held asset) (inFlight r asset) (s.owed asset) := hc asset hx
    by_cases ht : asset = token
    · subst ht
      by_cases hn : asset = nativeToken
      · subst hn
        have howed : (s.tokenStruck nativeToken sender).owed nativeToken = s.owed nativeToken := by
          simp only [State.owed, withdrawableOf_native, State.tokenStruck]
        rwa [← howed] at hcov
      · have hstruck := covers_struck s (s.tokenStruck asset sender) sender rfl
          (by rw [withdrawableOf_token _ hn, withdrawableOf_token _ hn]; exact Function.update_self _ _ _) hcov
        simp only [inFlight, hn, if_false, withdrawableOf_token _ hn] at hstruck
        simp only [inFlight, hn, if_false, add_single_self]
        exact hstruck
    · have howed : (s.tokenStruck token sender).owed asset = s.owed asset := by
        by_cases hn : asset = nativeToken
        · subst hn
          simp only [State.owed, withdrawableOf_native, State.tokenStruck]
        · simp only [State.owed, withdrawableOf_token _ hn, State.tokenStruck, Function.update_of_ne ht]
      simp only [inFlight, add_single_of_ne r _ ht]
      rwa [← howed] at hcov
  | confirm | setRelayer | setPeer | setPermit2 | setOwner | withdrawn | withdrawnToken =>
    exact ⟨hc, hb⟩

/-! ## Calls and runs -/

theorem call_solvent {now : Nat} {c : Call} {s s' : State} (h : call now c s = .ok s') {r : Address → Nat}
    (hs : Solvent (s, r)) : Solvent (s', r) :=
  (call_effects c (fun _ _ => trivial : ∀ op ∈ c.ops, (fun _ => True) op) s s' h r).keeps
    (fun _ _ => Effect.solvent) hs

theorem initial_solvent (self endpoint owner trustedRelayer : Address) (tokens : Address → TokenAccount) :
    Solvent (initial self endpoint owner trustedRelayer tokens, 0) := by
  refine ⟨fun asset _ => ?_, Nat.two_pow_pos 256⟩
  have howed : (initial self endpoint owner trustedRelayer tokens).owed asset = fun _ => 0 := by
    funext creditor
    cases creditor with
    | inl id =>
      have hempty : Escrow.empty.pendingAmount asset = 0 := Escrow.pendingAmount_eq_zero fun hp => by cases hp
      exact hempty
    | inr account => exact ite_self 0
  have hflight : inFlight (0 : Address → Nat) asset = 0 := ite_self 0
  simp only [howed, hflight]
  exact Covers.zero.mono (Nat.zero_le _)

/-- Every reachable state is solvent, with nothing in flight. -/
theorem Solvent.run {s : State} (hs : Solvent (s, 0)) (as : List (Nat × Call)) :
    Solvent (Machine.run step s as, 0) :=
  Machine.run_inv (P := fun s => Solvent (s, 0)) as (fun _ _ _ _ h hs => call_solvent h hs) hs

/-- In every state the adapter reaches, its native balance is at least the amounts of all pending
native escrows plus all native balances that can be withdrawn, and its balance of each token that
moves exact amounts is at least the same for that token. A reverting call changes nothing. -/
theorem escrow_solvent {self endpoint owner trustedRelayer : Address} {tokens : Address → TokenAccount}
    {s₀ : State} (h : deploy self endpoint owner trustedRelayer tokens = .ok s₀) (as : List (Nat × Call)) :
    let s := Machine.run step s₀ as
    ((Function.support fun id => (s.escrows id).pendingAmount nativeToken).Finite ∧
      (Function.support s.withdrawable).Finite ∧
      ∑ᶠ id, (s.escrows id).pendingAmount nativeToken + ∑ᶠ a, s.withdrawable a ≤ s.balance) ∧
    (∀ token, token ≠ nativeToken → (s.tokens token).exact = true →
      (Function.support fun id => (s.escrows id).pendingAmount token).Finite ∧
      (Function.support (s.withdrawableToken token)).Finite ∧
      ∑ᶠ id, (s.escrows id).pendingAmount token + ∑ᶠ a, s.withdrawableToken token a ≤
        (s.tokens token).balance) ∧
    (∀ a e, step a s = .error e → Machine.next step s a = s) := by
  intro s
  have hs : Solvent (s, 0) := by
    obtain ⟨-, rfl⟩ := deploy_ok.mp h
    exact (initial_solvent _ _ _ _ _).run as
  refine ⟨?_, fun token hn hx => ?_, fun a e he => Machine.next_error he⟩
  · have hcov := hs.covers nativeToken (Or.inl rfl)
    rw [State.owed, withdrawableOf_native] at hcov
    obtain ⟨hp, hw, hle⟩ := hcov.finsum_elim_le
    exact ⟨hp, hw, (Nat.le_add_left _ _).trans hle⟩
  · have hcov := hs.covers token (Or.inr hx)
    rw [State.owed, withdrawableOf_token s hn, State.held, if_neg hn] at hcov
    obtain ⟨hp, hw, hle⟩ := hcov.finsum_elim_le
    exact ⟨hp, hw, (Nat.le_add_left _ _).trans hle⟩

/-- The calls by which a token deposit is made, refunded and withdrawn. While the token pays out, its code has the
withdrawer withdraw once more, which is refused, and then deposit 40 for another intent. -/
def reenteringCalls : List (Nat × Call) :=
  [(1, .mk (.setPermit2 (accountOf 3) (accountOf 8)) [] []),
   (2, .mk (.depositUsdcWithPermit2 (accountOf 5) (Bytes.zero 32) 6 (accountOf 9) 100 0 true) [] []),
   (7, .mk (.refund (Bytes.zero 32)) [] []),
   (8, .mk (.withdrawToken (accountOf 5) (accountOf 9) 0 true)
    [.mk (.withdrawToken (accountOf 5) (accountOf 9) 0 true) [] []]
    [.mk (.depositUsdcWithPermit2 (accountOf 5) (toBytes32 (accountOf 6)) 20 (accountOf 9) 40 0 true) [] []])]

/-- The deposit made while the withdrawal runs is owed, and held; the withdrawal is paid once. -/
theorem escrow_solvent_reentered :
    let s := Machine.run step exampleAdapter reenteringCalls
    s.drawn (accountOf 9) (accountOf 5) = 100 ∧
      (s.escrows (toBytes32 (accountOf 6))).pendingAmount (accountOf 9) = 40 ∧
      (s.tokens (accountOf 9)).balance = 40 ∧
      ∑ᶠ id, (s.escrows id).pendingAmount (accountOf 9) + ∑ᶠ a, s.withdrawableToken (accountOf 9) a ≤
        (s.tokens (accountOf 9)).balance := by
  intro s
  refine ⟨by decide, by decide, by decide, ?_⟩
  exact ((escrow_solvent exampleAdapter_deployed reenteringCalls).2.1 (accountOf 9) (by decide) rfl).2.2

end Bosphor.Evm

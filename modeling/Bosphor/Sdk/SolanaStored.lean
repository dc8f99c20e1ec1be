import Bosphor.Sdk.SolanaStore

/-!
# Storing over the Solana program

The client stores while anything else happens to the program. The node that it
asks may lag, may show any nonce and any logs, and may lose an answer.

* `landsAs_records`: what the transaction does when it lands.
* `store_proves`: a flow that returns has sent one transaction, and it landed;
  the program derived from it the id that is returned, and the result is the
  one recorded under that id.
-/

namespace Bosphor.Sdk.SolanaStore

open Async
open Ts (toUint32 toUint64)
open Solana (Pubkey IntentId Key AccountMeta Action)
open BosphorEvmClient (EncodedIntent)
open Relayer (hexlify)

variable (client : Client) (args : StoreArgs)

/-! ## What the transaction does -/

/-- The commitment of an intent, with each of its fields cut to its width. -/
def cut (e : EncodedIntent) : Commitment :=
  Ts.Commitment.cut ⟨e.blobId.val, .finite (e.size : Nat), .finite (e.encodingType : Nat),
    .finite (e.storageEpochs : Int), e.deadline⟩ e.blobId

/-- The transaction's instruction succeeds as the action `a`. -/
def LandsAs (clearAccounts : Nat) (tx : Transaction) (a : Action) (s s' : Solana.State) : Prop :=
  ∃ params now endpoint receipt,
    Solana.decodeSubmitIntent (client.lib.instructionDiscriminator "submit_intent") tx.data = some params ∧
    a = .invoke ⟨now, params.instruction, tx.keys, endpoint, receipt⟩ ∧ Solana.perform clearAccounts a s = .ok s'

/-- The program has derived `id` for the intent of `c`, recorded it with `escrowAmount` in its vault, and sent it. -/
structure Records (id : IntentId) (c : Commitment) (escrowAmount : UInt64) (s s' : Solana.State) : Prop where
  submits : ∃ dstEid, Submits client.payerKey id c dstEid s s'
  vault : ∃ beneficiary bump, s'.escrows id =
    some ⟨client.payerKey, beneficiary, escrowAmount, c.deadline, Solana.escrowPending, bump⟩

theorem strip0x_toHex (lib : Libraries) (bytes : List UInt8) : strip0x (lib.toHex bytes) = lib.bytesToHex bytes := by
  rw [strip0x, Libraries.toHex, String.toList_append]
  exact String.ofList_toList

theorem landsAs_records (hhex : ∀ b, client.lib.hexToBytes (client.lib.bytesToHex b) = .ok b) {clearAccounts : Nat}
    {e : EncodedIntent} {opts : SubmitOptions} {info : Option (List UInt8)} {tx : Transaction} {a : Action}
    {s s' : Solana.State}
    (hbuilt : submitIntent client.lib client.payerKey client.endpointAccounts info (submitFields client e opts) =
      .ok tx)
    (hlands : LandsAs client clearAccounts tx a s s') :
    ∃ id options escrowAmount, tx.intentId = client.lib.toHex id.val ∧
      client.lib.hexToBytes (strip0x (submitFields client e opts).options) = .ok options ∧
      (options.length < 2 ^ 32 → escrowAmount = toUint64 (opts.escrowAmount.getD 0)) ∧
      Records client id (cut e) escrowAmount s s' := by
  obtain ⟨seed, eid, endpointAccounts, hid, hkeys⟩ :=
    Transaction.Built.keys client.lib hhex ⟨client.endpointAccounts, info, submitFields client e opts, hbuilt⟩
  obtain ⟨nonce, -, hbuild⟩ := Result.bind_ok.mp hbuilt
  obtain ⟨blobId, hblob, hbuild⟩ := Result.bind_ok.mp hbuild
  obtain ⟨_, -, hbuild⟩ := Result.bind_ok.mp hbuild
  obtain ⟨options, hoptions, hbuild⟩ := Result.bind_ok.mp hbuild
  obtain ⟨data, hdata, hbuild⟩ := Result.bind_ok.mp hbuild
  obtain ⟨_, -, hbuild⟩ := Result.bind_ok.mp hbuild
  have hsame : tx.data = data := by
    cases hbuild
    rfl
  have hread : client.lib.hexToBytes (strip0x (submitFields client e opts).blobId) = .ok e.blobId.val := by
    show client.lib.hexToBytes (strip0x (client.lib.toHex e.blobId.val)) = _
    rw [strip0x_toHex, hhex]
  obtain ⟨data', params, hencoded, hparams, hcommitment, -, hfees⟩ := encodeSubmitIntentData_ok client.lib.toCodecs
    ((submitFields client e opts).args options) e.blobId hread
  obtain rfl : data = data' := Except.ok.inj (hdata.symm.trans hencoded)
  obtain ⟨params', now, endpoint, receipt, hparams', rfl, hperform⟩ := hlands
  rw [hsame] at hparams'
  obtain rfl : params = params' := Option.some.inj (hparams.symm.trans hparams')
  rw [hkeys] at hperform
  obtain ⟨key, haccounts, hsubmit⟩ := Result.bind_ok.mp hperform
  obtain ⟨rfl, rfl⟩ := submitIntentAccounts_seed haccounts
  obtain ⟨store, peer, r, lamports, -, hsubmittable, rfl⟩ := Solana.submitIntent_effect (Solana.mapError_ok.mp hsubmit)
  have hcut : params.commitment = cut e := hcommitment
  rw [hcut] at hid hsubmittable ⊢
  refine ⟨_, options, params.escrowAmount, hid, hoptions, fun hlength => (hfees hlength).2, ⟨⟨params.dstEid, ?_⟩, ?_⟩⟩
  · exact {
      derived := Solana.computeIntentId_eq _ _ _
      fresh := hsubmittable.newIntent
      recorded := ⟨_, Function.update_self ..⟩
      logged := ⟨now, r.guid, r.nonce, rfl⟩
      sent := ⟨peer.address, rfl⟩ }
  · exact ⟨store.admin, _, Function.update_self ..⟩

/-! ## Over the program -/

section

variable (clearAccounts : Nat) (s₀ : Solana.State)

/-- The state after the actions `as`. -/
abbrev after (as : List Action) : Solana.State := Machine.run (Solana.perform clearAccounts) s₀ as

/-- What a node gives for an address. One that the program has not created, and that holds lamports, has no data. -/
def NodeShows (s : Solana.State) : AccountView → Option (List UInt8) → Prop
  | .getAccountInfo (.intent id), info =>
    info = match s.intents id with
      | some intent => some (intent.data (accountDiscriminator "IntentState"))
      | none => if s.lamports (.intent id) = 0 then none else some []
  -- Nothing is asked of what it gives for the nonce.
  | _, _ => True

/-- A node may lag: it gives what an account was after some of the actions. -/
def Lagging (as : List Action) (v : AccountView) (info : Option (List UInt8)) : Prop :=
  ∃ before, before <+: as ∧ NodeShows (after clearAccounts s₀ before) v info

/-- How a call is answered after the actions `as`. What is no call to the program may be answered with anything, and so
may the logs of a transaction. -/
inductive StoreServes : List Action → (c : StoreCall) → Except AwaitError c.Answer → List Action → Prop
  | wait {as c r as'} (h : Serves id (Lagging clearAccounts s₀) as c r as') : StoreServes as (.wait c) r as'
  | landed {as tx a s'} (signature : String) (h : LandsAs client clearAccounts tx a (after clearAccounts s₀ as) s') :
    StoreServes as (.signAndSend tx) (.ok signature) (as ++ [a])
  | lost {as as' tx} (e : AwaitError)
      (h : as' = as ∨ ∃ a s', LandsAs client clearAccounts tx a (after clearAccounts s₀ as) s' ∧ as' = as ++ [a]) :
    StoreServes as (.signAndSend tx) (.error e) as'
  | elsewhere {as c} (hwait : ∀ d, c ≠ .wait d) (hsend : ∀ tx, c ≠ .signAndSend tx) (r : Except AwaitError c.Answer) :
    StoreServes as c r as

/-- A client that stores while anything else happens to the program. -/
def storeHost : Host (List Action) StoreCall StoreCall.Answer AwaitError StoreResult where
  starts as p as' := as' = as ∧ ∃ polls, p = store client args polls ∨ p = storePriced client args polls
  serves := StoreServes client clearAccounts s₀
  moves as as' := ∃ a, as' = as ++ [a]

/-- The transaction has landed. -/
def Landed (as : List Action) (tx : Transaction) : Prop :=
  ∃ before a, before ++ [a] <+: as ∧
    LandsAs client clearAccounts tx a (after clearAccounts s₀ before) (after clearAccounts s₀ (before ++ [a]))

/-- What the program owes a flow: what it was shown was so, and its transactions have landed. -/
structure Owes (as : List Action) (told : StoreTold) : Prop where
  shown : ∀ v info, Shown (waitTold told) v info → Lagging clearAccounts s₀ as v info
  landed : ∀ tx signature, ⟨.signAndSend tx, .ok signature⟩ ∈ told → Landed client clearAccounts s₀ as tx

/-- What has become of a flow that returned `res`. -/
structure Stored (as : List Action) (told : StoreTold) (res : StoreResult) (e : EncodedIntent) (tx : Transaction)
    (id : IntentId) : Prop where
  script : ∃ pricing fromEvent, Script client args told res e tx pricing fromEvent
  named : res.intentId = client.lib.toHex id.val
  recorded : ∃ before a options escrowAmount, before ++ [a] <+: as ∧
    LandsAs client clearAccounts tx a (after clearAccounts s₀ before) (after clearAccounts s₀ (before ++ [a])) ∧
    client.lib.hexToBytes (strip0x (submitFields client e (optionsAt client args res.quote)).options) = .ok options ∧
    (options.length < 2 ^ 32 → escrowAmount = toUint64 ((optionsAt client args res.quote).escrowAmount.getD 0)) ∧
    Records client id (cut e) escrowAmount (after clearAccounts s₀ before) (after clearAccounts s₀ (before ++ [a]))
  proven : ∃ intent, (after clearAccounts s₀ as).intents id = some intent ∧ intent.executed = true ∧
    intent.committedBlobId = e.blobId ∧ (after clearAccounts s₀ as).executions id = [(e.blobId, intent.endEpoch)] ∧
    res.blobId = hexlify e.blobId.val ∧ res.endEpoch = intent.endEpoch.toNat

end

section

variable {client args} {clearAccounts : Nat} {s₀ : Solana.State} {as as' : List Action} {told : StoreTold}

theorem Lagging.grow {v : AccountView} {info : Option (List UInt8)} (h : Lagging clearAccounts s₀ as v info)
    (hgrow : as <+: as') : Lagging clearAccounts s₀ as' v info := by
  obtain ⟨before, hbefore, hshows⟩ := h
  exact ⟨before, hbefore.trans hgrow, hshows⟩

theorem Owes.grow (howes : Owes client clearAccounts s₀ as told) (hgrow : as <+: as') :
    Owes client clearAccounts s₀ as' told where
  shown v info hshown := (howes.shown v info hshown).grow hgrow
  landed tx signature hmem := by
    obtain ⟨before, a, hbefore, hlands⟩ := howes.landed tx signature hmem
    exact ⟨before, a, hbefore.trans hgrow, hlands⟩

/-- One more answer, that shows nothing that is not so and for which nothing is missing. -/
theorem Owes.answer {c : StoreCall} {r : Except AwaitError c.Answer} (howes : Owes client clearAccounts s₀ as told)
    (hshown : ∀ v info, Shown (waitTold [⟨c, r⟩]) v info → Lagging clearAccounts s₀ as v info)
    (hlanded : ∀ tx signature, (⟨c, r⟩ : Σ c : StoreCall, Except AwaitError c.Answer) =
      ⟨.signAndSend tx, .ok signature⟩ → Landed client clearAccounts s₀ as tx) :
    Owes client clearAccounts s₀ as (told ++ [⟨c, r⟩]) where
  shown v info h := by
    rw [waitTold_append] at h
    obtain h | h := List.mem_append.mp h
    · exact howes.shown v info h
    · exact hshown v info h
  landed tx signature h := by
    obtain h | h := List.mem_append.mp h
    · exact howes.landed tx signature h
    · exact hlanded tx signature (List.mem_singleton.mp h).symm

theorem landsAs_after {tx : Transaction} {a : Action} {s' : Solana.State}
    (h : LandsAs client clearAccounts tx a (after clearAccounts s₀ as) s') :
    s' = after clearAccounts s₀ (as ++ [a]) := by
  obtain ⟨-, -, -, -, -, -, hperform⟩ := h
  rw [after, Machine.run_append]
  exact (Machine.run_singleton hperform).symm

theorem StoreServes.owes {c : StoreCall} {r : Except AwaitError c.Answer}
    (hserves : StoreServes client clearAccounts s₀ as c r as') (howes : Owes client clearAccounts s₀ as told) :
    Owes client clearAccounts s₀ as' (told ++ [⟨c, r⟩]) := by
  cases hserves with
  | @wait c r as' hserves =>
    have hsame : as' = as := by cases hserves <;> rfl
    subst hsame
    refine howes.answer (fun v info hshown => ?_) fun tx signature h => by cases h
    have hlast := List.mem_singleton.mp hshown
    cases hserves with
    | view hreads =>
      cases hlast
      exact hreads
    | throwIfAborted | now | sleep | fails => cases hlast
  | @landed tx a s' signature hlands =>
    have hs' := landsAs_after hlands
    subst hs'
    refine (howes.grow (List.prefix_append as [a])).answer (fun v info hshown => absurd hshown List.not_mem_nil)
      fun tx' signature' h => ?_
    cases h
    exact ⟨as, a, List.prefix_rfl, hlands⟩
  | @lost as' tx e has =>
    have hgrow : as <+: as' := by
      obtain rfl | ⟨a, s', -, rfl⟩ := has
      · exact List.prefix_rfl
      · exact List.prefix_append as [a]
    exact (howes.grow hgrow).answer (fun v info hshown => absurd hshown List.not_mem_nil) fun tx' signature h => by
      cases h
  | elsewhere hwait hsend r =>
    refine howes.answer (fun v info hshown => ?_) fun tx signature h => ?_
    · cases c with
      | wait d => exact absurd rfl (hwait d)
      | computeBlob | quoteLzFee | fetchQuote | signAndSend | getTransaction | upload | emit =>
        exact absurd hshown List.not_mem_nil
    · cases h
      exact absurd rfl (hsend tx)

end

section

variable {client args} {clearAccounts : Nat} {as : List Action} {told : StoreTold} (bumps : Key → UInt8)
  (rent : Nat → Nat) (systemOwned : Pubkey → Bool) (lamports : Key → Nat)

theorem after_executed (as : List Action) :
    Solana.Executed (after clearAccounts (Solana.initial bumps rent systemOwned lamports) as) := by
  refine Machine.run_inv as (fun a _ s s' h hs => ?_) fun _ => rfl
  obtain ⟨x, -, hstep⟩ := Solana.perform_step h
  exact (Solana.step_effect hstep).executed hs

theorem after_recorded (as : List Action) :
    Solana.Recorded (after clearAccounts (Solana.initial bumps rent systemOwned lamports) as) :=
  Machine.run_inv as (fun _ _ _ _ h hs => Solana.perform_recorded h hs) (Solana.initial_recorded _ _ _ _)

/-- No event is lost. -/
theorem after_log {s₀ : Solana.State} {before : List Action} (h : before <+: as) :
    (after clearAccounts s₀ before).log <+: (after clearAccounts s₀ as).log := by
  obtain ⟨rest, rfl⟩ := h
  rw [after, after, Machine.run_append]
  refine Machine.run_inv
    (P := fun t : Solana.State => (Machine.run (Solana.perform clearAccounts) s₀ before).log <+: t.log) rest
    (fun a _ s s' h hp => ?_) List.prefix_rfl
  obtain ⟨x, -, hstep⟩ := Solana.perform_step h
  exact hp.trans (Solana.step_effect hstep).log_grows

/-- An account that is decoded is the intent's. -/
theorem nodeShows_intent {s : Solana.State} {id : IntentId} {data : List UInt8} {state : IntentStateAccount}
    (hshows : NodeShows s (.getAccountInfo (.intent id)) (some data)) (hdecode : decodeProofState data = .ok state) :
    ∃ intent, s.intents id = some intent ∧ state = .of intent := by
  have hshows : some data = match s.intents id with
    | some intent => some (intent.data (accountDiscriminator "IntentState"))
    | none => if s.lamports (.intent id) = 0 then none else some [] := hshows
  cases hi : s.intents id with
  | none =>
    rw [hi] at hshows
    dsimp only at hshows
    split at hshows
    · cases hshows
    · cases hshows
      cases hdecode
  | some intent =>
    rw [hi] at hshows
    cases hshows
    refine ⟨intent, rfl, ?_⟩
    unfold decodeProofState at hdecode
    split at hdecode
    · cases hdecode
    · have hdata := decodeIntentState_data intent []
      rw [List.append_nil] at hdata
      exact Except.ok.inj (hdecode.symm.trans hdata)

/-- An intent that was seen executed is executed with the same result, which is that of its submission. -/
theorem executed_of_seen {before : List Action} {id : IntentId} {intent : Solana.IntentState} {e : EncodedIntent}
    {landing : List Action} {escrowAmount : UInt64} {s : Solana.State}
    (hbefore : before <+: as) (hlanding : landing <+: as)
    (hi : (after clearAccounts (Solana.initial bumps rent systemOwned lamports) before).intents id = some intent)
    (hexecuted : intent.executed = true)
    (hrecords : Records client id (cut e) escrowAmount s
      (after clearAccounts (Solana.initial bumps rent systemOwned lamports) landing)) :
    ∃ final, (after clearAccounts (Solana.initial bumps rent systemOwned lamports) as).intents id = some final ∧
      final.executed = true ∧ final.committedBlobId = e.blobId ∧ intent.committedBlobId = e.blobId ∧
      intent.endEpoch = final.endEpoch ∧
      (after clearAccounts (Solana.initial bumps rent systemOwned lamports) as).executions id =
        [(e.blobId, final.endEpoch)] := by
  have hexec := @after_executed clearAccounts bumps rent systemOwned lamports
  have hrec := @after_recorded clearAccounts bumps rent systemOwned lamports as
  -- The event of the execution that was seen is still there, and it is the only one.
  have hresult : intent.result = some (intent.committedBlobId, intent.endEpoch) := by
    rw [Solana.IntentState.result, if_pos hexecuted]
  have hseen : (intent.committedBlobId, intent.endEpoch) ∈
      (after clearAccounts (Solana.initial bumps rent systemOwned lamports) before).executions id := by
    rw [hexec before, hi]
    show _ ∈ (intent.result).toList
    rw [hresult]
    exact List.mem_singleton_self _
  have hmem := ((after_log hbefore).filterMap fun x => x.event.resultOf id).subset hseen
  have honly := (hexec as).executions_eq hmem
  obtain ⟨final, hfinal, hsame⟩ : ∃ final,
      (after clearAccounts (Solana.initial bumps rent systemOwned lamports) as).intents id = some final ∧
      final.result = some (intent.committedBlobId, intent.endEpoch) := by
    rw [hexec as] at honly
    cases hfinal : (after clearAccounts (Solana.initial bumps rent systemOwned lamports) as).intents id with
    | none =>
      rw [hfinal] at honly
      cases honly
    | some final =>
      rw [hfinal] at honly
      refine ⟨final, rfl, ?_⟩
      cases hr : final.result with
      | none =>
        rw [show (some final).bind Solana.IntentState.result = final.result from rfl, hr] at honly
        cases honly
      | some r =>
        rw [show (some final).bind Solana.IntentState.result = final.result from rfl, hr] at honly
        exact congrArg some (List.singleton_inj.mp honly)
  have hdone : final.executed = true ∧ final.committedBlobId = intent.committedBlobId ∧
      final.endEpoch = intent.endEpoch := by
    unfold Solana.IntentState.result at hsame
    split at hsame
    · rename_i hx
      have hpair := Option.some.inj hsame
      exact ⟨hx, congrArg Prod.fst hpair, congrArg Prod.snd hpair⟩
    · cases hsame
  -- The submission of the id is that of the transaction.
  obtain ⟨dstEid, hsubmits⟩ := hrecords.submits
  obtain ⟨now, guid, lzNonce, hlogged⟩ := hsubmits.logged
  obtain ⟨m, hm, hmid, hblob, -⟩ := hrec.intent id final hfinal
  have hown : (⟨id, client.payerKey, dstEid, cut e, s.nextNonce client.payerKey⟩ : Solana.Submission) ∈
      (after clearAccounts (Solana.initial bumps rent systemOwned lamports) as).submissions := by
    refine ((after_log hlanding).filterMap fun x => x.event.submission).subset ?_
    rw [hlogged, List.filterMap_append]
    exact List.mem_append_right _ (List.mem_singleton_self _)
  obtain rfl := List.inj_on_of_nodup_map hrec.nodup hm hown hmid
  have hcommitted : final.committedBlobId = e.blobId := hblob.symm
  have hfirst := hdone.2.1.symm.trans hcommitted
  refine ⟨final, hfinal, hdone.1, hcommitted, hfirst, hdone.2.2.symm, ?_⟩
  rw [honly, hfirst, hdone.2.2]

/-- Whatever the node has shown of the nonce and of the logs, however it lagged, and whatever else has happened to the
program: a flow that returns has sent one transaction, which landed. The program derived from it the id that is
returned, recorded the commitment and the escrow under it, and sent it on; the bytes were uploaded under it; and the
intent is executed, with the blob id computed from the bytes and the end epoch that are returned. -/
theorem store_proves (hhex : ∀ b, client.lib.hexToBytes (client.lib.bytesToHex b) = .ok b) {res : StoreResult}
    (hrun : (storeHost client args clearAccounts (Solana.initial bumps rent systemOwned lamports)).Leads
      (fun _ _ => True) ([], none) (as, some ⟨told, .done res⟩)) : ∃ e tx id,
    Stored client args clearAccounts (Solana.initial bumps rent systemOwned lamports) as told res e tx id := by
  have hend := hrun.keeps (I := fun _ => True)
    (J := Owes client clearAccounts (Solana.initial bumps rent systemOwned lamports)) (P := fun _ _ => True)
    (Q := fun h r => ∀ res, r = .ok res → ∃ e tx pricing fromEvent, Script client args h res e tx pricing fromEvent)
    ?_ ?_ ?_ (Host.Holds.idle trivial)
  · obtain ⟨howes, hscripted⟩ := hend.2 _ rfl
    obtain ⟨e, tx, pricing, fromEvent, hscript⟩ := hscripted res rfl
    have hsent : ⟨.signAndSend tx, .ok res.txHash⟩ ∈ told := by
      have hmem : ⟨.signAndSend tx, .ok res.txHash⟩ ∈ outward told := by
        rw [hscript.calls]
        simp
      exact (List.mem_filter.mp hmem).1
    obtain ⟨landing, a, hlanding, hlands⟩ := howes.landed tx res.txHash hsent
    obtain ⟨info, hbuilt⟩ := hscript.built
    obtain ⟨id, options, escrowAmount, hid, hoptions, hamount, hrecords⟩ :=
      landsAs_records client hhex hbuilt hlands
    have hnamed : res.intentId = client.lib.toHex id.val := hscript.named.trans hid
    obtain ⟨seed, data, state, hseed, hshown, hdecode, hexecuted, hproof⟩ := hscript.proven
    obtain rfl : id = seed := by
      rw [hnamed, client.lib.bytes32_toHex hhex] at hseed
      exact Except.ok.inj hseed
    obtain ⟨before, hbefore, hshows⟩ := howes.shown _ _ hshown
    obtain ⟨intent, hi, rfl⟩ := nodeShows_intent hshows hdecode
    obtain ⟨final, hfinal, hx, hblob, hshownBlob, hepoch, hevents⟩ :=
      executed_of_seen bumps rent systemOwned lamports hbefore hlanding hi hexecuted hrecords
    obtain ⟨hresBlob, hresEpoch⟩ := Prod.mk.inj hproof
    refine ⟨e, tx, id, ⟨pricing, fromEvent, hscript⟩, hnamed,
      ⟨landing, a, options, escrowAmount, hlanding, hlands, hoptions, hamount, hrecords⟩,
      final, hfinal, hx, hblob, hevents, ?_, ?_⟩
    · rw [hresBlob, ← hshownBlob]
      rfl
    · rw [hresEpoch, ← hepoch]
      rfl
  · rintro w p w' - - ⟨rfl, polls, hp⟩
    refine ⟨trivial, ⟨fun v info h => absurd h List.not_mem_nil, fun tx signature h => absurd h List.not_mem_nil⟩, ?_⟩
    refine wp_mono (wp_returned p []) (fun _ _ _ => trivial) fun h r hr res hres => ?_
    obtain ⟨t, rfl, hreturned⟩ := hr res hres
    exact store_calls (hp.imp (fun hp => hp ▸ hreturned) fun hp => hp ▸ hreturned)
  · intro w told c next r w' _ howes _ _ hserves
    exact ⟨trivial, hserves.owes howes⟩
  · rintro w s w' - - ⟨a, rfl⟩
    exact ⟨trivial, fun told howes => howes.grow (List.prefix_append w [a])⟩

end

/-! ## A thousand bytes that are stored -/

def exampleClient : Client where
  lib := exampleLibraries
  payerKey := Solana.walletOf 7
  endpointAccounts := []
  dstEid := .finite ((30 : UInt32).toNat : Nat)
  nativeFee := 2

def exampleArgs : StoreArgs where
  data := List.replicate 1000 7
  opts := { epochs := some 2, deadline := some 100 }
  submit := { escrowAmount := some 9 }
  isTransientRpcError _ := false

def exampleEncoded : EncodedIntent where
  blobId := Bytes.zero 32
  size := 1000
  encodingType := 1
  storageEpochs := 2
  deadline := 100

/-- What happens before the submission, the submission with the accounts of its transaction, and the confirmation. -/
def exampleInit : Action := .invoke ⟨1, .initStore (Solana.walletOf 4) (Solana.walletOf 2),
  [⟨.wallet (Solana.walletOf 4), true, true⟩, ⟨.store, false, true⟩, ⟨.lzReceiveTypes, false, true⟩,
    ⟨Solana.systemProgramId, false, false⟩], true, none⟩

def examplePeer : Action := .invoke ⟨1, .setPeer 30 (Solana.walletOf 6),
  [⟨.wallet (Solana.walletOf 4), true, true⟩, ⟨.peer 30, false, true⟩, ⟨.store, false, false⟩,
    ⟨Solana.systemProgramId, false, false⟩], true, none⟩

def exampleSubmission (accounts : List AccountMeta) : Action :=
  .invoke ⟨5, .submitIntent exampleCommitment 30 2 9, accounts, true, some ⟨Solana.walletOf 0, 1, 2, Solana.walletOf 9⟩⟩

def exampleConfirmation : Action := .invoke ⟨6, .confirmExecution Solana.theId exampleCommitment.blobId 3,
  [⟨.wallet (Solana.walletOf 4), true, true⟩, ⟨.store, false, false⟩, ⟨.intent Solana.theId, false, true⟩], true, none⟩

/-- The actions before the submission. -/
def exampleStart : List Action := [exampleInit, examplePeer]

theorem exampleStart_peered : after 8 Solana.exampleProgram exampleStart = Solana.peered := rfl

/-- The transaction of the submission, and what it does. -/
theorem exampleSubmission_lands : ∃ tx, submitIntent exampleLibraries (Solana.walletOf 7) [] none
      (submitFields exampleClient exampleEncoded exampleArgs.submit) = .ok tx ∧
    tx.intentId = exampleLibraries.toHex Solana.theId.val ∧
    LandsAs exampleClient 8 tx (exampleSubmission tx.keys) Solana.peered Solana.oneSubmission := by
  obtain ⟨s', hs'⟩ := Solana.peered_submits
  obtain rfl : Solana.oneSubmission = s' := Machine.run_singleton hs'
  have hblob : exampleLibraries.bytes32 (exampleLibraries.toHex (Bytes.zero 32).val) = .ok (Bytes.zero 32) :=
    exampleLibraries.bytes32_toHex exampleLibraries_hex _
  have hread : exampleLibraries.hexToBytes (strip0x (exampleLibraries.toHex (Bytes.zero 32).val)) =
      .ok (Bytes.zero 32).val := by
    rw [strip0x_toHex, exampleLibraries_hex]
  have hid : Ts.deriveIntentId (Ts.Commitment.of exampleCommitment) (Solana.walletOf 7).val 0 = .ok Solana.theId :=
    (deriveIntentId_agree exampleCommitment 0 (Nat.le_of_eq (Solana.walletOf 7).property)).1
  obtain ⟨data, params, hdata, hparams, hcommitment, hdst, hfees⟩ := encodeSubmitIntentData_ok exampleLibraries.toCodecs
    ((submitFields exampleClient exampleEncoded exampleArgs.submit).args []) (Bytes.zero 32) hread
  have hcut : params.commitment = exampleCommitment := hcommitment.trans (Ts.Commitment.cut_of exampleCommitment)
  have hinstruction : params.instruction = .submitIntent exampleCommitment 30 2 9 := by
    have hfields : toUint32 exampleClient.dstEid = 30 ∧ toUint64 2 = 2 ∧ toUint64 9 = 9 := by decide +kernel
    obtain ⟨hfee, hescrow⟩ := hfees (by decide)
    rw [Solana.SubmitIntentParams.instruction, hcut, hdst, hfee, hescrow]
    show Solana.Instruction.submitIntent exampleCommitment (toUint32 exampleClient.dstEid) (toUint64 2) (toUint64 9) = _
    rw [hfields.1, hfields.2.1, hfields.2.2]
  have hbuilt : ∃ tx, submitIntent exampleLibraries (Solana.walletOf 7) [] none
      (submitFields exampleClient exampleEncoded exampleArgs.submit) = .ok tx ∧
      tx.intentId = exampleLibraries.toHex Solana.theId.val ∧ tx.data = data ∧
      tx.keys = [⟨.wallet (Solana.walletOf 7), true, true⟩, ⟨.nonce (Solana.walletOf 7), false, true⟩,
        ⟨.intent Solana.theId, false, true⟩, ⟨.escrow Solana.theId, false, true⟩, ⟨.store, false, false⟩,
        ⟨.peer (toUint32 exampleClient.dstEid), false, false⟩, ⟨Solana.systemProgramId, false, false⟩] := by
    refine ⟨_, Result.bind_ok.mpr ⟨0, rfl, Result.bind_ok.mpr ⟨_, hblob, Result.bind_ok.mpr ⟨_, hid,
      Result.bind_ok.mpr ⟨[], by decide +kernel, Result.bind_ok.mpr ⟨data, hdata, Result.bind_ok.mpr
        ⟨_, exampleLibraries.bytes32_toHex exampleLibraries_hex _, rfl⟩⟩⟩⟩⟩⟩, rfl, rfl, rfl⟩
  obtain ⟨tx, hbuild, hintent, htx, hkeys⟩ := hbuilt
  have haccounts : Solana.submitIntentAccounts exampleCommitment 30 Solana.peered tx.keys =
      .ok (Solana.walletOf 7) := by
    rw [hkeys, show toUint32 exampleClient.dstEid = 30 by decide +kernel]
    exact submitIntentAccounts_named _ _ _ _
  refine ⟨tx, hbuild, hintent, params, 5, true, some ⟨Solana.walletOf 0, 1, 2, Solana.walletOf 9⟩, htx ▸ hparams,
    ?_, ?_⟩
  · rw [hinstruction]
    rfl
  · exact Result.bind_ok.mpr ⟨_, haccounts, Solana.mapError_ok.mpr hs'⟩

theorem exampleConfirmation_confirms : Solana.perform 8 exampleConfirmation Solana.oneSubmission =
    .ok Solana.confirmedFirst := by
  obtain ⟨hstore, -, -, hbumps, hi, -⟩ := Solana.oneSubmission_open
  refine Result.bind_ok.mpr ⟨Solana.walletOf 4, ?_, Solana.mapError_ok.mpr ?_⟩
  · unfold Solana.confirmExecutionAccounts
    refine Result.bind_ok.mpr ⟨Solana.walletOf 4, rfl, Result.bind_ok.mpr ⟨(), Solana.check_ok.mpr rfl, ?_⟩⟩
    exact Result.bind_ok.mpr ⟨(), Solana.check_ok.mpr rfl, Result.bind_ok.mpr ⟨(), rfl, rfl⟩⟩
  · rw [Solana.confirmedFirst_eq]
    exact Solana.confirmExecution_ok.mpr ⟨_, _, hstore, by rw [hbumps], rfl, hi, by rw [hbumps], rfl, rfl, rfl⟩

/-- What a node gives for an intent that is recorded. -/
theorem nodeShows_of_intent {s : Solana.State} {id : IntentId} {intent : Solana.IntentState}
    (hi : s.intents id = some intent) : NodeShows s (.getAccountInfo (.intent id))
      (some (intent.data (accountDiscriminator "IntentState"))) := by
  simp only [NodeShows, hi]

/-- What a node gives for the executed intent. -/
theorem exampleConfirmed_shows : ∃ intent, NodeShows Solana.confirmedFirst (.getAccountInfo (.intent Solana.theId))
      (some (intent.data (accountDiscriminator "IntentState"))) ∧
    decodeProofState (intent.data (accountDiscriminator "IntentState")) = .ok (.of intent) ∧
    intent.executed = true ∧ intent.committedBlobId = Bytes.zero 32 ∧ intent.endEpoch = 3 := by
  rw [Solana.confirmedFirst_eq]
  refine ⟨⟨exampleCommitment.blobId, exampleCommitment.size, exampleCommitment.storageEpochs,
    exampleCommitment.deadline, Solana.walletOf 7, 0, true, 3, 255⟩, ?_, ?_, rfl, rfl, rfl⟩
  · exact nodeShows_of_intent (Function.update_self _ _ _)
  · have hdata := decodeIntentState_data ⟨exampleCommitment.blobId, exampleCommitment.size,
      exampleCommitment.storageEpochs, exampleCommitment.deadline, Solana.walletOf 7, 0, true, 3, 255⟩ []
    rw [List.append_nil] at hdata
    unfold decodeProofState
    rw [if_neg, hdata]
    rw [not_not, Solana.IntentState.data_eq, List.length_append, List.length_flatten, Solana.IntentState.widths,
      (accountDiscriminator "IntentState").property]
    rfl

/-- The calls of the flow that sends `tx` and is given `data` for the intent, with their answers. -/
def exampleTold (tx : Transaction) (data : List UInt8) (state : IntentStateAccount) : StoreTold :=
  [⟨.wait .throwIfAborted, .ok ()⟩, ⟨.computeBlob exampleArgs.data, .ok exampleEncoded.toBlobEncoding⟩,
    ⟨.emit (.encoded exampleEncoded), .ok ()⟩,
    ⟨.wait (.view (.getAccountInfo (.nonce (Solana.walletOf 7)))), .ok none⟩, ⟨.signAndSend tx, .ok "signature"⟩,
    ⟨.getTransaction "signature", .ok none⟩, ⟨.emit (.submitted tx.intentId "signature"), .ok ()⟩,
    ⟨.upload tx.intentId exampleArgs.data, .ok ()⟩, ⟨.emit (.uploaded tx.intentId), .ok ()⟩,
    ⟨.wait .now, .ok (0 : Int)⟩, ⟨.wait .throwIfAborted, .ok ()⟩,
    ⟨.wait (.view (.getAccountInfo (.intent Solana.theId))), .ok (some data)⟩,
    ⟨.emit (.proven tx.intentId state.committedBlobId state.endEpoch), .ok ()⟩]

theorem exampleStore_returned {tx : Transaction} {data : List UInt8} {state : IntentStateAccount}
    (hbuilt : submitIntent exampleLibraries (Solana.walletOf 7) [] none
      (submitFields exampleClient exampleEncoded exampleArgs.submit) = .ok tx)
    (hid : tx.intentId = exampleLibraries.toHex Solana.theId.val) (hdecode : decodeProofState data = .ok state)
    (hexecuted : state.executed = true) : Returned (store exampleClient exampleArgs 1) (exampleTold tx data state)
      ⟨tx.intentId, state.committedBlobId, state.endEpoch, "signature", none⟩ := by
  have hencode : Returned (encode exampleClient exampleArgs)
      [⟨.computeBlob exampleArgs.data, .ok exampleEncoded.toBlobEncoding⟩] exampleEncoded := by
    have hlength : exampleArgs.data.length = 1000 := List.length_replicate
    have hsome : exampleArgs.data ≠ [] := fun h => by rw [h] at hlength; cases hlength
    unfold encode
    rw [if_neg hsome]
    refine returned_next.mpr ⟨_, [], rfl, ?_⟩
    rw [hlength, if_neg fun h : exampleEncoded.size ≠ 1000 => h rfl]
    exact returned_pure.mpr ⟨rfl, rfl⟩
  have hne : tx.intentId ≠ "" := by
    rw [hid]
    intro h
    have hlength := congrArg String.length h
    rw [Libraries.toHex, String.length_append] at hlength
    have hprefix : "0x".length = 2 := rfl
    have hempty : "".length = 0 := rfl
    omega
  have hsubmit : Returned (submit exampleClient (submitFields exampleClient exampleEncoded exampleArgs.submit))
      [⟨.wait (.view (.getAccountInfo (.nonce (Solana.walletOf 7)))), .ok none⟩, ⟨.signAndSend tx, .ok "signature"⟩,
        ⟨.getTransaction "signature", .ok none⟩] (tx.intentId, "signature") := by
    unfold submit
    refine returned_next.mpr ⟨none, _, rfl, returned_bind.mpr ⟨[], _, tx, rfl, returned_ofJs.mpr ⟨rfl, hbuilt⟩, ?_⟩⟩
    refine returned_next.mpr ⟨_, _, rfl, returned_next.mpr ⟨none, [], rfl, ?_⟩⟩
    refine returned_bind.mpr ⟨[], [], tx.intentId, rfl, returned_ofJs.mpr ⟨rfl, rfl⟩, ?_⟩
    rw [if_neg hne]
    exact returned_pure.mpr ⟨rfl, rfl⟩
  have hread : Returned (executedIntent exampleClient tx.intentId)
      [⟨.view (.getAccountInfo (.intent Solana.theId)), .ok (some data)⟩] (some state) := by
    have hseed : exampleClient.lib.bytes32 tx.intentId = .ok Solana.theId := by
      rw [hid]
      exact exampleLibraries.bytes32_toHex exampleLibraries_hex _
    unfold executedIntent readIntent
    refine returned_bind.mpr ⟨_, [], some state, (List.append_nil _).symm, ?_, returned_pure.mpr ⟨rfl, ?_⟩⟩
    · refine returned_bind.mpr ⟨[], _, Solana.theId, rfl, returned_ofExcept.mpr ⟨rfl, ?_⟩, ?_⟩
      · rw [hseed]
        rfl
      · refine returned_next.mpr ⟨some data, [], rfl, returned_bind.mpr ⟨[], [], state, rfl, ?_, ?_⟩⟩
        · exact returned_ofExcept.mpr ⟨rfl, by rw [hdecode]; rfl⟩
        · exact returned_pure.mpr ⟨rfl, rfl⟩
    · simp only [Option.filter, hexecuted, if_true]
  have hwait : Returned (awaitProof exampleClient exampleArgs 1 tx.intentId) [⟨.now, .ok (0 : Int)⟩,
      ⟨.throwIfAborted, .ok ()⟩, ⟨.view (.getAccountInfo (.intent Solana.theId)), .ok (some data)⟩]
      (state.committedBlobId, state.endEpoch) := by
    unfold awaitProof
    refine returned_next.mpr ⟨0, _, rfl, ?_⟩
    unfold pollUntil
    refine returned_next.mpr ⟨(), _, rfl, returned_bind.mpr ⟨_, [], some state, (List.append_nil _).symm,
      hread.tryCatch _, returned_pure.mpr ⟨rfl, rfl⟩⟩⟩
  unfold store
  refine returned_next.mpr ⟨(), _, rfl, returned_bind.mpr ⟨[_], _, exampleEncoded, rfl, hencode, ?_⟩⟩
  refine returned_next.mpr ⟨(), _, rfl, returned_bind.mpr ⟨[_, _, _], _, (tx.intentId, "signature"), rfl, hsubmit, ?_⟩⟩
  unfold uploadAndWait
  refine returned_next.mpr ⟨(), _, rfl, returned_next.mpr ⟨(), _, rfl, returned_next.mpr ⟨(), _, rfl, ?_⟩⟩⟩
  refine returned_bind.mpr ⟨[_, _, _], _, (state.committedBlobId, state.endEpoch), rfl,
    returned_via.mpr ⟨_, hwait, rfl⟩, ?_⟩
  exact returned_next.mpr ⟨(), [], rfl, returned_pure.mpr ⟨rfl, rfl⟩⟩

abbrev exampleHost := storeHost exampleClient exampleArgs 8 Solana.exampleProgram

def exampleRun (tx : Transaction) : List Action := exampleStart ++ [exampleSubmission tx.keys] ++ [exampleConfirmation]

/-- What is no call to the program is answered with anything. -/
theorem exampleHost_else (as : List Action) (c : StoreCall) (r : Except AwaitError c.Answer)
    (hwait : ∀ d, c ≠ .wait d) (hsend : ∀ tx, c ≠ .signAndSend tx) : exampleHost.serves as c r as :=
  .elsewhere hwait hsend r

/-- The bytes are stored, and the admin confirms it. -/
theorem store_proves_one : ∃ as told res e tx id,
    Stored exampleClient exampleArgs 8 Solana.exampleProgram as told res e tx id := by
  obtain ⟨tx, hbuilt, hid, hlands⟩ := exampleSubmission_lands
  obtain ⟨intent, hshows, hdecode, hexecuted, -, -⟩ := exampleConfirmed_shows
  rw [← exampleStart_peered] at hlands
  have hsubmitted : Machine.run (Solana.perform 8) Solana.exampleProgram
      (exampleStart ++ [exampleSubmission tx.keys]) = Solana.oneSubmission := (landsAs_after hlands).symm
  have hconfirmed : after 8 Solana.exampleProgram (exampleRun tx) = Solana.confirmedFirst := by
    rw [exampleRun, after, Machine.run_append, hsubmitted]
    exact Machine.run_singleton exampleConfirmation_confirms
  rw [← hconfirmed] at hshows
  have hserving : exampleHost.Serving exampleStart
      (exampleTold tx (intent.data (accountDiscriminator "IntentState")) (.of intent)) (exampleRun tx) := by
    unfold exampleTold
    refine .answer (.wait .throwIfAborted) (.answer (exampleHost_else _ _ _ nofun nofun)
      (.answer (exampleHost_else _ _ _ nofun nofun) ?_))
    refine .answer (.wait (.view ⟨exampleStart, List.prefix_rfl, trivial⟩)) (.answer (.landed "signature" hlands) ?_)
    refine .answer (exampleHost_else _ _ _ nofun nofun) (.answer (exampleHost_else _ _ _ nofun nofun)
      (.answer (exampleHost_else _ _ _ nofun nofun) (.answer (exampleHost_else _ _ _ nofun nofun) ?_)))
    refine .move ⟨exampleConfirmation, rfl⟩ (.answer (.wait (.now 0)) (.answer (.wait .throwIfAborted) ?_))
    exact .answer (.wait (.view ⟨exampleRun tx, List.prefix_rfl, hshows⟩))
      (.answer (exampleHost_else _ _ _ nofun nofun) .nil)
  have hstart : exampleHost.starts exampleStart (store exampleClient exampleArgs 1) exampleStart :=
    ⟨rfl, 1, Or.inl rfl⟩
  have hempty : exampleHost.Leads (fun _ _ => True) ([], none) ([], none) := .refl
  have hinit : exampleHost.Leads (fun _ _ => True) ([], none) ([exampleInit], none) :=
    hempty.step trivial (.move ⟨exampleInit, rfl⟩)
  have hidle : exampleHost.Leads (fun _ _ => True) ([], none) (exampleStart, none) :=
    hinit.step trivial (.move ⟨examplePeer, rfl⟩)
  have hrun := (exampleStore_returned hbuilt hid hdecode hexecuted).leads hserving (fun _ _ => trivial)
    (hidle.step trivial (.start hstart))
  exact ⟨_, _, _, store_proves (fun _ => 255) (fun size => size) (fun _ => true) Solana.exampleLamports
    exampleLibraries_hex hrun⟩

end Bosphor.Sdk.SolanaStore

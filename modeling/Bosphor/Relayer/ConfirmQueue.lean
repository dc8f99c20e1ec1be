import Bosphor.Lib.SerialQueue
import Bosphor.Relayer.ConfirmExecution

/-!
# The queue of confirmations on EVM

`confirmExecution` chains each confirmation to the one before, so that a nonce
is fetched when every earlier confirmation has settled. A confirmation sends at
most three times, and what it sends after a nonce conflict replaces what it sent
before (`wp_confirmTask`).

Its first fees are each what the provider suggests or a fallback of its own.
They are a fee pair just when the provider's suggestions and the fallbacks fit
(`confirmQueue_iff`): a provider that suggests a low gas price alone has it send a
priority fee above the fee cap (`legacy_malformed`).
-/

namespace Bosphor.Relayer.Confirmations

open StagedIntentStore
open Async (Leads History wp wp_and wp_along wp_bind wp_call wp_leads wp_mono wp_pure wp_tryCatch andThen_ok)
open Async.Queue (Stage Step Steps Task)

/-! ## Fees -/

/-- What a client takes for a fee pair. -/
structure WellFormed (fees : FeeOverrides) : Prop where
  positive : 0 < fees.maxPriorityFeePerGas
  capped : fees.maxPriorityFeePerGas ≤ fees.maxFeePerGas

/-- Both fees are at least 110% of those before. -/
structure Replaces (fees old : FeeOverrides) : Prop where
  maxFee : 110 * old.maxFeePerGas ≤ 100 * fees.maxFeePerGas
  priority : 110 * old.maxPriorityFeePerGas ≤ 100 * fees.maxPriorityFeePerGas

theorem bumpFee_ge (fee : Nat) : 112 * fee ≤ 100 * bumpFee fee := by
  unfold bumpFee FEE_BUMP_NUMERATOR FEE_BUMP_DENOMINATOR
  omega

theorem bumpFee_mono {fee fee' : Nat} (h : fee ≤ fee') : bumpFee fee ≤ bumpFee fee' := by
  unfold bumpFee FEE_BUMP_NUMERATOR FEE_BUMP_DENOMINATOR
  omega

theorem replaces_bump (fees : FeeOverrides) : Replaces (bumpFeeOverrides fees) fees := by
  have hmax := bumpFee_ge fees.maxFeePerGas
  have hpriority := bumpFee_ge fees.maxPriorityFeePerGas
  constructor
  · show _ ≤ 100 * bumpFee fees.maxFeePerGas
    omega
  · show _ ≤ 100 * bumpFee fees.maxPriorityFeePerGas
    omega

theorem WellFormed.bump {fees : FeeOverrides} (h : WellFormed fees) : WellFormed (bumpFeeOverrides fees) := by
  have hpriority := bumpFee_ge fees.maxPriorityFeePerGas
  have hpositive := h.positive
  constructor
  · show 0 < bumpFee fees.maxPriorityFeePerGas
    omega
  · exact bumpFee_mono h.capped

/-- The priority fee that the provider suggests, 1.5 gwei without one, is positive, and no more than its fee cap: than
its gas price without that, and than 1.5 gwei without either. -/
def Sensible (feeData : FeeData) : Prop :=
  0 < feeData.maxPriorityFeePerGas.getD FEE_FLOOR ∧
    feeData.maxPriorityFeePerGas.getD FEE_FLOOR ≤ (feeData.maxFeePerGas.orElse fun _ => feeData.gasPrice).getD FEE_FLOOR

/-! ## What a confirmation sends -/

def isSend : Rpc → Bool
  | .confirmExecution .. => true
  | _ => false

def sends (told : RpcTold) : Nat := told.countP (isSend ·.1)

/-- The last send, with the error that it or the wait for it came to. -/
def noteAnswer (last : Option (FeeOverrides × Option RpcError)) :
    (Σ c : Rpc, Except RpcError c.Answer) → Option (FeeOverrides × Option RpcError)
  | ⟨.confirmExecution _ _ _ fees, .ok _⟩ => some (fees, none)
  | ⟨.confirmExecution _ _ _ fees, .error e⟩ => some (fees, some e)
  | ⟨.wait _, .error e⟩ => last.map fun attempt => (attempt.1, some e)
  | _ => last

def lastSend (told : RpcTold) : Option (FeeOverrides × Option RpcError) := told.foldl noteAnswer none

theorem sends_concat (told : RpcTold) (x : Σ c : Rpc, Except RpcError c.Answer) :
    sends (told ++ [x]) = sends told + (isSend x.1).toNat := by
  rw [sends, List.countP_append, List.countP_singleton, sends]
  cases isSend x.1 <;> rfl

theorem lastSend_concat (told : RpcTold) (x : Σ c : Rpc, Except RpcError c.Answer) :
    lastSend (told ++ [x]) = noteAnswer (lastSend told) x := by
  rw [lastSend, List.foldl_append]
  rfl

/-- The fees fit what was sent last. -/
def Follows (told : RpcTold) (fees : FeeOverrides) : Prop :=
  ∀ old e, lastSend told = some (old, some e) → isNonceConflictError e = true → Replaces fees old

/-- A send is one of three, fits the one before it, and has such fees. -/
def SendsSo (W : FeeOverrides → Prop) (told : RpcTold) (c : Rpc) : Prop :=
  ∀ intentId proof nonce fees, c = .confirmExecution intentId proof nonce fees → sends told < 3 ∧
    Follows told fees ∧ W fees

variable {W : FeeOverrides → Prop} {intentId : IntentId} {proof : List UInt8} {told : RpcTold}

theorem SendsSo.of_ne {c : Rpc} (h : isSend c = false) : SendsSo W told c := by
  rintro intentId proof nonce fees rfl
  cases h

/-- Attempts that follow what was told send so, where a raise keeps fees such. -/
theorem wp_attempts (hW : ∀ fees, W fees → W (bumpFeeOverrides fees)) (left : Nat) {fees : FeeOverrides}
    {feeBumps : Nat}
    (nonce : Nat) (hsends : sends told + left ≤ 3) (hbumps : feeBumps + left ≤ 3) (hfollows : Follows told fees)
    (hfees : W fees) :
    wp (SendsSo W) (fun _ _ => True) told (confirmAttempts intentId proof left fees nonce feeBumps) := by
  induction left generalizing fees nonce feeBumps told with
  | zero => trivial
  | succ left ih =>
    -- what follows an error of the send or of the wait
    have hretry : ∀ told err, sends told + left ≤ 3 → lastSend told = some (fees, some err) →
        wp (SendsSo W) (fun _ _ => True) told (afterError intentId proof left fees nonce feeBumps err) := by
      intro told err hsends hlast
      unfold afterError
      split
      · trivial
      · rename_i hleft
        split
        · rw [wp_bind]
          refine (wp_call _).mpr ⟨.of_ne rfl, fun r => ?_⟩
          cases r with
          | error e => trivial
          | ok count =>
            rw [andThen_ok, if_pos (show feeBumps < MAX_FEE_BUMPS by unfold MAX_FEE_BUMPS; omega)]
            refine ih count ?_ (by omega) ?_ (hW fees hfees)
            · rw [sends_concat]
              exact hsends
            · intro old e hsame _
              rw [lastSend_concat] at hsame
              obtain rfl : fees = old := congrArg Prod.fst (Option.some.inj (hlast.symm.trans hsame))
              exact replaces_bump fees
        · rename_i hconflict
          rw [wp_bind]
          refine (wp_call _).mpr ⟨.of_ne rfl, fun r => ?_⟩
          cases r with
          | error e => trivial
          | ok _ =>
            refine ih nonce ?_ (by omega) ?_ hfees
            · rw [sends_concat]
              exact hsends
            · intro old e hsame hconflict'
              rw [lastSend_concat] at hsame
              obtain rfl : err = e := Option.some.inj (congrArg Prod.snd (Option.some.inj (hlast.symm.trans hsame)))
              exact absurd hconflict' hconflict
    rw [confirmAttempts, wp_tryCatch, wp_bind]
    refine (wp_call _).mpr ⟨?_, fun r => ?_⟩
    · rintro _ _ _ _ ⟨⟩
      exact ⟨by omega, hfollows, hfees⟩
    · cases r with
      | error e =>
        refine hretry _ e ?_ ?_
        · rw [sends_concat]
          show sends told + 1 + left ≤ 3
          omega
        · rw [lastSend_concat]
          rfl
      | ok tx =>
        rw [andThen_ok]
        refine (wp_call _).mpr ⟨.of_ne rfl, fun r => ?_⟩
        cases r with
        | ok hash => trivial
        | error e =>
          refine hretry _ e ?_ ?_
          · rw [sends_concat, sends_concat]
            show sends told + 1 + 0 + left ≤ 3
            omega
          · rw [lastSend_concat, lastSend_concat]
            rfl

/-! ## A confirmation -/

/-- The task of `confirmExecution(intentId, proof)`, with the proof in hexadecimal. -/
def confirmTask (intentId : IntentId) (proof : String) : RpcProgram String := do
  let proofBytes ← Async.ofExcept (getBytes proof)
  sendConfirmExecution intentId proofBytes

/-- The first fees. -/
def overrides (feeData : FeeData) : FeeOverrides where
  maxFeePerGas := (feeData.maxFeePerGas.orElse fun _ => feeData.gasPrice).getD FEE_FLOOR
  maxPriorityFeePerGas := feeData.maxPriorityFeePerGas.getD FEE_FLOOR

theorem Sensible.wellFormed {feeData : FeeData} (h : Sensible feeData) : WellFormed (overrides feeData) := ⟨h.1, h.2⟩

/-- The provider has answered with this fee data, and with a nonce. -/
def Given (told : RpcTold) (feeData : FeeData) : Prop :=
  ∃ nonce rest, told = ⟨.getFeeData, .ok feeData⟩ :: ⟨.getTransactionCount, .ok nonce⟩ :: rest

/-- The sends of a confirmation are three at most, replace one another, and have well-formed fees when the provider's
were sensible. -/
theorem wp_confirmTask (intentId : IntentId) (proof : String) :
    wp (fun told c => SendsSo (fun fees => ∃ feeData, Given told feeData ∧ (Sensible feeData → WellFormed fees)) told c)
      (fun _ _ => True) [] (confirmTask intentId proof) := by
  unfold confirmTask
  cases getBytes proof with
  | error e => trivial
  | ok bytes =>
    show wp _ _ [] (sendConfirmExecution intentId bytes)
    rw [sendConfirmExecution, wp_bind, initialFeeOverrides, wp_bind]
    refine (wp_call _).mpr ⟨.of_ne rfl, fun r => ?_⟩
    cases r with
    | error e => trivial
    | ok feeData =>
      rw [andThen_ok, wp_pure, andThen_ok, wp_bind]
      refine (wp_call _).mpr ⟨.of_ne rfl, fun r => ?_⟩
      cases r with
      | error e => trivial
      | ok nonce =>
        -- the fees stay well-formed from the first ones on, which are those of the fee data
        have hattempts : wp (SendsSo fun fees => Sensible feeData → WellFormed fees) (fun _ _ => True)
            [⟨.getFeeData, .ok feeData⟩, ⟨.getTransactionCount, .ok nonce⟩]
            (confirmAttempts intentId bytes 3 (overrides feeData) nonce 0) :=
          wp_attempts (fun fees h hsensible => (h hsensible).bump) 3 nonce (le_refl _) (le_refl _)
            (fun _ _ hnone => nomatch hnone) Sensible.wellFormed
        have hgiven : ∀ (told : RpcTold) x, Given told feeData → Given (told ++ [x]) feeData := by
          rintro _ x ⟨nonce, rest, rfl⟩
          exact ⟨nonce, rest ++ [x], rfl⟩
        refine wp_mono (wp_along hgiven hattempts ⟨nonce, [], rfl⟩) ?_ fun _ _ _ => trivial
        rintro told c ⟨hsends, hgiven⟩ intentId proof nonce fees hc
        obtain ⟨hcount, hfollows, hfees⟩ := hsends intentId proof nonce fees hc
        exact ⟨hcount, hfollows, feeData, hgiven, hfees⟩

/-- With its fee data and a nonce, a confirmation makes the attempts. -/
theorem leads_attempts {intentId : IntentId} {proof : String} {bytes : List UInt8} (hbytes : getBytes proof = .ok bytes)
    (feeData : FeeData) (nonce : Nat) :
    Leads (confirmTask intentId proof) [⟨.getFeeData, .ok feeData⟩, ⟨.getTransactionCount, .ok nonce⟩]
      (confirmAttempts intentId bytes 3 (overrides feeData) nonce 0) := by
  unfold confirmTask
  rw [hbytes]
  have hstart : Leads (sendConfirmExecution intentId bytes) [] (.await .getFeeData fun r =>
      ((Async.ofExcept r).bind fun feeData => pure (overrides feeData)).bind fun fees => do
        let nonce ← rpc .getTransactionCount
        confirmAttempts intentId bytes 3 fees nonce 0) := .start
  have hgiven : Leads (sendConfirmExecution intentId bytes) [⟨.getFeeData, .ok feeData⟩] (.await .getTransactionCount
      fun r => (Async.ofExcept r).bind fun nonce => confirmAttempts intentId bytes 3 (overrides feeData) nonce 0) :=
    hstart.answer (.ok feeData)
  exact hgiven.answer (.ok nonce)

/-! ## The queue -/

abbrev ConfirmQueue := Async.Queue.State Rpc Rpc.Answer RpcError String

def IsConfirm (p : RpcProgram String) : Prop := ∃ intentId proof, p = confirmTask intentId proof

/-- The task made this call, once it was told this. -/
def Makes (t : Task Rpc Rpc.Answer RpcError String) (told : RpcTold) (c : Rpc) : Prop :=
  t.stage.Started ∧ told <+: t.stage.told ∧ ∃ next, Leads t.program told (.await c next)

/-- What is promised of the queue: the sends of a confirmation are three at most, have well-formed fees, and replace one
another after a nonce conflict; a confirmation makes a call only after those before it have settled; and whatever is
answered from now on, all of them come to their end. -/
structure Sound (q : ConfirmQueue) : Prop where
  three : ∀ (k : Nat) (t : Task Rpc Rpc.Answer RpcError String), q.tasks[k]? = some t →
    ∀ told intentId proof nonce fees, Makes t told (.confirmExecution intentId proof nonce fees) → sends told < 3
  formed : ∀ (k : Nat) (t : Task Rpc Rpc.Answer RpcError String), q.tasks[k]? = some t →
    ∀ told intentId proof nonce fees, Makes t told (.confirmExecution intentId proof nonce fees) → WellFormed fees
  replaces : ∀ (k : Nat) (t : Task Rpc Rpc.Answer RpcError String), q.tasks[k]? = some t →
    ∀ told intentId proof nonce fees, Makes t told (.confirmExecution intentId proof nonce fees) → Follows told fees
  ordered : ∀ (k : Nat) (t : Task Rpc Rpc.Answer RpcError String), q.tasks[k]? = some t →
    ∀ told c, Makes t told c → ∀ j < k, q.PassedAt j
  finishes : ∀ answers : Async.Queue.Answering Rpc Rpc.Answer RpcError, (∀ k told c, ∃ r, answers k told c r) →
    ∃ q', Relation.ReflTransGen (Step IsConfirm answers) q q' ∧ q'.tasks.length = q.tasks.length ∧
      ∀ j < q.tasks.length, q'.PassedAt j

theorem leads_fail {e : RpcError} {p q : RpcProgram String} (hlead : Leads p told q) (hp : p = .fail e) :
    told = [] ∧ q = .fail e := by
  induction hlead with
  | start => exact ⟨rfl, hp⟩
  | answer _ r ih => exact absurd ih.2 nofun

theorem leads_of_follows {program : RpcProgram String} {stage : Stage Rpc Rpc.Answer RpcError String}
    (h : stage.Follows program) : ∃ q, Leads program stage.told q := by
  cases stage with
  | waiting => exact ⟨program, .start⟩
  | running told rest => exact ⟨rest, h⟩
  | passed told r => exact ⟨_, h⟩

/-- A confirmation that was given its fee data has sent with the first fees. -/
theorem makes_first {q : ConfirmQueue} (hinv : Async.Queue.Inv IsConfirm q) {k : Nat}
    {t : Task Rpc Rpc.Answer RpcError String} (hk : q.tasks[k]? = some t) {feeData : FeeData}
    (hgiven : Given t.stage.told feeData) : ∃ told intentId bytes nonce,
      Makes t told (.confirmExecution intentId bytes nonce (overrides feeData)) := by
  obtain ⟨nonce, rest, htold⟩ := hgiven
  obtain ⟨intentId, proof, hprogram⟩ := hinv.offered k t hk
  obtain ⟨p, hlead⟩ := leads_of_follows (hinv.follows k t hk)
  have hstarted : t.stage.Started := by
    cases hstage : t.stage with
    | waiting => rw [hstage] at htold; cases htold
    | running told rest => exact trivial
    | passed told r => exact trivial
  cases hbytes : getBytes proof with
  | error e =>
    have hfail : t.program = .fail e := by rw [hprogram, confirmTask, hbytes]; rfl
    rw [(leads_fail hlead hfail).1] at htold
    cases htold
  | ok bytes =>
    refine ⟨[⟨.getFeeData, .ok feeData⟩, ⟨.getTransactionCount, .ok nonce⟩], intentId, bytes, nonce, hstarted, ?_, _,
      hprogram ▸ leads_attempts hbytes feeData nonce⟩
    rw [htold]
    exact ⟨rest, rfl⟩

/-- The queue is sound in a state of a run just when the provider's fee data, where a nonce followed, was sensible. -/
theorem confirmQueue_iff {q : ConfirmQueue} (h : Steps IsConfirm {} q) : Sound q ↔
    ∀ (k : Nat) (t : Task Rpc Rpc.Answer RpcError String), q.tasks[k]? = some t →
      ∀ feeData, Given t.stage.told feeData → Sensible feeData := by
  have hinv : Async.Queue.Inv IsConfirm q := Async.Queue.Inv.init.steps h
  constructor
  · intro hsound k t hk feeData hgiven
    obtain ⟨told, intentId, bytes, nonce, hmakes⟩ := makes_first hinv hk hgiven
    have hformed := hsound.formed k t hk told intentId bytes nonce _ hmakes
    exact ⟨hformed.positive, hformed.capped⟩
  · intro hsensible
    have hsends : ∀ (k : Nat) (t : Task Rpc Rpc.Answer RpcError String), q.tasks[k]? = some t →
        ∀ told c, Makes t told c →
        SendsSo (fun fees => ∃ feeData, Given told feeData ∧ (Sensible feeData → WellFormed fees)) told c := by
      rintro k t hk told c ⟨-, -, next, hlead⟩
      obtain ⟨intentId, proof, hprogram⟩ := hinv.offered k t hk
      rw [hprogram] at hlead
      exact (wp_leads (wp_confirmTask intentId proof) hlead).1
    constructor
    case three =>
      intro k t hk told intentId proof nonce fees hmakes
      exact (hsends k t hk told _ hmakes intentId proof nonce fees rfl).1
    case formed =>
      intro k t hk told intentId proof nonce fees hmakes
      obtain ⟨-, -, feeData, hgiven, hformed⟩ := hsends k t hk told _ hmakes intentId proof nonce fees rfl
      refine hformed (hsensible k t hk feeData ?_)
      obtain ⟨nonce', rest, rfl⟩ := hgiven
      obtain ⟨more, hmore⟩ := hmakes.2.1
      exact ⟨nonce', rest ++ more, hmore.symm⟩
    case replaces =>
      intro k t hk told intentId proof nonce fees hmakes
      exact (hsends k t hk told _ hmakes intentId proof nonce fees rfl).2.1
    case ordered =>
      intro k t hk told c hmakes
      exact hinv.ordered k t hk hmakes.1
    case finishes => exact fun answers hanswers => hinv.finishes hanswers

/-! ## A chain without EIP-1559 -/

/-- A queue with one confirmation, which was given this fee data and the nonce 7. -/
def givenQueue (feeData : FeeData) : ConfirmQueue where
  tasks := [{
    program := confirmTask (hexlify []) (hexlify [])
    after := none
    stage := .running [⟨.getFeeData, .ok feeData⟩, ⟨.getTransactionCount, .ok 7⟩]
      (confirmAttempts (hexlify []) [] 3 (overrides feeData) 7 0) }]
  tail := some 0

theorem steps_given (feeData : FeeData) : Steps IsConfirm {} (givenQueue feeData) :=
  Async.Queue.steps_next (s := {}) (fun _ hnone => nomatch hnone) ⟨_, _, rfl⟩
    (leads_attempts (getBytes_hexlify []) feeData 7)

/-- A sensible fee pair. -/
def exampleFeeData : FeeData where
  maxFeePerGas := some 30000000000
  gasPrice := some 15000000000
  maxPriorityFeePerGas := some 1500000000

/-- The error of a send whose nonce was used meanwhile. -/
def exampleConflict : RpcError := .of "nonce too low"

/-- What a confirmation was told that came through at its second attempt. -/
def exampleTold : RpcTold := [
  ⟨.getFeeData, .ok exampleFeeData⟩,
  ⟨.getTransactionCount, .ok 7⟩,
  ⟨.confirmExecution "0x01" [1] 7 (overrides exampleFeeData), .error exampleConflict⟩,
  ⟨.getTransactionCount, .ok 8⟩,
  ⟨.confirmExecution "0x01" [1] 8 (bumpFeeOverrides (overrides exampleFeeData)), .ok 0⟩,
  ⟨.wait 0, .ok "0xab"⟩]

/-- A queue whose first confirmation has passed, and whose second was given its fee data and a nonce. -/
def exampleQueue : ConfirmQueue where
  tasks := [
    ⟨confirmTask "0x01" (hexlify [1]), none, .passed exampleTold (.ok "0xab")⟩,
    ⟨confirmTask "0x02" (hexlify [2]), some 0,
      .running [⟨.getFeeData, .ok exampleFeeData⟩, ⟨.getTransactionCount, .ok 9⟩]
        (confirmAttempts "0x02" [2] 3 (overrides exampleFeeData) 9 0)⟩]
  tail := some 1

theorem exampleTold_leads : Leads (confirmTask "0x01" (hexlify [1])) exampleTold (Async.ofExcept (.ok "0xab")) := by
  have hsends : Leads (confirmTask "0x01" (hexlify [1])) _ _ := leads_attempts (getBytes_hexlify [1]) exampleFeeData 7
  have hconflict : Leads (confirmTask "0x01" (hexlify [1])) (exampleTold.take 3)
      (afterError "0x01" [1] 2 (overrides exampleFeeData) 7 0 exampleConflict) := hsends.answer (.error exampleConflict)
  have hnonce : afterError "0x01" [1] 2 (overrides exampleFeeData) 7 0 exampleConflict =
      .await .getTransactionCount fun r => (Async.ofExcept r).bind fun nonce =>
        confirmAttempts "0x01" [1] 2 (bumpFeeOverrides (overrides exampleFeeData)) nonce 1 := by
    rw [afterError, if_neg (by decide), if_pos (by decide +kernel)]
    rfl
  rw [hnonce] at hconflict
  have hagain : Leads (confirmTask "0x01" (hexlify [1])) (exampleTold.take 4)
      (confirmAttempts "0x01" [1] 2 (bumpFeeOverrides (overrides exampleFeeData)) 8 1) := hconflict.answer (.ok 8)
  have hsent := hagain.answer (.ok 0)
  exact hsent.answer (.ok "0xab")

theorem steps_exampleQueue : Steps IsConfirm {} exampleQueue := by
  have hfirst : Steps IsConfirm {} _ :=
    Async.Queue.steps_passed (s := {}) (fun _ hnone => nomatch hnone) ⟨_, _, rfl⟩ exampleTold_leads
  refine hfirst.trans (Async.Queue.steps_next ?_ ⟨_, _, rfl⟩ (leads_attempts (getBytes_hexlify [2]) exampleFeeData 9))
  rintro _ ⟨⟩
  exact ⟨_, rfl, trivial⟩

/-- Its first confirmation met a nonce conflict, and its second is about to send. -/
theorem confirmQueue_iff_example : Sound exampleQueue := by
  refine (confirmQueue_iff steps_exampleQueue).mpr ?_
  have hsensible : Sensible exampleFeeData := ⟨by decide, by decide⟩
  rintro k t hk feeData ⟨nonce, rest, htold⟩
  have hmem := List.mem_of_getElem? hk
  obtain rfl | hmem := List.mem_cons.mp hmem
  · cases htold
    exact hsensible
  · obtain rfl := List.mem_singleton.mp hmem
    cases htold
    exact hsensible

/-- What a provider says of a chain without a base fee. -/
def legacyFeeData : FeeData where
  maxFeePerGas := none
  gasPrice := some 1000000000
  maxPriorityFeePerGas := none

/-- The gas price becomes the fee cap, and the fallback for the priority fee is above it. -/
theorem legacy_malformed : Steps IsConfirm {} (givenQueue legacyFeeData) ∧
    overrides legacyFeeData = ⟨1000000000, 1500000000⟩ ∧ ¬ Sound (givenQueue legacyFeeData) := by
  have hsteps := steps_given legacyFeeData
  refine ⟨hsteps, rfl, fun hsound => ?_⟩
  obtain ⟨told, intentId, bytes, nonce, hmakes⟩ :=
    makes_first (Async.Queue.Inv.init.steps hsteps) (k := 0) rfl ⟨7, [], rfl⟩
  have hcapped : 1500000000 ≤ 1000000000 := (hsound.formed 0 _ rfl told intentId bytes nonce _ hmakes).capped
  exact absurd hcapped (by decide)

end Bosphor.Relayer.Confirmations

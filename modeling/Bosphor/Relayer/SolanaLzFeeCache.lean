import Bosphor.Lib.Places
import Bosphor.Relayer.SolanaLzFee
import Mathlib.Data.List.Induction
import Mathlib.Order.Nat

/-!
# The cache of the Solana LayerZero fee

The cached fee, the failure and the promise keep pace with the flights through
every step (`Inv.step`): a flight that is not over is the last one and is in
`inflight`, what it has come to is in the cache, and an earlier failure no
longer counts. So one simulation is in flight at a time, none starts while a
failure is remembered, and who waits on one gets what it came to.

A promise stays in `inflight` for two jobs after its simulation is over. A
request between them takes its fee however old that is, if the cache no longer
serves it (`late_request_stale`). The fees are young enough just when no request
does, and where the maximum age is 0, when none waits on a simulation that is
done within its own millisecond (`feeCache_iff`).
-/

namespace Bosphor.Relayer.SolanaLzFee

variable {cfg : Settings} {s s' : State} {e : Event}

/-! ## What holds in every state -/

/-- The promise in `inflight` is one at such a stage. -/
def Stage.live : Stage → Bool
  | .cleaned _ | .done _ => false
  | _ => true

/-- The quote that `simulate` has made. -/
def Stage.recorded : Stage → Option SolanaLzFeeQuote
  | .simulated r => r.toOption
  | .refreshed r | .cleaned r | .done r => r.toOption
  | _ => none

/-- The failure has been written down. -/
def Stage.refused : Stage → Bool
  | .refreshed (.error _) => true
  | _ => false

/-- The result or the error of a simulation, as `simulate` returns it. -/
inductive Simulates (cfg : Settings) : Except String Nat → Except String SolanaLzFeeQuote → Prop where
  | ok {nativeFee quotedAtMs : Nat} : Simulates cfg (.ok nativeFee) (.ok (cfg.quoteOf nativeFee quotedAtMs))
  | error {message : String} : Simulates cfg (.error message) (.error message)

/-- The result or the error of a simulation, as requests get it. -/
inductive Passes (cfg : Settings) : Except String Nat → Quoted → Prop where
  | ok {nativeFee quotedAtMs : Nat} : Passes cfg (.ok nativeFee) (.ok (cfg.quoteOf nativeFee quotedAtMs))
  | error {message : String} :
    Passes cfg (.error message) (.error (.unavailable message SOLANA_LZ_FEE_RETRY_AFTER_SECONDS))

/-- What a stage says of the simulation. -/
def Gives (cfg : Settings) (outcome : Option (Except String Nat)) : Stage → Prop
  | .pending => outcome = none
  | .settled r => outcome = some r
  | .simulated r => ∃ o, outcome = some o ∧ Simulates cfg o r
  | .refreshed r | .cleaned r | .done r => ∃ o, outcome = some o ∧ Passes cfg o r

/-- How a flight stands to the service's fields. -/
structure FlightOk (cfg : Settings) (inflight : Option Nat) (cached : Option SolanaLzFeeQuote)
    (failure : Option Failure) (clock i : Nat) (f : Flight) : Prop where
  live : f.stage.live = true ↔ inflight = some i
  recorded : f.stage.live = true → ∀ q, f.stage.recorded = some q → cached = some q
  passed : f.stage.live = true → f.stage.refused = false → ∀ x, failure = some x → x.untilMs ≤ clock
  window : ∀ u, f.failedAt = some u →
    (∃ message, failure = some ⟨message, u + SOLANA_LZ_FEE_RETRY_AFTER_SECONDS * 1000⟩) ∨
      u + SOLANA_LZ_FEE_RETRY_AFTER_SECONDS * 1000 ≤ clock
  gives : Gives cfg f.outcome f.stage

structure Inv (cfg : Settings) (s : State) : Prop where
  flights : ∀ i f, s.flights[i]? = some f → FlightOk cfg s.inflight s.cached s.failure s.clock i f
  last : ∀ i, s.inflight = some i → i + 1 = s.flights.length
  requests : ∀ x ∈ s.requests, x.time ≤ s.clock ∧ ∀ i, x.reply = .waits i → i < s.flights.length
  windows : ∀ (i j : Nat) (f g : Flight) (u : Nat), i < j → s.flights[i]? = some f → s.flights[j]? = some g →
    f.failedAt = some u →
    u + SOLANA_LZ_FEE_RETRY_AFTER_SECONDS * 1000 ≤ g.startedAt

section

variable {inflight inflight' : Option Nat} {cached cached' : Option SolanaLzFeeQuote}
  {failure failure' : Option Failure} {clock clock' i : Nat} {f f' : Flight}

/-- Time goes by. -/
theorem FlightOk.later (h : FlightOk cfg inflight cached failure clock i f) (hclock : clock ≤ clock') :
    FlightOk cfg inflight cached failure clock' i f where
  live := h.live
  recorded := h.recorded
  passed hlive hrefused x hx := (h.passed hlive hrefused x hx).trans hclock
  window u hu := (h.window u hu).imp_right fun hpast => hpast.trans hclock
  gives := h.gives

/-- A flight that is over, while another one goes on. -/
theorem FlightOk.other (h : FlightOk cfg inflight cached failure clock i f) (hover : f.stage.live = false)
    (hinflight : inflight' ≠ some i) (hclock : clock ≤ clock')
    (hfailure : ∀ x, failure = some x → failure' = some x ∨ x.untilMs ≤ clock') :
    FlightOk cfg inflight' cached' failure' clock' i f where
  live := ⟨fun hlive => absurd (hover.symm.trans hlive) Bool.false_ne_true, fun h => absurd h hinflight⟩
  recorded hlive := absurd (hover.symm.trans hlive) Bool.false_ne_true
  passed hlive := absurd (hover.symm.trans hlive) Bool.false_ne_true
  window u hu := by
    obtain ⟨message, hmessage⟩ | hpast := h.window u hu
    · exact (hfailure _ hmessage).imp (fun h => ⟨message, h⟩) id
    · exact Or.inr (hpast.trans hclock)
  gives := h.gives

end

variable {t : State} {i now : Nat} {f f' : Flight}

theorem get_put {j : Nat} {g : Flight} (hg : (s.put i f').flights[j]? = some g) :
    (j = i ∧ g = f') ∨ (j ≠ i ∧ s.flights[j]? = some g) := Places.get_set hg

/-- A live flight is the last one. -/
theorem Inv.is_last (h : Inv cfg s) (hf : s.flights[i]? = some f) (hlive : f.stage.live = true) :
    s.inflight = some i ∧ i + 1 = s.flights.length :=
  ⟨(h.flights i f hf).live.mp hlive, h.last i ((h.flights i f hf).live.mp hlive)⟩

/-- A job of the flight in flight. -/
theorem Inv.put (h : Inv cfg s) (hf : s.flights[i]? = some f) (hlive : f.stage.live = true)
    (hflights : t.flights = s.flights) (hrequests : t.requests = s.requests) (hclock : s.clock ≤ t.clock)
    (hinflight : t.inflight = s.inflight ∨ t.inflight = none)
    (hfailure : ∀ x, s.failure = some x → t.failure = some x ∨ x.untilMs ≤ t.clock)
    (hstart : f'.startedAt = f.startedAt) (hok : FlightOk cfg t.inflight t.cached t.failure t.clock i f') :
    Inv cfg (t.put i f') := by
  obtain ⟨hin, hlast⟩ := h.is_last hf hlive
  have hlength : (t.put i f').flights.length = s.flights.length := by
    rw [State.put, List.length_set, hflights]
  have hget : ∀ {j g}, (t.put i f').flights[j]? = some g → (j = i ∧ g = f') ∨ (j ≠ i ∧ s.flights[j]? = some g) :=
    fun hg => hflights ▸ get_put hg
  have hother : ∀ j, j ≠ i → t.inflight ≠ some j := by
    intro j hj hsome
    obtain hsame | hnone := hinflight
    · rw [hsame, hin] at hsome
      exact hj (Option.some.inj hsome).symm
    · rw [hnone] at hsome
      cases hsome
  constructor
  case flights =>
    intro j g hg
    obtain ⟨rfl, rfl⟩ | ⟨hj, hg⟩ := hget hg
    · exact hok
    · refine (h.flights j g hg).other ?_ (hother j hj) hclock hfailure
      refine Bool.eq_false_iff.mpr fun hlive' => hj ?_
      have hsome := (h.flights j g hg).live.mp hlive'
      rw [hin] at hsome
      exact (Option.some.inj hsome).symm
  case last =>
    intro j hj
    have hj : t.inflight = some j := hj
    rw [hlength]
    obtain rfl : j = i := not_not.mp fun hne => hother j hne hj
    exact hlast
  case requests =>
    intro x hx
    obtain ⟨htime, hwaits⟩ := h.requests x (hrequests ▸ hx)
    rw [hlength]
    exact ⟨htime.trans hclock, hwaits⟩
  case windows =>
    intro j k g g' u hjk hput hput' hu
    have hk : k < s.flights.length := hlength ▸ (List.getElem?_eq_some_iff.mp hput').1
    obtain ⟨rfl, -⟩ | ⟨-, hg⟩ := hget hput
    · -- nothing comes behind the last flight
      exfalso
      omega
    · obtain ⟨rfl, rfl⟩ | ⟨-, hg'⟩ := hget hput'
      · rw [hstart]
        exact h.windows j k g f u hjk hg hf hu
      · exact h.windows j k g g' u hjk hg hg' hu

/-- A request that found a promise, or was answered at once. -/
theorem Inv.respond (h : Inv cfg s) (hclock : s.clock ≤ now) {reply : Reply}
    (hwaits : ∀ i, reply = .waits i → i < s.flights.length) :
    Inv cfg ({ s with clock := now }.respond reply) where
  flights i f hf := (h.flights i f hf).later hclock
  last := h.last
  requests x hx := by
    obtain hx | hx := List.mem_append.mp hx
    · obtain ⟨htime, hknown⟩ := h.requests x hx
      exact ⟨htime.trans hclock, hknown⟩
    · obtain rfl := List.mem_singleton.mp hx
      exact ⟨le_refl _, hwaits⟩
  windows := h.windows

/-- Nothing is at hand for a request that is not answered at once. -/
theorem of_served_none (h : s.served cfg now = none) :
    cfg.isEnabled = true ∧ (∀ q, s.cached = some q → q.quotedAtMs + q.maxAgeMs ≤ now) ∧
      ∀ x, s.failure = some x → x.untilMs ≤ now := by
  simp only [State.served] at h
  split at h
  case isTrue => cases h
  case isFalse henabled =>
    split at h
    case h_1 => cases h
    case h_2 hcached =>
      rw [Option.map_eq_none_iff] at h
      rw [Bool.not_eq_true', Bool.not_eq_false] at henabled
      refine ⟨henabled, fun q hq => ?_, fun x hx => ?_⟩
      · have hstale := Option.filter_eq_none_iff.mp hcached q hq
        rw [decide_eq_true_eq] at hstale
        omega
      · have hpast := Option.filter_eq_none_iff.mp h x hx
        rw [decide_eq_true_eq] at hpast
        omega

theorem Inv.start (h : Inv cfg s) (hclock : s.clock ≤ now) (hserved : s.served cfg now = none)
    (hnone : s.inflight = none) {deps : Bool} (hbegun : Begun cfg now f) : Inv cfg ({ s with
      clock := now
      deps := deps
      inflight := some s.flights.length
      flights := s.flights ++ [f] }.respond (.waits s.flights.length)) := by
  obtain ⟨-, -, hfailure⟩ := of_served_none hserved
  constructor
  case flights =>
    intro j g hg
    obtain hg | ⟨rfl, rfl⟩ := Places.get_concat hg
    · have hover : g.stage.live = false := by
        refine Bool.eq_false_iff.mpr fun hlive => ?_
        have hsome := (h.flights j g hg).live.mp hlive
        rw [hnone] at hsome
        cases hsome
      have hj : j < s.flights.length := (List.getElem?_eq_some_iff.mp hg).1
      refine (h.flights j g hg).other hover ?_ hclock fun _ => Or.inl
      intro hsame
      have hsame := Option.some.inj hsame
      omega
    · cases hbegun with
      | pending =>
        exact ⟨iff_of_true rfl rfl, fun _ _ => (nomatch ·), fun _ _ => hfailure, fun _ => (nomatch ·), rfl⟩
      | threw =>
        exact ⟨iff_of_true rfl rfl, fun _ _ => (nomatch ·), fun _ _ => hfailure, fun _ => (nomatch ·), _, rfl, .error⟩
  case last =>
    intro j hj
    have hj := Option.some.inj hj
    show j + 1 = (s.flights ++ [f]).length
    rw [List.length_append, List.length_singleton, hj]
  case requests =>
    intro x hx
    show x.time ≤ now ∧ ∀ i, x.reply = .waits i → i < (s.flights ++ [f]).length
    rw [List.length_append, List.length_singleton]
    obtain hx | hx := List.mem_append.mp hx
    · obtain ⟨htime, hknown⟩ := h.requests x hx
      exact ⟨htime.trans hclock, fun i hi => (hknown i hi).trans (Nat.lt_succ_self _)⟩
    · obtain rfl := List.mem_singleton.mp hx
      refine ⟨le_refl _, fun i hi => ?_⟩
      cases hi
      exact Nat.lt_succ_self _
  case windows =>
    intro j k g g' u hjk hbefore hbefore' hu
    have hfailed : f.failedAt = none := by cases hbegun <;> rfl
    have hstart : f.startedAt = now := by cases hbegun <;> rfl
    obtain hg | ⟨rfl, rfl⟩ := Places.get_concat hbefore
    · obtain hg' | ⟨rfl, rfl⟩ := Places.get_concat hbefore'
      · exact h.windows j k g g' u hjk hg hg' hu
      · -- the window of an earlier failure is over
        rw [hstart]
        obtain ⟨message, hmessage⟩ | hpast := (h.flights j g hg).window u hu
        · exact hfailure _ hmessage
        · exact hpast.trans hclock
    · rw [hfailed] at hu
      cases hu

/-- Handing a result over changes nothing else. -/
theorem Inv.deliver (h : Inv cfg s) (hf : s.flights[i]? = some f) {r : Quoted} (hstage : f.stage = .cleaned r) :
    Inv cfg (s.put i { f with stage := .done r }) := by
  have hok := h.flights i f hf
  have hlength : (s.flights.set i { f with stage := .done r }).length = s.flights.length := List.length_set
  constructor
  case flights =>
    intro j g hg
    obtain ⟨rfl, rfl⟩ | ⟨-, hg⟩ := get_put hg
    · have hlive := hok.live
      have hgives := hok.gives
      rw [hstage] at hlive hgives
      exact ⟨hlive, fun h => (nomatch h), fun h => (nomatch h), hok.window, hgives⟩
    · exact h.flights j g hg
  case last =>
    intro j hj
    show j + 1 = (s.flights.set i _).length
    rw [hlength]
    exact h.last j hj
  case requests =>
    intro x hx
    show x.time ≤ s.clock ∧ ∀ j, x.reply = .waits j → j < (s.flights.set i _).length
    rw [hlength]
    exact h.requests x hx
  case windows =>
    intro j k g g' u hjk hput hput' hu
    have hfailed : ∃ g₀, s.flights[j]? = some g₀ ∧ g₀.failedAt = some u := by
      obtain ⟨rfl, rfl⟩ | ⟨-, hg⟩ := get_put hput
      · exact ⟨f, hf, hu⟩
      · exact ⟨g, hg, hu⟩
    obtain ⟨g₀, hg₀, hu₀⟩ := hfailed
    obtain ⟨rfl, rfl⟩ | ⟨-, hg'⟩ := get_put hput'
    · exact h.windows j k g₀ f u hjk hg₀ hf hu₀
    · exact h.windows j k g₀ g' u hjk hg₀ hg' hu₀

theorem Inv.simulate (h : Inv cfg s) (hclock : s.clock ≤ now) (hf : s.flights[i]? = some f) {r : Except String Nat}
    (hstage : f.stage = .settled r) : Inv cfg ({ s with clock := now }.simulate cfg i f r) := by
  have hok := h.flights i f hf
  have hlive : f.stage.live = true := by rw [hstage]; rfl
  have hin := hok.live.mp hlive
  have hpassed : ∀ x, s.failure = some x → x.untilMs ≤ now := fun x hx =>
    (hok.passed hlive (by rw [hstage]; rfl) x hx).trans hclock
  have hgives := hok.gives
  rw [hstage] at hgives
  have hwindow := (hok.later hclock).window
  cases r with
  | ok nativeFee =>
    refine h.put hf hlive rfl rfl hclock (Or.inl rfl) (fun _ => Or.inl) rfl ?_
    refine ⟨iff_of_true rfl hin, fun _ q hq => ?_, fun _ _ => hpassed, hwindow, _, hgives, .ok⟩
    exact hq
  | error message =>
    refine h.put hf hlive rfl rfl hclock (Or.inl rfl) (fun _ => Or.inl) rfl ?_
    exact ⟨iff_of_true rfl hin, fun _ _ => (nomatch ·), fun _ _ => hpassed, hwindow, _, hgives, .error⟩

theorem Inv.refresh (h : Inv cfg s) (hclock : s.clock ≤ now) (hf : s.flights[i]? = some f)
    {r : Except String SolanaLzFeeQuote} (hstage : f.stage = .simulated r) :
    Inv cfg ({ s with clock := now }.settleRefresh i f r) := by
  have hok := h.flights i f hf
  have hlive : f.stage.live = true := by rw [hstage]; rfl
  have hin := hok.live.mp hlive
  have hpassed : ∀ x, s.failure = some x → x.untilMs ≤ now := fun x hx =>
    (hok.passed hlive (by rw [hstage]; rfl) x hx).trans hclock
  have hgives := hok.gives
  have hrecorded := hok.recorded hlive
  rw [hstage] at hgives hrecorded
  obtain ⟨o, ho, hsimulates⟩ := hgives
  have hpast : ∀ u, f.failedAt = some u → u + SOLANA_LZ_FEE_RETRY_AFTER_SECONDS * 1000 ≤ now := by
    intro u hu
    obtain ⟨message, hmessage⟩ | hpast := hok.window u hu
    · exact hpassed _ hmessage
    · exact hpast.trans hclock
  cases r with
  | ok quote =>
    refine h.put hf hlive rfl rfl hclock (Or.inl rfl) (fun x hx => Or.inr (hpassed x hx)) rfl ?_
    refine ⟨iff_of_true rfl hin, fun _ => hrecorded, fun _ _ _ => (nomatch ·),
      fun u hu => Or.inr (hpast u hu), o, ho, ?_⟩
    cases hsimulates with
    | ok => exact .ok
  | error message =>
    refine h.put hf hlive rfl rfl hclock (Or.inl rfl) (fun x hx => Or.inr (hpassed x hx)) rfl ?_
    refine ⟨iff_of_true rfl hin, fun _ _ => (nomatch ·), fun _ => (nomatch ·), fun u hu => ?_, o, ho, ?_⟩
    · obtain rfl : now = u := Option.some.inj hu
      exact Or.inl ⟨message, rfl⟩
    · cases hsimulates with
      | error => exact .error

/-- The fields keep pace with one another through every step. -/
theorem Inv.step (h : Inv cfg s) (hstep : StepCase cfg s e s') : Inv cfg s' := by
  cases hstep with
  | answer hclock => exact h.respond hclock fun _ => (nomatch ·)
  | join hclock _ hinflight =>
    refine h.respond hclock fun i hi => ?_
    have hlast := h.last _ hinflight
    cases hi
    omega
  | start hclock hserved hnone hbegun => exact h.start hclock hserved hnone hbegun
  | settle hf hstage =>
    have hok := h.flights _ _ hf
    have hlive := hok.live
    have hpassed := hok.passed
    rw [hstage] at hlive hpassed
    refine h.put hf (by rw [hstage]; rfl) rfl rfl (le_refl _) (Or.inl rfl) (fun _ => Or.inl) rfl ?_
    exact ⟨hlive, fun _ _ => (nomatch ·), hpassed, hok.window, rfl⟩
  | simulate hclock hf hstage => exact h.simulate hclock hf hstage
  | refresh hclock hf hstage => exact h.refresh hclock hf hstage
  | cleanup hf hstage =>
    have hok := h.flights _ _ hf
    have hgives := hok.gives
    rw [hstage] at hgives
    refine h.put hf (by rw [hstage]; rfl) rfl rfl (le_refl _) (Or.inr rfl) (fun _ => Or.inl) rfl ?_
    exact ⟨iff_of_false Bool.false_ne_true (nomatch ·), fun h => (nomatch h), fun h => (nomatch h), hok.window, hgives⟩
  | deliver hf hstage => exact h.deliver hf hstage

theorem Inv.init : Inv cfg {} where
  flights _ _ hf := nomatch hf
  last _ hi := nomatch hi
  requests _ hx := nomatch hx
  windows _ _ _ _ _ _ hf := nomatch hf

theorem inv_run (events : List Event) : Inv cfg (run cfg events) :=
  Machine.run_inv events (fun _ _ _ _ hstep h => h.step (step_case hstep)) Inv.init

/-! ## The age of what is served -/

/-- The fee that a request gets, when there is one. -/
def State.fee (s : State) : Reply → Option SolanaLzFeeQuote
  | .answered r => r.toOption
  | .waits i => s.flights[i]?.bind (·.stage.recorded)

/-- The fee was younger than its maximum age at that time. -/
def YoungAt (time : Nat) (q : SolanaLzFeeQuote) : Prop := (time : Int) - q.quotedAtMs < q.maxAgeMs

def Fresh (s : State) : Prop := ∀ x ∈ s.requests, ∀ q, s.fee x.reply = some q → YoungAt x.time q

/-- No request finds a promise whose simulation is over and whose fee is too old by then, and with a maximum age of 0 no
simulation is done in the millisecond of a request that waits on it. -/
def Meets (cfg : Settings) (s : State) : Event → Prop
  | .quote now _ => cfg.isEnabled = true → s.clock ≤ now → ∀ i f q, s.inflight = some i → s.flights[i]? = some f →
    f.stage.recorded = some q → YoungAt now q
  | .simulate i now => cfg.solanaLzFeeCacheMs = 0 → s.clock ≤ now → ∀ (f : Flight) nativeFee, s.flights[i]? = some f →
    f.stage = .settled (.ok nativeFee) → ∀ x ∈ s.requests, x.reply = .waits i → x.time < now
  | _ => True

theorem fee_put (hf : s.flights[i]? = some f) (hsame : f'.stage.recorded = f.stage.recorded) (reply : Reply) :
    (s.put i f').fee reply = s.fee reply := by
  cases reply with
  | answered r => rfl
  | waits j =>
    show (s.flights.set i f')[j]?.bind _ = s.flights[j]?.bind _
    rw [List.getElem?_set]
    split
    case isTrue hij =>
      subst hij
      rw [if_pos (List.getElem?_eq_some_iff.mp hf).1, hf, Option.bind_some, Option.bind_some, hsame]
    case isFalse => rfl

theorem fresh_put (hf : s.flights[i]? = some f) (hsame : f'.stage.recorded = f.stage.recorded) (hfresh : Fresh s) :
    Fresh (s.put i f') := by
  intro x hx q hq
  rw [fee_put hf hsame] at hq
  exact hfresh x hx q hq

/-- A request for which the fee in flight is too old is not answered at once. -/
theorem Inv.served_recorded (h : Inv cfg s) (hclock : s.clock ≤ now) {r : Quoted} (hserved : s.served cfg now = some r)
    (henabled : cfg.isEnabled = true) (hin : s.inflight = some i) (hf : s.flights[i]? = some f) {q : SolanaLzFeeQuote}
    (hq : f.stage.recorded = some q) : YoungAt now q := by
  have hok := h.flights i f hf
  have hlive := hok.live.mpr hin
  have hcached := hok.recorded hlive q hq
  have hrefused : f.stage.refused = false := by
    cases hstage : f.stage with
    | refreshed r =>
      rw [hstage] at hq
      cases r with
      | ok q => rfl
      | error e => cases hq
    | _ => rfl
  simp only [State.served, henabled, Bool.not_true, Bool.false_eq_true, if_false, hcached] at hserved
  split at hserved
  case h_1 q' hq' =>
    obtain ⟨hsame, hyoung⟩ := Option.filter_eq_some_iff.mp hq'
    obtain rfl := Option.some.inj hsame
    rwa [decide_eq_true_eq] at hyoung
  case h_2 =>
    -- the failure is from before the simulation
    obtain ⟨x, hx, -⟩ := Option.map_eq_some_iff.mp hserved
    obtain ⟨hx, hactive⟩ := Option.filter_eq_some_iff.mp hx
    have hpast := hok.passed hlive hrefused x hx
    rw [decide_eq_true_eq] at hactive
    omega

theorem served_young {q : SolanaLzFeeQuote} (h : s.served cfg now = some (.ok q)) : YoungAt now q := by
  simp only [State.served] at h
  split at h
  case isTrue => cases h
  case isFalse =>
    split at h
    case h_1 q' hq' =>
      cases h
      have hyoung := (Option.filter_eq_some_iff.mp hq').2
      rwa [decide_eq_true_eq] at hyoung
    case h_2 =>
      obtain ⟨x, -, hx⟩ := Option.map_eq_some_iff.mp h
      cases hx

/-- The last request decides. -/
theorem fresh_respond (t : State) {reply : Reply} (hfresh : Fresh t) :
    Fresh (t.respond reply) ↔ ∀ q, t.fee reply = some q → YoungAt t.clock q := by
  constructor
  · intro h
    exact h ⟨t.clock, reply⟩ (List.mem_append_right _ List.mem_cons_self)
  · intro h x hx
    obtain hx | hx := List.mem_append.mp hx
    · exact hfresh x hx
    · obtain rfl := List.mem_singleton.mp hx
      exact h

/-- The flight that a request starts has no fee yet. -/
theorem fresh_start (h : Inv cfg s) (hfresh : Fresh s) (hbegun : Begun cfg now f) (t : State)
    (hflights : t.flights = s.flights ++ [f]) (hrequests : t.requests = s.requests) :
    Fresh (t.respond (.waits s.flights.length)) := by
  have hnew : f.stage.recorded = none := by cases hbegun <;> rfl
  refine (fresh_respond t fun x hx q hq => ?_).mpr fun q hq => ?_
  · rw [hrequests] at hx
    refine hfresh x hx q ?_
    cases hreply : x.reply with
    | answered r => rwa [hreply] at hq
    | waits i =>
      have hi := (h.requests x hx).2 i hreply
      rw [hreply, State.fee, hflights, List.getElem?_append_left hi] at hq
      exact hq
  · rw [State.fee, hflights, List.getElem?_concat_length, Option.bind_some, hnew] at hq
    cases hq

/-- The fee that a simulation has come to is younger than the requests that wait on it. -/
theorem fresh_simulate (h : Inv cfg s) (hfresh : Fresh s) (hclock : s.clock ≤ now) (hf : s.flights[i]? = some f)
    (nativeFee : Nat) : Fresh ({ s with clock := now }.simulate cfg i f (.ok nativeFee)) ↔
      (cfg.solanaLzFeeCacheMs = 0 → ∀ x ∈ s.requests, x.reply = .waits i → x.time < now) := by
  have hi := (List.getElem?_eq_some_iff.mp hf).1
  have hself : ({ s with clock := now }.simulate cfg i f (.ok nativeFee)).fee (.waits i) =
      some (cfg.quoteOf nativeFee now) := by
    show (s.flights.set i _)[i]?.bind _ = _
    rw [List.getElem?_set_self hi]
    rfl
  have hother : ∀ reply, reply ≠ .waits i →
      ({ s with clock := now }.simulate cfg i f (.ok nativeFee)).fee reply = s.fee reply := by
    intro reply hreply
    cases reply with
    | answered r => rfl
    | waits j =>
      show (s.flights.set i _)[j]?.bind _ = s.flights[j]?.bind _
      rw [List.getElem?_set_ne fun hij => hreply (congrArg Reply.waits hij.symm)]
  constructor
  · intro hyoung hage x hx hwaits
    have hyoung : (x.time : Int) - now < cfg.solanaLzFeeCacheMs :=
      hyoung x hx (cfg.quoteOf nativeFee now) (by rw [hwaits]; exact hself)
    omega
  · intro hwait x hx q hq
    have hx : x ∈ s.requests := hx
    by_cases hwaits : x.reply = .waits i
    · rw [hwaits, hself] at hq
      obtain rfl := Option.some.inj hq
      have htime := (h.requests x hx).1.trans hclock
      show (x.time : Int) - now < cfg.solanaLzFeeCacheMs
      by_cases hage : cfg.solanaLzFeeCacheMs = 0
      · have hlt := hwait hage x hx hwaits
        omega
      · omega
    · rw [hother _ hwaits] at hq
      exact hfresh x hx q hq

theorem fresh_step (h : Inv cfg s) (hfresh : Fresh s) (hstep : StepCase cfg s e s') : Fresh s' ↔ Meets cfg s e := by
  cases hstep with
  | @answer now loads r hclock hserved =>
    refine iff_of_true ((fresh_respond { s with clock := now } hfresh).mpr fun q hq => ?_) ?_
    · cases r with
      | ok q' => exact served_young (hserved.trans (congrArg (some ∘ Except.ok) (Option.some.inj hq)))
      | error e => cases hq
    · exact fun henabled _ i f q hin hf hq => h.served_recorded hclock hserved henabled hin hf hq
  | @join now i loads hclock hserved hinflight =>
    obtain ⟨henabled, -⟩ := of_served_none hserved
    rw [fresh_respond { s with clock := now } hfresh]
    constructor
    · intro hyoung _ _ j f q hin hf hq
      obtain rfl : i = j := Option.some.inj (hinflight.symm.trans hin)
      exact hyoung q (by rw [State.fee, hf]; exact hq)
    · intro hmeets q hq
      obtain ⟨f, hf, hq⟩ := Option.bind_eq_some_iff.mp hq
      exact hmeets henabled hclock i f q hinflight hf hq
  | start hclock hserved hnone hbegun =>
    refine iff_of_true (fresh_start h hfresh hbegun _ rfl rfl) fun _ _ i f q hin => ?_
    rw [hnone] at hin
    cases hin
  | settle hf hstage => exact iff_of_true (fresh_put hf (by rw [hstage]; rfl) hfresh) trivial
  | @simulate i now f r hclock hf hstage =>
    cases r with
    | ok nativeFee =>
      rw [fresh_simulate h hfresh hclock hf nativeFee]
      exact ⟨fun hyoung hage _ _ _ _ _ => hyoung hage, fun hmeets hage => hmeets hage hclock f nativeFee hf hstage⟩
    | error message =>
      refine iff_of_true (fresh_put (s := { s with clock := now }) hf (by rw [hstage]; rfl) hfresh) ?_
      intro _ _ f' nativeFee hf' hstage'
      obtain rfl := Option.some.inj (hf.symm.trans hf')
      rw [hstage] at hstage'
      cases hstage'
  | @refresh i now f r hclock hf hstage =>
    refine iff_of_true ?_ trivial
    cases r with
    | ok quote => exact fresh_put (s := { s with clock := now, failure := none }) hf (by rw [hstage]; rfl) hfresh
    | error message => exact fresh_put (s := { s with clock := now, failure := _ }) hf (by rw [hstage]; rfl) hfresh
  | cleanup hf hstage =>
    exact iff_of_true (fresh_put (s := { s with inflight := none }) hf (by rw [hstage]; rfl) hfresh) trivial
  | deliver hf hstage => exact iff_of_true (fresh_put hf (by rw [hstage]; rfl) hfresh) trivial

/-- A step that is not taken meets the condition. -/
theorem meets_refused (h : step cfg e s = .error ()) : Meets cfg s e := by
  cases e with
  | quote now loads =>
    intro _ hclock
    simp only [step, if_pos hclock] at h
    cases h
  | simulate i now =>
    intro _ hclock f nativeFee hf hstage
    simp only [step, hf, hstage, if_pos hclock] at h
    cases h
  | _ => trivial

/-! ## Jobs run to their end -/

/-- The jobs of a flight whose simulation has settled. -/
def jobs (i now : Nat) : List Event := [.simulate i now, .refresh i now, .cleanup i, .deliver i]

def Stage.rank : Stage → Nat
  | .pending => 0
  | .settled _ => 1
  | .simulated _ => 2
  | .refreshed _ => 3
  | .cleaned _ => 4
  | .done _ => 5

/-- The flight has come so far, and its simulation is the one that it was. -/
def Reaches (i rank : Nat) (outcome : Option (Except String Nat)) (now : Nat) (s : State) : Prop :=
  ∃ f, s.flights[i]? = some f ∧ rank ≤ f.stage.rank ∧ f.outcome = outcome ∧ s.clock = now

variable {outcome : Option (Except String Nat)}

/-- A job brings a flight that is at its stage to the next one, and is not taken elsewhere. -/
theorem reaches_job {k : Nat} (h : Reaches i k outcome now s)
    (hat : ∀ f, s.flights[i]? = some f → f.stage.rank = k → ∃ (t : State) (f' : Flight),
      step cfg e s = .ok (t.put i f') ∧
      t.flights = s.flights ∧ t.clock = s.clock ∧ f'.stage.rank = k + 1 ∧ f'.outcome = f.outcome)
    (helse : ∀ f, s.flights[i]? = some f → f.stage.rank ≠ k → step cfg e s = .error ()) :
    Reaches i (k + 1) outcome now (Machine.next (step cfg) s e) := by
  obtain ⟨f, hf, hrank, houtcome, hclock⟩ := h
  by_cases hk : f.stage.rank = k
  · obtain ⟨t, f', hstep, hflights, hsame, hrank', houtcome'⟩ := hat f hf hk
    rw [Machine.next_ok hstep]
    exact ⟨f', Places.get_set_self (hflights ▸ hf), hrank'.ge, houtcome'.trans houtcome, hsame.trans hclock⟩
  · rw [Machine.next_error (helse f hf hk)]
    exact ⟨f, hf, by omega, houtcome, hclock⟩

theorem reaches_simulate (h : Reaches i 1 outcome now s) :
    Reaches i 2 outcome now (Machine.next (step cfg) s (.simulate i now)) := by
  have hnow : s.clock = now := h.choose_spec.2.2.2
  refine reaches_job h (fun f hf hrank => ?_) fun f hf hrank => ?_
  · cases hstage : f.stage with
    | settled r =>
      simp only [step, hf, hstage, hnow, le_refl, if_true]
      cases r with
      | ok nativeFee => exact ⟨_, _, rfl, rfl, rfl, rfl, rfl⟩
      | error message => exact ⟨_, _, rfl, rfl, rfl, rfl, rfl⟩
    | _ => rw [hstage] at hrank; cases hrank
  · cases hstage : f.stage with
    | settled r => rw [hstage] at hrank; exact absurd rfl hrank
    | _ => simp only [step, hf, hstage]

theorem reaches_refresh (h : Reaches i 2 outcome now s) :
    Reaches i 3 outcome now (Machine.next (step cfg) s (.refresh i now)) := by
  have hnow : s.clock = now := h.choose_spec.2.2.2
  refine reaches_job h (fun f hf hrank => ?_) fun f hf hrank => ?_
  · cases hstage : f.stage with
    | simulated r =>
      simp only [step, hf, hstage, hnow, le_refl, if_true]
      cases r with
      | ok quote => exact ⟨_, _, rfl, rfl, rfl, rfl, rfl⟩
      | error message => exact ⟨_, _, rfl, rfl, rfl, rfl, rfl⟩
    | _ => rw [hstage] at hrank; cases hrank
  · cases hstage : f.stage with
    | simulated r => rw [hstage] at hrank; exact absurd rfl hrank
    | _ => simp only [step, hf, hstage]

theorem reaches_cleanup (h : Reaches i 3 outcome now s) :
    Reaches i 4 outcome now (Machine.next (step cfg) s (.cleanup i)) := by
  refine reaches_job h (fun f hf hrank => ?_) fun f hf hrank => ?_
  · cases hstage : f.stage with
    | refreshed r =>
      simp only [step, hf, hstage]
      exact ⟨_, _, rfl, rfl, rfl, rfl, rfl⟩
    | _ => rw [hstage] at hrank; cases hrank
  · cases hstage : f.stage with
    | refreshed r => rw [hstage] at hrank; exact absurd rfl hrank
    | _ => simp only [step, hf, hstage]

theorem reaches_deliver (h : Reaches i 4 outcome now s) :
    Reaches i 5 outcome now (Machine.next (step cfg) s (.deliver i)) := by
  refine reaches_job h (fun f hf hrank => ?_) fun f hf hrank => ?_
  · cases hstage : f.stage with
    | cleaned r =>
      simp only [step, hf, hstage]
      exact ⟨_, _, rfl, rfl, rfl, rfl, rfl⟩
    | _ => rw [hstage] at hrank; cases hrank
  · cases hstage : f.stage with
    | cleaned r => rw [hstage] at hrank; exact absurd rfl hrank
    | _ => simp only [step, hf, hstage]

/-- When its jobs have run, a flight whose simulation has settled is done. -/
theorem jobs_done (hf : s.flights[i]? = some f) (hsettled : f.stage ≠ .pending) :
    ∃ g r, (Machine.run (step cfg) s (jobs i s.clock)).flights[i]? = some g ∧ g.stage = .done r ∧
      g.outcome = f.outcome := by
  have hrank : 1 ≤ f.stage.rank := by
    cases hstage : f.stage with
    | pending => exact absurd hstage hsettled
    | _ => simp only [Stage.rank, Nat.reduceLeDiff, le_refl]
  have hreaches : Reaches i 1 f.outcome s.clock s := ⟨f, hf, hrank, rfl, rfl⟩
  have hend : Reaches i 5 f.outcome s.clock (Machine.run (step cfg) s (jobs i s.clock)) :=
    reaches_deliver (reaches_cleanup (reaches_refresh (reaches_simulate hreaches)))
  obtain ⟨g, hg, hdone, houtcome, -⟩ := hend
  cases hstage : g.stage with
  | done r => exact ⟨g, r, hg, hstage, houtcome⟩
  | _ => rw [hstage, Stage.rank] at hdone; omega

/-! ## The cache -/

/-- What is promised in a state: at most one simulation is in flight, no request gets a fee that was too old at its
time, no refresh was started in the retry window of an earlier failure, and a request that waits on a simulation gets
its result or its error, as soon as the jobs have run. -/
structure Sound (cfg : Settings) (s : State) : Prop where
  single : ∀ (i j : Nat) (f g : Flight), s.flights[i]? = some f → s.flights[j]? = some g → f.stage = .pending →
    g.stage = .pending → i = j
  fresh : Fresh s
  retry : ∀ (i j : Nat) (f g : Flight) (u : Nat), i < j → s.flights[i]? = some f → s.flights[j]? = some g →
    f.failedAt = some u → u + SOLANA_LZ_FEE_RETRY_AFTER_SECONDS * 1000 ≤ g.startedAt
  waits : ∀ x ∈ s.requests, ∀ i, x.reply = .waits i → ∃ f, s.flights[i]? = some f ∧
    ∀ r, f.stage = .done r → ∃ o, f.outcome = some o ∧ Passes cfg o r
  ends : ∀ (i : Nat) (f : Flight), s.flights[i]? = some f → f.stage ≠ .pending → ∃ g r,
    (Machine.run (step cfg) s (jobs i s.clock)).flights[i]? = some g ∧ g.stage = .done r ∧ g.outcome = f.outcome

theorem Inv.sound (h : Inv cfg s) (hfresh : Fresh s) : Sound cfg s where
  single i j f g hf hg hpending hpending' := by
    have hi := (h.flights i f hf).live.mp (by rw [hpending]; rfl)
    have hj := (h.flights j g hg).live.mp (by rw [hpending']; rfl)
    exact Option.some.inj (hi.symm.trans hj)
  fresh := hfresh
  retry := h.windows
  waits x hx i hi := by
    have hlt := (h.requests x hx).2 i hi
    refine ⟨s.flights[i], List.getElem?_eq_getElem hlt, fun r hstage => ?_⟩
    have hgives := (h.flights i _ (List.getElem?_eq_getElem hlt)).gives
    rwa [hstage] at hgives
  ends _ _ hf hsettled := jobs_done hf hsettled

theorem run_concat (past : List Event) (e : Event) :
    run cfg (past ++ [e]) = Machine.next (step cfg) (run cfg past) e := by
  rw [run, Machine.run_append]
  rfl

theorem fresh_concat {past : List Event} (hfresh : Fresh (run cfg past)) :
    Fresh (run cfg (past ++ [e])) ↔ Meets cfg (run cfg past) e := by
  rw [run_concat]
  rcases Machine.next_cases (step cfg) (run cfg past) e with ⟨s', hstep, hnext⟩ | ⟨⟨_, hrefused⟩, hnext⟩
  · rw [hnext]
    exact fresh_step (inv_run past) hfresh (step_case hstep)
  · rw [hnext]
    exact iff_of_true hfresh (meets_refused hrefused)

/-- The cache is sound in every state of a run just when every step meets the condition. -/
theorem feeCache_iff (cfg : Settings) (events : List Event) :
    (∀ past, past <+: events → Sound cfg (run cfg past)) ↔
      ∀ past e, past ++ [e] <+: events → Meets cfg (run cfg past) e := by
  constructor
  · intro hsound past e hprefix
    have hpast := hsound past ((List.prefix_append past [e]).trans hprefix)
    exact (fresh_concat hpast.fresh).mp (hsound _ hprefix).fresh
  · intro hmeets past hprefix
    refine (inv_run past).sound ?_
    induction past using List.reverseRecOn with
    | nil => exact fun x hx => nomatch hx
    | append_singleton past e ih =>
      exact (fresh_concat (ih ((List.prefix_append past [e]).trans hprefix))).mpr (hmeets past e hprefix)

/-! ## A fee that is too old -/

/-- A relayer that reuses a fee for five milliseconds. -/
def exampleSettings : Settings where
  solanaRpcUrl := "http://localhost:8899"
  solanaProgramId := "program"
  solanaLzEndpointProgram := "endpoint"
  solanaLzUlnProgram := "uln"
  solanaLzSuiPeer := "peer"
  solanaLzOptions := "0x"
  suiEid := 40378
  solanaSrcEid := 40168
  solanaLzFeeCacheMs := 5

/-- A request comes between the jobs of a simulation, five milliseconds after its fee was kept. -/
def lateRequest : List Event :=
  [.quote 0 none, .settle 0 (.ok 100), .simulate 0 0, .quote 5 none, .refresh 0 5, .cleanup 0, .deliver 0]

/-- It joins the promise that is about to be cleaned up, and gets a fee as old as the maximum age. -/
theorem late_request_stale :
    (⟨5, .waits 0⟩ : Request) ∈ (run exampleSettings lateRequest).requests ∧
    (run exampleSettings lateRequest).flights.map (·.stage) = [.done (.ok (exampleSettings.quoteOf 100 0))] ∧
    ¬ Sound exampleSettings (run exampleSettings lateRequest) := by
  have hrequests : (run exampleSettings lateRequest).requests = [⟨0, .waits 0⟩, ⟨5, .waits 0⟩] := rfl
  have hmem : (⟨5, .waits 0⟩ : Request) ∈ (run exampleSettings lateRequest).requests := by
    rw [hrequests]
    exact List.mem_cons_of_mem _ List.mem_cons_self
  refine ⟨hmem, rfl, fun hsound => ?_⟩
  have hyoung : (5 : Int) - 0 < 5 := hsound.fresh _ hmem (exampleSettings.quoteOf 100 0) rfl
  omega

end Bosphor.Relayer.SolanaLzFee

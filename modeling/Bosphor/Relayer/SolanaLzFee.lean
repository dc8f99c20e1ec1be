import Bosphor.Lib.Machine

/-!
# The Solana LayerZero fee

`SolanaLzFeeService`: one simulation at a time, whose fee is kept for a while,
and whose failure is remembered for a while. A request is served by the cache,
refused by the failure, or waits on the promise of the simulation that is in
flight, which it starts if there is none.

When a simulation has settled, the cache, the failure and the promise are
written by three jobs, one behind the other, and requests come between them as
well. The jobs of one refresh are the stages of its flight (`Stage`); a step
takes one request or one job (`StepCase`).
-/

namespace Bosphor.Relayer.SolanaLzFee

structure SolanaLzFeeQuote where
  nativeFee : Nat
  srcEid : Nat
  dstEid : Nat
  quotedAtMs : Nat
  maxAgeMs : Nat
  deriving DecidableEq

/-- What a simulation is given. -/
structure SolanaLzFeePath where
  programId : String
  endpointProgram : String
  ulnProgram : String
  dstEid : Nat
  receiver : String
  options : String
  deriving DecidableEq

/-- The settings that the service reads; those of Solana may be empty. -/
structure Settings where
  solanaRpcUrl : String
  solanaProgramId : String
  solanaLzEndpointProgram : String
  solanaLzUlnProgram : String
  solanaLzSuiPeer : String
  solanaLzOptions : String
  suiEid : Nat
  solanaSrcEid : Nat
  solanaLzFeeCacheMs : Nat := 30000

def Settings.isEnabled (cfg : Settings) : Bool :=
  cfg.solanaRpcUrl != "" && cfg.solanaProgramId != "" && cfg.solanaLzSuiPeer != ""

def Settings.path (cfg : Settings) : SolanaLzFeePath where
  programId := cfg.solanaProgramId
  endpointProgram := cfg.solanaLzEndpointProgram
  ulnProgram := cfg.solanaLzUlnProgram
  dstEid := cfg.suiEid
  receiver := cfg.solanaLzSuiPeer
  options := cfg.solanaLzOptions

/-- The quote of a simulation that was done at that time. -/
def Settings.quoteOf (cfg : Settings) (nativeFee quotedAtMs : Nat) : SolanaLzFeeQuote where
  nativeFee := nativeFee
  srcEid := cfg.solanaSrcEid
  dstEid := cfg.suiEid
  quotedAtMs := quotedAtMs
  maxAgeMs := cfg.solanaLzFeeCacheMs

/-- Seconds a failed simulation is remembered. -/
def SOLANA_LZ_FEE_RETRY_AFTER_SECONDS : Nat := 5

/-- What a request is refused with. -/
inductive QuoteError where
  | error (message : String)
  /-- `SolanaLzFeeUnavailableError` -/
  | unavailable (message : String) (retryAfterSeconds : Nat)
  deriving DecidableEq

structure Failure where
  message : String
  untilMs : Nat
  deriving DecidableEq

abbrev Quoted := Except QuoteError SolanaLzFeeQuote

/-- How far the promises of one `refresh` have come. -/
inductive Stage where
  /-- The simulation is in flight. -/
  | pending
  /-- It has settled, and `simulate` has not gone on. -/
  | settled (r : Except String Nat)
  /-- `simulate` has returned. -/
  | simulated (r : Except String SolanaLzFeeQuote)
  /-- `refresh` has returned. -/
  | refreshed (r : Quoted)
  /-- The callback of `finally` has run. -/
  | cleaned (r : Quoted)
  /-- The promise that requests wait on has settled. -/
  | done (r : Quoted)

/-- A `refresh`, with what is known of its simulation afterwards. -/
structure Flight where
  startedAt : Nat
  /-- The call of the simulation, unless its dependencies could not be loaded. -/
  path : Option SolanaLzFeePath
  stage : Stage
  outcome : Option (Except String Nat) := none
  failedAt : Option Nat := none

inductive Reply where
  | answered (r : Quoted)
  | waits (flight : Nat)

structure Request where
  time : Nat
  reply : Reply

/-- The service's fields, with the flights and the requests so far. -/
structure State where
  deps : Bool := false
  cached : Option SolanaLzFeeQuote := none
  inflight : Option Nat := none
  failure : Option Failure := none
  flights : List Flight := []
  requests : List Request := []
  clock : Nat := 0

/-! ## Requests -/

variable (cfg : Settings)

/-- What is answered at once. -/
def State.served (s : State) (now : Nat) : Option Quoted :=
  if !cfg.isEnabled then some (.error (.error "Solana LayerZero fee quoting is not enabled on this relayer"))
  else
    match s.cached.filter fun q => (now : Int) - q.quotedAtMs < q.maxAgeMs with
    | some q => some (.ok q)
    | none =>
      (s.failure.filter fun f => now < f.untilMs).map fun f =>
        .error (.unavailable f.message (max 1 ((f.untilMs - now + 999) / 1000)))

/-- `refresh` as far as its first await; `loads` is what loading the dependencies throws. -/
def State.refresh (s : State) (now : Nat) (loads : Option String) : State :=
  match if s.deps then none else loads with
  | none => { s with
      deps := true
      inflight := some s.flights.length
      flights := s.flights ++ [⟨now, some cfg.path, .pending, none, none⟩] }
  | some message => { s with
      inflight := some s.flights.length
      flights := s.flights ++ [⟨now, none, .simulated (.error message), some (.error message), none⟩] }

def State.respond (s : State) (reply : Reply) : State := { s with requests := s.requests ++ [⟨s.clock, reply⟩] }

def State.quote (s : State) (now : Nat) (loads : Option String) : State :=
  let s := { s with clock := now }
  match s.served cfg now with
  | some r => s.respond (.answered r)
  | none =>
    match s.inflight with
    | some i => s.respond (.waits i)
    | none => (s.refresh cfg now loads).respond (.waits s.flights.length)

/-! ## Jobs -/

def State.put (s : State) (i : Nat) (f : Flight) : State := { s with flights := s.flights.set i f }

/-- `simulate` behind its await. -/
def State.simulate (s : State) (i : Nat) (f : Flight) : Except String Nat → State
  | .ok nativeFee =>
    let quote := cfg.quoteOf nativeFee s.clock
    { s with cached := some quote }.put i { f with stage := .simulated (.ok quote) }
  | .error message => s.put i { f with stage := .simulated (.error message) }

/-- `refresh` behind its await. -/
def State.settleRefresh (s : State) (i : Nat) (f : Flight) : Except String SolanaLzFeeQuote → State
  | .ok quote => { s with failure := none }.put i { f with stage := .refreshed (.ok quote) }
  | .error message =>
    { s with failure := some ⟨message, s.clock + SOLANA_LZ_FEE_RETRY_AFTER_SECONDS * 1000⟩ }.put i { f with
      stage := .refreshed (.error (.unavailable message SOLANA_LZ_FEE_RETRY_AFTER_SECONDS))
      failedAt := some s.clock }

inductive Event where
  | quote (now : Nat) (loads : Option String)
  | settle (i : Nat) (r : Except String Nat)
  | simulate (i now : Nat)
  | refresh (i now : Nat)
  | cleanup (i : Nat)
  | deliver (i : Nat)

/-- A step, unless the clock would go back or the flight is at another stage. -/
def step (e : Event) (s : State) : Except Unit State :=
  match e with
  | .quote now loads => if s.clock ≤ now then .ok (s.quote cfg now loads) else .error ()
  | .settle i r =>
    match s.flights[i]? with
    | some f =>
      match f.stage with
      | .pending => .ok (s.put i { f with stage := .settled r, outcome := some r })
      | _ => .error ()
    | none => .error ()
  | .simulate i now =>
    match s.flights[i]? with
    | some f =>
      match f.stage with
      | .settled r => if s.clock ≤ now then .ok ({ s with clock := now }.simulate cfg i f r) else .error ()
      | _ => .error ()
    | none => .error ()
  | .refresh i now =>
    match s.flights[i]? with
    | some f =>
      match f.stage with
      | .simulated r => if s.clock ≤ now then .ok ({ s with clock := now }.settleRefresh i f r) else .error ()
      | _ => .error ()
    | none => .error ()
  | .cleanup i =>
    match s.flights[i]? with
    | some f =>
      match f.stage with
      | .refreshed r => .ok ({ s with inflight := none }.put i { f with stage := .cleaned r })
      | _ => .error ()
    | none => .error ()
  | .deliver i =>
    match s.flights[i]? with
    | some f =>
      match f.stage with
      | .cleaned r => .ok (s.put i { f with stage := .done r })
      | _ => .error ()
    | none => .error ()

def run (events : List Event) : State := Machine.run (step cfg) {} events

/-! ## What a step does -/

/-- The refresh that a request starts. -/
inductive Begun (now : Nat) : Flight → Prop where
  | pending : Begun now ⟨now, some cfg.path, .pending, none, none⟩
  | threw {message : String} : Begun now ⟨now, none, .simulated (.error message), some (.error message), none⟩

/-- All that a step does. -/
inductive StepCase (s : State) : Event → State → Prop where
  | answer {now : Nat} {loads : Option String} {r : Quoted} (hclock : s.clock ≤ now)
    (hserved : s.served cfg now = some r) :
    StepCase s (.quote now loads) ({ s with clock := now }.respond (.answered r))
  | join {now i : Nat} {loads : Option String} (hclock : s.clock ≤ now) (hserved : s.served cfg now = none)
      (hinflight : s.inflight = some i) : StepCase s (.quote now loads) ({ s with clock := now }.respond (.waits i))
  | start {now : Nat} {loads : Option String} {f : Flight} {deps : Bool} (hclock : s.clock ≤ now)
      (hserved : s.served cfg now = none) (hinflight : s.inflight = none) (hbegun : Begun cfg now f) :
    StepCase s (.quote now loads) ({ s with
      clock := now
      deps := deps
      inflight := some s.flights.length
      flights := s.flights ++ [f] }.respond (.waits s.flights.length))
  | settle {i : Nat} {f : Flight} {r : Except String Nat} (hf : s.flights[i]? = some f) (hstage : f.stage = .pending) :
    StepCase s (.settle i r) (s.put i { f with stage := .settled r, outcome := some r })
  | simulate {i now : Nat} {f : Flight} {r : Except String Nat} (hclock : s.clock ≤ now) (hf : s.flights[i]? = some f)
      (hstage : f.stage = .settled r) : StepCase s (.simulate i now) ({ s with clock := now }.simulate cfg i f r)
  | refresh {i now : Nat} {f : Flight} {r : Except String SolanaLzFeeQuote} (hclock : s.clock ≤ now)
      (hf : s.flights[i]? = some f) (hstage : f.stage = .simulated r) :
    StepCase s (.refresh i now) ({ s with clock := now }.settleRefresh i f r)
  | cleanup {i : Nat} {f : Flight} {r : Quoted} (hf : s.flights[i]? = some f) (hstage : f.stage = .refreshed r) :
    StepCase s (.cleanup i) ({ s with inflight := none }.put i { f with stage := .cleaned r })
  | deliver {i : Nat} {f : Flight} {r : Quoted} (hf : s.flights[i]? = some f) (hstage : f.stage = .cleaned r) :
    StepCase s (.deliver i) (s.put i { f with stage := .done r })

variable {cfg} {s s' : State} {e : Event}

theorem quote_case {now : Nat} {loads : Option String} (hclock : s.clock ≤ now) :
    StepCase cfg s (.quote now loads) (s.quote cfg now loads) := by
  simp only [State.quote]
  split
  case h_1 r hserved => exact .answer hclock hserved
  case h_2 hserved =>
    split
    case h_1 i hinflight => exact .join hclock hserved hinflight
    case h_2 hinflight =>
      simp only [State.refresh]
      split
      case h_1 => exact .start hclock hserved hinflight .pending
      case h_2 message _ => exact .start hclock hserved hinflight .threw

theorem step_case (h : step cfg e s = .ok s') : StepCase cfg s e s' := by
  cases e with
  | quote now loads =>
    simp only [step] at h
    split at h
    case isTrue hclock =>
      cases h
      exact quote_case hclock
    case isFalse => cases h
  | settle i r =>
    simp only [step] at h
    split at h
    case h_1 f hf =>
      split at h
      case h_1 hstage =>
        cases h
        exact .settle hf hstage
      case h_2 => cases h
    case h_2 => cases h
  | simulate i now =>
    simp only [step] at h
    split at h
    case h_1 f hf =>
      split at h
      case h_1 r hstage =>
        split at h
        case isTrue hclock =>
          cases h
          exact .simulate hclock hf hstage
        case isFalse => cases h
      case h_2 => cases h
    case h_2 => cases h
  | refresh i now =>
    simp only [step] at h
    split at h
    case h_1 f hf =>
      split at h
      case h_1 r hstage =>
        split at h
        case isTrue hclock =>
          cases h
          exact .refresh hclock hf hstage
        case isFalse => cases h
      case h_2 => cases h
    case h_2 => cases h
  | cleanup i =>
    simp only [step] at h
    split at h
    case h_1 f hf =>
      split at h
      case h_1 r hstage =>
        cases h
        exact .cleanup hf hstage
      case h_2 => cases h
    case h_2 => cases h
  | deliver i =>
    simp only [step] at h
    split at h
    case h_1 f hf =>
      split at h
      case h_1 r hstage =>
        cases h
        exact .deliver hf hstage
      case h_2 => cases h
    case h_2 => cases h

end Bosphor.Relayer.SolanaLzFee

import Bosphor.Lib.Async
import Bosphor.Lib.RelativeError
import Bosphor.Relayer.Pricing

/-!
# The price oracle

Dollar prices from two sources, Pyth and CoinGecko. A price is taken from Pyth,
or from CoinGecko where Pyth has none that is fresh; two fresh ones must agree,
and the one that is taken must lie within its bounds. What the sources and the
clock answer is not the oracle's to say: `Taken` is what is known of a price
that is returned, whatever they answered (`getPrices_taken`).
-/

namespace Bosphor.Relayer.PriceOracle

open Async

def PRICE_TOKENS : List PriceToken := [.WAL, .SUI, .ETH, .SOL]

/-! ## Numbers -/

/-- A number of the runtime. -/
inductive Number where
  | finite (q : ℚ)
  | infinity (negative : Bool)
  | nan
  deriving DecidableEq

/-- What is beyond the largest double is infinite. -/
def Number.ofRat (q : ℚ) : Number := if |q| < 2 ^ 1024 then .finite q else .infinity (q < 0)

/-- `x > bound`, of a finite bound. -/
def Number.exceeds (x : Number) (bound : ℚ) : Bool :=
  match x with
  | .finite q => decide (bound < q)
  | .infinity negative => !negative
  | .nan => false

/-- How the runtime reads and writes numbers. -/
structure Numerals where
  /-- `Number(text)`. -/
  number : String → Number
  /-- As a template writes it. -/
  text : Number → String
  toFixed : Nat → Number → String

/-! ## Prices -/

inductive PriceSource where
  | pyth
  | coingecko
  deriving DecidableEq

/-- A price that a source reports. -/
structure PricePoint where
  token : PriceToken
  usd : Number
  publishTimeMs : Int
  source : PriceSource
  deriving DecidableEq

abbrev PartialPrices := PriceToken → Option PricePoint

structure SanityBounds where
  min : ℚ
  max : ℚ

structure PythSourceConfig where
  url : String
  apiKey : Option String
  feedIds : PriceToken → String

structure CoinGeckoSourceConfig where
  url : String
  apiKey : Option String
  ids : PriceToken → String

structure PriceOracleConfig where
  maxStalenessMs : Int
  maxDeviationRatio : ℚ
  sanityBounds : PriceToken → SanityBounds
  pyth : PythSourceConfig
  coingecko : CoinGeckoSourceConfig

/-! ## What the sources answer -/

structure PythPrice where
  price : String
  expo : Int
  /-- Seconds. -/
  publishTime : Int

structure PythParsed where
  id : String
  price : Option PythPrice

structure PythBody where
  parsed : Option (List PythParsed)

structure CoinGeckoEntry where
  /-- None if it is not a number. -/
  usd : Option Number
  /-- Seconds. -/
  lastUpdatedAt : Option Int

/-- An object of entries by coin id. -/
abbrev CoinGeckoBody := String → Option CoinGeckoEntry

/-- A response; a body that is not read is none. -/
structure Fetched (β : Type) where
  ok : Bool
  status : Nat
  json : Option β

inductive OracleCall where
  | fetchPyth (url : String) (headers : List (String × String))
  | fetchCoinGecko (url : String) (headers : List (String × String))
  | now

abbrev OracleCall.Answer : OracleCall → Type
  | .fetchPyth .. => Fetched PythBody
  | .fetchCoinGecko .. => Fetched CoinGeckoBody
  | .now => Int

/-- A program of the oracle; its errors are their messages. -/
abbrev Oracle := Async OracleCall OracleCall.Answer String

abbrev OracleTold := History OracleCall OracleCall.Answer String

abbrev oracleCall (c : OracleCall) : Oracle c.Answer := Async.call c

def byToken {β : Type} (wal sui eth sol : β) : PriceToken → β
  | .WAL => wal
  | .SUI => sui
  | .ETH => eth
  | .SOL => sol

/-- `for (const token of PRICE_TOKENS)` -/
def forTokens {β : Type} (body : PriceToken → Oracle β) : Oracle (PriceToken → β) := do
  let wal ← body .WAL
  let sui ← body .SUI
  let eth ← body .ETH
  let sol ← body .SOL
  return byToken wal sui eth sol

variable (fl : Rounding) (numerals : Numerals) (config : PriceOracleConfig)

/-! ## Reconciling two prices -/

/-- The part of the smaller price that two prices differ by. -/
def deviation (a b : Number) : Number :=
  match a, b with
  | .finite a, .finite b => if min a b ≤ 0 then .infinity false else .ofRat (fl.div |fl.sub a b| (min a b))
  | .nan, _ => .nan
  | _, .nan => .nan
  | .infinity false, .infinity false => .nan
  | _, _ => .infinity false

def percent (x : Number) : Number :=
  match x with
  | .finite q => .ofRat (fl.mul q 100)
  | x => x

/-- Two fresh prices must agree. -/
def assertConsensus (token : PriceToken) (freshPrimary freshFallback : Option PricePoint) : Except String Unit :=
  match freshPrimary, freshFallback with
  | some p, some f =>
    let dev := deviation fl p.usd f.usd
    if dev.exceeds config.maxDeviationRatio then
      .error (s!"PriceOracle: {token.name} sources deviate {numerals.toFixed 1 (percent fl dev)}% " ++
        s!"(pyth {numerals.text p.usd} vs coingecko {numerals.text f.usd}), " ++
        s!"exceeds {numerals.toFixed 0 (percent fl (.finite config.maxDeviationRatio))}%")
    else .ok ()
  | _, _ => .ok ()

def assertSane (p : PricePoint) : Except String Unit :=
  let bounds := config.sanityBounds p.token
  let outside := s!"PriceOracle: {p.token.name} price {numerals.text p.usd} outside sanity bounds " ++
    s!"[{numerals.text (.finite bounds.min)}, {numerals.text (.finite bounds.max)}]"
  match p.usd with
  | .finite usd =>
    if usd ≤ 0 then
      .error s!"PriceOracle: {p.token.name} price {numerals.text p.usd} is not a positive number"
    else if usd < bounds.min ∨ usd > bounds.max then .error outside
    else .ok ()
  | _ => .error s!"PriceOracle: {p.token.name} price {numerals.text p.usd} is not a positive number"

/-- The price that is taken. -/
def choose (token : PriceToken) (primary fallback freshPrimary freshFallback : Option PricePoint) :
    Except String PricePoint :=
  match freshPrimary.orElse fun _ => freshFallback with
  | some chosen => do
    assertSane numerals config chosen
    return chosen
  | none =>
    if primary.isSome ∨ fallback.isSome then
      .error s!"PriceOracle: only stale {token.name} prices available (all past staleness bound)"
    else .error s!"PriceOracle: no source returned a {token.name} price"

def isFresh (p : PricePoint) : Oracle Bool := do
  let now ← oracleCall .now
  return decide (now - p.publishTimeMs ≤ config.maxStalenessMs)

/-- `p && this.isFresh(p) ? p : undefined` -/
def freshOf (p : Option PricePoint) : Oracle (Option PricePoint) :=
  match p with
  | none => return none
  | some p => do
    let fresh ← isFresh config p
    return if fresh then some p else none

def reconcile (token : PriceToken) (primary fallback : Option PricePoint) : Oracle PricePoint := do
  let freshPrimary ← freshOf config primary
  let freshFallback ← freshOf config fallback
  Async.ofExcept (assertConsensus fl numerals config token freshPrimary freshFallback)
  Async.ofExcept (choose numerals config token primary fallback freshPrimary freshFallback)

/-! ## The sources -/

/-- The digits of an id in lower case, without their prefix. -/
def normalizeHex (id : String) : List Char :=
  match id.toList.map Char.toLower with
  | '0' :: 'x' :: rest => rest
  | digits => digits

/-- `Number(price) * 10 ** expo`, when it is finite. -/
def pythUsd (p : PythPrice) : Option ℚ :=
  match numerals.number p.price, Number.ofRat (fl.round (10 ^ p.expo)) with
  | .finite m, .finite e =>
    match Number.ofRat (fl.mul m e) with
    | .finite usd => some usd
    | _ => none
  | _, _ => none

/-- What a body of Pyth says of a token: of two entries with an id, the last counts. -/
def pythPrice (body : PythBody) (token : PriceToken) : Option PricePoint := do
  let entries := (body.parsed.getD []).filter fun p => normalizeHex p.id = normalizeHex (config.pyth.feedIds token)
  let price ← (← entries.getLast?).price
  let usd ← pythUsd fl numerals price
  return ⟨token, .finite usd, price.publishTime * 1000, .pyth⟩

def authorization (name value : String) (apiKey : Option String) : List (String × String) :=
  match apiKey with
  | some key => if key = "" then [] else [(name, value ++ key)]
  | none => []

/-- What a response comes to. -/
def readBody {β : Type} (source : String) (res : Fetched β) : Except String β :=
  if !res.ok then .error s!"{source} returned {res.status}"
  else
    match res.json with
    | some body => .ok body
    | none => .error s!"{source} returned no JSON"

def tryPyth : Oracle PartialPrices := do
  let params := "&".intercalate (PRICE_TOKENS.map fun t => "ids[]=" ++ config.pyth.feedIds t)
  let res ← oracleCall (.fetchPyth s!"{config.pyth.url}?{params}&parsed=true"
    (authorization "Authorization" "Bearer " config.pyth.apiKey))
  let body ← Async.ofExcept (readBody "Pyth Hermes" res)
  return pythPrice fl numerals config body

/-- A price without a time counts as of now. -/
def coingeckoPrice (body : CoinGeckoBody) (token : PriceToken) : Oracle (Option PricePoint) :=
  match body (config.coingecko.ids token) with
  | some ⟨some usd, some seconds⟩ => return some ⟨token, usd, seconds * 1000, .coingecko⟩
  | some ⟨some usd, none⟩ => do
    let now ← oracleCall .now
    return some ⟨token, usd, now / 1000 * 1000, .coingecko⟩
  | _ => return none

def tryCoinGecko : Oracle PartialPrices := do
  let idList := ",".intercalate (PRICE_TOKENS.map config.coingecko.ids)
  let res ← oracleCall (.fetchCoinGecko
    s!"{config.coingecko.url}?ids={idList}&vs_currencies=usd&include_last_updated_at=true"
    (authorization "x-cg-demo-api-key" "" config.coingecko.apiKey))
  let body ← Async.ofExcept (readBody "CoinGecko" res)
  forTokens (coingeckoPrice config body)

/-- The sources are asked at the same time; as neither reads what the other does, here one after the other. -/
def getPrices : Oracle (PriceToken → PricePoint) := do
  let pyth ← tryCatch (tryPyth fl numerals config) fun _ => return fun _ => none
  let coingecko ← tryCatch (tryCoinGecko config) fun _ => return fun _ => none
  forTokens fun token => reconcile fl numerals config token (pyth token) (coingecko token)

/-- The dollars of a price set. -/
def usdOf (prices : PriceToken → PricePoint) : PriceSet := fun token =>
  match (prices token).usd with
  | .finite usd => usd
  | _ => 0

/-! ## What is told of a price -/

/-- What Pyth answered to the oracle, once it has. -/
def pythAnswer (h : OracleTold) : Option (Except String (Fetched PythBody)) :=
  h.findSome? fun
    | ⟨.fetchPyth .., a⟩ => some a
    | _ => none

def coingeckoAnswer (h : OracleTold) : Option (Except String (Fetched CoinGeckoBody)) :=
  h.findSome? fun
    | ⟨.fetchCoinGecko .., a⟩ => some a
    | _ => none

/-- The clock was read as `now`. -/
def Reads (h : OracleTold) (now : Int) : Prop := ⟨.now, .ok now⟩ ∈ h

/-- No reading of the clock failed. -/
def Clocked (h : OracleTold) : Prop := ∀ e, ⟨.now, .error e⟩ ∉ h

/-- What a body of CoinGecko says of a token. -/
def CoinGeckoSays (h : OracleTold) (body : CoinGeckoBody) (t : PriceToken) (p : PricePoint) : Prop :=
  ∃ entry usd, body (config.coingecko.ids t) = some entry ∧ entry.usd = some usd ∧
    ∃ seconds, (entry.lastUpdatedAt = some seconds ∨
      entry.lastUpdatedAt = none ∧ ∃ now, Reads h now ∧ seconds = now / 1000) ∧
    p = ⟨t, usd, seconds * 1000, .coingecko⟩

/-- A source reported the price. -/
def Reports (h : OracleTold) (t : PriceToken) (p : PricePoint) : PriceSource → Prop
  | .pyth => ∃ res body, pythAnswer h = some (.ok res) ∧ readBody "Pyth Hermes" res = .ok body ∧
      pythPrice fl numerals config body t = some p
  | .coingecko => ∃ res body, coingeckoAnswer h = some (.ok res) ∧ readBody "CoinGecko" res = .ok body ∧
      CoinGeckoSays config h body t p

/-- The price was within the staleness bound when it was looked at. -/
def Fresh (h : OracleTold) (p : PricePoint) : Prop :=
  ∃ now, Reads h now ∧ now - p.publishTimeMs ≤ config.maxStalenessMs

/-- The price was past the staleness bound when it was looked at. -/
def Stale (h : OracleTold) (p : PricePoint) : Prop :=
  ∃ now, Reads h now ∧ config.maxStalenessMs < now - p.publishTimeMs

/-- What is known of the price that was taken of two. -/
structure Taken (h : OracleTold) (primary fallback : Option PricePoint) (p : PricePoint) : Prop where
  sane : assertSane numerals config p = .ok ()
  fresh : Fresh config h p
  from_source : (primary = some p ∧ ∀ f, fallback = some f →
      Stale config h f ∨ (deviation fl p.usd f.usd).exceeds config.maxDeviationRatio = false) ∨
    (fallback = some p ∧ ∀ q, primary = some q → Stale config h q)

variable {fl numerals config} {h : OracleTold} {t : PriceToken} {p : PricePoint}

/-! ### What is told is not forgotten -/

theorem Reads.append {now : Int} (hread : Reads h now) (h' : OracleTold) : Reads (h ++ h') now :=
  List.mem_append_left _ hread

theorem Fresh.append (hfresh : Fresh config h p) (h' : OracleTold) : Fresh config (h ++ h') p := by
  obtain ⟨now, hread, hle⟩ := hfresh
  exact ⟨now, hread.append h', hle⟩

theorem Stale.append (hstale : Stale config h p) (h' : OracleTold) : Stale config (h ++ h') p := by
  obtain ⟨now, hread, hlt⟩ := hstale
  exact ⟨now, hread.append h', hlt⟩

theorem Taken.append {primary fallback : Option PricePoint} (htaken : Taken fl numerals config h primary fallback p)
    (h' : OracleTold) : Taken fl numerals config (h ++ h') primary fallback p where
  sane := htaken.sane
  fresh := htaken.fresh.append h'
  from_source := htaken.from_source.imp
    (And.imp_right fun hagree f hf => (hagree f hf).imp_left (·.append h'))
    (And.imp_right fun hstale q hq => (hstale q hq).append h')

theorem pythAnswer_append {a : Except String (Fetched PythBody)} (ha : pythAnswer h = some a) (h' : OracleTold) :
    pythAnswer (h ++ h') = some a := by
  unfold pythAnswer at ha ⊢
  rw [List.findSome?_append, ha]
  rfl

theorem coingeckoAnswer_append {a : Except String (Fetched CoinGeckoBody)} (ha : coingeckoAnswer h = some a)
    (h' : OracleTold) : coingeckoAnswer (h ++ h') = some a := by
  unfold coingeckoAnswer at ha ⊢
  rw [List.findSome?_append, ha]
  rfl

theorem CoinGeckoSays.append {body : CoinGeckoBody} (hsaid : CoinGeckoSays config h body t p) (h' : OracleTold) :
    CoinGeckoSays config (h ++ h') body t p := by
  obtain ⟨entry, usd, hentry, husd, seconds, htime, hp⟩ := hsaid
  refine ⟨entry, usd, hentry, husd, seconds, htime.imp_right ?_, hp⟩
  rintro ⟨hnone, now, hread, hseconds⟩
  exact ⟨hnone, now, hread.append h', hseconds⟩

/-! ### One price -/

/-- What the body of the loop establishes for its token, and no call undoes, the loop establishes for every token. -/
theorem wp_forTokens {β : Type} (body : PriceToken → Oracle β) {K : OracleTold → PriceToken → β → Prop}
    {E : OracleTold → Prop} (hK : ∀ h x t b, K h t b → K (h ++ [x]) t b)
    (hbody : ∀ t h, wp (fun _ _ => True) (fun h' r => (∀ e, r = .error e → E h') ∧ ∀ b, r = .ok b → K h' t b) h
      (body t)) :
    wp (fun _ _ => True) (fun h' r => (∀ e, r = .error e → E h') ∧ ∀ bs, r = .ok bs → ∀ t, K h' t (bs t)) h
      (forTokens body) := by
  -- what has been established so far stays while the body runs for the next token
  have hnext {γ : Type} {I : OracleTold → Prop} (hI : ∀ h x, I h → I (h ++ [x])) (t : PriceToken)
      {f : β → Oracle γ} {R : OracleTold → Except String γ → Prop} (herror : ∀ h e, E h → R h (.error e))
      (hf : ∀ h b, I h → K h t b → wp (fun _ _ => True) R h (f b)) {h : OracleTold} (h₀ : I h) :
      wp (fun _ _ => True) R h (body t >>= f) := by
    rw [wp_bind]
    refine wp_mono (wp_stays hI (hbody t h) h₀) (fun _ _ => id) fun h' r hr => ?_
    cases r with
    | error e => exact herror h' e (hr.1.1 e rfl)
    | ok b => exact hf h' b hr.2 (hr.1.2 b rfl)
  unfold forTokens
  refine hnext (I := fun _ => True) (fun _ _ _ => trivial) .WAL (fun h e he => ⟨fun _ _ => he, nofun⟩)
    (fun h wal _ hwal => ?_) trivial
  refine hnext (fun h x => hK h x .WAL wal) .SUI (fun h e he => ⟨fun _ _ => he, nofun⟩) (fun h sui hwal hsui => ?_) hwal
  refine hnext (I := fun h => K h .WAL wal ∧ K h .SUI sui) (fun h x hx => ⟨hK h x _ _ hx.1, hK h x _ _ hx.2⟩) .ETH
    (fun h e he => ⟨fun _ _ => he, nofun⟩) (fun h eth hx heth => ?_) ⟨hwal, hsui⟩
  refine hnext (I := fun h => K h .WAL wal ∧ K h .SUI sui ∧ K h .ETH eth)
    (fun h x hx => ⟨hK h x _ _ hx.1, hK h x _ _ hx.2.1, hK h x _ _ hx.2.2⟩) .SOL
    (fun h e he => ⟨fun _ _ => he, nofun⟩) (fun h sol hx hsol => ?_) ⟨hx.1, hx.2, heth⟩
  refine ⟨nofun, fun bs hbs t => ?_⟩
  cases hbs
  cases t with
  | WAL => exact hx.1
  | SUI => exact hx.2.1
  | ETH => exact hx.2.2
  | SOL => exact hsol

/-- A price that is looked at is fresh, or stale. -/
theorem freshOf_told (p : Option PricePoint) :
    wp (fun _ _ => True) (fun h' r => ∃ h₁, h' = h ++ h₁ ∧ ∀ found, r = .ok found →
      (∀ q, found = some q → p = some q ∧ Fresh config h' q) ∧ (found = none → ∀ q, p = some q → Stale config h' q)) h
      (freshOf config p) := by
  cases p with
  | none =>
    refine ⟨[], (List.append_nil h).symm, fun found hfound => ?_⟩
    cases hfound
    exact ⟨fun q hq => (nomatch hq), fun _ q hq => nomatch hq⟩
  | some q =>
    unfold freshOf isFresh
    simp only [wp_bind, wp_call]
    refine ⟨trivial, fun r => ?_⟩
    cases r with
    | error e => exact ⟨_, rfl, fun found hfound => nomatch hfound⟩
    | ok now =>
      have hread : Reads (h ++ [⟨.now, .ok now⟩]) now := List.mem_append_right _ (List.mem_singleton_self _)
      refine ⟨_, rfl, fun found hfound => ?_⟩
      by_cases hle : now - q.publishTimeMs ≤ config.maxStalenessMs
      · rw [decide_eq_true hle, if_pos rfl] at hfound
        cases hfound
        refine ⟨fun q' hq' => ?_, fun hnone => nomatch hnone⟩
        cases hq'
        exact ⟨rfl, now, hread, hle⟩
      · rw [decide_eq_false hle, if_neg Bool.false_ne_true] at hfound
        cases hfound
        refine ⟨fun q' hq' => (nomatch hq'), fun _ q' hq' => ?_⟩
        cases hq'
        exact ⟨now, hread, Int.lt_of_not_ge hle⟩

theorem choose_ok {primary fallback freshPrimary freshFallback : Option PricePoint}
    (hchosen : choose numerals config t primary fallback freshPrimary freshFallback = .ok p) :
    assertSane numerals config p = .ok () ∧
      (freshPrimary = some p ∨ freshPrimary = none ∧ freshFallback = some p) := by
  unfold choose at hchosen
  split at hchosen
  case h_1 chosen horelse =>
    cases hsane : assertSane numerals config chosen with
    | error e =>
      rw [hsane] at hchosen
      cases hchosen
    | ok _ =>
      rw [hsane] at hchosen
      cases hchosen
      cases freshPrimary with
      | none => exact ⟨hsane, Or.inr ⟨rfl, horelse⟩⟩
      | some q => exact ⟨hsane, Or.inl horelse⟩
  case h_2 => split at hchosen <;> cases hchosen

theorem assertConsensus_ok {q f : PricePoint}
    (hok : assertConsensus fl numerals config t (some q) (some f) = .ok ()) :
    (deviation fl q.usd f.usd).exceeds config.maxDeviationRatio = false := by
  unfold assertConsensus at hok
  dsimp only at hok
  split at hok
  · cases hok
  · rename_i hno
    exact Bool.eq_false_of_not_eq_true hno

theorem reconcile_taken (primary fallback : Option PricePoint) :
    wp (fun _ _ => True) (fun h' r => ∀ p, r = .ok p → Taken fl numerals config h' primary fallback p) h
      (reconcile fl numerals config t primary fallback) := by
  unfold reconcile
  rw [wp_bind]
  refine wp_mono (freshOf_told primary) (fun _ _ => id) fun h₁ r hr => ?_
  cases r with
  | error e => exact fun p hp => nomatch hp
  | ok freshPrimary =>
    obtain ⟨-, -, hprimary⟩ := hr
    obtain ⟨hfresh, hstale⟩ := hprimary freshPrimary rfl
    rw [andThen_ok, wp_bind]
    refine wp_mono (freshOf_told fallback) (fun _ _ => id) fun h₂ r hr => ?_
    cases r with
    | error e => exact fun p hp => nomatch hp
    | ok freshFallback =>
      obtain ⟨h', rfl, hfallback⟩ := hr
      obtain ⟨hfresh', hstale'⟩ := hfallback freshFallback rfl
      rw [andThen_ok, wp_bind, wp_ofExcept]
      cases hok : assertConsensus fl numerals config t freshPrimary freshFallback with
      | error e => exact fun p hp => nomatch hp
      | ok _ =>
        rw [andThen_ok, wp_ofExcept]
        intro p hp
        obtain ⟨hsane, rfl | ⟨rfl, rfl⟩⟩ := choose_ok hp
        · obtain ⟨hprimary, hfreshp⟩ := hfresh p rfl
          refine ⟨hsane, hfreshp.append h', Or.inl ⟨hprimary, fun f hf => ?_⟩⟩
          cases freshFallback with
          | none => exact Or.inl (hstale' rfl f hf)
          | some f' =>
            have hsame : f' = f := Option.some.inj ((hfresh' f' rfl).1.symm.trans hf)
            subst hsame
            exact Or.inr (assertConsensus_ok hok)
        · obtain ⟨hfallback, hfreshp⟩ := hfresh' p rfl
          exact ⟨hsane, hfreshp, Or.inr ⟨hfallback, fun q hq => (hstale rfl q hq).append h'⟩⟩

/-! ### The sources -/

theorem Clocked.of_append {h' : OracleTold} (hclock : Clocked (h ++ h')) : Clocked h :=
  fun e he => hclock e (List.mem_append_left _ he)

/-- What the answer of Pyth comes to. -/
def pythPrices (fl : Rounding) (numerals : Numerals) (config : PriceOracleConfig) :
    Except String (Fetched PythBody) → PartialPrices
  | .ok res =>
    match readBody "Pyth Hermes" res with
    | .ok body => pythPrice fl numerals config body
    | .error _ => fun _ => none
  | .error _ => fun _ => none

/-- The prices are those that Pyth answered. -/
def PythTold (fl : Rounding) (numerals : Numerals) (config : PriceOracleConfig) (h : OracleTold)
    (pyth : PartialPrices) : Prop :=
  ∃ a, pythAnswer h = some a ∧ pyth = pythPrices fl numerals config a

/-- The prices are those that CoinGecko answered. -/
def CoinGeckoTold (config : PriceOracleConfig) (h : OracleTold) (coingecko : PartialPrices) : Prop :=
  ∃ a, coingeckoAnswer h = some a ∧
    (∀ t p, coingecko t = some p → ∃ res body, a = .ok res ∧ readBody "CoinGecko" res = .ok body ∧
      CoinGeckoSays config h body t p) ∧
    ∀ res body, a = .ok res → readBody "CoinGecko" res = .ok body → ∀ t entry usd,
      body (config.coingecko.ids t) = some entry → entry.usd = some usd → ∃ p, coingecko t = some p

theorem PythTold.append {pyth : PartialPrices} (htold : PythTold fl numerals config h pyth) (h' : OracleTold) :
    PythTold fl numerals config (h ++ h') pyth := by
  obtain ⟨a, ha, hpyth⟩ := htold
  exact ⟨a, pythAnswer_append ha h', hpyth⟩

theorem CoinGeckoTold.append {coingecko : PartialPrices} (htold : CoinGeckoTold config h coingecko)
    (h' : OracleTold) : CoinGeckoTold config (h ++ h') coingecko := by
  obtain ⟨a, ha, hsaid, hall⟩ := htold
  refine ⟨a, coingeckoAnswer_append ha h', fun t p hp => ?_, hall⟩
  obtain ⟨res, body, hres, hbody, hof⟩ := hsaid t p hp
  exact ⟨res, body, hres, hbody, hof.append h'⟩

theorem tryPyth_told : wp (fun _ _ => True) (fun h r => coingeckoAnswer h = none ∧ ∃ pyth, r = .ok pyth ∧
    PythTold fl numerals config h pyth) []
    (tryCatch (tryPyth fl numerals config) fun _ => (pure fun _ => none : Oracle PartialPrices)) := by
  unfold tryPyth
  rw [wp_tryCatch, wp_bind, wp_call]
  refine ⟨trivial, fun a => ?_⟩
  cases a with
  | error e => exact ⟨rfl, _, rfl, .error e, rfl, rfl⟩
  | ok res =>
    rw [andThen_ok, wp_bind, wp_ofExcept]
    cases hbody : readBody "Pyth Hermes" res with
    | error e =>
      refine ⟨rfl, _, rfl, .ok res, rfl, ?_⟩
      simp only [pythPrices, hbody]
    | ok body =>
      refine ⟨rfl, _, rfl, .ok res, rfl, ?_⟩
      simp only [pythPrices, hbody]

theorem coingeckoPrice_told (body : CoinGeckoBody) : wp (fun _ _ => True)
    (fun h' r => (∃ h₁, h' = h ++ h₁) ∧ (∀ e, r = .error e → ¬Clocked h') ∧ ∀ found, r = .ok found →
      (∀ p, found = some p → CoinGeckoSays config h' body t p) ∧
      ∀ entry usd, body (config.coingecko.ids t) = some entry → entry.usd = some usd → ∃ p, found = some p) h
    (coingeckoPrice config body t) := by
  unfold coingeckoPrice
  split
  case h_1 usd seconds hentry =>
    refine ⟨⟨[], (List.append_nil h).symm⟩, nofun, fun found hfound => ?_⟩
    cases hfound
    refine ⟨fun p hp => ?_, fun _ _ _ _ => ⟨_, rfl⟩⟩
    cases hp
    exact ⟨_, usd, hentry, rfl, seconds, Or.inl rfl, rfl⟩
  case h_2 usd hentry =>
    rw [wp_bind, wp_call]
    refine ⟨trivial, fun r => ?_⟩
    cases r with
    | error e =>
      have hfailed : ⟨.now, .error e⟩ ∈ h ++ [(⟨.now, .error e⟩ : Σ c : OracleCall, Except String c.Answer)] :=
        List.mem_append_right _ (List.mem_singleton_self _)
      exact ⟨⟨_, rfl⟩, fun _ _ hclock => hclock e hfailed, nofun⟩
    | ok now =>
      refine ⟨⟨_, rfl⟩, nofun, fun found hfound => ?_⟩
      cases hfound
      refine ⟨fun p hp => ?_, fun _ _ _ _ => ⟨_, rfl⟩⟩
      cases hp
      have hread : Reads (h ++ [⟨.now, .ok now⟩]) now := List.mem_append_right _ (List.mem_singleton_self _)
      exact ⟨_, usd, hentry, rfl, now / 1000, Or.inr ⟨rfl, now, hread, rfl⟩, rfl⟩
  case h_3 hnot hnot' =>
    refine ⟨⟨[], (List.append_nil h).symm⟩, nofun, fun found hfound => ?_⟩
    cases hfound
    refine ⟨nofun, fun entry usd hentry husd => ?_⟩
    obtain ⟨usd', time⟩ := entry
    cases husd
    cases time with
    | none => exact absurd hentry (hnot' usd)
    | some seconds => exact absurd hentry (hnot usd seconds)

/-- What CoinGecko's answer comes to for one token. -/
structure TokenTold (config : PriceOracleConfig) (body : CoinGeckoBody) (h : OracleTold) (t : PriceToken)
    (found : Option PricePoint) : Prop where
  said : ∀ p, found = some p → CoinGeckoSays config h body t p
  found : ∀ entry usd, body (config.coingecko.ids t) = some entry → entry.usd = some usd → ∃ p, found = some p

theorem tryCoinGecko_told (hfirst : coingeckoAnswer h = none) :
    wp (fun _ _ => True) (fun h r => ∃ coingecko, r = .ok coingecko ∧ (Clocked h → CoinGeckoTold config h coingecko)) h
      (tryCatch (tryCoinGecko config) fun _ => (pure fun _ => none : Oracle PartialPrices)) := by
  unfold tryCoinGecko
  rw [wp_tryCatch, wp_bind, wp_call]
  refine ⟨trivial, fun a => ?_⟩
  have hanswer : ∀ url headers, coingeckoAnswer (h ++ [⟨.fetchCoinGecko url headers, a⟩]) = some a := by
    intro url headers
    unfold coingeckoAnswer at hfirst ⊢
    rw [List.findSome?_append, hfirst]
    rfl
  cases a with
  | error e => exact ⟨_, rfl, fun _ => ⟨.error e, hanswer _ _, nofun, nofun⟩⟩
  | ok res =>
    rw [andThen_ok, wp_bind, wp_ofExcept]
    cases hbody : readBody "CoinGecko" res with
    | error e =>
      refine ⟨_, rfl, fun _ => ⟨.ok res, hanswer _ _, nofun, fun res' body hres hread => ?_⟩⟩
      cases hres
      rw [hbody] at hread
      cases hread
    | ok body =>
      rw [andThen_ok]
      have hloop := wp_forTokens (coingeckoPrice config body) (h := h ++ [⟨.fetchCoinGecko _ _, .ok res⟩])
        (E := fun h => ¬Clocked h)
        (K := fun h t found => TokenTold config body h t found)
        (fun h x t found hk => ⟨fun p hp => (hk.said p hp).append [x], hk.found⟩)
        (fun t h => wp_mono (coingeckoPrice_told body) (fun _ _ => id) fun h' r hr =>
          ⟨hr.2.1, fun found hfound => ⟨(hr.2.2 found hfound).1, (hr.2.2 found hfound).2⟩⟩)
      refine wp_mono (wp_stays (I := fun h => coingeckoAnswer h = some (.ok res))
        (fun h x hx => coingeckoAnswer_append hx [x]) hloop (hanswer _ _)) (fun _ _ => id) fun h' r hr => ?_
      obtain ⟨⟨herror, hok⟩, hstill⟩ := hr
      cases r with
      | error e => exact ⟨_, rfl, fun hclock => absurd hclock (herror e rfl)⟩
      | ok coingecko =>
        refine ⟨_, rfl, fun _ => ⟨.ok res, hstill, fun t p hp => ?_,
          fun res' body' hres hread t entry usd hentry husd => ?_⟩⟩
        · exact ⟨res, body, rfl, hbody, (hok coingecko rfl t).said p hp⟩
        · cases hres
          rw [hbody, Except.ok.injEq] at hread
          subst hread
          exact (hok coingecko rfl t).found entry usd hentry husd

/-- Whatever the sources and the clock answer, every price that is returned was taken of the two that they report. -/
theorem getPrices_taken : wp (fun _ _ => True) (fun h r => Clocked h → ∀ prices, r = .ok prices →
    ∃ pyth coingecko, PythTold fl numerals config h pyth ∧ CoinGeckoTold config h coingecko ∧
      ∀ t, Taken fl numerals config h (pyth t) (coingecko t) (prices t)) []
    (getPrices fl numerals config) := by
  unfold getPrices
  rw [wp_bind]
  refine wp_mono tryPyth_told (fun _ _ => id) fun h r hr => ?_
  obtain ⟨hfirst, pyth, rfl, hpyth⟩ := hr
  rw [andThen_ok, wp_bind]
  refine wp_mono (wp_stays (I := fun h => PythTold fl numerals config h pyth) (fun h x hx => hx.append [x])
    (tryCoinGecko_told hfirst) hpyth) (fun _ _ => id) fun h r hr => ?_
  obtain ⟨⟨coingecko, rfl, hcoingecko⟩, hpyth⟩ := hr
  rw [andThen_ok]
  have hstays : ∀ h x, (PythTold fl numerals config h pyth ∧ (Clocked h → CoinGeckoTold config h coingecko)) →
      PythTold fl numerals config (h ++ [x]) pyth ∧
        (Clocked (h ++ [x]) → CoinGeckoTold config (h ++ [x]) coingecko) :=
    fun h x hx => ⟨hx.1.append [x], fun hclock => (hx.2 hclock.of_append).append [x]⟩
  have hloop := wp_forTokens (fun t => reconcile fl numerals config t (pyth t) (coingecko t)) (h := h)
    (E := fun _ => True)
    (K := fun h t p => Taken fl numerals config h (pyth t) (coingecko t) p)
    (fun h x t p hp => hp.append [x])
    (fun t h => wp_mono (reconcile_taken (pyth t) (coingecko t)) (fun _ _ => id) fun h' r hr =>
      ⟨fun _ _ => trivial, hr⟩)
  refine wp_mono (wp_stays hstays hloop ⟨hpyth, hcoingecko⟩) (fun _ _ => id) fun h r hr hclock prices hprices => ?_
  exact ⟨pyth, coingecko, hr.2.1, hr.2.2 hclock, hr.1.2 prices hprices⟩

end Bosphor.Relayer.PriceOracle

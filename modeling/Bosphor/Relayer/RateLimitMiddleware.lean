import Bosphor.Lib.Footprint
import Bosphor.Relayer.AppId
import Bosphor.Relayer.RateLimit

/-!
# The rate limit of the API

The budgets of a request: its client's address, a second one if it encodes, and
its application's. A request that one of them refuses is answered with 429 and
the seconds until the window of that budget resets.

All budgets are windows of one limiter, which sweeps and evicts. As long as no
more keys come than it has room for, it answers as if each had its own counter
that is never swept (`Counts`, `middleware_counts`), so that requests without a
budget in common do not notice each other (`middleware_isolated`). Once a
refused client has waited as it was told, that budget does not refuse
(`middleware_retryAfter`), also where windows are evicted.
-/

namespace Bosphor.Relayer.RateLimit

/-! ## The middleware -/

/-- What the middleware reads of a request. A header that was repeated has several values. -/
structure RateLimitRequest where
  method : Option String := none
  originalUrl : Option String := none
  url : Option String := none
  headers : String → Option (List String) := fun _ => none
  remoteAddress : Option String := none

structure RateLimitConfig where
  enabled : Bool
  windowMs : Nat
  perIp : Nat
  perApp : Nat
  bypassKeys : List String := []
  encodePerIp : Nat
  trustProxy : Bool

inductive RateLimitScope where
  | ip
  | app
  | encode
  deriving DecidableEq

def RateLimitScope.label : RateLimitScope → String
  | .ip => "ip"
  | .app => "app"
  | .encode => "encode"

/-- What the middleware does with a request: pass it on, with the headers of its tightest budget, or end it. -/
inductive Reply where
  | next (headers : Option (Nat × Nat))
  | limited (scope : RateLimitScope) (retryAfter limit : Nat) (message : String)
  deriving DecidableEq

def firstHeader (v : Option (List String)) : Option String :=
  match v.bind List.head? with
  | none => none
  | some s =>
    let t := String.ofList (Text.trim s.toList)
    if t = "" then none else some t

/-- The client that the proxies name. -/
def forwardedIp (req : RateLimitRequest) : Option String :=
  match firstHeader (req.headers "cf-connecting-ip") with
  | some cf => some cf
  | none =>
    match firstHeader (req.headers "x-forwarded-for") with
    | none => none
    | some xff =>
      let first := String.ofList (Text.trim (xff.toList.takeWhile (· ≠ ',')))
      if first = "" then none else some first

def clientIp (req : RateLimitRequest) (trustProxy : Bool) : String :=
  match if trustProxy then forwardedIp req else none with
  | some ip => ip
  | none => req.remoteAddress.getD "unknown"

/-- `path === base || path.startsWith(base + '/')`. -/
def under (base path : String) : Bool := path = base || (base.toList ++ ['/']).isPrefixOf path.toList

def isRateLimited (method : Option String) (path : String) : Bool :=
  method = some "POST" || method = some "GET" && under "/lz-fee" path

def RateLimitRequest.path (req : RateLimitRequest) : String :=
  String.ofList (((req.originalUrl.orElse fun _ => req.url).getD "").toList.takeWhile (· ≠ '?'))

/-- A budget that a request is counted in. -/
structure Check where
  scope : RateLimitScope
  key : String
  limit : Nat

variable (cfg : RateLimitConfig)

def bypasses (req : RateLimitRequest) : Bool :=
  match firstHeader (req.headers "x-bosphor-key") with
  | none => false
  | some key => (cfg.bypassKeys.filter (· ≠ "")).contains key

/-- The budget of the application, where there is one. A malformed id is left for the controller to reject. -/
def appChecks (req : RateLimitRequest) : List Check :=
  match parseAppId (req.headers "x-bosphor-app") with
  | .ok (some appId) => if 0 < cfg.perApp then [⟨.app, "app:" ++ appId, cfg.perApp⟩] else []
  | _ => []

def checks (req : RateLimitRequest) : List Check :=
  let ip := clientIp req cfg.trustProxy
  [⟨.ip, "ip:" ++ ip, cfg.perIp⟩] ++
    (if under "/blob/encode" req.path then [⟨.encode, "encode:" ++ ip, cfg.encodePerIp⟩] else []) ++ appChecks cfg req

/-- The budgets that a request is counted in, none if it passes uncounted. -/
def counted (req : RateLimitRequest) : List Check :=
  if cfg.enabled = false ∨ isRateLimited req.method req.path = false then []
  else if bypasses cfg req then []
  else checks cfg req

def limitedMessage (scope : RateLimitScope) (retryAfter : Nat) : String :=
  "rate limit exceeded (" ++ scope.label ++ "); retry after " ++ toString retryAfter ++ "s"

/-- The seconds that a refused client is asked to wait. -/
def retryAfter (result : HitResult) : Nat := max 1 ((result.resetInMs + 999) / 1000)

/-- The budgets one after the other, each with the clock of its hit. -/
def enforce {τ : Type} (hit : Nat → String → Nat → τ → HitResult × τ) :
    List (Nat × Check) → Option HitResult → τ → Reply × τ
  | [], tightest, s => (.next (tightest.map fun r => (r.limit, r.remaining)), s)
  | (now, c) :: rest, tightest, s =>
    let (result, s) := hit now c.key c.limit s
    if result.allowed then
      enforce hit rest (if tightest.all (result.remaining < ·.remaining) then some result else tightest) s
    else (.limited c.scope (retryAfter result) result.limit (limitedMessage c.scope (retryAfter result)), s)

/-- A request, and what the clock says at its hits. -/
structure Arrival where
  req : RateLimitRequest
  clock : Nat → Nat

def Arrival.hits (a : Arrival) : List (Nat × Check) :=
  (counted cfg a.req).zipIdx.map fun x => (a.clock x.2, x.1)

/-- The limiter of the middleware. -/
def RateLimitConfig.limiter : LimiterConfig := { windowMs := cfg.windowMs }

/-- What `createRateLimitMiddleware` returns, on the state of its limiter. -/
def middleware (a : Arrival) (l : FixedWindowLimiter) : Reply × FixedWindowLimiter :=
  enforce (fun now key limit l => l.hit cfg.limiter now key limit) (a.hits cfg) none l

/-! ## Counters that are never swept -/

/-- The window that a hit at that time counts in, if there was one before. -/
def Window.current (windowMs now : Nat) : Option Window → Window
  | some w => if w.resetAt ≤ now then ⟨0, now + windowMs⟩ else w
  | none => ⟨0, now + windowMs⟩

/-- The result of a hit that counts in the window. -/
def Window.result (w : Window) (limit now : Nat) : HitResult :=
  if limit ≤ w.count then ⟨false, limit, 0, w.resetAt - now⟩
  else ⟨true, limit, limit - (w.count + 1), w.resetAt - now⟩

/-- A hit of one of the counters. -/
def countHit (windowMs now : Nat) (key : String) (limit : Nat) (s : String → Option Window) :
    HitResult × (String → Option Window) :=
  let w := Window.current windowMs now (s key)
  (w.result limit now, Function.update s key (some (w.counted limit)))

/-- The middleware, on counters. -/
def counting (a : Arrival) (s : String → Option Window) : Reply × (String → Option Window) :=
  enforce (countHit cfg.windowMs) (a.hits cfg) none s

variable {lim : LimiterConfig} {limit now : Nat} {key k : String} {l : FixedWindowLimiter}
  {s s' : String → Option Window} {w : Window}

open FixedWindowLimiter

theorem hit_result : (l.hit lim now key limit).1 = ((l.tick lim now).window lim now key).2.result limit now := by
  unfold hit Window.result
  dsimp only
  split <;> rfl

theorem window_current {m : FixedWindowLimiter} :
    (m.window lim now key).2 = Window.current lim.windowMs now (m.windows.get key) := by
  unfold window Window.current
  cases m.windows.get key with
  | some w =>
    dsimp only
    split <;> rfl
  | none =>
    dsimp only
    split <;> rfl

/-- The limiter's windows that have not expired by then are those of the counters. -/
def Counts (now : Nat) (l : FixedWindowLimiter) (s : String → Option Window) : Prop :=
  ∀ k w, now < w.resetAt → (l.windows.get k = some w ↔ s k = some w)

theorem Counts.later {now' : Nat} (h : Counts now l s) (hle : now ≤ now') : Counts now' l s :=
  fun k w hlive => h k w (Nat.lt_of_le_of_lt hle hlive)

theorem Counts.tick (lim : LimiterConfig) (h : Counts now l s) : Counts now (l.tick lim now) s := by
  intro k w hlive
  rw [OrderedMap.get_some, mem_tick lim hlive, ← OrderedMap.get_some]
  exact h k w hlive

/-- Both count the same hit in the same window. -/
theorem Counts.current (h : Counts now l s) (key : String) (windowMs : Nat) :
    Window.current windowMs now (l.windows.get key) = Window.current windowMs now (s key) := by
  have hexpired : ∀ o : Option Window, (∀ w, now < w.resetAt → o ≠ some w) →
      Window.current windowMs now o = ⟨0, now + windowMs⟩ := by
    intro o ho
    cases o with
    | none => rfl
    | some w => exact if_pos (Nat.le_of_not_lt fun hlive => ho w hlive rfl)
  by_cases hlive : ∃ w, now < w.resetAt ∧ s key = some w
  · obtain ⟨w, hlive, hw⟩ := hlive
    rw [hw, (h key w hlive).mpr hw]
  · have hs : ∀ w, now < w.resetAt → s key ≠ some w := fun w hw hget => hlive ⟨w, hw, hget⟩
    rw [hexpired _ hs, hexpired _ fun w hw hget => hs w hw ((h key w hw).mp hget)]

/-- The limiter has room for the key. -/
def Room (lim : LimiterConfig) (l : FixedWindowLimiter) (key : String) : Prop :=
  key ∈ l.windows.keys ∨ l.windows.size < lim.maxKeys

/-- With room, a hit sets the window of its key and leaves the others. -/
theorem hit_windows (hroom : Room lim (l.tick lim now) key) : (l.hit lim now key limit).2.windows =
    (l.tick lim now).windows.set key
      ((Window.current lim.windowMs now ((l.tick lim now).windows.get key)).counted limit) := by
  have hcase := hit_case lim l now key limit
  generalize (l.hit lim now key limit).2.windows = m at hcase ⊢
  generalize (l.hit lim now key limit).1.allowed = allowed at hcase
  cases hcase with
  | counted h hlive => rw [h, Window.current, if_neg (Nat.not_le.mpr hlive)]
  | renewed h hexpired => rw [h, Window.current, if_pos hexpired]
  | added h =>
    obtain hkey | hsize := hroom
    · exact absurd hkey (OrderedMap.get_none.mp h)
    · rw [h, roomFor, if_neg (Nat.not_le.mpr hsize), Window.current]

theorem get_set_self {m : OrderedMap String Window} : (m.set key w).get key = some w :=
  OrderedMap.get_some.mpr (OrderedMap.mem_set.mpr (Or.inl ⟨rfl, rfl⟩))

theorem get_set_of_ne {m : OrderedMap String Window} {v : Window} (h : k ≠ key) :
    (m.set key w).get k = some v ↔ m.get k = some v := by
  rw [OrderedMap.get_some, OrderedMap.mem_set, OrderedMap.get_some]
  exact ⟨fun hmem => (hmem.resolve_left fun hk => h hk.1).2, fun hmem => Or.inr ⟨h, hmem⟩⟩

/-- With room, the limiter answers a hit as the counters do, and still counts what they count. -/
theorem Counts.hit (h : Counts now l s) (hroom : Room lim (l.tick lim now) key) (limit : Nat) :
    (l.hit lim now key limit).1 = (countHit lim.windowMs now key limit s).1 ∧
      Counts now (l.hit lim now key limit).2 (countHit lim.windowMs now key limit s).2 := by
  have hcurrent := (h.tick lim).current key lim.windowMs
  refine ⟨?_, fun k w hlive => ?_⟩
  · rw [hit_result, window_current, hcurrent]
    rfl
  · rw [hit_windows hroom, hcurrent]
    show _ ↔ Function.update s key _ k = some w
    by_cases hk : k = key
    · subst hk
      rw [get_set_self, Function.update_self]
    · rw [get_set_of_ne hk, Function.update_of_ne hk]
      exact h.tick lim k w hlive

/-- All keys of the limiter are among these. -/
def Within (keys : List String) (l : FixedWindowLimiter) : Prop := ∀ k ∈ l.windows.keys, k ∈ keys

theorem keys_tick (hk : k ∈ (l.tick lim now).windows.keys) : k ∈ l.windows.keys := by
  obtain ⟨w, hw⟩ := OrderedMap.mem_keys.mp hk
  exact OrderedMap.mem_keys.mpr ⟨w, (tick_sublist lim l now).subset hw⟩

/-- No more keys than there is room for. -/
theorem Within.room {keys : List String} (h : Within keys l) (hkey : key ∈ keys) (hroom : keys.length ≤ lim.maxKeys) :
    Room lim (l.tick lim now) key := by
  by_cases hmem : key ∈ (l.tick lim now).windows.keys
  · exact Or.inl hmem
  · have hnodup : (key :: (l.tick lim now).windows.keys).Nodup :=
      List.nodup_cons.mpr ⟨hmem, (l.tick lim now).windows.nodup⟩
    have hsub : (key :: (l.tick lim now).windows.keys) ⊆ keys := by
      intro k hk
      obtain rfl | hk := List.mem_cons.mp hk
      · exact hkey
      · exact h k (keys_tick hk)
    have hlength := (List.subperm_of_subset hnodup hsub).length_le
    rw [List.length_cons, OrderedMap.keys, List.length_map] at hlength
    exact Or.inr (Nat.lt_of_lt_of_le hlength hroom)

theorem Within.hit {keys : List String} (h : Within keys l) (hkey : key ∈ keys)
    (hroom : Room lim (l.tick lim now) key) (limit : Nat) : Within keys (l.hit lim now key limit).2 := by
  intro k hk
  rw [hit_windows hroom] at hk
  obtain rfl | hk := OrderedMap.mem_keys_set.mp hk
  · exact hkey
  · exact h k (keys_tick hk)

/-- As long as there is room, the budgets of a request are enforced as on counters. -/
theorem enforce_counts {keys : List String} (hroom : keys.length ≤ lim.maxKeys) {hits : List (Nat × Check)}
    (hclock : (hits.map Prod.fst).Pairwise (· ≤ ·)) (hkeys : ∀ x ∈ hits, x.2.key ∈ keys)
    (h : ∀ x ∈ hits, Counts x.1 l s) (hl : Within keys l) (tightest : Option HitResult) :
    (enforce (fun now key limit l => l.hit lim now key limit) hits tightest l).1 =
        (enforce (countHit lim.windowMs) hits tightest s).1 ∧
      Within keys (enforce (fun now key limit l => l.hit lim now key limit) hits tightest l).2 ∧
      ∀ later, Counts later l s → (∀ x ∈ hits, x.1 ≤ later) →
        Counts later (enforce (fun now key limit l => l.hit lim now key limit) hits tightest l).2
          (enforce (countHit lim.windowMs) hits tightest s).2 := by
  induction hits generalizing l s tightest with
  | nil => exact ⟨rfl, hl, fun later hlater _ => hlater⟩
  | cons x hits ih =>
    obtain ⟨now, c⟩ := x
    obtain ⟨hfirst, hclock⟩ := List.pairwise_cons.mp hclock
    have hkey := hkeys _ List.mem_cons_self
    have hroom' : Room lim (l.tick lim now) c.key := hl.room hkey hroom
    obtain ⟨hresult, hcounts⟩ := (h _ List.mem_cons_self).hit hroom' c.limit
    have hl' := hl.hit hkey hroom' c.limit
    simp only [enforce, hresult]
    split
    case isFalse => exact ⟨rfl, hl', fun later _ hlater => hcounts.later (hlater _ List.mem_cons_self)⟩
    case isTrue =>
      obtain ⟨hreply, hwithin, hrest⟩ := ih hclock (fun y hy => hkeys y (List.mem_cons_of_mem _ hy))
        (fun y hy => hcounts.later (hfirst y.1 (List.mem_map_of_mem hy))) hl' _
      exact ⟨hreply, hwithin, fun later _ hlater =>
        hrest later (hcounts.later (hlater _ List.mem_cons_self)) fun y hy => hlater y (List.mem_cons_of_mem _ hy)⟩

/-! ## Runs -/

open Footprint (answers)

/-- What the clock says at the hits of the requests, in their order. -/
def readings (arrivals : List Arrival) : List Nat := arrivals.flatMap fun a => (a.hits cfg).map Prod.fst

variable {cfg} {arrivals : List Arrival}

/-- As long as there is room, the middleware answers as on counters. -/
theorem middleware_counts {keys : List String} (hroom : keys.length ≤ 100000)
    (hclock : (readings cfg arrivals).Pairwise (· ≤ ·)) (hkeys : ∀ a ∈ arrivals, ∀ x ∈ a.hits cfg, x.2.key ∈ keys)
    (h : ∀ t ∈ readings cfg arrivals, Counts t l s) (hl : Within keys l) :
    answers (middleware cfg) l arrivals = answers (counting cfg) s arrivals := by
  induction arrivals generalizing l s with
  | nil => rfl
  | cons a arrivals ih =>
    rw [readings, List.flatMap_cons] at hclock h
    obtain ⟨hsorted, hrest, hbefore⟩ := List.pairwise_append.mp hclock
    have hlimit : keys.length ≤ cfg.limiter.maxKeys := hroom
    obtain ⟨hreply, hwithin, hcounts⟩ := enforce_counts hlimit hsorted (hkeys a List.mem_cons_self)
      (fun x hx => h x.1 (List.mem_append_left _ (List.mem_map_of_mem hx))) hl none
    rw [answers, answers]
    refine List.cons_eq_cons.mpr ⟨Prod.ext rfl hreply, ?_⟩
    refine ih hrest (fun b hb => hkeys b (List.mem_cons_of_mem a hb)) (fun t ht => ?_) hwithin
    exact hcounts t (h t (List.mem_append_right _ ht)) fun x hx => hbefore x.1 (List.mem_map_of_mem hx) t ht

/-! ## Requests without a budget in common -/

/-- The request is counted under the key. -/
def CountedUnder (cfg : RateLimitConfig) (a : Arrival) (key : String) : Prop := ∃ x ∈ a.hits cfg, x.2.key = key

theorem enforce_frame {hits : List (Nat × Check)} {windowMs : Nat} (hk : ∀ x ∈ hits, x.2.key ≠ k)
    (tightest : Option HitResult) : (enforce (countHit windowMs) hits tightest s).2 k = s k := by
  induction hits generalizing s tightest with
  | nil => rfl
  | cons x hits ih =>
    obtain ⟨now, c⟩ := x
    have hne : k ≠ c.key := Ne.symm (hk _ List.mem_cons_self)
    have hhit : (countHit windowMs now c.key c.limit s).2 k = s k := Function.update_of_ne hne _ _
    simp only [enforce]
    split
    case isTrue => rw [ih (fun y hy => hk y (List.mem_cons_of_mem _ hy)), hhit]
    case isFalse => exact hhit

theorem enforce_same {hits : List (Nat × Check)} {windowMs : Nat} (h : ∀ x ∈ hits, s x.2.key = s' x.2.key)
    (tightest : Option HitResult) :
    (enforce (countHit windowMs) hits tightest s).1 = (enforce (countHit windowMs) hits tightest s').1 ∧
      ∀ k, s k = s' k →
        (enforce (countHit windowMs) hits tightest s).2 k = (enforce (countHit windowMs) hits tightest s').2 k := by
  induction hits generalizing s s' tightest with
  | nil => exact ⟨rfl, fun k hk => hk⟩
  | cons x hits ih =>
    obtain ⟨now, c⟩ := x
    have hkey := h _ List.mem_cons_self
    have hresult : (countHit windowMs now c.key c.limit s).1 = (countHit windowMs now c.key c.limit s').1 := by
      unfold countHit
      rw [hkey]
    have hafter : ∀ k, s k = s' k →
        (countHit windowMs now c.key c.limit s).2 k = (countHit windowMs now c.key c.limit s').2 k := by
      intro k hk
      show Function.update s c.key _ k = Function.update s' c.key _ k
      by_cases hkc : k = c.key
      · rw [hkc, Function.update_self, Function.update_self, hkey]
      · rw [Function.update_of_ne hkc, Function.update_of_ne hkc, hk]
    simp only [enforce, hresult]
    split
    case isTrue =>
      obtain ⟨hreply, hleaves⟩ := ih (fun y hy => hafter y.2.key (h y (List.mem_cons_of_mem _ hy))) _
      exact ⟨hreply, fun k hk => hleaves k (hafter k hk)⟩
    case isFalse => exact ⟨rfl, hafter⟩

theorem counting_local : Footprint.Local (CountedUnder cfg) (counting cfg) where
  frame _ _ _ hk := enforce_frame (fun x hx hkey => hk ⟨x, hx, hkey⟩) none
  answer _ _ _ h := (enforce_same (fun x hx => h x.2.key ⟨x, hx, rfl⟩) none).1
  leaves _ _ _ h k hk := (enforce_same (fun x hx => h x.2.key ⟨x, hx, rfl⟩) none).2 k (h k hk)

/-- The application that a request is counted for. -/
def appOf (req : RateLimitRequest) : Option String :=
  match parseAppId (req.headers "x-bosphor-app") with
  | .ok appId => appId
  | .malformed _ => none

/-- What a request is counted under: the client and the application. -/
def Check.Of (cfg : RateLimitConfig) (req : RateLimitRequest) (c : Check) : Prop :=
  (c.scope = .ip ∧ c.key = "ip:" ++ clientIp req cfg.trustProxy ∧ c.limit = cfg.perIp) ∨
    (c.scope = .encode ∧ c.key = "encode:" ++ clientIp req cfg.trustProxy ∧ c.limit = cfg.encodePerIp) ∨
      ∃ appId, appOf req = some appId ∧ c.scope = .app ∧ c.key = "app:" ++ appId ∧ c.limit = cfg.perApp

theorem counted_of {req : RateLimitRequest} {c : Check} (hc : c ∈ counted cfg req) : c.Of cfg req := by
  unfold counted at hc
  split at hc
  · cases hc
  · split at hc
    · cases hc
    · unfold checks at hc
      obtain hc | hc := List.mem_append.mp hc
      · obtain hc | hc := List.mem_append.mp hc
        · rw [List.mem_singleton.mp hc]
          exact Or.inl ⟨rfl, rfl, rfl⟩
        · split at hc
          · rw [List.mem_singleton.mp hc]
            exact Or.inr (Or.inl ⟨rfl, rfl, rfl⟩)
          · cases hc
      · unfold appChecks at hc
        split at hc
        case h_1 appId happ =>
          split at hc
          · rw [List.mem_singleton.mp hc]
            exact Or.inr (Or.inr ⟨appId, by simp only [appOf, happ], rfl, rfl, rfl⟩)
          · cases hc
        case h_2 => cases hc

theorem append_inj {p a b : String} (h : p ++ a = p ++ b) : a = b := by
  have hlist := congrArg String.toList h
  rw [String.toList_append, String.toList_append] at hlist
  exact String.toList_inj.mp (List.append_cancel_left hlist)

/-- Keys of different kinds start with different letters. -/
theorem append_ne {p q : String} (hp : p.toList.head?.isSome = true) (hq : q.toList.head?.isSome = true)
    (h : p.toList.head? ≠ q.toList.head?) (a b : String) : p ++ a ≠ q ++ b := by
  intro heq
  have hlist := congrArg String.toList heq
  rw [String.toList_append, String.toList_append] at hlist
  obtain ⟨c, hc⟩ := Option.isSome_iff_exists.mp hp
  obtain ⟨d, hd⟩ := Option.isSome_iff_exists.mp hq
  have hhead := congrArg List.head? hlist
  rw [List.head?_append, List.head?_append, hc, hd] at hhead
  exact h (hc.trans (hhead.trans hd.symm))

/-- Different clients, and not the same application. -/
def Apart (cfg : RateLimitConfig) (req req' : RateLimitRequest) : Prop :=
  clientIp req cfg.trustProxy ≠ clientIp req' cfg.trustProxy ∧ ∀ appId, appOf req = some appId → appOf req' ≠ some appId

/-- Such requests are counted under different keys. -/
theorem Apart.keys_ne {req req' : RateLimitRequest} (h : Apart cfg req req') {c c' : Check} (hc : c.Of cfg req)
    (hc' : c'.Of cfg req') : c.key ≠ c'.key := by
  obtain ⟨-, hkey, -⟩ | ⟨-, hkey, -⟩ | ⟨appId, happ, -, hkey, -⟩ := hc <;>
    obtain ⟨-, hkey', -⟩ | ⟨-, hkey', -⟩ | ⟨appId', happ', -, hkey', -⟩ := hc' <;>
      rw [hkey, hkey']
  · exact fun heq => h.1 (append_inj heq)
  · exact append_ne (by decide) (by decide) (by decide) _ _
  · exact append_ne (by decide) (by decide) (by decide) _ _
  · exact append_ne (by decide) (by decide) (by decide) _ _
  · exact fun heq => h.1 (append_inj heq)
  · exact append_ne (by decide) (by decide) (by decide) _ _
  · exact append_ne (by decide) (by decide) (by decide) _ _
  · exact append_ne (by decide) (by decide) (by decide) _ _
  · exact fun heq => h.2 appId happ (append_inj heq ▸ happ')

theorem hits_counted {a : Arrival} {x : Nat × Check} (hx : x ∈ a.hits cfg) : x.2 ∈ counted cfg a.req := by
  obtain ⟨y, hy, rfl⟩ := List.mem_map.mp hx
  exact List.fst_mem_of_mem_zipIdx hy

theorem readings_filter (p : Arrival → Bool) :
    (readings cfg (arrivals.filter p)).Sublist (readings cfg arrivals) := by
  induction arrivals with
  | nil => exact .refl _
  | cons a arrivals ih =>
    cases hp : p a with
    | true =>
      rw [List.filter_cons_of_pos hp]
      exact List.Sublist.append_left ih _
    | false =>
      rw [List.filter_cons_of_neg (by simp [hp])]
      exact ih.trans (List.sublist_append_right _ _)

/-- As long as no more keys come than the limiter has room for, a client does not notice the others: its requests are
answered as if there were only those of its own address and its own applications. -/
theorem middleware_isolated (cfg : RateLimitConfig) (arrivals : List Arrival) (mine : Arrival → Bool)
    (hapart : ∀ a ∈ arrivals, ∀ b ∈ arrivals, mine a = true → mine b = false → Apart cfg a.req b.req)
    (hclock : (readings cfg arrivals).Pairwise (· ≤ ·)) (keys : List String) (hroom : keys.length ≤ 100000)
    (hkeys : ∀ a ∈ arrivals, ∀ c ∈ counted cfg a.req, c.key ∈ keys) :
    (answers (middleware cfg) {} arrivals).filter (fun x => mine x.1) =
      answers (middleware cfg) {} (arrivals.filter mine) := by
  have hempty : ∀ now, Counts now {} fun _ => none := fun now k w _ => Iff.rfl
  have hwithin : Within keys {} := fun k hk => absurd hk List.not_mem_nil
  have hkeys' : ∀ a ∈ arrivals, ∀ x ∈ a.hits cfg, x.2.key ∈ keys := fun a ha x hx => hkeys a ha x.2 (hits_counted hx)
  rw [middleware_counts hroom hclock hkeys' (fun t _ => hempty t) hwithin,
    middleware_counts hroom (hclock.sublist (readings_filter mine))
      (fun a ha => hkeys' a (List.mem_filter.mp ha).1) (fun t _ => hempty t) hwithin]
  refine counting_local.answers_filter mine (fun a ha b hb hmine hother k => ?_) fun _ _ _ _ _ => rfl
  rintro ⟨x, hx, rfl⟩ ⟨y, hy, hkey⟩
  exact (hapart a ha b hb hmine hother).keys_ne (counted_of (hits_counted hx)) (counted_of (hits_counted hy)) hkey.symm

/-- A request of each address per minute. -/
def exampleLimits : RateLimitConfig where
  enabled := true
  windowMs := 60000
  perIp := 1
  perApp := 0
  encodePerIp := 1
  trustProxy := false

def exampleArrival (address : String) (now : Nat) : Arrival where
  req := { method := some "POST", originalUrl := some "/quote", remoteAddress := some address }
  clock := fun _ => now

theorem exampleArrival_apart {address address' : String} (h : address ≠ address') (now now' : Nat) :
    Apart exampleLimits (exampleArrival address now).req (exampleArrival address' now').req :=
  ⟨h, fun _ happ => nomatch happ⟩

/-- The second request of a client is refused with or without another client. -/
theorem middleware_isolated_two :
    (answers (middleware exampleLimits) {} [exampleArrival "10.0.0.1" 0, exampleArrival "10.0.0.2" 1,
        exampleArrival "10.0.0.1" 2]).filter (fun x => x.1.req.remoteAddress = some "10.0.0.1") =
      answers (middleware exampleLimits) {} [exampleArrival "10.0.0.1" 0, exampleArrival "10.0.0.1" 2] := by
  refine middleware_isolated exampleLimits _ (fun a => a.req.remoteAddress = some "10.0.0.1") ?_ (by decide)
    ["ip:10.0.0.1", "ip:10.0.0.2"] (by decide) (by decide)
  intro a ha b hb hmine hother
  have hform : ∀ a ∈ [exampleArrival "10.0.0.1" 0, exampleArrival "10.0.0.2" 1, exampleArrival "10.0.0.1" 2],
      ∃ address now, a = exampleArrival address now := by
    intro a ha
    simp only [List.mem_cons, List.not_mem_nil, or_false] at ha
    obtain rfl | rfl | rfl := ha
    · exact ⟨_, _, rfl⟩
    · exact ⟨_, _, rfl⟩
    · exact ⟨_, _, rfl⟩
  obtain ⟨address, now, rfl⟩ := hform a ha
  obtain ⟨address', now', rfl⟩ := hform b hb
  refine exampleArrival_apart (fun heq => ?_) now now'
  subst heq
  exact absurd (hmine.symm.trans hother) (by decide)

/-! ## Waiting as told -/

/-- The key has no window that goes on longer. -/
def Due (key : String) (t : Nat) (l : FixedWindowLimiter) : Prop := ∀ w, (key, w) ∈ l.windows.entries → w.resetAt ≤ t

/-- The window that a hit counted in is there afterwards. -/
theorem mem_hit_current (lim : LimiterConfig) (l : FixedWindowLimiter) (now : Nat) (key : String) (limit : Nat) :
    (key, (Window.current lim.windowMs now ((l.tick lim now).windows.get key)).counted limit) ∈
      (l.hit lim now key limit).2.windows.entries := by
  have hcase := hit_case lim l now key limit
  generalize (l.hit lim now key limit).2.windows = m at hcase ⊢
  generalize (l.hit lim now key limit).1.allowed = allowed at hcase
  cases hcase with
  | counted h hlive =>
    rw [h, Window.current, if_neg (Nat.not_le.mpr hlive)]
    exact OrderedMap.mem_set.mpr (Or.inl ⟨rfl, rfl⟩)
  | renewed h hexpired =>
    rw [h, Window.current, if_pos hexpired]
    exact OrderedMap.mem_set.mpr (Or.inl ⟨rfl, rfl⟩)
  | added h =>
    rw [h, Window.current]
    exact OrderedMap.mem_set.mpr (Or.inl ⟨rfl, rfl⟩)

/-- The window of a refused hit has reset when the client comes back as it was told. -/
theorem due_of_hit (lim : LimiterConfig) (l : FixedWindowLimiter) (now : Nat) (key : String) (limit : Nat) :
    Due key (now + 1000 * retryAfter (l.hit lim now key limit).1) (l.hit lim now key limit).2 := by
  intro w hw
  obtain rfl := OrderedMap.value_unique hw (mem_hit_current lim l now key limit)
  have hreset : (l.hit lim now key limit).1.resetInMs =
      (Window.current lim.windowMs now ((l.tick lim now).windows.get key)).resetAt - now := by
    rw [hit_result, window_current, Window.result]
    split <;> rfl
  rw [Window.counted_resetAt, retryAfter, hreset]
  omega

/-- A hit of another key leaves it due. -/
theorem Due.hit {t : Nat} (h : Due k t l) (lim : LimiterConfig) (now limit : Nat) (hk : k ≠ key) :
    Due k t (l.hit lim now key limit).2 :=
  fun w hw => h w (mem_of_mem_hit hw hk)

/-- A hit of a key that is due is admitted, if any is. -/
theorem Due.admits {t : Nat} (h : Due key t l) (hlater : t ≤ now) (hlimit : 0 < limit) :
    (l.hit lim now key limit).1.allowed = true := by
  obtain ⟨w, -, hallowed, ⟨hmem, hlive⟩ | ⟨rfl, -⟩⟩ := mem_hit_self lim l now key limit
  · have hreset := h w hmem
    omega
  · exact hallowed.trans (decide_eq_true hlimit)

/-- The hits of a request, on the limiter. -/
abbrev enforced (lim : LimiterConfig) (hits : List (Nat × Check)) (tightest : Option HitResult)
    (l : FixedWindowLimiter) : Reply × FixedWindowLimiter :=
  enforce (fun now key limit l => l.hit lim now key limit) hits tightest l

theorem Due.enforced {t : Nat} {hits : List (Nat × Check)} (h : Due k t l) (hk : ∀ x ∈ hits, k ≠ x.2.key)
    (tightest : Option HitResult) : Due k t (enforced lim hits tightest l).2 := by
  induction hits generalizing l tightest with
  | nil => exact h
  | cons x hits ih =>
    obtain ⟨now, c⟩ := x
    have hhit := h.hit lim now c.limit (hk _ List.mem_cons_self)
    simp only [RateLimit.enforced, enforce]
    split
    case isTrue => exact ih hhit (fun y hy => hk y (List.mem_cons_of_mem _ hy)) _
    case isFalse => exact hhit

/-- The budget that refuses a request, and the window that it leaves. -/
theorem enforced_limited {hits : List (Nat × Check)} {tightest : Option HitResult} {scope : RateLimitScope}
    {seconds limit : Nat} {message : String}
    (h : (enforced lim hits tightest l).1 = .limited scope seconds limit message) :
    ∃ x ∈ hits, x.2.scope = scope ∧ x.2.limit = limit ∧
      Due x.2.key (x.1 + 1000 * seconds) (enforced lim hits tightest l).2 := by
  induction hits generalizing l tightest with
  | nil => cases h
  | cons x hits ih =>
    obtain ⟨now, c⟩ := x
    simp only [enforced, enforce] at h ⊢
    split at h
    case isTrue hallowed =>
      obtain ⟨x, hx, hscope, hlimit, hdue⟩ := ih h
      rw [if_pos hallowed]
      exact ⟨x, List.mem_cons_of_mem _ hx, hscope, hlimit, hdue⟩
    case isFalse hrefused =>
      rw [if_neg hrefused]
      cases h
      refine ⟨(now, c), List.mem_cons_self, rfl, ?_, due_of_hit lim l now c.key c.limit⟩
      rw [hit_result, Window.result]
      split <;> rfl

/-- A key that is due, and has a limit, is not the one that refuses. -/
theorem Due.not_limited {t : Nat} {hits : List (Nat × Check)} {tightest : Option HitResult} {scope : RateLimitScope}
    {seconds limit : Nat} {message : String} (h : Due k t l) (hnodup : (hits.map fun x => x.2.key).Nodup)
    (hlater : ∀ x ∈ hits, t ≤ x.1) (hlimit : ∀ x ∈ hits, x.2.key = k → 0 < x.2.limit)
    (hrefused : (RateLimit.enforced lim hits tightest l).1 = .limited scope seconds limit message) :
    ∃ x ∈ hits, x.2.scope = scope ∧ x.2.key ≠ k := by
  induction hits generalizing l tightest with
  | nil => cases hrefused
  | cons x hits ih =>
    obtain ⟨now, c⟩ := x
    obtain ⟨hnew, hnodup⟩ := List.nodup_cons.mp hnodup
    simp only [RateLimit.enforced, enforce] at hrefused
    by_cases hk : c.key = k
    · subst hk
      rw [if_pos (h.admits (hlater _ List.mem_cons_self) (hlimit _ List.mem_cons_self rfl))] at hrefused
      obtain ⟨x, hx, hscope, -⟩ := enforced_limited hrefused
      exact ⟨x, List.mem_cons_of_mem _ hx, hscope, fun hkey => hnew (List.mem_map.mpr ⟨x, hx, hkey⟩)⟩
    · split at hrefused
      case isTrue =>
        obtain ⟨x, hx, hscope, hkey⟩ := ih (h.hit _ _ _ (Ne.symm hk)) hnodup
          (fun y hy => hlater y (List.mem_cons_of_mem _ hy)) (fun y hy => hlimit y (List.mem_cons_of_mem _ hy)) hrefused
        exact ⟨x, List.mem_cons_of_mem _ hx, hscope, hkey⟩
      case isFalse =>
        cases hrefused
        exact ⟨(now, c), List.mem_cons_self, rfl, hk⟩

/-- A key is that of one kind of budget, and so has one limit. -/
theorem Check.Of.limit_eq {req req' : RateLimitRequest} {c c' : Check} (h : c.Of cfg req) (h' : c'.Of cfg req')
    (hkey : c'.key = c.key) : c'.limit = c.limit := by
  obtain ⟨-, hk, hlimit⟩ | ⟨-, hk, hlimit⟩ | ⟨_, -, -, hk, hlimit⟩ := h <;>
    obtain ⟨-, hk', hlimit'⟩ | ⟨-, hk', hlimit'⟩ | ⟨_, -, -, hk', hlimit'⟩ := h' <;>
      rw [hk, hk'] at hkey
  · exact hlimit'.trans hlimit.symm
  · exact absurd hkey (append_ne (by decide) (by decide) (by decide) _ _)
  · exact absurd hkey (append_ne (by decide) (by decide) (by decide) _ _)
  · exact absurd hkey (append_ne (by decide) (by decide) (by decide) _ _)
  · exact hlimit'.trans hlimit.symm
  · exact absurd hkey (append_ne (by decide) (by decide) (by decide) _ _)
  · exact absurd hkey (append_ne (by decide) (by decide) (by decide) _ _)
  · exact absurd hkey (append_ne (by decide) (by decide) (by decide) _ _)
  · exact hlimit'.trans hlimit.symm

theorem counted_nodup (req : RateLimitRequest) : ((counted cfg req).map Check.key).Nodup := by
  unfold counted checks appChecks
  have hencode : ∀ ip appId : String, "encode:" ++ ip ≠ "app:" ++ appId :=
    append_ne (by decide) (by decide) (by decide)
  have happ : ∀ ip appId : String, "ip:" ++ ip ≠ "app:" ++ appId := append_ne (by decide) (by decide) (by decide)
  have hip : ∀ ip ip' : String, "ip:" ++ ip ≠ "encode:" ++ ip' := append_ne (by decide) (by decide) (by decide)
  split
  · exact List.nodup_nil
  · split
    · exact List.nodup_nil
    · split <;> split <;> try split
      all_goals simp [hencode, happ, hip]

theorem hits_keys (a : Arrival) : ((a.hits cfg).map fun x => x.2.key) = (counted cfg a.req).map Check.key := by
  unfold Arrival.hits
  rw [List.map_map]
  show (counted cfg a.req).zipIdx.map (Check.key ∘ Prod.fst) = _
  rw [← List.map_map, List.zipIdx_map_fst]

/-- The limiter after more requests. -/
def afterAll (cfg : RateLimitConfig) (l : FixedWindowLimiter) (others : List Arrival) : FixedWindowLimiter :=
  others.foldl (fun l o => (middleware cfg o l).2) l

/-- Who is refused may rely on what it was told: once that time is over, no request that the same budget counts is
refused by it, if the budget has a limit and nothing was counted in it meanwhile, whoever else came. -/
theorem middleware_retryAfter (cfg : RateLimitConfig) (l : FixedWindowLimiter) (a : Arrival) (scope : RateLimitScope)
    (seconds limit : Nat) (message : String)
    (hrefused : (middleware cfg a l).1 = .limited scope seconds limit message) (hlimit : 0 < limit)
    (others : List Arrival)
    (hothers : ∀ o ∈ others, ∀ c ∈ counted cfg a.req, c.scope = scope → ∀ c' ∈ counted cfg o.req, c.key ≠ c'.key)
    (b : Arrival)
    (hsame : ∀ c ∈ counted cfg a.req, ∀ c' ∈ counted cfg b.req, c.scope = scope → c'.scope = scope → c'.key = c.key)
    (hwait : ∀ i j, a.clock i + 1000 * seconds ≤ b.clock j) (seconds' limit' : Nat) (message' : String) :
    (middleware cfg b (afterAll cfg (middleware cfg a l).2 others)).1 ≠ .limited scope seconds' limit' message' := by
  intro hagain
  obtain ⟨x, hx, hscope, hlim, hdue⟩ := enforced_limited hrefused
  have hcounted := hits_counted hx
  -- nobody else touches the window, which resets in time
  have hafter : Due x.2.key (x.1 + 1000 * seconds) (afterAll cfg (middleware cfg a l).2 others) := by
    unfold afterAll
    change Due _ _ (middleware cfg a l).2 at hdue
    generalize (middleware cfg a l).2 = m at hdue
    clear hagain
    induction others generalizing m with
    | nil => exact hdue
    | cons o others ih =>
      have hne : ∀ y ∈ o.hits cfg, x.2.key ≠ y.2.key := fun y hy =>
        hothers o List.mem_cons_self x.2 hcounted hscope y.2 (hits_counted hy)
      exact ih (fun o' ho' => hothers o' (List.mem_cons_of_mem o ho')) _ (hdue.enforced hne none)
  have hnodup : ((b.hits cfg).map fun x => x.2.key).Nodup := by
    rw [hits_keys]
    exact counted_nodup b.req
  have hlater : ∀ y ∈ b.hits cfg, x.1 + 1000 * seconds ≤ y.1 := by
    intro y hy
    obtain ⟨i, -, rfl⟩ := List.mem_map.mp hx
    obtain ⟨j, -, rfl⟩ := List.mem_map.mp hy
    exact hwait i.2 j.2
  obtain ⟨y, hy, hscope', hkey⟩ := hafter.not_limited hnodup hlater (fun y hy hkey => by
    rwa [(counted_of hcounted).limit_eq (counted_of (hits_counted hy)) hkey, hlim]) hagain
  exact hkey (hsame x.2 hcounted y.2 (hits_counted hy) hscope hscope')

/-- The same client, with something to encode. -/
def exampleEncode (address : String) (now : Nat) : Arrival where
  req := { method := some "POST", originalUrl := some "/blob/encode", remoteAddress := some address }
  clock := fun _ => now

/-- A second request within the minute is refused; another client comes; after the minute the next one is not. -/
theorem middleware_retryAfter_minute :
    (middleware exampleLimits (exampleEncode "10.0.0.1" 60001) (afterAll exampleLimits
      (middleware exampleLimits (exampleArrival "10.0.0.1" 1)
        (middleware exampleLimits (exampleArrival "10.0.0.1" 0) {}).2).2 [exampleArrival "10.0.0.2" 2])).1 ≠
      .limited .ip 60 1 (limitedMessage .ip 60) := by
  have hrefused : (middleware exampleLimits (exampleArrival "10.0.0.1" 1)
      (middleware exampleLimits (exampleArrival "10.0.0.1" 0) {}).2).1 =
        .limited .ip 60 1 (limitedMessage .ip 60) := by decide +kernel
  refine middleware_retryAfter exampleLimits _ (exampleArrival "10.0.0.1" 1) .ip 60 1 _ hrefused (by decide)
    [exampleArrival "10.0.0.2" 2] ?_ (exampleEncode "10.0.0.1" 60001) (by decide +kernel) (fun _ _ => ?_) 60 1 _
  · intro o ho c hc _ c' hc'
    rw [List.mem_singleton.mp ho] at hc'
    exact (exampleArrival_apart (by decide) 1 2).keys_ne (counted_of hc) (counted_of hc')
  · show 1 + 1000 * 60 ≤ 60001
    decide

end Bosphor.Relayer.RateLimit

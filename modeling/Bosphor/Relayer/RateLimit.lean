import Bosphor.Lib.OrderedMap
import Mathlib.Algebra.Order.BigOperators.Group.List

/-!
# The rate limiter

A window of fixed length for each key, in a map in the order in which the keys
came, from which the first are evicted when it is full. A hit counts in a
window, renews one that has expired, or adds one (`hit_case`). No window admits
more than its limit, whatever else happens (`admitted_le`).

The first keys are those whose windows started first as long as the map is in
the order of the windows. A window that is renewed stays where it was: a run
evicts by age if no hit renews a window ahead of an older one (`limiter_sound`),
and otherwise may evict a younger one (`limiter_evicts_younger`).
-/

namespace Bosphor.Relayer.RateLimit

structure Window where
  count : Nat
  resetAt : Nat
  deriving DecidableEq

/-- What a limiter is constructed with. -/
structure LimiterConfig where
  windowMs : Nat
  sweepEvery : Nat := 1000
  maxKeys : Nat := 100000

structure FixedWindowLimiter where
  windows : OrderedMap String Window := .empty
  hitsSinceSweep : Nat := 0

structure HitResult where
  allowed : Bool
  limit : Nat
  remaining : Nat
  /-- Milliseconds until the current window resets. -/
  resetInMs : Nat
  deriving DecidableEq

namespace FixedWindowLimiter

def sweep (l : FixedWindowLimiter) (now : Nat) : FixedWindowLimiter where
  windows := l.windows.filter (now < ·.2.resetAt)
  hitsSinceSweep := 0

/-- The loop that deletes the first key as long as the map is full. -/
def evictOldest (maxKeys : Nat) : List (String × Window) → List (String × Window)
  -- `oldest === undefined`
  | [] => []
  | e :: rest => if maxKeys ≤ (e :: rest).length then evictOldest maxKeys rest else e :: rest

theorem evictOldest_eq (maxKeys : Nat) (entries : List (String × Window)) :
    evictOldest maxKeys entries = entries.drop (entries.length + 1 - maxKeys) := by
  induction entries with
  | nil => rw [evictOldest, List.drop_nil]
  | cons e rest ih =>
    rw [evictOldest, List.length_cons]
    split
    case isTrue h => rw [ih, show rest.length + 1 + 1 - maxKeys = rest.length + 1 - maxKeys + 1 by omega,
      List.drop_succ_cons]
    case isFalse h => rw [show rest.length + 1 + 1 - maxKeys = 0 by omega, List.drop_zero]

def evict (l : FixedWindowLimiter) (maxKeys : Nat) : FixedWindowLimiter where
  windows := ⟨evictOldest maxKeys l.windows.entries, by
    rw [evictOldest_eq]
    exact l.windows.nodup.sublist ((List.drop_sublist ..).map Prod.fst)⟩
  hitsSinceSweep := l.hitsSinceSweep

variable (cfg : LimiterConfig)

/-- A hit is counted, and the windows are swept every so many of them. -/
def tick (l : FixedWindowLimiter) (now : Nat) : FixedWindowLimiter :=
  if cfg.sweepEvery ≤ l.hitsSinceSweep + 1 then l.sweep now else { l with hitsSinceSweep := l.hitsSinceSweep + 1 }

/-- A new window of the key. -/
def start (l : FixedWindowLimiter) (now : Nat) (key : String) : FixedWindowLimiter × Window :=
  ({ l with windows := l.windows.set key ⟨0, now + cfg.windowMs⟩ }, ⟨0, now + cfg.windowMs⟩)

/-- The window that a hit counts in. -/
def window (l : FixedWindowLimiter) (now : Nat) (key : String) : FixedWindowLimiter × Window :=
  match l.windows.get key with
  | some w => if w.resetAt ≤ now then l.start cfg now key else (l, w)
  | none =>
    if cfg.maxKeys ≤ l.windows.size then ((l.sweep now).evict cfg.maxKeys).start cfg now key else l.start cfg now key

def hit (l : FixedWindowLimiter) (now : Nat) (key : String) (limit : Nat) : HitResult × FixedWindowLimiter :=
  let (l, w) := (l.tick cfg now).window cfg now key
  let resetInMs := w.resetAt - now
  if limit ≤ w.count then (⟨false, limit, 0, resetInMs⟩, l)
  else
    (⟨true, limit, limit - (w.count + 1), resetInMs⟩,
      { l with windows := l.windows.set key { w with count := w.count + 1 } })

end FixedWindowLimiter

open FixedWindowLimiter

variable {cfg : LimiterConfig} {limit : Nat} {l : FixedWindowLimiter} {now now' : Nat}
  {key k k' : String} {w w' : Window}

/-! ## A hit -/

/-- A window after a hit, which it admits if it has admitted fewer than the limit. -/
def Window.counted (w : Window) (limit : Nat) : Window := if limit ≤ w.count then w else { w with count := w.count + 1 }

@[simp] theorem Window.counted_resetAt : (w.counted limit).resetAt = w.resetAt := by
  unfold counted
  split <;> rfl

theorem Window.counted_count : (w.counted limit).count = w.count + (decide (w.count < limit)).toNat := by
  unfold counted
  split
  case isTrue h => rw [decide_eq_false (by omega)]; rfl
  case isFalse h => rw [decide_eq_true (by omega)]; rfl

/-- The map that a key is added to. -/
def roomFor (cfg : LimiterConfig) (l : FixedWindowLimiter) (now : Nat) : OrderedMap String Window :=
  if cfg.maxKeys ≤ l.windows.size then ((l.sweep now).evict cfg.maxKeys).windows else l.windows

/-- What a hit does to the windows that the sweep has left. -/
inductive HitCase (cfg : LimiterConfig) (l : FixedWindowLimiter) (now : Nat) (key : String) (limit : Nat) :
    Bool → OrderedMap String Window → Prop
  | counted {w : Window} (h : l.windows.get key = some w) (hlive : now < w.resetAt) :
    HitCase cfg l now key limit (w.count < limit) (l.windows.set key (w.counted limit))
  | renewed {w : Window} (h : l.windows.get key = some w) (hexpired : w.resetAt ≤ now) :
    HitCase cfg l now key limit (0 < limit) (l.windows.set key (Window.counted ⟨0, now + cfg.windowMs⟩ limit))
  | added (h : l.windows.get key = none) :
    HitCase cfg l now key limit (0 < limit) ((roomFor cfg l now).set key (Window.counted ⟨0, now + cfg.windowMs⟩ limit))

theorem hit_case (cfg : LimiterConfig) (l : FixedWindowLimiter) (now : Nat) (key : String) (limit : Nat) :
    HitCase cfg (l.tick cfg now) now key limit (l.hit cfg now key limit).1.allowed
      (l.hit cfg now key limit).2.windows := by
  generalize htick : l.tick cfg now = m
  have hhit : ∀ found : FixedWindowLimiter × Window, m.window cfg now key = found →
      found.1.windows.get key = some found.2 →
      (l.hit cfg now key limit).1.allowed = decide (found.2.count < limit) ∧
      (l.hit cfg now key limit).2.windows = found.1.windows.set key (found.2.counted limit) := by
    intro found hfound hget
    unfold hit Window.counted
    rw [htick, hfound]
    by_cases h : limit ≤ found.2.count
    · simp only [if_pos h, OrderedMap.set_get hget, decide_eq_false (show ¬found.2.count < limit by omega), and_self]
    · simp only [if_neg h, decide_eq_true (show found.2.count < limit by omega), and_self]
  have hstart : ∀ base : FixedWindowLimiter, m.window cfg now key = base.start cfg now key →
      (l.hit cfg now key limit).1.allowed = decide (0 < limit) ∧
      (l.hit cfg now key limit).2.windows = base.windows.set key (Window.counted ⟨0, now + cfg.windowMs⟩ limit) := by
    intro base hbase
    obtain ⟨hallowed, hwindows⟩ := hhit _ hbase (OrderedMap.get_some.mpr (OrderedMap.mem_set.mpr (Or.inl ⟨rfl, rfl⟩)))
    exact ⟨hallowed, hwindows.trans OrderedMap.set_set⟩
  cases hget : m.windows.get key with
  | some w =>
    by_cases hexpired : w.resetAt ≤ now
    · obtain ⟨hallowed, hwindows⟩ := hstart m (by simp only [window, hget, if_pos hexpired])
      rw [hallowed, hwindows]
      exact .renewed hget hexpired
    · obtain ⟨hallowed, hwindows⟩ := hhit (m, w) (by simp only [window, hget, if_neg hexpired]) hget
      rw [hallowed, hwindows]
      exact .counted hget (Nat.lt_of_not_le hexpired)
  | none =>
    by_cases hfull : cfg.maxKeys ≤ m.windows.size
    · obtain ⟨hallowed, hwindows⟩ :=
        hstart ((m.sweep now).evict cfg.maxKeys) (by simp only [window, hget, if_pos hfull])
      have hcase : HitCase cfg m now key limit _ _ := .added hget
      rw [roomFor, if_pos hfull] at hcase
      rwa [hallowed, hwindows]
    · obtain ⟨hallowed, hwindows⟩ := hstart m (by simp only [window, hget, if_neg hfull])
      have hcase : HitCase cfg m now key limit _ _ := .added hget
      rw [roomFor, if_neg hfull] at hcase
      rwa [hallowed, hwindows]

theorem tick_sublist (cfg : LimiterConfig) (l : FixedWindowLimiter) (now : Nat) :
    (l.tick cfg now).windows.entries.Sublist l.windows.entries := by
  unfold tick
  split
  · exact List.filter_sublist
  · exact .refl _

/-- The sweep takes no window that has not expired. -/
theorem mem_tick (cfg : LimiterConfig) (hlive : now < w.resetAt) : (k, w) ∈ (l.tick cfg now).windows.entries ↔
    (k, w) ∈ l.windows.entries := by
  refine ⟨fun h => (tick_sublist cfg l now).subset h, fun h => ?_⟩
  unfold tick
  split
  · exact List.mem_filter.mpr ⟨h, decide_eq_true hlive⟩
  · exact h

theorem roomFor_sublist (cfg : LimiterConfig) (l : FixedWindowLimiter) (now : Nat) :
    (roomFor cfg l now).entries.Sublist l.windows.entries := by
  unfold roomFor
  split
  · show (evictOldest cfg.maxKeys (l.windows.entries.filter _)).Sublist _
    rw [evictOldest_eq]
    exact (List.drop_sublist ..).trans List.filter_sublist
  · exact .refl _

/-- A hit of another key leaves a window as it is, if it leaves it. -/
theorem mem_of_mem_hit (h : (k, w) ∈ (l.hit cfg now key limit).2.windows.entries) (hk : k ≠ key) :
    (k, w) ∈ l.windows.entries := by
  have hcase := hit_case cfg l now key limit
  generalize (l.hit cfg now key limit).2.windows = m at h hcase
  generalize (l.hit cfg now key limit).1.allowed = allowed at hcase
  have htick := (tick_sublist cfg l now).subset
  cases hcase with
  | counted => exact htick ((OrderedMap.mem_set.mp h).resolve_left fun h => hk h.1).2
  | renewed => exact htick ((OrderedMap.mem_set.mp h).resolve_left fun h => hk h.1).2
  | added =>
    exact htick ((roomFor_sublist ..).subset ((OrderedMap.mem_set.mp h).resolve_left fun h => hk h.1).2)

/-- The window of the key itself: it is the one that was there unless that has expired, and the hit is counted in it. -/
theorem mem_hit_self (cfg : LimiterConfig) (l : FixedWindowLimiter) (now : Nat) (key : String)
    (limit : Nat) : ∃ w : Window,
    (key, w.counted limit) ∈ (l.hit cfg now key limit).2.windows.entries ∧
    (l.hit cfg now key limit).1.allowed = decide (w.count < limit) ∧
    (((key, w) ∈ l.windows.entries ∧ now < w.resetAt) ∨
      (w = ⟨0, now + cfg.windowMs⟩ ∧ ∀ w', (key, w') ∈ l.windows.entries → w'.resetAt ≤ now)) := by
  have hcase := hit_case cfg l now key limit
  generalize (l.hit cfg now key limit).2.windows = m at hcase ⊢
  generalize (l.hit cfg now key limit).1.allowed = allowed at hcase ⊢
  cases hcase with
  | counted h hlive =>
    have hmem := OrderedMap.get_some.mp h
    exact ⟨_, OrderedMap.mem_set.mpr (Or.inl ⟨rfl, rfl⟩), rfl, Or.inl ⟨(mem_tick cfg hlive).mp hmem, hlive⟩⟩
  | renewed h hexpired =>
    refine ⟨_, OrderedMap.mem_set.mpr (Or.inl ⟨rfl, rfl⟩), rfl, Or.inr ⟨rfl, fun w' hw' => ?_⟩⟩
    by_contra hlive
    have hmem := (mem_tick cfg (Nat.lt_of_not_le hlive)).mpr hw'
    rw [OrderedMap.value_unique hmem (OrderedMap.get_some.mp h)] at hlive
    exact hlive hexpired
  | added h =>
    refine ⟨_, OrderedMap.mem_set.mpr (Or.inl ⟨rfl, rfl⟩), rfl, Or.inr ⟨rfl, fun w' hw' => ?_⟩⟩
    by_contra hlive
    have hmem := (mem_tick cfg (Nat.lt_of_not_le hlive)).mpr hw'
    exact OrderedMap.get_none.mp h (OrderedMap.mem_keys.mpr ⟨w', hmem⟩)

/-! ## Runs -/

structure Hit where
  now : Nat
  key : String

variable (cfg) (limits : String → Nat)

def after (l : FixedWindowLimiter) (h : Hit) : FixedWindowLimiter := (l.hit cfg h.now h.key (limits h.key)).2

def run (hits : List Hit) : FixedWindowLimiter := hits.foldl (after cfg limits) {}

/-- How many hits of the key are admitted. -/
def admitted (k : String) : FixedWindowLimiter → List Hit → Nat
  | _, [] => 0
  | l, h :: hits =>
    (h.key = k && (l.hit cfg h.now h.key (limits h.key)).1.allowed).toNat + admitted k (after cfg limits l h) hits

/-- The hit takes the window of the key out of the map before it has expired. -/
def Evicts (l : FixedWindowLimiter) (h : Hit) (k : String) (w : Window) : Prop :=
  (k, w) ∈ l.windows.entries ∧ h.now < w.resetAt ∧ k ∉ (after cfg limits l h).windows.keys

/-- None of the hits evicts the key. -/
def Keeps (k : String) : FixedWindowLimiter → List Hit → Prop
  | _, [] => True
  | l, h :: hits => (∀ w, ¬Evicts cfg limits l h k w) ∧ Keeps k (after cfg limits l h) hits

/-- The hit starts a window of its key. -/
def Starts (l : FixedWindowLimiter) (h : Hit) : Prop := ∀ w, (h.key, w) ∈ l.windows.entries → w.resetAt ≤ h.now

variable {cfg limits} {hits : List Hit} {h : Hit}

/-! ## Admission -/

/-- The key has a window until then, which has admitted so many. -/
def Admitted (k : String) (resetAt n : Nat) (l : FixedWindowLimiter) : Prop :=
  ∃ w, (k, w) ∈ l.windows.entries ∧ w.resetAt = resetAt ∧ w.count = n

theorem Admitted.hit {resetAt n : Nat} (hold : Admitted k resetAt n l) (hn : n ≤ limits k) (hlive : h.now < resetAt)
    (hkeep : ∀ w, ¬Evicts cfg limits l h k w) :
    ∃ n', Admitted k resetAt n' (after cfg limits l h) ∧ n' ≤ limits k ∧
      n' = n + (h.key = k && (l.hit cfg h.now h.key (limits h.key)).1.allowed).toNat := by
  obtain ⟨w, hw, rfl, rfl⟩ := hold
  by_cases hk : h.key = k
  · subst hk
    obtain ⟨w', hw', hallowed, hsame | ⟨-, hexpired⟩⟩ := mem_hit_self cfg l h.now h.key (limits h.key)
    · obtain rfl := OrderedMap.value_unique hw hsame.1
      refine ⟨_, ⟨_, hw', Window.counted_resetAt, rfl⟩, ?_, ?_⟩
      · rw [Window.counted_count]
        by_cases hlt : w.count < limits h.key
        · rw [decide_eq_true hlt]
          exact hlt
        · rw [decide_eq_false hlt]
          exact hn
      · rw [Window.counted_count, hallowed, decide_eq_true rfl, Bool.true_and]
    · exact absurd hlive (Nat.not_lt.mpr (hexpired w hw))
  · have hkey : k ∈ (after cfg limits l h).windows.keys := by
      by_contra hgone
      exact hkeep w ⟨hw, hlive, hgone⟩
    obtain ⟨w', hw'⟩ := OrderedMap.mem_keys.mp hkey
    obtain rfl := OrderedMap.value_unique hw (mem_of_mem_hit hw' (Ne.symm hk))
    exact ⟨_, ⟨w, hw', rfl, rfl⟩, hn, by rw [decide_eq_false hk, Bool.false_and]; rfl⟩

theorem Admitted.run {resetAt n : Nat} (hold : Admitted k resetAt n l) (hn : n ≤ limits k)
    (hlive : ∀ h ∈ hits, h.now < resetAt) (hkeep : Keeps cfg limits k l hits) :
    n + admitted cfg limits k l hits ≤ limits k := by
  induction hits generalizing l n with
  | nil => exact hn
  | cons h hits ih =>
    obtain ⟨n', hold', hn', rfl⟩ := hold.hit hn (hlive h List.mem_cons_self) hkeep.1
    have hrest := ih hold' hn' (fun x hx => hlive x (List.mem_cons_of_mem h hx)) hkeep.2
    rw [admitted]
    omega

/-- A window admits no more hits than its limit. -/
theorem admitted_le (hstart : Starts l h) (hlive : ∀ x ∈ hits, x.now < h.now + cfg.windowMs)
    (hkeep : Keeps cfg limits h.key (after cfg limits l h) hits) :
    admitted cfg limits h.key l (h :: hits) ≤ limits h.key := by
  obtain ⟨w, hw, hallowed, ⟨hmem, hunexpired⟩ | ⟨rfl, -⟩⟩ := mem_hit_self cfg l h.now h.key (limits h.key)
  · exact absurd hunexpired (Nat.not_lt.mpr (hstart w hmem))
  · have hold : Admitted h.key (h.now + cfg.windowMs) (decide (0 < limits h.key)).toNat (after cfg limits l h) :=
      ⟨_, hw, Window.counted_resetAt, by rw [Window.counted_count, Nat.zero_add]⟩
    have hrun := hold.run (by cases limits h.key <;> simp) hlive hkeep
    rwa [admitted, hallowed, decide_eq_true rfl, Bool.true_and]

/-! ## The order of the map -/

def resets (m : OrderedMap String Window) : List Nat := m.entries.map (·.2.resetAt)

/-- The windows have all been started, and those that have not expired stand in the order of their starts. -/
structure InOrder (windowMs now : Nat) (resets : List Nat) : Prop where
  started : ∀ r ∈ resets, r ≤ now + windowMs
  order : (resets.filter (now < ·)).Pairwise (· ≤ ·)

variable {windowMs r : Nat} {rs rs' before behind : List Nat}

theorem InOrder.sublist (h : InOrder windowMs now rs) (hsub : rs'.Sublist rs) : InOrder windowMs now rs' where
  started r hr := h.started r (hsub.subset hr)
  order := h.order.sublist (hsub.filter _)

theorem InOrder.later (h : InOrder windowMs now rs) (hle : now ≤ now') : InOrder windowMs now' rs where
  started r hr := (h.started r hr).trans (Nat.add_le_add_right hle _)
  order := h.order.sublist (List.monotone_filter_right rs fun _ hr =>
    decide_eq_true (hle.trans_lt (of_decide_eq_true hr)))

theorem InOrder.concat (h : InOrder windowMs now rs) : InOrder windowMs now (rs ++ [now + windowMs]) where
  started r hr := by
    obtain hr | hr := List.mem_append.mp hr
    · exact h.started r hr
    · rw [List.mem_singleton.mp hr]
  order := by
    rw [List.filter_append]
    refine List.pairwise_append.mpr ⟨h.order, (List.pairwise_singleton ..).sublist List.filter_sublist, ?_⟩
    intro r hr r' hr'
    rw [List.mem_singleton.mp (List.mem_of_mem_filter hr')]
    exact h.started r (List.mem_of_mem_filter hr)

/-- Where no window behind it is older, a window may be renewed in its place. -/
theorem InOrder.renew (h : InOrder windowMs now (before ++ r :: behind)) (hexpired : r ≤ now)
    (hbehind : ∀ r' ∈ behind, now < r' → now + windowMs ≤ r') :
    InOrder windowMs now (before ++ (now + windowMs) :: behind) where
  started r' hr' := by
    obtain hr' | hr' := List.mem_append.mp hr'
    · exact h.started r' (List.mem_append_left _ hr')
    · obtain rfl | hr' := List.mem_cons.mp hr'
      · exact le_rfl
      · exact h.started r' (List.mem_append_right _ (List.mem_cons_of_mem r hr'))
  order := by
    have horder := h.order
    rw [List.filter_append, List.filter_cons_of_neg (by simpa using hexpired), List.pairwise_append] at horder
    obtain ⟨hfirst, hlast, hcross⟩ := horder
    rw [List.filter_append, List.filter_cons, List.pairwise_append]
    split
    · refine ⟨hfirst, List.pairwise_cons.mpr ⟨fun r' hr' => ?_, hlast⟩, fun a ha b hb => ?_⟩
      · exact hbehind r' (List.mem_of_mem_filter hr') (of_decide_eq_true (List.mem_filter.mp hr').2)
      · obtain rfl | hb := List.mem_cons.mp hb
        · exact h.started a (List.mem_append_left _ (List.mem_of_mem_filter ha))
        · exact hcross a ha b hb
    · exact ⟨hfirst, hlast, hcross⟩

/-- Only there. -/
theorem InOrder.of_renewed (h : InOrder windowMs now (before ++ (now + windowMs) :: behind)) (hpos : 0 < windowMs) :
    ∀ r' ∈ behind, now < r' → now + windowMs ≤ r' := by
  intro r' hr' hlive
  have horder := h.order
  rw [List.filter_append, List.filter_cons_of_pos (by simpa using hpos), List.pairwise_append] at horder
  exact (List.pairwise_cons.mp horder.2.1).1 r' (List.mem_filter.mpr ⟨hr', decide_eq_true hlive⟩)

/-- The hit renews no window ahead of one that started earlier and has not expired. -/
def RenewsInOrder (cfg : LimiterConfig) (l : FixedWindowLimiter) (h : Hit) : Prop :=
  -- or else the expired windows are swept first, and the key is added
  l.hitsSinceSweep + 1 < cfg.sweepEvery → ∀ before w behind, l.windows.entries = before ++ (h.key, w) :: behind →
    w.resetAt ≤ h.now → ∀ e ∈ behind, h.now < e.2.resetAt → h.now + cfg.windowMs ≤ e.2.resetAt

/-- A key that is new to the map, or stands last in it, renews nothing ahead of another. -/
theorem renewsInOrder_of_last (hlast : ∀ before w behind,
    l.windows.entries = before ++ (h.key, w) :: behind → behind = []) :
    RenewsInOrder cfg l h := fun _ before w behind hentries _ e he _ => by
  rw [hlast before w behind hentries] at he
  cases he

/-- The tick of a hit sweeps, or leaves the windows as they are. -/
theorem tick_windows (cfg : LimiterConfig) (l : FixedWindowLimiter) (now : Nat) :
    (l.tick cfg now).windows = (l.sweep now).windows ∨
    (l.hitsSinceSweep + 1 < cfg.sweepEvery ∧ (l.tick cfg now).windows = l.windows) := by
  unfold tick
  split
  case isTrue => exact Or.inl rfl
  case isFalse h => exact Or.inr ⟨Nat.lt_of_not_le h, rfl⟩

theorem resets_set {m : OrderedMap String Window} {front back : List (String × Window)}
    (h : m.entries = front ++ (key, w) :: back) : resets (m.set key w') =
      front.map (·.2.resetAt) ++ w'.resetAt :: back.map (·.2.resetAt) := by
  rw [resets, OrderedMap.set_at h, List.map_append, List.map_cons]

theorem InOrder.hit (hold : InOrder cfg.windowMs h.now (resets l.windows)) (hrenews : RenewsInOrder cfg l h) :
    InOrder cfg.windowMs h.now (resets (after cfg limits l h).windows) := by
  have hcase := hit_case cfg l h.now h.key (limits h.key)
  have htick : InOrder cfg.windowMs h.now (resets (l.tick cfg h.now).windows) :=
    hold.sublist ((tick_sublist cfg l h.now).map _)
  show InOrder cfg.windowMs h.now (resets (l.hit cfg h.now h.key (limits h.key)).2.windows)
  generalize (l.hit cfg h.now h.key (limits h.key)).2.windows = m at hcase ⊢
  generalize (l.hit cfg h.now h.key (limits h.key)).1.allowed = allowed at hcase
  cases hcase with
  | counted hget =>
    obtain ⟨front, back, hentries⟩ := List.append_of_mem (OrderedMap.get_some.mp hget)
    rw [resets_set hentries, Window.counted_resetAt]
    rwa [resets, hentries, List.map_append, List.map_cons] at htick
  | @renewed w hget hexpired =>
    obtain ⟨front, back, hentries⟩ := List.append_of_mem (OrderedMap.get_some.mp hget)
    rw [resets_set hentries, Window.counted_resetAt]
    rw [resets, hentries, List.map_append, List.map_cons] at htick
    refine htick.renew hexpired fun r hr hlive => ?_
    obtain ⟨e, he, rfl⟩ := List.mem_map.mp hr
    obtain hswept | ⟨hcount, hsame⟩ := tick_windows cfg l h.now
    · have hmem : (h.key, w) ∈ (l.sweep h.now).windows.entries := hswept ▸ OrderedMap.get_some.mp hget
      exact absurd (of_decide_eq_true (List.mem_filter.mp hmem).2) (Nat.not_lt.mpr hexpired)
    · exact hrenews hcount front w back (hsame ▸ hentries) hexpired e he hlive
  | added hget =>
    have hsub := roomFor_sublist cfg (l.tick cfg h.now) h.now
    have hnew : h.key ∉ (roomFor cfg (l.tick cfg h.now) h.now).keys := fun hkey =>
      OrderedMap.get_none.mp hget ((hsub.map Prod.fst).subset hkey)
    rw [resets, OrderedMap.set_new hnew, List.map_append, List.map_singleton, Window.counted_resetAt]
    exact (htick.sublist (hsub.map _)).concat

/-- The order is lost by no other hit. -/
theorem inOrder_hit_iff (hpos : 0 < cfg.windowMs) (hold : InOrder cfg.windowMs h.now (resets l.windows)) :
    InOrder cfg.windowMs h.now (resets (after cfg limits l h).windows) ↔ RenewsInOrder cfg l h := by
  refine ⟨fun hafter hcount front w back hentries hexpired e he hlive => ?_, hold.hit⟩
  have hsame : (l.tick cfg h.now).windows = l.windows := by
    unfold tick
    rw [if_neg (Nat.not_le.mpr hcount)]
  have hget : (l.tick cfg h.now).windows.get h.key = some w :=
    OrderedMap.get_some.mpr (hsame ▸ hentries ▸ List.mem_append_right _ List.mem_cons_self)
  have hcase := hit_case cfg l h.now h.key (limits h.key)
  change InOrder cfg.windowMs h.now (resets (l.hit cfg h.now h.key (limits h.key)).2.windows) at hafter
  generalize (l.hit cfg h.now h.key (limits h.key)).2.windows = m at hcase hafter
  generalize (l.hit cfg h.now h.key (limits h.key)).1.allowed = allowed at hcase
  cases hcase with
  | counted hget' hunexpired =>
    obtain rfl := Option.some.inj (hget.symm.trans hget')
    exact absurd hunexpired (Nat.not_lt.mpr hexpired)
  | renewed =>
    rw [hsame, resets_set hentries, Window.counted_resetAt] at hafter
    exact hafter.of_renewed hpos _ (List.mem_map_of_mem he) hlive
  | added hnone =>
    rw [hget] at hnone
    cases hnone

theorem size_roomFor (hcap : 1 ≤ cfg.maxKeys) (h : l.windows.size ≤ cfg.maxKeys) :
    (roomFor cfg l now).size + 1 ≤ cfg.maxKeys := by
  unfold roomFor
  split
  case isTrue =>
    show (evictOldest cfg.maxKeys (l.windows.entries.filter _)).length + 1 ≤ _
    rw [evictOldest_eq, List.length_drop]
    omega
  case isFalse hroom => omega

/-- The keys stay within the cap, unless it is none at all. -/
theorem size_hit (hcap : 1 ≤ cfg.maxKeys) (hsize : l.windows.size ≤ cfg.maxKeys) :
    (after cfg limits l h).windows.size ≤ cfg.maxKeys := by
  have hcase := hit_case cfg l h.now h.key (limits h.key)
  have htick : (l.tick cfg h.now).windows.size ≤ cfg.maxKeys := (tick_sublist cfg l h.now).length_le.trans hsize
  show (l.hit cfg h.now h.key (limits h.key)).2.windows.size ≤ _
  generalize (l.hit cfg h.now h.key (limits h.key)).2.windows = m at hcase ⊢
  generalize (l.hit cfg h.now h.key (limits h.key)).1.allowed = allowed at hcase
  cases hcase with
  | counted hget => exact (OrderedMap.size_set_of_mem (OrderedMap.get_some.mp hget)).trans_le htick
  | renewed hget => exact (OrderedMap.size_set_of_mem (OrderedMap.get_some.mp hget)).trans_le htick
  | added => exact OrderedMap.size_set_le.trans (size_roomFor hcap htick)

/-- What holds of the windows between the hits. -/
structure Inv (cfg : LimiterConfig) (now : Nat) (m : OrderedMap String Window) : Prop where
  inOrder : InOrder cfg.windowMs now (resets m)
  size : m.size ≤ cfg.maxKeys

theorem Inv.of_sublist {m m' : OrderedMap String Window} (h : Inv cfg now m) (hsub : m'.entries.Sublist m.entries) :
    Inv cfg now m' where
  inOrder := h.inOrder.sublist (hsub.map _)
  size := hsub.length_le.trans h.size

theorem Inv.hit (hcap : 1 ≤ cfg.maxKeys) (hold : Inv cfg h.now l.windows) (hrenews : RenewsInOrder cfg l h) :
    Inv cfg h.now (after cfg limits l h).windows :=
  ⟨hold.inOrder.hit hrenews, size_hit hcap hold.size⟩

/-- Of windows in order, the one that is evicted started first. -/
theorem Evicts.oldest (hold : Inv cfg h.now l.windows) (hevicts : Evicts cfg limits l h k w)
    (hne : k' ≠ k) (hmem : (k', w') ∈ l.windows.entries) (hlive : h.now < w'.resetAt) : w.resetAt ≤ w'.resetAt := by
  obtain ⟨hw, hwlive, hgone⟩ := hevicts
  have hcase := hit_case cfg l h.now h.key (limits h.key)
  have hw := (mem_tick cfg hwlive).mpr hw
  have hmem := (mem_tick cfg hlive).mpr hmem
  have htick : Inv cfg h.now (l.tick cfg h.now).windows := hold.of_sublist (tick_sublist cfg l h.now)
  change k ∉ (l.hit cfg h.now h.key (limits h.key)).2.windows.keys at hgone
  generalize (l.hit cfg h.now h.key (limits h.key)).2.windows = m at hcase hgone
  generalize (l.hit cfg h.now h.key (limits h.key)).1.allowed = allowed at hcase
  generalize l.tick cfg h.now = t at *
  cases hcase with
  | counted => exact absurd (OrderedMap.mem_keys_set.mpr (Or.inr (OrderedMap.mem_keys.mpr ⟨w, hw⟩))) hgone
  | renewed => exact absurd (OrderedMap.mem_keys_set.mpr (Or.inr (OrderedMap.mem_keys.mpr ⟨w, hw⟩))) hgone
  | added =>
    have hgone : (k, w) ∉ (roomFor cfg t h.now).entries := fun hroom =>
      hgone (OrderedMap.mem_keys_set.mpr (Or.inr (OrderedMap.mem_keys.mpr ⟨w, hroom⟩)))
    unfold roomFor at hgone
    split at hgone
    case isFalse => exact absurd hw hgone
    case isTrue =>
      change (k, w) ∉ evictOldest cfg.maxKeys (t.windows.entries.filter (h.now < ·.2.resetAt)) at hgone
      have hlive₁ : (k, w) ∈ t.windows.entries.filter (h.now < ·.2.resetAt) :=
        List.mem_filter.mpr ⟨hw, decide_eq_true hwlive⟩
      have hlive₂ : (k', w') ∈ t.windows.entries.filter (h.now < ·.2.resetAt) :=
        List.mem_filter.mpr ⟨hmem, decide_eq_true hlive⟩
      have horder := htick.inOrder.order
      have hlength : (t.windows.entries.filter (h.now < ·.2.resetAt)).length ≤ cfg.maxKeys :=
        (List.length_filter_le ..).trans htick.size
      rw [resets, List.filter_map] at horder
      change ((t.windows.entries.filter (h.now < ·.2.resetAt)).map _).Pairwise _ at horder
      generalize t.windows.entries.filter (h.now < ·.2.resetAt) = live at *
      -- one window goes, which is the first
      cases live with
      | nil => cases hlive₁
      | cons e rest =>
        rw [evictOldest_eq] at hgone
        have hone : (e :: rest).length + 1 - cfg.maxKeys ≤ 1 := by omega
        have hrest : (k, w) ∉ rest := fun hrest => hgone <| by
          obtain hzero | hone := Nat.le_one_iff_eq_zero_or_eq_one.mp hone
          · rw [hzero]
            exact List.mem_cons_of_mem e hrest
          · rw [hone]
            exact hrest
        obtain rfl | hlive₁ := List.mem_cons.mp hlive₁
        · obtain heq | hlive₂ := List.mem_cons.mp hlive₂
          · exact absurd (congrArg Prod.fst heq) hne
          · exact (List.pairwise_cons.mp horder).1 _ (List.mem_map_of_mem hlive₂)
        · exact absurd hlive₁ hrest

/-! ## The limiter over runs -/

/-- What is promised of a run: no window admits more than its limit unless its key is evicted, the keys stay within the
cap, and of the windows that have not expired the one that is evicted started first. -/
structure Sound (cfg : LimiterConfig) (limits : String → Nat) (hits : List Hit) : Prop where
  admits : ∀ past h inWindow rest, hits = past ++ h :: (inWindow ++ rest) → Starts (run cfg limits past) h →
    (∀ x ∈ inWindow, x.now < h.now + cfg.windowMs) → Keeps cfg limits h.key (run cfg limits (past ++ [h])) inWindow →
    admitted cfg limits h.key (run cfg limits past) (h :: inWindow) ≤ limits h.key
  bounded : ∀ past rest, hits = past ++ rest → (run cfg limits past).windows.size ≤ cfg.maxKeys
  oldest : ∀ past h rest, hits = past ++ h :: rest → ∀ k w, Evicts cfg limits (run cfg limits past) h k w →
    ∀ k' w', k' ≠ k → (k', w') ∈ (run cfg limits past).windows.entries → h.now < w'.resetAt → w.resetAt ≤ w'.resetAt

theorem run_concat (cfg : LimiterConfig) (limits : String → Nat) (past : List Hit) (h : Hit) :
    run cfg limits (past ++ [h]) = after cfg limits (run cfg limits past) h := by
  rw [run, List.foldl_append]
  rfl

theorem inv_run (hcap : 1 ≤ cfg.maxKeys) (hordered : hits.Pairwise (·.now ≤ ·.now))
    (hrenews : ∀ past h rest, hits = past ++ h :: rest → RenewsInOrder cfg (run cfg limits past) h)
    (hnow : ∀ h ∈ hits, h.now ≤ now) : Inv cfg now (run cfg limits hits).windows := by
  induction hits using List.reverseRecOn generalizing now with
  | nil => exact ⟨⟨fun _ hr => (List.not_mem_nil hr).elim, .nil⟩, Nat.zero_le _⟩
  | append_singleton hits h ih =>
    obtain ⟨hpast, -, hlast⟩ := List.pairwise_append.mp hordered
    have hrun : Inv cfg h.now (run cfg limits hits).windows :=
      ih hpast (fun past x rest hsplit => hrenews past x (rest ++ [h])
        (by rw [hsplit, List.append_assoc, List.cons_append]))
        fun x hx => hlast x hx h (List.mem_singleton_self h)
    have hafter : Inv cfg h.now (after cfg limits (run cfg limits hits) h).windows :=
      hrun.hit hcap (hrenews hits h [] rfl)
    rw [run_concat]
    exact ⟨hafter.inOrder.later (hnow h (List.mem_append_right _ (List.mem_singleton_self h))), hafter.size⟩

/-- A run keeps its promises if none of its hits renews a window ahead of an older one. -/
theorem limiter_sound (hcap : 1 ≤ cfg.maxKeys) (hordered : hits.Pairwise (·.now ≤ ·.now))
    (hrenews : ∀ past h rest, hits = past ++ h :: rest → RenewsInOrder cfg (run cfg limits past) h) :
    Sound cfg limits hits where
  admits past h inWindow rest _ hstart hlive hkeep := admitted_le hstart hlive (run_concat cfg limits past h ▸ hkeep)
  bounded past rest hsplit := by
    have hpast : past.Pairwise (·.now ≤ ·.now) := (List.pairwise_append.mp (hsplit ▸ hordered)).1
    have hrun : Inv cfg (past.map (·.now)).sum (run cfg limits past).windows :=
      inv_run hcap hpast (fun p x r hp => hrenews p x (r ++ rest)
        (by rw [hsplit, hp, List.append_assoc, List.cons_append]))
        fun x hx => List.le_sum_of_mem (List.mem_map_of_mem hx)
    exact hrun.size
  oldest past h rest hsplit k w hevicts k' w' hne hmem hlive := by
    obtain ⟨hpast, -, hlast⟩ := List.pairwise_append.mp (hsplit ▸ hordered)
    have hrun : Inv cfg h.now (run cfg limits past).windows :=
      inv_run hcap hpast (fun p x r hp => hrenews p x (r ++ h :: rest)
        (by rw [hsplit, hp, List.append_assoc, List.cons_append]))
        fun x hx => hlast x hx h List.mem_cons_self
    exact hevicts.oldest hrun hne hmem hlive

/-- Two keys at most, for ten milliseconds each. -/
def exampleConfig : LimiterConfig := { windowMs := 10, maxKeys := 2 }

/-- The first key comes back when its window has just expired, which leaves it first in the map; the third key finds it
there, and the second behind it. -/
def exampleHits : List Hit := [⟨0, "a"⟩, ⟨5, "b"⟩, ⟨10, "a"⟩, ⟨11, "c"⟩]

theorem limiter_evicts_younger : exampleHits.Pairwise (·.now ≤ ·.now) ∧
    ¬Sound exampleConfig (fun _ => 5) exampleHits := by
  refine ⟨by simp [exampleHits], fun h => ?_⟩
  have hbefore : (run exampleConfig (fun _ => 5) (exampleHits.take 3)).windows.entries =
      [("a", ⟨1, 20⟩), ("b", ⟨1, 15⟩)] := by
    decide +kernel
  have hafter : (run exampleConfig (fun _ => 5) exampleHits).windows.keys = ["b", "c"] := by decide +kernel
  have hevicts : Evicts exampleConfig (fun _ => 5) (run exampleConfig (fun _ => 5) (exampleHits.take 3))
      ⟨11, "c"⟩ "a" ⟨1, 20⟩ := by
    refine ⟨by rw [hbefore]; exact List.mem_cons_self, by decide, ?_⟩
    rw [← run_concat]
    change "a" ∉ (run exampleConfig (fun _ => 5) exampleHits).windows.keys
    rw [hafter]
    decide
  have holdest := h.oldest (exampleHits.take 3) ⟨11, "c"⟩ [] rfl "a" _ hevicts "b" ⟨1, 15⟩ (by decide)
    (by rw [hbefore]; exact List.mem_cons_of_mem _ List.mem_cons_self) (by decide)
  exact absurd holdest (by decide)

/-- In a run that adds keys, and renews the last one, the first key is the oldest. -/
theorem limiter_sound_example : Sound exampleConfig (fun _ => 5) [⟨0, "a"⟩, ⟨10, "a"⟩, ⟨11, "b"⟩, ⟨12, "c"⟩] := by
  refine limiter_sound (by decide) (by simp) fun past h rest hsplit =>
    renewsInOrder_of_last fun before w behind hentries => ?_
  have hsingle : ∀ w', before ++ (h.key, w) :: behind = [("a", w')] → behind = [] := fun w' hbefore => by
    have hlength := congrArg List.length hbefore
    rw [List.length_append, List.length_cons, List.length_singleton] at hlength
    exact List.eq_nil_of_length_eq_zero (by omega)
  have hkey : h.key ∈ (run exampleConfig (fun _ => 5) past).windows.keys :=
    OrderedMap.mem_keys.mpr ⟨w, hentries ▸ List.mem_append_right _ List.mem_cons_self⟩
  rcases past with _ | ⟨x, _ | ⟨y, _ | ⟨z, _ | ⟨u, past⟩⟩⟩⟩
  · cases hkey
  · simp only [List.cons_append, List.nil_append, List.cons.injEq] at hsplit
    obtain ⟨rfl, rfl, -⟩ := hsplit
    exact hsingle ⟨1, 10⟩ (hentries.symm.trans (by decide +kernel))
  · simp only [List.cons_append, List.nil_append, List.cons.injEq] at hsplit
    obtain ⟨rfl, rfl, rfl, -⟩ := hsplit
    exact absurd hkey (by decide +kernel)
  · simp only [List.cons_append, List.nil_append, List.cons.injEq] at hsplit
    obtain ⟨rfl, rfl, rfl, rfl, -⟩ := hsplit
    exact absurd hkey (by decide +kernel)
  · simp at hsplit

end Bosphor.Relayer.RateLimit

import Bosphor.Lib.SharedFlight
import Mathlib.Data.List.Basic

/-!
# The WAL top-up

The relayer pays for storage in WAL and refills it itself: a check that finds
the balance below its floor swaps a fixed amount of SUI. Intents and a timer
call for checks side by side, and share the one that is under way. Meanwhile
stores spend WAL, other transactions spend SUI, and a swap that was answered by
an error may land late.

A swap is made on what the check has read, so what bounds the balances must hold
between the reading and the swap: `Owes` relates the wallet to the readings, up
to what others have put in or taken out and to the swaps that got lost
(`Wallet.lost`). From it come the bounds on the wallet (`Within`): WAL never
exceeds what a wallet just below the floor has after one swap, and no swap takes
from the SUI that is reserved for gas.
-/

namespace Bosphor.Relayer.WalTopUp

open Async

/-- `WAL_COIN_TYPE_BY_NETWORK`. -/
def WAL_COIN_TYPE_TESTNET : String :=
  "0x8270feb7375eee355e64fdb69c50abb6b5f9393a722883c1cf45f8e26048810a::wal::WAL"

def WAL_COIN_TYPE_MAINNET : String :=
  "0x356a26eb9e012a68958082340d4c4116e7f55615cf27affcff209cf0ae544f59::wal::WAL"

def walCoinType (network : Option String) : String :=
  if network = some "mainnet" then WAL_COIN_TYPE_MAINNET else WAL_COIN_TYPE_TESTNET

def SUI_COIN_TYPE : String := "0x2::sui::SUI"

/-- The settings that the service reads, where they are set. -/
structure Config where
  WAL_MIN_BALANCE_MIST : Option Nat := none
  WAL_TOPUP_SUI_MIST : Option Nat := none
  WAL_TOPUP_SUI_RESERVE_MIST : Option Nat := none
  SUI_NETWORK : Option String := none

namespace Config

variable (cfg : Config)

def minBalanceMist : Nat := cfg.WAL_MIN_BALANCE_MIST.getD 500000000

def topUpSuiMist : Nat := cfg.WAL_TOPUP_SUI_MIST.getD 1000000000

def suiReserveMist : Nat := cfg.WAL_TOPUP_SUI_RESERVE_MIST.getD 1000000000

def walCoin : String := walCoinType cfg.SUI_NETWORK

def swapSupported : Bool := cfg.SUI_NETWORK != some "mainnet"

end Config

theorem walCoin_ne_sui (cfg : Config) : cfg.walCoin ≠ SUI_COIN_TYPE := by
  unfold Config.walCoin walCoinType
  split <;> decide

/-! ## The check -/

inductive TopUpOutcome where
  | success
  | failure
  | insufficientSui
  deriving DecidableEq

inductive TopUpCall where
  | getBalance (coinType : String)
  | swapSuiForWal (suiMist : Nat)
  | waitForTransaction (digest : String)
  | setWalBalance (mist : Nat)
  | setSuiBalance (mist : Nat)
  | recordWalTopUp (outcome : TopUpOutcome)
  deriving DecidableEq

abbrev TopUpCall.Answer : TopUpCall → Type
  | .getBalance _ => Nat
  | .swapSuiForWal _ => String
  | _ => Unit

/-- A check, whose calls fail with a text. -/
abbrev Check := Async TopUpCall TopUpCall.Answer String

abbrev TopUpTold := History TopUpCall TopUpCall.Answer String

abbrev topUpCall (c : TopUpCall) : Check c.Answer := Async.call c

variable (cfg : Config)

/-- The balance under a coin type, unless it cannot be read. -/
def readBalance (coinType : String) : Check (Option Nat) :=
  tryCatch (do return some (← topUpCall (.getBalance coinType))) fun _ => return none

/-- The swap, once the balances allow it. -/
def swapSuiForWal : Check Unit :=
  tryCatch
    (do
      let digest ← topUpCall (.swapSuiForWal cfg.topUpSuiMist)
      topUpCall (.waitForTransaction digest)
      let newBalance ← topUpCall (.getBalance cfg.walCoin)
      topUpCall (.setWalBalance newBalance)
      topUpCall (.recordWalTopUp .success))
    fun _ => topUpCall (.recordWalTopUp .failure)

/-- What follows on the two readings. -/
def topUpIfLow (walBalance : Nat) (suiBalance : Option Nat) : Check Unit :=
  if cfg.minBalanceMist ≤ walBalance then return ()
  else if cfg.swapSupported = false then topUpCall (.recordWalTopUp .failure)
  else
    match suiBalance with
    | none => return ()
    | some suiBalance =>
      if suiBalance < cfg.topUpSuiMist + cfg.suiReserveMist then topUpCall (.recordWalTopUp .insufficientSui)
      else swapSuiForWal cfg

/-- The SUI balance is published as soon as it is read. -/
def readSui : Check (Option Nat) := do
  match ← readBalance SUI_COIN_TYPE with
  | none => return none
  | some suiBalance =>
    tryCatch (topUpCall (.setSuiBalance suiBalance)) fun _ => return ()
    return some suiBalance

/-- `run`. -/
def run : Check Unit := do
  match ← readBalance cfg.walCoin with
  | none => return ()
  | some walBalance =>
    topUpCall (.setWalBalance walBalance)
    let suiBalance ← readSui
    topUpIfLow cfg walBalance suiBalance

/-! ## The wallet -/

/-- The most that one swap brings, and the most gas that one costs. -/
structure Exchange where
  gain : Nat
  gas : Nat

/-- The relayer's wallet, and what has come over it. -/
structure Wallet where
  wal : Nat
  sui : Nat
  /-- The SUI of swaps that were answered by an error and may yet land. -/
  late : List Nat := []
  /-- The swaps that were answered by an error. -/
  lost : Nat := 0
  /-- The WAL that others have put in. -/
  funded : Nat := 0
  /-- The SUI that other transactions have taken. -/
  spent : Nat := 0
  deriving DecidableEq

/-- The balance that the chain reports under a coin type. -/
def Wallet.balance (w : Wallet) (coinType : String) : Nat :=
  if coinType = cfg.walCoin then w.wal else if coinType = SUI_COIN_TYPE then w.sui else 0

variable (ex : Exchange)

/-- How a call is answered. A swap that is answered by an error has failed on chain, or is on its way. -/
inductive Serves : Wallet → (c : TopUpCall) → Except String c.Answer → Wallet → Prop where
  | balance {w coinType} : Serves w (.getBalance coinType) (.ok (w.balance cfg coinType)) w
  | unread {w coinType} (err : String) : Serves w (.getBalance coinType) (.error err) w
  | swapped {w m gain gas} (digest : String) (hgain : gain ≤ ex.gain) (hgas : gas ≤ ex.gas) (hpaid : m + gas ≤ w.sui) :
    Serves w (.swapSuiForWal m) (.ok digest) { w with wal := w.wal + gain, sui := w.sui - (m + gas) }
  | failed {w m gas} (err : String) (hgas : gas ≤ ex.gas) (hpaid : gas ≤ w.sui) :
    Serves w (.swapSuiForWal m) (.error err) { w with sui := w.sui - gas, lost := w.lost + 1 }
  | unanswered {w m} (err : String) :
    Serves w (.swapSuiForWal m) (.error err) { w with late := m :: w.late, lost := w.lost + 1 }
  | waited {w digest} (r : Except String Unit) : Serves w (.waitForTransaction digest) r w
  | walGauge {w mist} : Serves w (.setWalBalance mist) (.ok ()) w
  | suiGauge {w mist} : Serves w (.setSuiBalance mist) (.ok ()) w
  | recorded {w outcome} : Serves w (.recordWalTopUp outcome) (.ok ()) w

/-- What happens to the wallet besides the checks. -/
inductive Moves : Wallet → Wallet → Prop where
  | store {w n} (h : n ≤ w.wal) : Moves w { w with wal := w.wal - n }
  | fund {w} (n : Nat) : Moves w { w with wal := w.wal + n, funded := w.funded + n }
  | spend {w n} (h : n ≤ w.sui) : Moves w { w with sui := w.sui - n, spent := w.spent + n }
  | receive {w} (n : Nat) : Moves w { w with sui := w.sui + n }
  | lands {w m gain gas} (hlate : m ∈ w.late) (hgain : gain ≤ ex.gain) (hgas : gas ≤ ex.gas) (hpaid : m + gas ≤ w.sui) :
    Moves w { w with wal := w.wal + gain, sui := w.sui - (m + gas), late := w.late.erase m }
  | landsFailed {w m gas} (hlate : m ∈ w.late) (hgas : gas ≤ ex.gas) (hpaid : gas ≤ w.sui) :
    Moves w { w with sui := w.sui - gas, late := w.late.erase m }

def world : Shared.World Wallet TopUpCall TopUpCall.Answer String := ⟨Serves cfg ex, Moves ex⟩

/-- The service, with the checks that its callers have started. -/
abbrev State := Shared.State Wallet TopUpCall TopUpCall.Answer String Unit

/-- Calls of `ensureWal`, with all that happens meanwhile. -/
abbrev Runs (s s' : State) : Prop := Shared.Run (world cfg ex) (run cfg) s s'

/-! ## What a check does -/

/-- A balance that the check has read. -/
def Read (coinType : String) (b : Nat) (told : TopUpTold) : Prop :=
  (⟨.getBalance coinType, .ok b⟩ : Σ c : TopUpCall, Except String c.Answer) ∈ told

/-- The check has swapped. -/
def Swapped (told : TopUpTold) : Prop := ∃ x ∈ told, ∃ m, x.1 = .swapSuiForWal m

/-- A swap is made once, of the fixed amount, where there is an exchange and the readings allow it. -/
def MaySwap (told : TopUpTold) (suiMist : Nat) : Prop :=
  suiMist = cfg.topUpSuiMist ∧ cfg.swapSupported = true ∧ ¬Swapped told ∧
    (∃ b < cfg.minBalanceMist, Read cfg.walCoin b told) ∧
      ∃ b ≥ cfg.topUpSuiMist + cfg.suiReserveMist, Read SUI_COIN_TYPE b told

/-- The swap of the check went through. -/
def SwappedOk (told : TopUpTold) : Prop :=
  ∃ digest, (⟨.swapSuiForWal cfg.topUpSuiMist, .ok digest⟩ : Σ c : TopUpCall, Except String c.Answer) ∈ told

/-- What a check may do next: a swap that its readings allow, and a success that it saw. -/
def May (told : TopUpTold) : TopUpCall → Prop
  | .swapSuiForWal suiMist => MaySwap cfg told suiMist
  | .recordWalTopUp .success => SwappedOk cfg told
  | _ => True

/-- The call only publishes a number. -/
def TopUpCall.Metric : TopUpCall → Prop
  | .setWalBalance _ | .setSuiBalance _ | .recordWalTopUp _ => True
  | _ => False

/-- The metrics took what they were given. -/
def Metered (told : TopUpTold) : Prop := ∀ x ∈ told, x.1.Metric → ∃ a, x.2 = .ok a

variable {cfg} {ex} {told : TopUpTold}

theorem Metered.last {c : TopUpCall} {r : Except String c.Answer} (h : Metered (told ++ [⟨c, r⟩])) (hc : c.Metric) :
    ∃ a, r = .ok a :=
  h ⟨c, r⟩ (List.mem_append_right _ (List.mem_singleton_self _)) hc

theorem Read.mono {coinType : String} {b : Nat} (h : Read coinType b told) (t : TopUpTold) :
    Read coinType b (told ++ t) := List.mem_append_left _ h

theorem read_last {coinType : String} {b : Nat} : Read coinType b (told ++ [⟨.getBalance coinType, .ok b⟩]) :=
  List.mem_append_right _ (List.mem_singleton_self _)

theorem swapped_append {c : TopUpCall} {r : Except String c.Answer} (hc : ∀ m, c ≠ .swapSuiForWal m)
    (h : ¬Swapped told) : ¬Swapped (told ++ [⟨c, r⟩]) := by
  rintro ⟨x, hx, m, hm⟩
  obtain hx | hx := List.mem_append.mp hx
  · exact h ⟨x, hx, m, hm⟩
  · rw [List.mem_singleton.mp hx] at hm
    exact hc m hm

/-- A check ends without an error, if the metrics do. -/
def Quiet (told : TopUpTold) (r : Except String Unit) : Prop := Metered told → r = .ok ()

theorem wp_readBalance {coinType : String} {R : TopUpTold → Except String (Option Nat) → Prop}
    (hnone : ∀ err, R (told ++ [⟨.getBalance coinType, .error err⟩]) (.ok none))
    (hsome : ∀ b, R (told ++ [⟨.getBalance coinType, .ok b⟩]) (.ok (some b))) :
    wp (May cfg) R told (readBalance coinType) := by
  unfold readBalance
  rw [wp_tryCatch]
  exact wp_next trivial hsome hnone

theorem recordWalTopUp_quiet {outcome : TopUpOutcome} (hmay : May cfg told (.recordWalTopUp outcome)) :
    wp (May cfg) Quiet told (topUpCall (.recordWalTopUp outcome)) :=
  (wp_call _).mpr ⟨hmay, fun r hmetered => by
    obtain ⟨⟨⟩, rfl⟩ := hmetered.last (c := .recordWalTopUp outcome) trivial
    rfl⟩

theorem swapSuiForWal_quiet (hmay : MaySwap cfg told cfg.topUpSuiMist) :
    wp (May cfg) Quiet told (swapSuiForWal cfg) := by
  unfold swapSuiForWal
  rw [wp_tryCatch]
  have hfailure : ∀ told err,
      orElse (May cfg) Quiet (fun _ => topUpCall (.recordWalTopUp .failure)) told (.error err) :=
    fun told err => recordWalTopUp_quiet trivial
  refine wp_next hmay (fun digest => ?_) fun err => hfailure _ err
  refine wp_next trivial (fun _ => ?_) fun err => hfailure _ err
  refine wp_next trivial (fun newBalance => ?_) fun err => hfailure _ err
  refine wp_next trivial (fun _ => ?_) fun err => hfailure _ err
  refine (wp_call _).mpr ⟨⟨digest, ?_⟩, fun r => ?_⟩
  · simp
  · cases r with
    | error err => exact hfailure _ err
    | ok _ => exact fun _ => rfl

theorem topUpIfLow_quiet {walBalance : Nat} {suiBalance : Option Nat} (hwal : Read cfg.walCoin walBalance told)
    (hsui : ∀ b, suiBalance = some b → Read SUI_COIN_TYPE b told) (hswapped : ¬Swapped told) :
    wp (May cfg) Quiet told (topUpIfLow cfg walBalance suiBalance) := by
  unfold topUpIfLow
  split
  case isTrue => exact fun _ => rfl
  case isFalse hlow =>
    split
    case isTrue => exact recordWalTopUp_quiet trivial
    case isFalse hexchange =>
      split
      · exact fun _ => rfl
      · rename_i suiBalance
        split
        case isTrue => exact recordWalTopUp_quiet trivial
        case isFalse hreserve =>
          exact swapSuiForWal_quiet ⟨rfl, Bool.of_not_eq_false hexchange, hswapped,
            ⟨walBalance, Nat.lt_of_not_le hlow, hwal⟩, suiBalance, Nat.le_of_not_lt hreserve, hsui suiBalance rfl⟩

theorem run_quiet : wp (May cfg) Quiet [] (run cfg) := by
  unfold run
  rw [wp_bind]
  refine wp_readBalance (fun err _ => rfl) fun walBalance => ?_
  rw [andThen_ok]
  have hnotyet : ¬Swapped [] := fun ⟨x, hx, _⟩ => absurd hx List.not_mem_nil
  have hread := swapped_append (c := .getBalance cfg.walCoin) (r := .ok walBalance) (fun m hm => by cases hm) hnotyet
  refine wp_next trivial (fun _ => ?_) fun err hmetered => ?_
  · have hgauge := swapped_append (r := .ok ()) (c := .setWalBalance walBalance) (fun m hm => by cases hm) hread
    unfold readSui
    rw [wp_bind, wp_bind]
    refine wp_readBalance (fun err => ?_) fun suiBalance => ?_
    · exact topUpIfLow_quiet (read_last.mono _ |>.mono _) (fun b hb => by cases hb)
        (swapped_append (fun m hm => by cases hm) hgauge)
    · rw [andThen_ok, wp_bind, wp_tryCatch]
      have hsui := swapped_append (c := .getBalance SUI_COIN_TYPE) (r := .ok suiBalance) (fun m hm => by cases hm)
        hgauge
      have hnext : ∀ r : Except String Unit, wp (May cfg) Quiet ([] ++ [⟨.getBalance cfg.walCoin, .ok walBalance⟩] ++
          [⟨.setWalBalance walBalance, .ok ()⟩] ++ [⟨.getBalance SUI_COIN_TYPE, .ok suiBalance⟩] ++
          [⟨.setSuiBalance suiBalance, r⟩]) (topUpIfLow cfg walBalance (some suiBalance)) := fun r => by
        refine topUpIfLow_quiet ?_ (fun b hb => ?_) (swapped_append (fun m hm => by cases hm) hsui)
        · exact ((read_last.mono _).mono _).mono _
        · cases hb
          exact read_last.mono _
      refine (wp_call _).mpr ⟨trivial, fun r => ?_⟩
      cases r with
      | ok _ => exact hnext _
      | error err => exact hnext _
  · obtain ⟨_, h⟩ := hmetered.last (c := .setWalBalance walBalance) trivial
    cases h

/-! ## What the wallet keeps -/

variable (cfg ex) in
/-- The most that a swap takes. -/
def cost : Nat := cfg.topUpSuiMist + ex.gas

variable (cfg ex) in
/-- The bounds on a wallet that was `w₀`, with the swaps that may yet land counted in. -/
structure Within (w₀ w : Wallet) : Prop where
  wal : w.wal + ex.gain * w.late.length ≤
    max w₀.wal (cfg.minBalanceMist - 1 + ex.gain) + ex.gain * w.lost + w.funded
  sui : min w₀.sui (cfg.suiReserveMist - ex.gas) + cost cfg ex * w.late.length ≤
    w.sui + cost cfg ex * w.lost + w.spent
  late : w.late.length ≤ w.lost
  amounts : ∀ m ∈ w.late, m = cfg.topUpSuiMist

variable (cfg ex) in
/-- Until a check swaps, the wallet is what it has read, up to what came from elsewhere. -/
def Owes (w : Wallet) (told : TopUpTold) : Prop := ¬Swapped told →
  (∀ b, Read cfg.walCoin b told → w.wal + ex.gain * w.late.length ≤ b + ex.gain * w.lost + w.funded) ∧
    ∀ b, Read SUI_COIN_TYPE b told → b + cost cfg ex * w.late.length ≤ w.sui + cost cfg ex * w.lost + w.spent

variable {w₀ w w' : Wallet}

theorem not_swapped_of_append {x : Σ c : TopUpCall, Except String c.Answer} (h : ¬Swapped (told ++ [x])) :
    ¬Swapped told :=
  fun ⟨y, hy, hm⟩ => h ⟨y, List.mem_append_left _ hy, hm⟩

/-- Only a reading adds to what is owed. -/
theorem Owes.append {c : TopUpCall} {r : Except String c.Answer} (h : Owes cfg ex w told)
    (hc : ∀ coinType b, (⟨c, r⟩ : Σ c : TopUpCall, Except String c.Answer) ≠ ⟨.getBalance coinType, .ok b⟩) :
    Owes cfg ex w (told ++ [⟨c, r⟩]) := by
  intro hswapped
  obtain ⟨hwal, hsui⟩ := h (not_swapped_of_append hswapped)
  have hread : ∀ {coinType b}, Read coinType b (told ++ [⟨c, r⟩]) → Read coinType b told := by
    intro coinType b hread
    obtain hread | hread := List.mem_append.mp hread
    · exact hread
    · exact absurd (List.mem_singleton.mp hread).symm (hc coinType b)
  exact ⟨fun b hb => hwal b (hread hb), fun b hb => hsui b (hread hb)⟩

/-- A reading is the balance of its moment. -/
theorem Owes.read (h : Owes cfg ex w told) (hwithin : Within cfg ex w₀ w) {coinType : String} :
    Owes cfg ex w (told ++ [⟨.getBalance coinType, .ok (w.balance cfg coinType)⟩]) := by
  intro hswapped
  obtain ⟨hwal, hsui⟩ := h (not_swapped_of_append hswapped)
  have hgain := Nat.mul_le_mul_left ex.gain hwithin.late
  have hcost := Nat.mul_le_mul_left (cost cfg ex) hwithin.late
  refine ⟨fun b hb => ?_, fun b hb => ?_⟩
  · obtain hb | hb := List.mem_append.mp hb
    · exact hwal b hb
    · cases List.mem_singleton.mp hb
      rw [Wallet.balance, if_pos rfl]
      omega
  · obtain hb | hb := List.mem_append.mp hb
    · exact hsui b hb
    · cases List.mem_singleton.mp hb
      rw [Wallet.balance, if_neg (Ne.symm (walCoin_ne_sui cfg)), if_pos rfl]
      omega

theorem owes_swapped {suiMist : Nat} {r : Except String String} :
    Owes cfg ex w (told ++ [⟨.swapSuiForWal suiMist, r⟩]) := fun hswapped =>
  absurd ⟨_, List.mem_append_right _ (List.mem_singleton_self _), suiMist, rfl⟩ hswapped

/-- What the answer to a call leaves. -/
theorem serve_keeps (c : TopUpCall) (r : Except String c.Answer) (h : Within cfg ex w₀ w) (howes : Owes cfg ex w told)
    (hmay : May cfg told c) (hserves : Serves cfg ex w c r w') :
    Within cfg ex w₀ w' ∧ Owes cfg ex w' (told ++ [⟨c, r⟩]) := by
  cases hserves with
  | balance => exact ⟨h, howes.read h⟩
  | unread err => exact ⟨h, howes.append fun _ _ heq => by cases heq⟩
  | waited r => exact ⟨h, howes.append fun _ _ heq => by cases heq⟩
  | walGauge => exact ⟨h, howes.append fun _ _ heq => by cases heq⟩
  | suiGauge => exact ⟨h, howes.append fun _ _ heq => by cases heq⟩
  | recorded => exact ⟨h, howes.append fun _ _ heq => by cases heq⟩
  | @swapped m gain gas digest hgain hgas hpaid =>
    obtain ⟨rfl, -, hswapped, ⟨b, hlow, hb⟩, s, hreserve, hs⟩ := hmay
    obtain ⟨hwal, hsui⟩ := howes hswapped
    specialize hwal b hb
    specialize hsui s hs
    refine ⟨⟨?_, ?_, h.late, h.amounts⟩, owes_swapped⟩
    · show w.wal + gain + ex.gain * w.late.length ≤ _ + ex.gain * w.lost + w.funded
      omega
    · show _ + cost cfg ex * w.late.length ≤ w.sui - (cfg.topUpSuiMist + gas) + cost cfg ex * w.lost + w.spent
      have hlate := Nat.mul_le_mul_left (cost cfg ex) h.late
      omega
  | @failed m gas err hgas hpaid =>
    refine ⟨⟨?_, ?_, Nat.le_succ_of_le h.late, h.amounts⟩, owes_swapped⟩
    · show w.wal + ex.gain * w.late.length ≤ _ + ex.gain * (w.lost + 1) + w.funded
      have hwal := h.wal
      rw [Nat.mul_succ]
      omega
    · show _ + cost cfg ex * w.late.length ≤ w.sui - gas + cost cfg ex * (w.lost + 1) + w.spent
      have hsui := h.sui
      rw [Nat.mul_succ]
      have hcost : ex.gas ≤ cost cfg ex := Nat.le_add_left _ _
      omega
  | @unanswered m err =>
    obtain ⟨rfl, -⟩ := hmay
    refine ⟨⟨?_, ?_, Nat.succ_le_succ h.late, fun m hm => ?_⟩, owes_swapped⟩
    · show w.wal + ex.gain * (w.late.length + 1) ≤ _ + ex.gain * (w.lost + 1) + w.funded
      have hwal := h.wal
      rw [Nat.mul_succ, Nat.mul_succ]
      omega
    · show _ + cost cfg ex * (w.late.length + 1) ≤ w.sui + cost cfg ex * (w.lost + 1) + w.spent
      have hsui := h.sui
      rw [Nat.mul_succ, Nat.mul_succ]
      omega
    · obtain rfl | hm := List.mem_cons.mp hm
      · rfl
      · exact h.amounts m hm

/-- A late swap that lands is one fewer to come. -/
theorem lands_keeps {m gain sui : Nat} (h : Within cfg ex w₀ w) (hlate : m ∈ w.late) (hgain : gain ≤ ex.gain)
    (hsui : w.sui ≤ sui + cost cfg ex) :
    Within cfg ex w₀ { w with wal := w.wal + gain, sui, late := w.late.erase m } ∧
      ∀ told, Owes cfg ex w told → Owes cfg ex { w with wal := w.wal + gain, sui, late := w.late.erase m } told := by
  obtain ⟨n, hn⟩ : ∃ n, w.late.length = n + 1 :=
    Nat.exists_eq_add_one.mpr (List.length_pos_of_mem hlate)
  have herase : (w.late.erase m).length = n := by
    rw [List.length_erase_of_mem hlate, hn, Nat.add_sub_cancel]
  have hcount : ∀ a, a * w.late.length = a * (w.late.erase m).length + a := fun a => by rw [hn, herase, Nat.mul_succ]
  have hwithin := h.wal
  have hbound := h.sui
  have hlost := h.late
  rw [hcount] at hwithin hbound
  refine ⟨⟨?_, ?_, ?_, fun m' hm => h.amounts m' (List.mem_of_mem_erase hm)⟩, fun told howes hswapped => ?_⟩
  · show w.wal + gain + ex.gain * (w.late.erase m).length ≤ _ + ex.gain * w.lost + w.funded
    omega
  · show _ + cost cfg ex * (w.late.erase m).length ≤ sui + cost cfg ex * w.lost + w.spent
    omega
  · show (w.late.erase m).length ≤ w.lost
    omega
  · obtain ⟨hwal, hread⟩ := howes hswapped
    rw [hcount] at hwal hread
    refine ⟨fun b hb => ?_, fun b hb => ?_⟩
    · show w.wal + gain + ex.gain * (w.late.erase m).length ≤ b + ex.gain * w.lost + w.funded
      have := hwal b hb
      omega
    · show b + cost cfg ex * (w.late.erase m).length ≤ sui + cost cfg ex * w.lost + w.spent
      have := hread b hb
      omega

/-- A change that is on the books: WAL rises by what is put in, SUI falls by what is taken out. -/
theorem booked_keeps {wal sui funded spent : Nat} (h : Within cfg ex w₀ w) (hwal : wal + w.funded ≤ w.wal + funded)
    (hsui : w.sui + w.spent ≤ sui + spent) :
    Within cfg ex w₀ { w with wal, sui, funded, spent } ∧
      ∀ told, Owes cfg ex w told → Owes cfg ex { w with wal, sui, funded, spent } told := by
  have hwithin := h.wal
  have hbound := h.sui
  refine ⟨⟨?_, ?_, h.late, h.amounts⟩, fun told howes hswapped => ⟨fun b hb => ?_, fun b hb => ?_⟩⟩
  · show wal + ex.gain * w.late.length ≤ _ + ex.gain * w.lost + funded
    omega
  · show _ + cost cfg ex * w.late.length ≤ sui + cost cfg ex * w.lost + spent
    omega
  · show wal + ex.gain * w.late.length ≤ b + ex.gain * w.lost + funded
    have := (howes hswapped).1 b hb
    omega
  · show b + cost cfg ex * w.late.length ≤ sui + cost cfg ex * w.lost + spent
    have := (howes hswapped).2 b hb
    omega

theorem move_keeps (h : Within cfg ex w₀ w) (hmoves : Moves ex w w') :
    Within cfg ex w₀ w' ∧ ∀ told, Owes cfg ex w told → Owes cfg ex w' told := by
  cases hmoves with
  | @store n hn => exact booked_keeps h (by omega) (Nat.le_refl _)
  | fund n => exact booked_keeps h (by omega) (Nat.le_refl _)
  | @spend n hn => exact booked_keeps h (Nat.le_refl _) (by omega)
  | receive n => exact booked_keeps h (Nat.le_refl _) (by omega)
  | @lands m gain gas hlate hgain hgas hpaid =>
    have hamount := h.amounts m hlate
    exact lands_keeps h hlate hgain (by unfold cost; omega)
  | @landsFailed m gas hlate hgas hpaid => exact lands_keeps h hlate (Nat.zero_le _) (by unfold cost; omega)

/-! ## The service -/

/-- What a metric was told, it has taken. -/
theorem metered_of_told (h : Shared.Told (world cfg ex) told) : Metered told := by
  rintro ⟨c, r⟩ hx hmetric
  obtain ⟨w, w', hserves⟩ := h _ hx
  cases hserves with
  | walGauge | suiGauge | recorded => exact ⟨(), rfl⟩
  | balance | unread | swapped | failed | unanswered | waited => exact hmetric.elim

variable (cfg ex) in
/-- What holds of the service in every state, with a wallet that was `w₀`. -/
structure Guarded (w₀ : Wallet) (s : State) : Prop where
  /-- One check runs at a time. -/
  alone : ∀ (k : Nat) told rest, s.flights[k]? = some ⟨told, .running rest⟩ → s.inFlight = some k
  /-- Who calls now is given the check that runs, and where none does a new one. -/
  joins : ∃ k told rest, (s.ensure (run cfg)).callers = s.callers ++ [k] ∧
    (s.ensure (run cfg)).flights[k]? = some ⟨told, .running rest⟩ ∧
    ∀ (j : Nat) told' rest', s.flights[j]? = some ⟨told', .running rest'⟩ →
      j = k ∧ (s.ensure (run cfg)).flights = s.flights
  /-- A check that is about to swap may. -/
  swaps : ∀ (k : Nat) told suiMist next, s.flights[k]? = some ⟨told, .running (.await (.swapSuiForWal suiMist) next)⟩ →
    MaySwap cfg told suiMist
  /-- A success that is about to be counted is one. -/
  counts : ∀ (k : Nat) told next, s.flights[k]? = some ⟨told, .running (.await (.recordWalTopUp .success) next)⟩ →
    SwappedOk cfg told
  /-- No caller gets an error. -/
  settled : ∀ (k : Nat) told r, s.flights[k]? = some ⟨told, .settled r⟩ → r = .ok ()
  wallet : Within cfg ex w₀ s.world
  /-- Whoever waits may be answered. -/
  served : ∃ s', Runs cfg ex s s' ∧ s'.callers = s.callers ∧
    ∀ k ∈ s.callers, ∃ told, s'.flights[k]? = some ⟨told, .settled (.ok ())⟩

theorem answerable (w : Wallet) (c : TopUpCall) : ∃ r w', Serves cfg ex w c r w' := by
  cases c with
  | getBalance coinType => exact ⟨_, _, .balance⟩
  | swapSuiForWal m => exact ⟨_, _, .unanswered "timeout"⟩
  | waitForTransaction digest => exact ⟨_, _, .waited (.ok ())⟩
  | setWalBalance mist => exact ⟨_, _, .walGauge⟩
  | setSuiBalance mist => exact ⟨_, _, .suiGauge⟩
  | recordWalTopUp outcome => exact ⟨_, _, .recorded⟩

variable (cfg ex) in
abbrev Holds (w₀ : Wallet) (s : State) : Prop :=
  Shared.Inv (world cfg ex) (Within cfg ex w₀) (Owes cfg ex) (May cfg) Quiet s

theorem Holds.runs {s s' : State} (h : Holds cfg ex w₀ s) (hrun : Runs cfg ex s s') : Holds cfg ex w₀ s' :=
  Shared.Run.keeps
    (fun _ _ => ⟨fun _ => ⟨fun _ hb => absurd hb List.not_mem_nil, fun _ hb => absurd hb List.not_mem_nil⟩, run_quiet⟩)
    (fun _ _ _ _ _ h howes hmay hserves => serve_keeps _ _ h howes hmay hserves)
    (fun _ _ h hmoves => move_keeps h hmoves) hrun h

theorem Holds.guarded {s : State} (h : Holds cfg ex w₀ s) : Guarded cfg ex w₀ s where
  alone := h.alone
  joins := h.joins
  swaps k told suiMist next hk := (h.running k told _ hk).2.2.1
  counts k told next hk := (h.running k told _ hk).2.2.1
  settled k told r hk := (h.settled k told r hk).2 (metered_of_told (h.settled k told r hk).1)
  wallet := h.world
  served := by
    obtain ⟨s', hrun, hcallers, hnone⟩ := h.rests answerable
    have h' := h.runs hrun
    refine ⟨s', hrun, hcallers, fun k hk => ?_⟩
    obtain ⟨told, r, hsettled, htold, hquiet⟩ := h'.all_served hnone (hcallers ▸ hk)
    rw [hquiet (metered_of_told htold)] at hsettled
    exact ⟨told, hsettled⟩

theorem within_start {wal sui : Nat} : Within cfg ex ⟨wal, sui, [], 0, 0, 0⟩ ⟨wal, sui, [], 0, 0, 0⟩ where
  wal := Nat.le_add_right_of_le (Nat.add_le_add_right (Nat.le_max_left _ _) _)
  sui := Nat.add_le_add_right (Nat.min_le_left _ _) _
  late := Nat.le_refl _
  amounts _ hm := absurd hm List.not_mem_nil

/-- Whoever calls for checks and whenever, whatever the calls are answered and whatever else happens to the wallet: one
check runs at a time, which its callers are given, none fails them, and a swap is made where the readings of the check
allow it. WAL stays below what one swap brings on top of the floor, and swaps take no SUI from the reserve but for gas,
up to what others put in and take out and to one swap for each that was answered by an error. -/
theorem ensureWal_guarded (wal sui : Nat) (s : State)
    (hrun : Runs cfg ex { world := { wal, sui } } s) : Guarded cfg ex { wal, sui } s :=
  (Holds.runs (.init within_start) hrun).guarded

def exampleExchange : Exchange where
  gain := 1000000000
  gas := 10000000

/-- Two callers share a check that swaps. -/
theorem ensureWal_guarded_swap : ∃ s, Runs {} exampleExchange { world := { wal := 0, sui := 3000000000 } } s ∧
    s.callers = [0, 0] ∧ s.world.wal = 1000000000 ∧ Guarded {} exampleExchange { wal := 0, sui := 3000000000 } s := by
  have hbalance : ∀ w coinType, (world {} exampleExchange).serves w (.getBalance coinType)
      (.ok (w.balance {} coinType)) w := fun _ _ => .balance
  have hwal : ∀ w mist, (world {} exampleExchange).serves w (.setWalBalance mist) (.ok ()) w := fun _ _ => .walGauge
  have hsui : ∀ w mist, (world {} exampleExchange).serves w (.setSuiBalance mist) (.ok ()) w := fun _ _ => .suiGauge
  have hswap : (world {} exampleExchange).serves { wal := 0, sui := 3000000000 } (.swapSuiForWal 1000000000)
      (.ok "digest") { wal := 1000000000, sui := 1990000000 } :=
    @Serves.swapped _ _ _ _ 1000000000 10000000 "digest" (by decide) (by decide) (by decide)
  have h1 : Runs {} exampleExchange { world := { wal := 0, sui := 3000000000 } } _ := .single .ensure
  have h2 := h1.tail .ensure
  have h3 := h2.tail (.answer (k := 0) _ rfl (hbalance _ _))
  have h4 := h3.tail (.answer (k := 0) _ rfl (hwal _ 0))
  have h5 := h4.tail (.answer (k := 0) _ rfl (hbalance _ _))
  have h6 := h5.tail (.answer (k := 0) _ rfl (hsui _ 3000000000))
  have h7 := h6.tail (.answer (k := 0) _ rfl hswap)
  exact ⟨_, h7, rfl, rfl, ensureWal_guarded 0 3000000000 _ h7⟩

end Bosphor.Relayer.WalTopUp

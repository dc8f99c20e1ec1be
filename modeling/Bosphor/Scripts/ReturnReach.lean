import Bosphor.Scripts.SolanaReturn

/-!
# The returns that stay in reach

A return that is not cleared is in reach while the next tick finds it: among the
newest packets, or in the range that the heal would backfill (`InReach`). It
stays so while no packet pushes an open return out of the newest fifteen with
the heal unable to take over, no commit lets the frontier pass an open return
that has left them, and the heal can read its history (`Kept`,
`returns_in_reach`). A commit that lands without the receipt that follows it can
leave a return behind (`return_out_of_reach`).
-/

namespace Bosphor.SolanaReturn

open Async

/-- The newest packets. -/
def newest (k : Nat) (sent : List LzPacket) : List LzPacket := sent.drop (sent.length - k)

/-- What `querySuiPacketSent` returns of what was sent. -/
def window (cfg : Config) (sent : List LzPacket) : List LzPacket := (pageBefore 15 sent).data.filter (isOurReturn cfg)

/-- The nonces that `healReturnGap(tip)` asks the history for. -/
def healRange (cfg : Config) (healBlockedAt : Option Nat) (frontier tip : Nat) : Finset Nat :=
  if cfg.run = true ∧ 0 < tip ∧ ¬tip ≤ frontier + 1 ∧ healBlockedAt ≠ some frontier then
    Finset.Icc (frontier + 1) tip
  else ∅

/-- The heal goes on from the frontier that it reads exactly where it asks for some nonces. -/
theorem healReturnGap_searches {cfg : Config} {tip : Nat} (htip : 0 < tip)
    {next : Except Failure (Option Nat) → Program Unit}
    (hgap : healReturnGap cfg tip = .await .getNonce next) (memory : Memory) (told : Told) (frontier : Nat) :
    (settle access memory told (next (.ok (some frontier)))).rest = .done () ↔
      healRange cfg memory.healBlockedAt frontier tip = ∅ := by
  unfold healReturnGap at hgap
  split at hgap
  · cases hgap
  · rename_i hrun
    obtain rfl := eq_of_heq (Async.await.inj hgap).2
    unfold healRange
    by_cases hlow : tip ≤ frontier + 1
    · rw [if_neg (by simp [hlow])]
      refine iff_of_true ?_ rfl
      show (settle access memory told (ite (tip ≤ frontier + 1) (pure ()) _)).rest = _
      rw [if_pos hlow]
      rfl
    · by_cases hblocked : memory.healBlockedAt = some frontier
      · rw [if_neg (by simp [hblocked])]
        refine iff_of_true ?_ rfl
        show (settle access memory told (ite (tip ≤ frontier + 1) (pure ()) (call .healBlockedAt >>= _))).rest = _
        rw [if_neg hlow]
        show (settle access memory _ (ite (memory.healBlockedAt = some frontier) (pure ()) _)).rest = _
        rw [if_pos hblocked]
        rfl
      · have hrun : cfg.run = true := by simpa using hrun
        rw [if_pos ⟨hrun, htip, hlow, hblocked⟩]
        refine iff_of_false ?_ ?_
        · show ¬(settle access memory told (ite (tip ≤ frontier + 1) (pure ()) (call .healBlockedAt >>= _))).rest = _
          rw [if_neg hlow]
          show ¬(settle access memory _ (ite (memory.healBlockedAt = some frontier) (pure ()) _)).rest = _
          rw [if_neg hblocked]
          unfold findReturnPacketsInRange searchPages
          rw [if_neg (by simp; omega)]
          intro hdone
          cases hdone
        · exact (Finset.nonempty_Icc.mpr (by omega)).ne_empty

/-- Every return that is not cleared is found by the next tick. -/
def InReach (cfg : Config) (σ : Site) : Prop :=
  ∀ pkt ∈ σ.sent, isOurReturn cfg pkt = true → pkt.nonce ∉ σ.endpoint.cleared → pkt ∈ window cfg σ.sent ∨
    pkt.nonce ∈ healRange cfg σ.memory.healBlockedAt σ.endpoint.inboundNonce (tipOf (window cfg σ.sent))

/-- The heal would work on a nonce, if there is a tip above it. -/
structure HealReaches (cfg : Config) (σ : Site) (nonce : Nat) : Prop where
  run : cfg.run = true
  above : σ.endpoint.inboundNonce < nonce
  unblocked : σ.memory.healBlockedAt ≠ some σ.endpoint.inboundNonce

/-- All returns that are not cleared are among the newest fifteen packets. -/
def AllNew (cfg : Config) (σ : Site) : Prop :=
  ∀ pkt ∈ σ.sent, isOurReturn cfg pkt = true → pkt.nonce ∉ σ.endpoint.cleared → pkt ∈ newest 15 σ.sent

/-- What a step may do. A packet that is sent pushes an open return out of the newest fifteen only where the heal
works on it, and the last of our returns only if all are cleared. A commit makes the frontier pass only returns among
the newest fifteen. A page of the history is answered, unless all open returns are among the newest fifteen, and the
search of the history starts within 2000 packets of the return next to the frontier. -/
def Kept (cfg : Config) (σ : Site) : Event → Prop
  | .send pkt =>
    (∀ old ∈ newest 15 σ.sent, old ∉ newest 14 σ.sent → isOurReturn cfg old = true → old.nonce ∉ σ.endpoint.cleared →
      HealReaches cfg σ old.nonce) ∧
    ((∀ q ∈ newest 14 σ.sent, isOurReturn cfg q = false) → isOurReturn cfg pkt = false →
      ∀ p ∈ σ.sent, isOurReturn cfg p = true → p.nonce ∈ σ.endpoint.cleared)
  | .answer (.sendCommit pkt) _ true => ∀ p ∈ σ.sent, isOurReturn cfg p = true → σ.endpoint.inboundNonce < p.nonce →
      p.nonce ≤ frontier (insert pkt.nonce σ.endpoint.verified) → p ∈ newest 15 σ.sent
  | .answer (.queryEventsBySender limit cursor) r _ => limit = 50 →
    (cursor = none → ∃ p ∈ newest 2000 σ.sent, isOurReturn cfg p = true ∧ p.nonce = σ.endpoint.inboundNonce + 1) ∧
    (r.isOk = true ∨ AllNew cfg σ)
  | _ => True

variable {cfg : Config} {σ τ : Site} {e : Event} {sent : List LzPacket} {p q pkt : LzPacket}
  {n f top : Nat} {told : Told}

/-! ## What is sent -/

theorem mem_window : p ∈ window cfg sent ↔ p ∈ newest 15 sent ∧ isOurReturn cfg p = true := by
  simp only [window, pageBefore, newest, List.mem_filter, List.mem_reverse]

/-- What is among the newest once one more packet is sent. -/
theorem mem_newest_append {k : Nat} : p ∈ newest (k + 1) (sent ++ [pkt]) ↔ p ∈ newest k sent ∨ p = pkt := by
  have hlength : (sent ++ [pkt]).length - (k + 1) = sent.length - k := by
    simp only [List.length_append, List.length_singleton]
    omega
  rw [newest, hlength, List.drop_append_of_le_length (by omega), List.mem_append, List.mem_singleton, newest]

/-- The nonces of our returns count up. -/
structure Ordered (cfg : Config) (sent : List LzPacket) : Prop where
  increasing : (sent.filter (isOurReturn cfg)).Pairwise fun p q => p.nonce < q.nonce
  counted : ∀ p ∈ sent.filter (isOurReturn cfg), p.nonce ≤ (sent.filter (isOurReturn cfg)).length

theorem Ordered.send (h : Ordered cfg sent)
    (hnonce : isOurReturn cfg pkt = true → pkt.nonce = (sent.filter (isOurReturn cfg)).length + 1) :
    Ordered cfg (sent ++ [pkt]) := by
  by_cases hours : isOurReturn cfg pkt = true
  · have hfilter : (sent ++ [pkt]).filter (isOurReturn cfg) = sent.filter (isOurReturn cfg) ++ [pkt] := by
      simp [List.filter_append, hours]
    constructor
    · rw [hfilter, List.pairwise_append]
      refine ⟨h.increasing, List.pairwise_singleton _ _, fun p hp q hq => ?_⟩
      rw [List.mem_singleton.mp hq, hnonce hours]
      exact Nat.lt_succ_of_le (h.counted p hp)
    · intro p hp
      rw [hfilter] at hp ⊢
      rw [List.length_append, List.length_singleton]
      obtain hold | hnew := List.mem_append.mp hp
      · exact (h.counted p hold).trans (Nat.le_succ _)
      · rw [List.mem_singleton.mp hnew, hnonce hours]
  · have hfilter : (sent ++ [pkt]).filter (isOurReturn cfg) = sent.filter (isOurReturn cfg) := by
      simp [List.filter_append, hours]
    exact ⟨hfilter ▸ h.increasing, hfilter ▸ h.counted⟩

/-- An older return has a lower nonce. -/
theorem Ordered.older (h : Ordered cfg sent) {k : Nat} (hp : p ∈ sent) (hpours : isOurReturn cfg p = true)
    (hold : p ∉ newest k sent) (hq : q ∈ newest k sent) (hqours : isOurReturn cfg q = true) : p.nonce < q.nonce := by
  have hsplit := List.take_append_drop (sent.length - k) sent
  have hincreasing := h.increasing
  rw [← hsplit, List.filter_append, List.pairwise_append] at hincreasing
  have htaken : p ∈ sent.take (sent.length - k) := by
    rw [← hsplit] at hp
    exact (List.mem_append.mp hp).resolve_right hold
  exact hincreasing.2.2 p (List.mem_filter.mpr ⟨htaken, hpours⟩) q (List.mem_filter.mpr ⟨hq, hqours⟩)

theorem tipOf_le {packets : List LzPacket} (hq : q ∈ packets) : q.nonce ≤ tipOf packets := by
  have hfold : ∀ (packets : List LzPacket) m, m ≤ packets.foldl (fun m p => if p.nonce > m then p.nonce else m) m ∧
      ∀ q ∈ packets, q.nonce ≤ packets.foldl (fun m p => if p.nonce > m then p.nonce else m) m := by
    intro packets
    induction packets with
    | nil => exact fun m => ⟨le_refl m, fun q hq => absurd hq List.not_mem_nil⟩
    | cons p packets ih =>
      intro m
      obtain ⟨hle, hall⟩ := ih (if p.nonce > m then p.nonce else m)
      have hstep : m ≤ (if p.nonce > m then p.nonce else m) ∧ p.nonce ≤ (if p.nonce > m then p.nonce else m) := by
        split <;> omega
      refine ⟨hstep.1.trans hle, fun q hq => ?_⟩
      obtain rfl | hq := List.mem_cons.mp hq
      · exact hstep.2.trans hle
      · exact hall q hq
  exact (hfold packets 0).2 q hq

/-! ## What is in reach -/

/-- A return in reach: among the newest packets, or below one of ours there, where the heal works on it. -/
theorem inReach_iff (h : Ordered cfg σ.sent) : InReach cfg σ ↔ ∀ p ∈ σ.sent, isOurReturn cfg p = true →
    p.nonce ∉ σ.endpoint.cleared → p ∉ newest 15 σ.sent →
      HealReaches cfg σ p.nonce ∧ ∃ q ∈ newest 15 σ.sent, isOurReturn cfg q = true := by
  constructor
  · intro hreach p hp hours hopen hold
    obtain hwindow | hrange := hreach p hp hours hopen
    · exact absurd (mem_window.mp hwindow).1 hold
    · unfold healRange at hrange
      split at hrange
      · rename_i hdue
        obtain ⟨hrun, htip, -, hblocked⟩ := hdue
        refine ⟨⟨hrun, (Finset.mem_Icc.mp hrange).1, hblocked⟩, ?_⟩
        cases hwindow : window cfg σ.sent with
        | nil => simp [hwindow, tipOf] at htip
        | cons q rest =>
          have hq : q ∈ window cfg σ.sent := by simp [hwindow]
          exact ⟨q, mem_window.mp hq⟩
      · simp at hrange
  · intro hreach p hp hours hopen
    by_cases hnew : p ∈ newest 15 σ.sent
    · exact Or.inl (mem_window.mpr ⟨hnew, hours⟩)
    · obtain ⟨hheal, q, hq, hqours⟩ := hreach p hp hours hopen hnew
      have hlt := h.older hp hours hnew hq hqours
      have htip := tipOf_le (mem_window.mpr ⟨hq, hqours⟩)
      have habove := hheal.above
      refine Or.inr ?_
      rw [healRange, if_pos ⟨hheal.run, by omega, by omega, hheal.unblocked⟩, Finset.mem_Icc]
      omega

/-! ## What the worker stands on -/

/-- The first page of a search reached the return after `f`, and the pages are those of the history. -/
structure Reached (cfg : Config) (f : Nat) (told : Told) : Prop where
  first : ∀ page, ⟨.queryEventsBySender 50 none, .ok page⟩ ∈ told → ∃ events, page = pageBefore 50 events ∧
    ∃ p ∈ newest 2000 events, isOurReturn cfg p = true ∧ p.nonce = f + 1
  next : ∀ older page, ⟨.queryEventsBySender 50 (some older), .ok page⟩ ∈ told → page = pageBefore 50 older

/-- The endpoint has passed the return after `f`. -/
def Passed (f : Nat) (told : Told) : Prop :=
  (∃ pkt : LzPacket, pkt.nonce = f + 1 ∧ ⟨.sendLzReceive pkt, .ok ()⟩ ∈ told) ∨
    ∃ state, ⟨.getMultipleAccountsInfo (f + 1), .ok state⟩ ∈ told ∧ f + 1 ≤ state.inboundNonce

/-- The last thing that was told is that a page of the history could not be read. -/
def PageFailed (told : Told) : Prop := ∃ h cursor err, told = h ++ [⟨.queryEventsBySender 50 cursor, .error err⟩]

/-- What a call stands on: the heal is blocked at the frontier that was read, and only where that has passed, a page
has just failed, or the search did not reach far enough. -/
def Grounds (cfg : Config) (told : Told) : Call → Prop
  | .getNonce => ∀ cursor r, ⟨.queryEventsBySender 50 cursor, r⟩ ∉ told
  | .setHealBlockedAt (some f) =>
    ⟨.getNonce, .ok (some f)⟩ ∈ told ∧ (Passed f told ∨ PageFailed told ∨ ¬Reached cfg f told)
  | _ => True

/-- A call that stands on nothing. -/
def Plain : Call → Prop
  | .getNonce | .setHealBlockedAt (some _) => False
  | _ => True

theorem Plain.grounds {c : Call} (hc : Plain c) : Grounds cfg told c := by
  cases c with
  | getNonce => exact hc.elim
  | setHealBlockedAt v => cases v with
    | none => trivial
    | some f => exact hc.elim
  | _ => trivial

theorem Passed.append (h : Passed f told) (h' : Told) : Passed f (told ++ h') := by
  obtain ⟨pkt, hnonce, hmem⟩ | ⟨state, hmem, hle⟩ := h
  · exact Or.inl ⟨pkt, hnonce, List.mem_append_left _ hmem⟩
  · exact Or.inr ⟨state, List.mem_append_left _ hmem, hle⟩

theorem Reached.before {h' : Told} (h : Reached cfg f (told ++ h')) : Reached cfg f told :=
  ⟨fun page hmem => h.first page (List.mem_append_left _ hmem),
    fun older page hmem => h.next older page (List.mem_append_left _ hmem)⟩

/-- How a delivery ends. -/
def Ended (cfg : Config) (pkt : LzPacket) (told : Told) : Except Failure Delivery → Prop
  | .ok .sent => ⟨.sendLzReceive pkt, .ok ()⟩ ∈ told
  | .ok .already => ∃ state, ⟨.getMultipleAccountsInfo pkt.nonce, .ok state⟩ ∈ told ∧ pkt.nonce ≤ state.inboundNonce
  | .ok .dry => cfg.run = false
  | _ => True

/-- A step that stands on nothing, before the rest of a program. -/
theorem wp_plain {α β : Type} {Q : Told → Except Failure β → Prop} {p : Program α} {rest : α → Program β}
    (hp : Calls Plain p) (hfail : ∀ h e, Q h (.error e)) (hrest : ∀ h a, wp (Grounds cfg) Q h (rest a)) :
    wp (Grounds cfg) Q told (p >>= rest) := by
  rw [wp_bind]
  refine wp_frame (I := fun _ => True) (fun _ _ _ _ _ => trivial) (fun _ _ _ hc => hc.grounds)
    (fun h r _ => ?_) hp trivial
  cases r with
  | ok a => exact hrest h a
  | error e => exact hfail h e

theorem readNonceState_reads (nonce : Nat) : wp (Grounds cfg) (fun h r => ∀ state, r = .ok (some state) →
    ⟨.getMultipleAccountsInfo nonce, .ok state⟩ ∈ h) told (readNonceState nonce) := by
  unfold readNonceState
  rw [wp_tryCatch, wp_bind]
  refine (wp_call _).mpr ⟨trivial, fun r => ?_⟩
  cases r with
  | error e => exact fun state hstate => by cases hstate
  | ok state =>
    intro state' hstate
    cases hstate
    simp

theorem deliverPending_ends (pkt : LzPacket) : wp (Grounds cfg) (Ended cfg pkt) told (deliverPending cfg pkt) := by
  unfold deliverPending
  refine wp_plain (Calls.tryCatch (calls_call trivial) fun _ => trivial) (fun _ _ => trivial) fun h ep => ?_
  refine wp_plain (Calls.tryCatch (calls_call trivial) fun _ => trivial) (fun _ _ => trivial) fun h uln => ?_
  refine wp_plain (Calls.tryCatch (Calls.bind (calls_call trivial) fun _ => trivial) fun _ => trivial)
    (fun _ _ => trivial) fun h metas => ?_
  split
  · rename_i hrun
    exact (Bool.not_eq_true' _).mp hrun
  · refine wp_plain (Calls.tryCatch (calls_call trivial) fun _ => trivial) (fun _ _ => trivial) fun h _ => ?_
    refine wp_plain (Calls.tryCatch (calls_call trivial) fun _ => trivial) (fun _ _ => trivial) fun h _ => ?_
    have hreceive : ∀ h, wp (Grounds cfg) (orElse (Grounds cfg) (Ended cfg pkt) fun _ =>
        (pure .skipped : Program Delivery)) h
        (call (.sendLzReceive pkt) >>= fun _ => pure .sent) := by
      intro h
      rw [wp_bind]
      refine (wp_call _).mpr ⟨trivial, fun r => ?_⟩
      cases r with
      | error e => exact trivial
      | ok u => exact List.mem_append_right _ (List.mem_singleton_self _)
    rw [wp_tryCatch]
    split
    · exact wp_plain (calls_call trivial) (fun _ _ => trivial) fun h _ => hreceive h
    · exact hreceive h

theorem deliver_ends (pkt : LzPacket) : wp (Grounds cfg) (Ended cfg pkt) told (deliver cfg pkt) := by
  unfold deliver
  rw [wp_bind]
  refine wp_mono (readNonceState_reads pkt.nonce) (fun _ _ => id) fun h r hread => ?_
  cases r with
  | error e => exact trivial
  | ok state =>
    rw [andThen_ok]
    cases hstate : returnDeliveryState pkt.nonce state with
    | unknown => exact trivial
    | pending => exact deliverPending_ends pkt
    | delivered =>
      cases state with
      | none => cases hstate
      | some state =>
        refine ⟨state, hread state rfl, ?_⟩
        simp only [returnDeliveryState] at hstate
        split at hstate
        · rename_i hdone
          simp only [Bool.and_eq_true, decide_eq_true_eq] at hdone
          exact hdone.2
        · cases hstate

/-! ## The search -/

/-- The return after `f` is wanted still, or found. -/
def Sought (f : Nat) (x : List Nat × List LzPacket) : Prop := f + 1 ∈ x.1 ∨ ∃ q ∈ x.2, q.nonce = f + 1

theorem takeWanted_sought {x : List Nat × List LzPacket} (h : Sought f x) (pkt : LzPacket) :
    Sought f (takeWanted cfg x pkt) := by
  unfold takeWanted
  split
  · obtain hwanted | ⟨q, hq, hnonce⟩ := h
    · by_cases hpkt : pkt.nonce = f + 1
      · exact Or.inr ⟨pkt, by simp, hpkt⟩
      · refine Or.inl (List.mem_filter.mpr ⟨hwanted, ?_⟩)
        simpa using Ne.symm hpkt
    · exact Or.inr ⟨q, List.mem_append_left _ hq, hnonce⟩
  · exact h

theorem takeWanted_found {x : List Nat × List LzPacket} (h : ∃ q ∈ x.2, q.nonce = f + 1) (pkt : LzPacket) :
    ∃ q ∈ (takeWanted cfg x pkt).2, q.nonce = f + 1 := by
  obtain ⟨q, hq, hnonce⟩ := h
  refine ⟨q, ?_, hnonce⟩
  unfold takeWanted
  split
  · exact List.mem_append_left _ hq
  · exact hq

theorem takeAll_found {data : List LzPacket} {x : List Nat × List LzPacket} (h : ∃ q ∈ x.2, q.nonce = f + 1) :
    ∃ q ∈ (data.foldl (takeWanted cfg) x).2, q.nonce = f + 1 := by
  induction data generalizing x with
  | nil => exact h
  | cons pkt data ih => exact ih (takeWanted_found h pkt)

theorem takeAll_sought {data : List LzPacket} {x : List Nat × List LzPacket} (h : Sought f x) :
    Sought f (data.foldl (takeWanted cfg) x) := by
  induction data generalizing x with
  | nil => exact h
  | cons pkt data ih => exact ih (takeWanted_sought h pkt)

/-- A page with the return after `f` finds it. -/
theorem takeAll_finds {data : List LzPacket} {x : List Nat × List LzPacket} (h : Sought f x) (hp : p ∈ data)
    (hours : isOurReturn cfg p = true) (hnonce : p.nonce = f + 1) :
    ∃ q ∈ (data.foldl (takeWanted cfg) x).2, q.nonce = f + 1 := by
  induction data generalizing x with
  | nil => cases hp
  | cons pkt data ih =>
    obtain rfl | hp := List.mem_cons.mp hp
    · show ∃ q ∈ (data.foldl (takeWanted cfg) (takeWanted cfg x p)).2, q.nonce = f + 1
      refine takeAll_found ?_
      obtain hwanted | hfound := h
      · refine ⟨p, ?_, hnonce⟩
        rw [← hnonce] at hwanted
        simp [takeWanted, hours, hwanted]
      · exact takeWanted_found hfound p
    · exact ih (takeWanted_sought h pkt) hp

/-- What is among the newest of some events is on their last page or among the newest before it. -/
theorem mem_newest_page {k : Nat} {events : List LzPacket} (hp : p ∈ newest (k + 50) events) :
    p ∈ newest 50 events ∨ p ∈ newest k (events.take (events.length - 50)) := by
  have hsplit : newest (k + 50) events = newest k (events.take (events.length - 50)) ++ newest 50 events := by
    rw [newest, newest, newest, List.length_take, Nat.min_eq_left (Nat.sub_le _ _), ← List.drop_append_of_le_length,
      List.take_append_drop]
    · congr 1
      omega
    · rw [List.length_take]
      omega
  rw [hsplit, List.mem_append] at hp
  exact hp.symm

/-- What a search comes to that stands at a cursor, with so many pages left. -/
theorem searchPages_grounded {pages : Nat} {x : List Nat × List LzPacket} {cursor : Option (List LzPacket)}
    (hx : Sought f x) (hcursor : Reached cfg f told → (∃ q ∈ x.2, q.nonce = f + 1) ∨ (cursor = none ∧ pages = 40) ∨
      ∃ older, cursor = some older ∧ ∃ p ∈ newest (50 * pages) older, isOurReturn cfg p = true ∧ p.nonce = f + 1) :
    wp (Grounds cfg) (fun h r => ∀ found, r = .ok found → (∃ q ∈ found, q.nonce = f + 1) ∨ PageFailed h ∨
      ¬Reached cfg f h)
      told (searchPages cfg pages x cursor) := by
  induction pages generalizing x cursor told with
  | zero =>
    rintro found ⟨⟩
    by_cases hreached : Reached cfg f told
    · obtain hfound | ⟨-, hforty⟩ | ⟨older, -, p, hp, -⟩ := hcursor hreached
      · exact Or.inl hfound
      · cases hforty
      · simp [newest] at hp
    · exact Or.inr (Or.inr hreached)
  | succ pages ih =>
    unfold searchPages
    split
    · rename_i hempty
      rintro found ⟨⟩
      rw [List.isEmpty_iff] at hempty
      obtain hwanted | hfound := hx
      · rw [hempty] at hwanted
        cases hwanted
      · exact Or.inl hfound
    · rw [wp_bind, wp_tryCatch, wp_bind]
      refine (wp_call _).mpr ⟨trivial, fun r => ?_⟩
      cases r with
      | error err =>
        rintro found ⟨⟩
        exact Or.inr (Or.inl ⟨told, cursor, err, rfl⟩)
      | ok page =>
        -- the page shows the return, or it is among those before the page
        have hpage : Reached cfg f (told ++ [⟨.queryEventsBySender 50 cursor, .ok page⟩]) →
            (∃ q ∈ (page.data.foldl (takeWanted cfg) x).2, q.nonce = f + 1) ∨
              ∃ events, page = pageBefore 50 events ∧ ∃ p ∈ newest (50 * pages) (events.take (events.length - 50)),
                isOurReturn cfg p = true ∧ p.nonce = f + 1 := by
          intro hreached
          have hevents : (∃ q ∈ x.2, q.nonce = f + 1) ∨ ∃ events, page = pageBefore 50 events ∧
              ∃ p ∈ newest (50 * pages + 50) events, isOurReturn cfg p = true ∧ p.nonce = f + 1 := by
            obtain hfound | ⟨rfl, hforty⟩ | ⟨older, rfl, hp⟩ := hcursor hreached.before
            · exact Or.inl hfound
            · obtain ⟨events, hpage, hp⟩ := hreached.first page (by simp)
              have hpages : 50 * pages + 50 = 2000 := by omega
              exact Or.inr ⟨events, hpage, hpages ▸ hp⟩
            · exact Or.inr ⟨older, hreached.next older page (by simp), hp⟩
          obtain hfound | ⟨events, hpage, p, hp, hours, hnonce⟩ := hevents
          · exact Or.inl (takeAll_found hfound)
          · obtain hshown | hbefore := mem_newest_page hp
            · refine Or.inl (takeAll_finds hx ?_ hours hnonce)
              rw [hpage]
              exact List.mem_reverse.mpr hshown
            · exact Or.inr ⟨events, hpage, p, hbefore, hours, hnonce⟩
        rw [andThen_ok, wp_pure, orElse_ok, andThen_ok]
        dsimp only
        split
        · rename_i hlast
          rintro found ⟨⟩
          by_cases hreached : Reached cfg f (told ++ [⟨.queryEventsBySender 50 cursor, .ok page⟩])
          · obtain hfound | ⟨events, rfl, p, hp, -⟩ := hpage hreached
            · exact Or.inl hfound
            · have hshort : events.length ≤ 50 := by simpa [pageBefore] using hlast
              rw [Nat.sub_eq_zero_of_le hshort] at hp
              simp [newest] at hp
          · exact Or.inr (Or.inr hreached)
        · refine ih (takeAll_sought hx) fun hreached => ?_
          obtain hfound | ⟨events, rfl, hbefore⟩ := hpage hreached
          · exact Or.inl hfound
          · exact Or.inr (Or.inr ⟨_, rfl, hbefore⟩)

/-! ## The heal and the tick -/

/-- What was told stays so while a delivery goes on. -/
theorem deliver_along {I : Told → Prop} (hI : ∀ h x, I h → I (h ++ [x])) (h₀ : I told) (pkt : LzPacket) :
    wp (Grounds cfg) (fun h r => Ended cfg pkt h r ∧ I h) told (deliver cfg pkt) :=
  wp_mono (wp_along hI (deliver_ends pkt) h₀) (fun _ _ hc => hc.1) fun _ _ => id

/-- The backfill once the endpoint has passed the return after `f`. -/
theorem backfill_passed {packets : List LzPacket} {left : Nat} (hnonce : ⟨.getNonce, .ok (some f)⟩ ∈ told)
    (hpassed : Passed f told) : wp (Grounds cfg) (fun _ _ => True) told (backfill cfg packets f n left) := by
  induction left generalizing n told with
  | zero => trivial
  | succ left ih =>
    unfold backfill
    cases hpkt : packets.find? (·.nonce == n) with
    | none => exact (wp_call _).mpr ⟨⟨hnonce, Or.inl hpassed⟩, fun _ => trivial⟩
    | some pkt =>
      simp only
      rw [wp_bind]
      refine wp_mono (deliver_along (I := fun h => ⟨.getNonce, .ok (some f)⟩ ∈ h ∧ Passed f h)
        (fun h x hI => ⟨List.mem_append_left _ hI.1, hI.2.append _⟩) ⟨hnonce, hpassed⟩ pkt) (fun _ _ => id)
          fun h r hr => ?_
      obtain ⟨-, hnonce, hpassed⟩ := hr
      cases r with
      | error e => trivial
      | ok r =>
        rw [andThen_ok]
        split
        · trivial
        · rw [wp_bind]
          refine (wp_call _).mpr ⟨trivial, fun r => ?_⟩
          cases r with
          | error e => trivial
          | ok u => exact ih (List.mem_append_left _ hnonce) (hpassed.append _)

/-- The backfill from the return after `f`. -/
theorem backfill_grounded {packets : List LzPacket} {left : Nat} (hrun : cfg.run = true)
    (hnonce : ⟨.getNonce, .ok (some f)⟩ ∈ told)
    (hfound : (∃ q ∈ packets, q.nonce = f + 1) ∨ PageFailed told ∨ ¬Reached cfg f told) :
    wp (Grounds cfg) (fun _ _ => True) told (backfill cfg packets f (f + 1) left) := by
  cases left with
  | zero => trivial
  | succ left =>
    unfold backfill
    cases hpkt : packets.find? (·.nonce == f + 1) with
    | none =>
      refine (wp_call _).mpr ⟨⟨hnonce, Or.inr (hfound.resolve_left ?_)⟩, fun _ => trivial⟩
      rintro ⟨q, hq, hqnonce⟩
      exact List.find?_eq_none.mp hpkt q hq (by simp [hqnonce])
    | some pkt =>
      have hpktNonce : pkt.nonce = f + 1 := by simpa using List.find?_some hpkt
      simp only
      rw [wp_bind]
      refine wp_mono (deliver_along (I := fun h => ⟨.getNonce, .ok (some f)⟩ ∈ h)
        (fun h x hI => List.mem_append_left _ hI) hnonce pkt) (fun _ _ => id) fun h r hr => ?_
      obtain ⟨hended, hnonce⟩ := hr
      cases r with
      | error e => trivial
      | ok r =>
        rw [andThen_ok]
        split
        · trivial
        · rename_i hdelivered
          have hpassed : Passed f h := by
            cases r with
            | sent => exact Or.inl ⟨pkt, hpktNonce, hended⟩
            | already =>
              obtain ⟨state, hmem, hle⟩ := hended
              rw [hpktNonce] at hmem hle
              exact Or.inr ⟨state, hmem, hle⟩
            | skipped => exact absurd rfl hdelivered
            | dry => exact absurd (hrun.symm.trans hended) Bool.noConfusion
          rw [wp_bind]
          refine (wp_call _).mpr ⟨trivial, fun r => ?_⟩
          cases r with
          | error e => trivial
          | ok u => exact backfill_passed (List.mem_append_left _ hnonce) (hpassed.append _)

theorem healReturnGap_grounded {tip : Nat} (hbefore : ∀ cursor r, ⟨.queryEventsBySender 50 cursor, r⟩ ∉ told) :
    wp (Grounds cfg) (fun _ _ => True) told (healReturnGap cfg tip) := by
  unfold healReturnGap
  split
  · trivial
  · rename_i hrun
    rw [wp_bind, wp_tryCatch]
    refine (wp_call _).mpr ⟨hbefore, fun r => ?_⟩
    cases r with
    | error e => trivial
    | ok nonce =>
      rw [orElse_ok, andThen_ok]
      cases nonce with
      | none => trivial
      | some f =>
        simp only
        split
        · trivial
        · rename_i htip
          rw [wp_bind]
          refine (wp_call _).mpr ⟨trivial, fun r => ?_⟩
          cases r with
          | error e => trivial
          | ok blocked =>
            rw [andThen_ok]
            split
            · trivial
            · rw [wp_bind, findReturnPacketsInRange]
              have hsought : Sought f (List.range' (f + 1) (tip + 1 - (f + 1)), []) := by
                refine Or.inl (List.mem_range'_1.mpr ?_)
                omega
              refine wp_mono (wp_along (I := fun h => ⟨.getNonce, .ok (some f)⟩ ∈ h)
                (fun h x hI => List.mem_append_left _ hI)
                (searchPages_grounded hsought fun _ => Or.inr (Or.inl ⟨rfl, rfl⟩)) (by simp)) (fun _ _ hc => hc.1)
                fun h r hr => ?_
              obtain ⟨hfound, hnonce⟩ := hr
              cases r with
              | error e => trivial
              | ok packets =>
                exact backfill_grounded ((Bool.not_eq_false' _).mp (by simpa using hrun)) hnonce (hfound packets rfl)

theorem deliverNew_grounded {packets : List LzPacket} :
    wp (Grounds cfg) (fun _ _ => True) told (deliverNew cfg packets) := by
  induction packets generalizing told with
  | nil => trivial
  | cons pkt packets ih =>
    unfold deliverNew
    refine wp_plain (calls_call trivial) (fun _ _ => trivial) fun h seen => ?_
    have hadd : ∀ h : Told, wp (Grounds cfg) (fun _ _ => True) h
        (call (.seenAdd pkt.guid) >>= fun _ => deliverNew cfg packets) :=
      fun h => wp_plain (calls_call trivial) (fun _ _ => trivial) fun h _ => ih
    split
    · rw [wp_bind]
      refine wp_mono (deliver_ends pkt) (fun _ _ => id) fun h r _ => ?_
      cases r with
      | error e => trivial
      | ok r =>
        rw [andThen_ok]
        split
        · exact hadd h
        · exact ih
    · exact ih

/-- What the calls of a tick stand on. -/
theorem tick_grounded : wp (Grounds cfg) (fun _ _ => True) [] (SolanaReturn.tick cfg) := by
  unfold SolanaReturn.tick querySuiPacketSent
  rw [wp_tryCatch, wp_bind, wp_bind]
  refine (wp_call _).mpr ⟨trivial, fun r => ?_⟩
  cases r with
  | error e => trivial
  | ok page =>
    rw [andThen_ok, wp_pure, andThen_ok]
    have hcaught : ∀ (h : Told) (r : Except Failure Unit),
        orElse (Grounds cfg) (fun _ _ => True) (fun _ => (pure () : Program Unit)) h r := by
      intro h r
      cases r <;> trivial
    refine wp_mono (Q := fun _ _ => True) ?_ (fun _ _ => id) fun h r _ => hcaught h r
    dsimp only
    split
    · rw [wp_bind]
      refine wp_mono (healReturnGap_grounded fun cursor r => by simp) (fun _ _ => id) fun h r _ => ?_
      cases r with
      | error e => trivial
      | ok u => exact deliverNew_grounded
    · exact deliverNew_grounded

/-! ## The invariant -/

theorem frontier_mono {verified verified' : Finset Nat} (h : verified ⊆ verified') :
    frontier verified ≤ frontier verified' := by
  refine Nat.find_min' _ fun hmem => ?_
  exact Nat.find_spec (exists_unverified verified') (h hmem)

/-- What was told is true of an endpoint whose frontier is `top`, and of the history. -/
structure Truthful (cfg : Config) (top : Nat) (told : Told) : Prop where
  nonce : ∀ f, ⟨.getNonce, .ok (some f)⟩ ∈ told → f ≤ top
  state : ∀ n state, ⟨.getMultipleAccountsInfo n, .ok state⟩ ∈ told → state.inboundNonce ≤ top
  received : ∀ pkt : LzPacket, ⟨.sendLzReceive pkt, .ok ()⟩ ∈ told → pkt.nonce ≤ top
  reached : ∀ f, ⟨.getNonce, .ok (some f)⟩ ∈ told → f < top ∨ Reached cfg f told
  pages : ∀ older page, ⟨.queryEventsBySender 50 (some older), .ok page⟩ ∈ told → page = pageBefore 50 older

/-- What holds throughout. -/
structure Sound (cfg : Config) (σ : Site) : Prop where
  ordered : Ordered cfg σ.sent
  inReach : InReach cfg σ
  blocked : ∀ f, σ.memory.healBlockedAt = some f → f ≤ σ.endpoint.inboundNonce
  truthful : ∀ told rest, σ.tick = some (told, rest) → Truthful cfg σ.endpoint.inboundNonce told
  grounded : ∀ told rest, σ.tick = some (told, rest) → wp (Grounds cfg) (fun _ _ => True) told rest

/-- What was told stays true while the frontier does not fall. -/
theorem Truthful.grows (h : Truthful cfg top told) {top' : Nat} (hle : top ≤ top') :
    Truthful cfg top' told where
  nonce f hmem := (h.nonce f hmem).trans hle
  state n state hmem := (h.state n state hmem).trans hle
  received pkt hmem := (h.received pkt hmem).trans hle
  reached f hmem := (h.reached f hmem).imp_left fun hlt => hlt.trans_le hle
  pages := h.pages

/-- The frontier has passed what the endpoint was told to have passed. -/
theorem Truthful.passed (h : Truthful cfg top told) (hpassed : Passed f told) : f < top := by
  obtain ⟨pkt, hnonce, hmem⟩ | ⟨state, hmem, hle⟩ := hpassed
  · have hle := h.received pkt hmem
    rwa [hnonce] at hle
  · exact hle.trans (h.state _ state hmem)

/-- An answer that is neither of the endpoint's nor a page of the history. -/
def Silent : Call → Prop
  | .getNonce | .getMultipleAccountsInfo _ | .sendLzReceive _ | .queryEventsBySender .. => False
  | _ => True

theorem Truthful.append (h : Truthful cfg top told) {c : Call} {r : Except Failure c.Answer}
    (hnonce : ∀ f, (⟨c, r⟩ : Σ c : Call, Except Failure c.Answer) = ⟨.getNonce, .ok (some f)⟩ →
      f ≤ top ∧ ∀ cursor r, ⟨.queryEventsBySender 50 cursor, r⟩ ∉ told)
    (hstate : ∀ n state, (⟨c, r⟩ : Σ c : Call, Except Failure c.Answer) = ⟨.getMultipleAccountsInfo n, .ok state⟩ →
      state.inboundNonce ≤ top)
    (hreceived : ∀ pkt : LzPacket, (⟨c, r⟩ : Σ c : Call, Except Failure c.Answer) = ⟨.sendLzReceive pkt, .ok ()⟩ →
      pkt.nonce ≤ top)
    (hfirst : ∀ page, (⟨c, r⟩ : Σ c : Call, Except Failure c.Answer) = ⟨.queryEventsBySender 50 none, .ok page⟩ →
      ∃ events, page = pageBefore 50 events ∧
        ∃ p ∈ newest 2000 events, isOurReturn cfg p = true ∧ p.nonce = top + 1)
    (hpage : ∀ older page, (⟨c, r⟩ : Σ c : Call, Except Failure c.Answer) =
      ⟨.queryEventsBySender 50 (some older), .ok page⟩ → page = pageBefore 50 older) :
    Truthful cfg top (told ++ [⟨c, r⟩]) := by
  have hpages : ∀ older page, ⟨.queryEventsBySender 50 (some older), .ok page⟩ ∈ told ++ [⟨c, r⟩] →
      page = pageBefore 50 older := by
    intro older page hmem
    obtain hold | hnew := List.mem_append.mp hmem
    · exact h.pages older page hold
    · exact hpage older page (List.mem_singleton.mp hnew).symm
  refine ⟨fun f hmem => ?_, fun n state hmem => ?_, fun pkt hmem => ?_, fun f hmem => ?_, hpages⟩
  · obtain hold | hnew := List.mem_append.mp hmem
    · exact h.nonce f hold
    · exact (hnonce f (List.mem_singleton.mp hnew).symm).1
  · obtain hold | hnew := List.mem_append.mp hmem
    · exact h.state n state hold
    · exact hstate n state (List.mem_singleton.mp hnew).symm
  · obtain hold | hnew := List.mem_append.mp hmem
    · exact h.received pkt hold
    · exact hreceived pkt (List.mem_singleton.mp hnew).symm
  · obtain hold | hnew := List.mem_append.mp hmem
    · obtain hlt | hreached := h.reached f hold
      · exact Or.inl hlt
      · refine (lt_or_eq_of_le (h.nonce f hold)).imp_right fun heq => ⟨fun page hmem => ?_, hpages⟩
        obtain hbefore | hlast := List.mem_append.mp hmem
        · exact hreached.first page hbefore
        · exact heq ▸ hfirst page (List.mem_singleton.mp hlast).symm
    · have hcall := (List.mem_singleton.mp hnew).symm
      refine Or.inr ⟨fun page hmem => ?_, hpages⟩
      obtain hbefore | hlast := List.mem_append.mp hmem
      · exact absurd hbefore ((hnonce f hcall).2 _ _)
      · have hboth := hcall.symm.trans (List.mem_singleton.mp hlast).symm
        cases hboth

theorem Truthful.silent (h : Truthful cfg top told) {c : Call} (hc : Silent c) (r : Except Failure c.Answer) :
    Truthful cfg top (told ++ [⟨c, r⟩]) := by
  refine h.append ?_ ?_ ?_ ?_ ?_
  · rintro f ⟨⟩
    exact hc.elim
  · rintro n state ⟨⟩
    exact hc.elim
  · rintro pkt ⟨⟩
    exact hc.elim
  · rintro page ⟨⟩
    exact hc.elim
  · rintro older page ⟨⟩
    exact hc.elim

/-! ## The steps -/

/-- What the memory of the worker keeps, once it was told `h`. -/
structure Remembered (cfg : Config) (σ : Site) (m : Memory) (h : Told) : Prop where
  inReach : InReach cfg { σ with memory := m }
  blocked : ∀ f, m.healBlockedAt = some f → f ≤ σ.endpoint.inboundNonce
  truthful : Truthful cfg σ.endpoint.inboundNonce h
  failed : PageFailed h → AllNew cfg σ

/-- Nothing failed if the last call was none for a page. -/
theorem not_pageFailed {c : Call} {r : Except Failure c.Answer} (hc : ∀ cursor, c ≠ .queryEventsBySender 50 cursor) :
    ¬PageFailed (told ++ [⟨c, r⟩]) := by
  rintro ⟨h, cursor, err, heq⟩
  obtain ⟨-, hlast⟩ := List.append_inj' heq rfl
  rw [List.singleton_inj, Sigma.mk.injEq] at hlast
  exact hc cursor hlast.1

/-- A return is in reach as before if the heal is blocked where the frontier has passed. -/
theorem InReach.passed {m : Memory} (h : Ordered cfg σ.sent) (hreach : InReach cfg { σ with memory := m })
    {healBlockedAt : Option Nat} (hpassed : ∀ f, healBlockedAt = some f → f < σ.endpoint.inboundNonce) :
    InReach cfg { σ with memory := { m with healBlockedAt := healBlockedAt } } := by
  refine (inReach_iff (σ := { σ with memory := { m with healBlockedAt := healBlockedAt } }) h).mpr
    fun p hp hours hopen hold => ?_
  obtain ⟨hheal, hnew⟩ := (inReach_iff (σ := { σ with memory := m }) h).mp hreach p hp hours hopen hold
  refine ⟨⟨hheal.run, hheal.above, fun hblocked => ?_⟩, hnew⟩
  exact absurd (hpassed _ hblocked) (lt_irrefl _)

theorem AllNew.inReach (h : AllNew cfg σ) : InReach cfg σ :=
  fun p hp hours hopen => Or.inl (mem_window.mpr ⟨h p hp hours hopen, hours⟩)

theorem Remembered.access {m : Memory} (h : Ordered cfg σ.sent) (hm : Remembered cfg σ m told) {c : Call}
    {f : Memory → c.Answer × Memory} (hc : access c = some f) (hgrounds : Grounds cfg told c) :
    Remembered cfg σ (f m).2 (told ++ [⟨c, .ok (f m).1⟩]) := by
  cases c with
  | healBlockedAt | seenHas | seenAdd =>
    cases hc
    exact ⟨hm.inReach, hm.blocked, hm.truthful.silent (by trivial) _, fun hfailed =>
      absurd hfailed (not_pageFailed (by simp))⟩
  | setHealBlockedAt v =>
    cases hc
    refine ⟨?_, ?_, hm.truthful.silent (by trivial) _, fun hfailed => absurd hfailed (not_pageFailed (by simp))⟩
    · cases v with
      | none => exact hm.inReach.passed h fun f hf => by cases hf
      | some f =>
        have hblocks : f < σ.endpoint.inboundNonce →
            InReach cfg { σ with memory := { m with healBlockedAt := some f } } := by
          intro hlt
          refine hm.inReach.passed h fun f' hf' => ?_
          cases hf'
          exact hlt
        obtain ⟨hnonce, hpassed | hfailed | hreached⟩ := hgrounds
        · exact hblocks (hm.truthful.passed hpassed)
        · exact AllNew.inReach (σ := { σ with memory := { m with healBlockedAt := some f } }) (hm.failed hfailed)
        · exact hblocks ((hm.truthful.reached f hnonce).resolve_right hreached)
    · intro f hf
      cases v with
      | none => cases hf
      | some f' =>
        cases hf
        exact hm.truthful.nonce _ hgrounds.1
  | _ => cases hc

/-- The worker goes on with an answer. -/
theorem Sound.answered (hs : Sound cfg σ) {rest : Program Unit} {c : Call} {r : Except Failure c.Answer}
    {next : Except Failure c.Answer → Program Unit} {endpoint : Endpoint} (htick : σ.tick = some (told, rest))
    (hrest : rest = .await c next) (hreach : InReach cfg { σ with endpoint := endpoint })
    (hle : σ.endpoint.inboundNonce ≤ endpoint.inboundNonce)
    (htruth : Truthful cfg endpoint.inboundNonce (told ++ [⟨c, r⟩]))
    (hfailed : PageFailed (told ++ [⟨c, r⟩]) → AllNew cfg { σ with endpoint := endpoint }) :
    Sound cfg (σ.answered told c r next endpoint) := by
  have hwp := hs.grounded told rest htick
  rw [hrest] at hwp
  have hstart : Remembered cfg { σ with endpoint := endpoint } σ.memory (told ++ [⟨c, r⟩]) :=
    ⟨hreach, fun f hf => (hs.blocked f hf).trans hle, htruth, hfailed⟩
  obtain ⟨hm, hgrounded⟩ := Async.settle_keeps (I := Remembered cfg { σ with endpoint := endpoint })
    (fun m h c f hc hgrounds hm =>
      Remembered.access (σ := { σ with endpoint := endpoint }) hs.ordered hm hc hgrounds) (hwp.2 r) hstart
  refine ⟨hs.ordered, hm.inReach, hm.blocked, ?_, ?_⟩
  · rintro told' rest' ⟨⟩
    exact hm.truthful
  · rintro told' rest' ⟨⟩
    exact hgrounded

/-- A page fails only while all open returns are new. -/
theorem Kept.failed {c : Call} {r : Except Failure c.Answer} {landed : Bool} (h : Kept cfg σ (.answer c r landed))
    (hfailed : PageFailed (told ++ [⟨c, r⟩])) : AllNew cfg σ := by
  obtain ⟨h', cursor, err, heq⟩ := hfailed
  obtain ⟨-, hlast⟩ := List.append_inj' heq rfl
  cases List.singleton_inj.mp hlast
  obtain ⟨-, hok | hnew⟩ := h rfl
  · cases hok
  · exact hnew

/-- A packet is sent. -/
theorem Kept.send (h : Kept cfg σ (.send pkt)) (hs : Sound cfg σ) (hordered : Ordered cfg (σ.sent ++ [pkt])) :
    InReach cfg { σ with sent := σ.sent ++ [pkt] } := by
  obtain ⟨hpushed, hlast⟩ := h
  refine (inReach_iff (σ := { σ with sent := σ.sent ++ [pkt] }) hordered).mpr fun p hp hours hopen hold => ?_
  have hnot : p ∉ newest 14 σ.sent ∧ p ≠ pkt := not_or.mp fun h => hold (mem_newest_append.mpr h)
  have hsent : p ∈ σ.sent := (List.mem_append.mp hp).resolve_right fun h => hnot.2 (List.mem_singleton.mp h)
  have hheal : HealReaches cfg σ p.nonce := by
    by_cases hin : p ∈ newest 15 σ.sent
    · exact hpushed p hin hnot.1 hours hopen
    · exact ((inReach_iff hs.ordered).mp hs.inReach p hsent hours hopen hin).1
  refine ⟨⟨hheal.run, hheal.above, hheal.unblocked⟩, ?_⟩
  by_contra hnone
  refine hopen (hlast (fun q hq => ?_) ?_ p hsent hours)
  · exact Bool.eq_false_iff.mpr fun hqours => hnone ⟨q, mem_newest_append.mpr (Or.inl hq), hqours⟩
  · exact Bool.eq_false_iff.mpr fun hpktours => hnone ⟨pkt, mem_newest_append.mpr (Or.inr rfl), hpktours⟩

/-- A commit lands. -/
theorem Kept.commit {r : Except Failure Unit} (h : Kept cfg σ (.answer (.sendCommit pkt) r true)) (hs : Sound cfg σ) :
    InReach cfg { σ with endpoint := { σ.endpoint with verified := insert pkt.nonce σ.endpoint.verified } } := by
  have hle : σ.endpoint.inboundNonce ≤ frontier (insert pkt.nonce σ.endpoint.verified) :=
    frontier_mono (Finset.subset_insert _ _)
  refine (inReach_iff (σ := { σ with endpoint := { σ.endpoint with verified := insert pkt.nonce σ.endpoint.verified } })
    hs.ordered).mpr fun p hp hours hopen hold => ?_
  obtain ⟨hheal, hnew⟩ := (inReach_iff hs.ordered).mp hs.inReach p hp hours hopen hold
  have habove : frontier (insert pkt.nonce σ.endpoint.verified) < p.nonce := by
    by_contra hpassed
    exact hold (h p hp hours hheal.above (not_lt.mp hpassed))
  refine ⟨⟨hheal.run, habove, fun hblocked => ?_⟩, hnew⟩
  -- a heal that was blocked at the new frontier was blocked at the old one
  have hsame := le_antisymm hle (hs.blocked _ hblocked)
  exact hheal.unblocked (hblocked.trans (congrArg some hsame.symm))

/-- The endpoint clears more. -/
theorem InReach.cleared (h : InReach cfg σ) {cleared : Finset Nat} (hsub : σ.endpoint.cleared ⊆ cleared) :
    InReach cfg { σ with endpoint := { σ.endpoint with cleared := cleared } } :=
  fun p hp hours hopen => h p hp hours fun hmem => hopen (hsub hmem)

theorem Sound.step (hs : Sound cfg σ) (hkept : Kept cfg σ e) (hstep : Step cfg σ e τ) : Sound cfg τ := by
  cases hstep with
  | send pkt hnonce =>
    have hordered := hs.ordered.send hnonce
    exact { hs with ordered := hordered, inReach := hkept.send hs hordered }
  | tick hidle =>
    refine { hs with truthful := ?_, grounded := ?_ }
    · rintro told rest ⟨⟩
      exact ⟨fun _ h => absurd h List.not_mem_nil, fun _ _ h => absurd h List.not_mem_nil,
        fun _ h => absurd h List.not_mem_nil, fun _ h => absurd h List.not_mem_nil,
        fun _ _ h => absurd h List.not_mem_nil⟩
    · rintro told rest ⟨⟩
      exact tick_grounded
  | @lands told c next endpoint r htick hanswers hlands =>
    have htruth := hs.truthful _ _ htick
    cases c with
    | sendCommit pkt =>
      simp only [Call.lands] at hlands
      split at hlands
      · cases hlands
        have hle := frontier_mono (Finset.subset_insert pkt.nonce σ.endpoint.verified)
        exact hs.answered htick rfl (hkept.commit hs) hle ((htruth.grows hle).silent (by trivial) r)
          fun hfailed => absurd hfailed (not_pageFailed (by simp))
      · cases hlands
    | sendLzReceive pkt =>
      simp only [Call.lands] at hlands
      split at hlands
      · rename_i hguard
        cases hlands
        refine hs.answered htick rfl (hs.inReach.cleared (Finset.subset_insert _ _)) le_rfl
          (htruth.append ?_ ?_ ?_ ?_ ?_) fun hfailed => absurd hfailed (not_pageFailed (by simp))
        · rintro f ⟨⟩
        · rintro n state ⟨⟩
        · rintro pkt' ⟨⟩
          exact hguard.2.1
        · rintro page ⟨⟩
        · rintro older page ⟨⟩
      · cases hlands
    | sendVerify pkt ep uln =>
      simp only [Call.lands] at hlands
      split at hlands
      · cases hlands
        exact hs.answered htick rfl hs.inReach le_rfl (htruth.silent (by trivial) r)
          fun hfailed => absurd hfailed (not_pageFailed (by simp))
      · cases hlands
    | queryEventsBySender limit cursor =>
      cases hlands
      refine hs.answered htick rfl hs.inReach le_rfl (htruth.append ?_ ?_ ?_ ?_ ?_) hkept.failed
      · rintro f ⟨⟩
      · rintro n state ⟨⟩
      · rintro pkt ⟨⟩
      · rintro page ⟨⟩
        exact ⟨σ.sent, hanswers, (hkept rfl).1 rfl⟩
      · rintro older page ⟨⟩
        exact hanswers
    | getNonce =>
      cases hlands
      have hgrounds := (hs.grounded _ _ htick).1
      refine hs.answered htick rfl hs.inReach le_rfl (htruth.append ?_ ?_ ?_ ?_ ?_)
        fun hfailed => absurd hfailed (not_pageFailed (by simp))
      · rintro f ⟨⟩
        exact ⟨le_of_eq (Option.some.inj hanswers), hgrounds⟩
      · rintro n state ⟨⟩
      · rintro pkt ⟨⟩
      · rintro page ⟨⟩
      · rintro older page ⟨⟩
    | getMultipleAccountsInfo n =>
      cases hlands
      refine hs.answered htick rfl hs.inReach le_rfl (htruth.append ?_ ?_ ?_ ?_ ?_)
        fun hfailed => absurd hfailed (not_pageFailed (by simp))
      · rintro f ⟨⟩
      · rintro n' state ⟨⟩
        exact le_of_eq (congrArg EndpointNonceState.inboundNonce hanswers)
      · rintro pkt ⟨⟩
      · rintro page ⟨⟩
      · rintro older page ⟨⟩
    | _ =>
      cases hlands
      exact hs.answered htick rfl hs.inReach le_rfl (htruth.silent (by trivial) r)
        fun hfailed => absurd hfailed (not_pageFailed (by simp))
  | @fails told c next err htick =>
    refine hs.answered htick rfl hs.inReach le_rfl ((hs.truthful _ _ htick).append ?_ ?_ ?_ ?_ ?_) hkept.failed
    · rintro f ⟨⟩
    · rintro n state ⟨⟩
    · rintro pkt ⟨⟩
    · rintro page ⟨⟩
    · rintro older page ⟨⟩
  | finish htick => exact { hs with truthful := fun _ _ h => (by cases h), grounded := fun _ _ h => (by cases h) }
  | restart =>
    refine { hs with
      inReach := ?_, blocked := ?_
      truthful := fun _ _ h => (by cases h), grounded := fun _ _ h => (by cases h) }
    · exact InReach.passed (m := σ.memory) hs.ordered hs.inReach fun f hf => by cases hf
    · rintro f ⟨⟩

/-! ## The runs -/

/-- However the calls are answered and whatever is sent, every return that is not cleared stays in reach while the steps
are kept. -/
theorem returns_in_reach (cfg : Config) (σ : Site) (hrun : Leads cfg (Kept cfg) {} σ) : InReach cfg σ := by
  have hsound : Sound cfg σ := by
    induction hrun with
    | refl =>
      exact ⟨⟨List.Pairwise.nil, fun p hp => absurd hp List.not_mem_nil⟩, fun p hp => absurd hp List.not_mem_nil,
        fun _ h => (by cases h), fun _ _ h => (by cases h), fun _ _ h => (by cases h)⟩
    | tail _ hstep ih =>
      obtain ⟨e, hkept, hstep⟩ := hstep
      exact ih.step hkept hstep
  exact hsound.inReach

section Example

variable {C : Site → Event → Prop} {σ₀ : Site} {endpoint endpoint' : Endpoint} {memory : Memory}
  {told' : Told} {c : Call} {next : Except Failure c.Answer → Program Unit} {rest : Program Unit}

theorem Leads.send (hlead : Leads cfg C σ₀ σ) (pkt : LzPacket) (hC : C σ (.send pkt))
    (hnonce : isOurReturn cfg pkt = true → pkt.nonce = (σ.sent.filter (isOurReturn cfg)).length + 1) :
    Leads cfg C σ₀ { σ with sent := σ.sent ++ [pkt] } :=
  hlead.tail ⟨_, hC, .send pkt hnonce⟩

/-- A call lands that is answered without an error. -/
theorem Leads.land (hlead : Leads cfg C σ₀ ⟨sent, endpoint, memory, some (told, .await c next)⟩) (a : c.Answer)
    (hC : ∀ σ : Site, σ.sent = sent → σ.endpoint = endpoint → C σ (.answer c (.ok a) true))
    (hanswers : ∀ σ : Site, σ.sent = sent → σ.endpoint = endpoint → c.Answers σ (.ok a))
    (hlands : c.lands endpoint = some endpoint')
    (hsettle : settle access memory (told ++ [⟨c, .ok a⟩]) (next (.ok a)) = ⟨memory, told', rest⟩) :
    Leads cfg C σ₀ ⟨sent, endpoint', memory, some (told', rest)⟩ := by
  have hstep : Step cfg _ (.answer c (.ok a) true) _ :=
    .lands (σ := ⟨sent, endpoint, memory, some (told, .await c next)⟩) (.ok a) rfl (hanswers _ rfl rfl) hlands
  rw [Site.answered, hsettle] at hstep
  exact hlead.tail ⟨_, hC _ rfl rfl, hstep⟩

end Example

def exampleConfig : Config where
  run := true
  suiEid := 40378
  solanaEid := 40168
  suiOappSender := [1]
  solanaStore := [2]

def exampleReturn : LzPacket := ⟨1, 40378, [1], 40168, [2], [7]⟩

def exampleToEvm : LzPacket := ⟨1, 40378, [1], 40161, [3], [8]⟩

theorem frontier_empty : frontier ∅ = 0 := (Nat.find_eq_zero _).mpr (Finset.notMem_empty _)

/-- The first return is verified by the first tick. -/
theorem exampleReturn_verified {C : Site → Event → Prop} (hsend : C {} (.send exampleReturn)) (htick : ∀ σ, C σ .tick)
    (hC : ∀ σ : Site, σ.sent = [exampleReturn] → ∀ (c : Call) (r : Except Failure c.Answer),
      (∀ cursor, c ≠ .queryEventsBySender 50 cursor) → C σ (.answer c r true)) :
    ∃ told next, Leads exampleConfig C {} ⟨[exampleReturn], ⟨{1}, {1}, {1}, ∅⟩, {},
      some (told, .await (.sendLzReceive exampleReturn) next)⟩ ∧
      ∃ told', settle access {} (told ++ [⟨.sendLzReceive exampleReturn, .error .rpc⟩]) (next (.error .rpc)) =
        ⟨{}, told', .done ()⟩ := by
  have hin : ∀ (σ : Site) (e : Endpoint), e.verified = ∅ → σ.endpoint = e → σ.endpoint.inboundNonce = 0 := by
    rintro σ e hnone rfl
    rw [Endpoint.inboundNonce, hnone, frontier_empty]
  have h0 : Leads exampleConfig C {} _ := .send .refl exampleReturn hsend fun _ => rfl
  have h1 := h0.tail ⟨.tick, htick _, .tick rfl⟩
  have h2 := Leads.land (c := .queryEventsBySender 15 none) h1 ⟨[exampleReturn], false, some []⟩
    (fun σ hsent _ => hC σ hsent _ _ (by simp)) (fun σ hsent _ => by rw [Call.Answers, hsent]; rfl) rfl rfl
  have h3 := Leads.land (c := .getNonce) h2 (some 0)
    (fun σ hsent _ => hC σ hsent _ _ (by simp)) (fun σ _ he => congrArg some (hin σ _ rfl he).symm) rfl rfl
  have h4 := Leads.land (c := .getMultipleAccountsInfo 1) h3 ⟨0, false⟩
    (fun σ hsent _ => hC σ hsent _ _ (by simp)) (fun σ _ he => by rw [Call.Answers, hin σ _ rfl he, he]; rfl) rfl rfl
  have h5 := Leads.land (c := .endpointInitVerify 1) h4 true
    (fun σ hsent _ => hC σ hsent _ _ (by simp)) (fun σ _ he => by rw [Call.Answers, he]; rfl) rfl rfl
  have h6 := Leads.land (c := .ulnInitVerify exampleReturn) h5 true
    (fun σ hsent _ => hC σ hsent _ _ (by simp)) (fun σ _ he => by rw [Call.Answers, he]; rfl) rfl rfl
  have h7 := Leads.land (c := .resolveLzReceiveAccounts exampleReturn) h6 ()
    (fun σ hsent _ => hC σ hsent _ _ (by simp)) (fun _ _ _ => trivial) rfl rfl
  have h8 := Leads.land (c := .sendVerify exampleReturn true true) h7 ()
    (fun σ hsent _ => hC σ hsent _ _ (by simp)) (fun _ _ _ => trivial) rfl rfl
  have h9 := Leads.land (c := .sendCommit exampleReturn) h8 ()
    (fun σ hsent _ => hC σ hsent _ _ (by simp)) (fun _ _ _ => trivial) rfl rfl
  exact ⟨_, _, h9, _, rfl⟩

/-- The return that is verified and not yet received is among the newest packets. -/
theorem returns_in_reach_verified :
    ∃ σ : Site, σ.sent = [exampleReturn] ∧ σ.endpoint = ⟨{1}, {1}, {1}, ∅⟩ ∧ InReach exampleConfig σ := by
  obtain ⟨told, next, hlead, -⟩ := exampleReturn_verified (C := Kept exampleConfig)
    ⟨fun old hold => absurd hold List.not_mem_nil, fun _ _ p hp => absurd hp List.not_mem_nil⟩ (fun _ => trivial) (by
      intro σ hsent c r hc
      cases c with
      | queryEventsBySender limit cursor => exact fun hlimit => absurd (hlimit ▸ rfl) (hc cursor)
      | sendCommit pkt =>
        intro p hp _ _ _
        rw [hsent] at hp ⊢
        exact hp
      | _ => trivial)
  exact ⟨_, rfl, rfl, returns_in_reach _ _ hlead⟩

theorem Leads.sends (hlead : Leads cfg (fun _ _ => True) {} σ) (pkt : LzPacket)
    (hother : isOurReturn cfg pkt = false) (n : Nat) :
    Leads cfg (fun _ _ => True) {} { σ with sent := σ.sent ++ List.replicate n pkt } := by
  induction n with
  | zero => simpa using hlead
  | succ n ih =>
    have hnext := ih.send pkt trivial fun hours => absurd (hother.symm.trans hours) Bool.noConfusion
    rwa [List.append_assoc, ← List.replicate_succ'] at hnext

/-- The commit of a return lands and its receipt fails; fifteen packets to other chains later it is out of reach. -/
theorem return_out_of_reach :
    ∃ σ : Site, Leads exampleConfig (fun _ _ => True) {} σ ∧ σ.tick = none ∧ ¬InReach exampleConfig σ := by
  obtain ⟨told, next, hlead, told', hsettle⟩ := exampleReturn_verified (C := fun _ _ => True) trivial (fun _ => trivial)
    fun _ _ _ _ _ => trivial
  have hfails : Step exampleConfig _ (.answer (.sendLzReceive exampleReturn) (.error .rpc) false) _ :=
    .fails (σ := ⟨[exampleReturn], ⟨{1}, {1}, {1}, ∅⟩, {},
      some (told, .await (.sendLzReceive exampleReturn) next)⟩) .rpc rfl
  rw [Site.answered, hsettle] at hfails
  have hended := (hlead.tail ⟨_, trivial, hfails⟩).tail ⟨.finish, trivial, .finish rfl⟩
  have hpushed := Leads.sends hended exampleToEvm rfl 15
  have hold : exampleReturn ∉ newest 15 ([exampleReturn] ++ List.replicate 15 exampleToEvm) := by decide
  have htip : ¬0 < tipOf (window exampleConfig ([exampleReturn] ++ List.replicate 15 exampleToEvm)) := by decide
  refine ⟨_, hpushed, rfl, fun hreach => ?_⟩
  obtain hwindow | hrange := hreach exampleReturn (by simp) rfl (Finset.notMem_empty _)
  · exact hold (mem_window.mp hwindow).1
  · unfold healRange at hrange
    split at hrange
    · rename_i hdue
      exact htip hdue.2.1
    · simp at hrange

end Bosphor.SolanaReturn

import Mathlib.Data.Finset.Insert
import Mathlib.Order.Interval.Finset.Nat
import Bosphor.Lib.Memory

/-!
# The Solana return worker

`solana-return.ts` in its loop mode: the packets that the relayer sends, newest
first, the delivery of one return packet (`deliver`), the backfill below the tip
(`healReturnGap`) and one turn of the loop (`tick`). The worker keeps the
frontier at which the backfill is blocked, and the guids it has seen. Around it
stand the Sui history of the packets and the Solana endpoint.
-/

namespace Bosphor.SolanaReturn

open Async (History Access settle)

/-! ## Packets -/

/-- `LzPacket`. -/
structure LzPacket where
  nonce : Nat
  srcEid : Nat
  sender : List UInt8
  dstEid : Nat
  receiver : List UInt8
  guid : List UInt8
  deriving DecidableEq

structure Config where
  /-- `RUN`. -/
  run : Bool
  suiEid : Nat
  solanaEid : Nat
  suiOappSender : List UInt8
  solanaStore : List UInt8
  /-- `MIN_NONCE`. -/
  minNonce : Nat := 0

/-- A page of `PacketSentEvent`s, the newest first. A cursor is what it stands for: the events before it. -/
structure SuiEventPage where
  data : List LzPacket
  hasNextPage : Bool
  nextCursor : Option (List LzPacket)

/-- The last `limit` of some events. -/
def pageBefore (limit : Nat) (events : List LzPacket) : SuiEventPage where
  data := (events.drop (events.length - limit)).reverse
  hasNextPage := decide (limit < events.length)
  nextCursor := some (events.take (events.length - limit))

/-! ## The endpoint on Solana -/

/-- What the endpoint and its library have of the pathway, by nonce. -/
structure Endpoint where
  /-- The payload hash accounts that were created. -/
  initialised : Finset Nat := ∅
  /-- The packets that the DVN has attested. -/
  attested : Finset Nat := ∅
  verified : Finset Nat := ∅
  /-- The packets that were received: their payload hash accounts are closed. -/
  cleared : Finset Nat := ∅

/-- Some nonce is not verified. -/
theorem exists_unverified (verified : Finset Nat) : ∃ n, n + 1 ∉ verified := by
  obtain ⟨n, hn⟩ := Infinite.exists_notMem_finset (verified.image (· - 1))
  exact ⟨n, fun h => hn (Finset.mem_image.mpr ⟨n + 1, h, Nat.add_sub_cancel n 1⟩)⟩

/-- The highest nonce up to which all are verified. -/
def frontier (verified : Finset Nat) : Nat := Nat.find (exists_unverified verified)

def Endpoint.inboundNonce (e : Endpoint) : Nat := frontier e.verified

def Endpoint.payloadHashExists (e : Endpoint) (nonce : Nat) : Bool := decide (nonce ∈ e.initialised ∧ nonce ∉ e.cleared)

/-! ## Calls -/

structure EndpointNonceState where
  inboundNonce : Nat
  payloadHashExists : Bool

inductive ReturnDeliveryState where
  | delivered
  | pending
  | unknown

/-- `returnDeliveryState(nonce, state)`. -/
def returnDeliveryState (nonce : Nat) : Option EndpointNonceState → ReturnDeliveryState
  | none => .unknown
  | some state => if !state.payloadHashExists && decide (nonce ≤ state.inboundNonce) then .delivered else .pending

/-- What the worker calls; the last four are its own memory. -/
inductive Call where
  | queryEventsBySender (limit : Nat) (cursor : Option (List LzPacket))
  | getNonce
  | getMultipleAccountsInfo (nonce : Nat)
  | endpointInitVerify (nonce : Nat)
  | ulnInitVerify (pkt : LzPacket)
  | resolveLzReceiveAccounts (pkt : LzPacket)
  | sendVerify (pkt : LzPacket) (epInitVerify initVerify : Bool)
  | sendCommit (pkt : LzPacket)
  | sendLzReceive (pkt : LzPacket)
  | healBlockedAt
  | setHealBlockedAt (frontier : Option Nat)
  | seenHas (guid : List UInt8)
  | seenAdd (guid : List UInt8)

abbrev Call.Answer : Call → Type
  | .queryEventsBySender .. => SuiEventPage
  | .getNonce => Option Nat
  | .getMultipleAccountsInfo _ => EndpointNonceState
  | .endpointInitVerify _ => Bool
  | .ulnInitVerify _ => Bool
  | .healBlockedAt => Option Nat
  | .seenHas _ => Bool
  | _ => Unit

/-- An RPC or a transaction error; the worker only notes it for its back-off. -/
inductive Failure where
  | rpc

abbrev Program := Async Call Call.Answer Failure

abbrev call (c : Call) : Program c.Answer := Async.call c

abbrev Told := History Call Call.Answer Failure

/-- What the worker keeps between its ticks. -/
structure Memory where
  healBlockedAt : Option Nat := none
  seen : List (List UInt8) := []

def access : Access Memory Call Call.Answer
  | .healBlockedAt => some fun m => (m.healBlockedAt, m)
  | .setHealBlockedAt frontier => some fun m => ((), { m with healBlockedAt := frontier })
  | .seenHas guid => some fun m => (m.seen.contains guid, m)
  | .seenAdd guid => some fun m => ((), { m with seen := guid :: m.seen })
  | _ => none

/-! ## The worker -/

section Worker

/-- `isOurReturn(pkt)`. -/
def isOurReturn (cfg : Config) (pkt : LzPacket) : Bool :=
  pkt.srcEid == cfg.suiEid && pkt.dstEid == cfg.solanaEid && pkt.sender == cfg.suiOappSender &&
    pkt.receiver == cfg.solanaStore

/-- `readNonceState(conn, nonce)`. -/
def readNonceState (nonce : Nat) : Program (Option EndpointNonceState) :=
  tryCatch (do return some (← call (.getMultipleAccountsInfo nonce))) fun _ => return none

inductive Delivery where
  | sent
  | already
  | skipped
  | dry
  deriving DecidableEq

variable (cfg : Config)

/-- `deliver(pkt)` past its check of the endpoint; a dry run only simulates. -/
def deliverPending (pkt : LzPacket) : Program Delivery := do
  let epInitVerifyIx ← tryCatch (call (.endpointInitVerify pkt.nonce)) fun _ => return false
  let initVerifyIx ← tryCatch (call (.ulnInitVerify pkt)) fun _ => return false
  let metas ← tryCatch (do call (.resolveLzReceiveAccounts pkt); return true) fun _ => return false
  if !cfg.run then
    return .dry
  tryCatch (call (.sendVerify pkt epInitVerifyIx initVerifyIx)) fun _ => return ()
  tryCatch (call (.sendCommit pkt)) fun _ => return ()
  tryCatch (do
    if !metas then
      call (.resolveLzReceiveAccounts pkt)
    call (.sendLzReceive pkt)
    return .sent) fun _ => return .skipped

/-- `deliver(pkt)`. -/
def deliver (pkt : LzPacket) : Program Delivery := do
  match returnDeliveryState pkt.nonce (← readNonceState pkt.nonce) with
  | .delivered => return .already
  | .unknown => return .skipped
  | .pending => deliverPending cfg pkt

/-- `querySuiPacketSent(limit)`. -/
def querySuiPacketSent (limit : Nat) : Program (List LzPacket) := do
  let page ← call (.queryEventsBySender limit none)
  return page.data.filter (isOurReturn cfg)

/-- One event of a page: a return that is wanted is found, and no longer wanted. -/
def takeWanted (x : List Nat × List LzPacket) (pkt : LzPacket) : List Nat × List LzPacket :=
  if isOurReturn cfg pkt && x.1.contains pkt.nonce then (x.1.filter (· != pkt.nonce), x.2 ++ [pkt]) else x

/-- At most `pages` turns of the loop of `findReturnPacketsInRange`. -/
def searchPages : Nat → List Nat × List LzPacket → Option (List LzPacket) → Program (List LzPacket)
  | 0, x, _ => return x.2
  | pages + 1, x, cursor =>
    if x.1.isEmpty then return x.2 else do
      match ← tryCatch (do return some (← call (.queryEventsBySender 50 cursor))) fun _ => return none with
      | none => return x.2
      | some res =>
        let x := res.data.foldl (takeWanted cfg) x
        if !res.hasNextPage then
          return x.2
        searchPages pages x res.nextCursor

/-- `findReturnPacketsInRange(from, to)`. -/
def findReturnPacketsInRange (lo hi : Nat) : Program (List LzPacket) :=
  searchPages cfg 40 (List.range' lo (hi + 1 - lo), []) none

/-- The loop of `healReturnGap` from `n` on, with `left` nonces up to the tip. -/
def backfill (packets : List LzPacket) (frontier : Nat) : Nat → Nat → Program Unit
  | _, 0 => return ()
  | n, left + 1 =>
    match packets.find? (·.nonce == n) with
    | none => call (.setHealBlockedAt (some frontier))
    | some pkt => do
      let r ← deliver cfg pkt
      if r = .skipped then
        return ()
      call (.setHealBlockedAt none)
      backfill packets frontier (n + 1) left

/-- `healReturnGap(tip)`. -/
def healReturnGap (tip : Nat) : Program Unit := do
  if !cfg.run then
    return ()
  match ← tryCatch (call .getNonce) fun _ => return none with
  | none => return ()
  | some frontier =>
    if tip ≤ frontier + 1 then
      return ()
    if (← call .healBlockedAt) = some frontier then
      return ()
    let packets ← findReturnPacketsInRange cfg (frontier + 1) tip
    backfill cfg packets frontier (frontier + 1) (tip - frontier)

/-- The highest nonce of some packets. -/
def tipOf (packets : List LzPacket) : Nat := packets.foldl (fun m p => if p.nonce > m then p.nonce else m) 0

/-- The deliveries of a tick. -/
def deliverNew : List LzPacket → Program Unit
  | [] => return ()
  | pkt :: rest => do
    let seen ← call (.seenHas pkt.guid)
    if !seen && !decide (pkt.nonce < cfg.minNonce) then
      let r ← deliver cfg pkt
      if r ≠ .skipped then
        call (.seenAdd pkt.guid)
    deliverNew rest

/-- One turn of the loop of `runLoop`. -/
def tick : Program Unit :=
  tryCatch (do
    let packets ← querySuiPacketSent cfg 15
    let tip := tipOf packets
    if tip > 0 then
      healReturnGap cfg tip
    deliverNew cfg packets.reverse) fun _ => return ()

end Worker

/-! ## Runs -/

/-- The packets that the relayer has sent, the oldest first, the endpoint, and the worker. -/
structure Site where
  sent : List LzPacket := []
  endpoint : Endpoint := {}
  memory : Memory := {}
  /-- The tick under way: what it was told, and what is left of it. -/
  tick : Option (Told × Program Unit) := none

/-- What a call may be answered. -/
def Call.Answers (σ : Site) : (c : Call) → Except Failure c.Answer → Prop
  | .queryEventsBySender limit cursor, .ok page => page = pageBefore limit (cursor.getD σ.sent)
  | .getNonce, .ok nonce => nonce = some σ.endpoint.inboundNonce
  | .getMultipleAccountsInfo nonce, .ok state =>
    state = ⟨σ.endpoint.inboundNonce, σ.endpoint.payloadHashExists nonce⟩
  | .endpointInitVerify nonce, .ok ix => ix = !σ.endpoint.payloadHashExists nonce
  | .ulnInitVerify pkt, .ok ix => ix = decide (pkt.nonce ∉ σ.endpoint.attested)
  | _, _ => True

/-- What a call that lands leaves of the endpoint; `none` if it cannot land. -/
def Call.lands (e : Endpoint) : Call → Option Endpoint
  | .sendVerify pkt epInitVerify initVerify =>
    if initVerify ∨ pkt.nonce ∈ e.attested then
      some { e with
        attested := insert pkt.nonce e.attested
        initialised := if epInitVerify then insert pkt.nonce e.initialised else e.initialised }
    else none
  | .sendCommit pkt =>
    if pkt.nonce ∈ e.attested ∧ pkt.nonce ∈ e.initialised ∧ pkt.nonce ∉ e.verified then
      some { e with verified := insert pkt.nonce e.verified }
    else none
  | .sendLzReceive pkt =>
    if pkt.nonce ∈ e.verified ∧ pkt.nonce ≤ e.inboundNonce ∧ pkt.nonce ∉ e.cleared then
      some { e with cleared := insert pkt.nonce e.cleared }
    else none
  | _ => some e

/-- The worker once a call is answered. -/
def Site.answered (σ : Site) (told : Told) (c : Call) (r : Except Failure c.Answer)
    (next : Except Failure c.Answer → Program Unit) (endpoint : Endpoint) : Site :=
  let standing := settle access σ.memory (told ++ [⟨c, r⟩]) (next r)
  { σ with endpoint := endpoint, memory := standing.memory, tick := some (standing.told, standing.rest) }

inductive Event where
  | send (pkt : LzPacket)
  | tick
  | answer (c : Call) (r : Except Failure c.Answer) (landed : Bool)
  | finish
  | restart

variable (cfg : Config)

/-- The steps of the relayer, of the worker, and of what answers it. The nonces of our returns count up from one. -/
inductive Step : Site → Event → Site → Prop
  | send {σ} (pkt : LzPacket)
    (hnonce : isOurReturn cfg pkt = true → pkt.nonce = (σ.sent.filter (isOurReturn cfg)).length + 1) :
    Step σ (.send pkt) { σ with sent := σ.sent ++ [pkt] }
  | tick {σ} (hidle : σ.tick = none) : Step σ .tick { σ with tick := some ([], SolanaReturn.tick cfg) }
  | lands {σ told c next e} (r : Except Failure c.Answer) (htick : σ.tick = some (told, .await c next))
    (hanswers : c.Answers σ r) (hlands : c.lands σ.endpoint = some e) :
    Step σ (.answer c r true) (σ.answered told c r next e)
  | fails {σ told c next} (err : Failure) (htick : σ.tick = some (told, .await c next)) :
    Step σ (.answer c (.error err) false) (σ.answered told c (.error err) next σ.endpoint)
  | finish {σ told r} (htick : σ.tick = some (told, .done r)) : Step σ .finish { σ with tick := none }
  | restart {σ} : Step σ .restart { σ with memory := {}, tick := none }

/-- Some steps, each of which meets `C`. -/
abbrev Leads (C : Site → Event → Prop) : Site → Site → Prop :=
  Relation.ReflTransGen fun σ τ => ∃ e, C σ e ∧ Step cfg σ e τ

end Bosphor.SolanaReturn

import Bosphor.Lib.Host
import Bosphor.Lib.Retry
import Bosphor.Lib.Text
import Mathlib.Algebra.Group.Nat.Defs

/-!
# Sending over Solana RPC

The scripts send a transaction over HTTP and poll for it, behind a backoff for
rate limits (`sendPolled`). It runs against a node whose confirmed chain grows,
by blocks that take a transaction only while its blockhash is valid, and which
forgets the status of an old transaction. What is not confirmed may show a
status too, of a fork.

A verdict is what the caller acts on: it sends again what has expired.
`Knows` relates the chain to what the node has answered. What it says of a
status that was read behind a block height (`Missed`) no later block undoes: an
expired transaction is in no block to come, and in none of the chain unless its
status is forgotten (`Verdict`). A failure is thrown of whatever status shows
one; it is the chain's only if that status is confirmed.
-/

namespace Bosphor.Scripts.SolanaRpc

open Async

abbrev Blockhash := String

abbrev Signature := String

/-- A signed transaction. -/
structure RawTransaction where
  signature : Signature
  recentBlockhash : Blockhash
  instructions : List UInt8

inductive ConfirmationStatus where
  | processed
  | confirmed
  | finalized
  deriving DecidableEq

structure SignatureStatus where
  /-- The error, as JSON. -/
  err : Option String := none
  confirmationStatus : Option ConfirmationStatus := none
  deriving DecidableEq

structure LatestBlockhash where
  blockhash : Blockhash
  lastValidBlockHeight : Nat

inductive RpcError where
  /-- Of a call. -/
  | thrown (message : String)
  | failed (sig : Signature) (err : String)
  | expired (sig : Signature)
  | notConfirmed (sig : Signature) (timeoutMs : Int)
  /-- The turns at hand are made, and the loop goes on. -/
  | polling
  deriving DecidableEq

def RpcError.message : RpcError → String
  | .thrown message => message
  | .failed sig err => "tx " ++ sig ++ " failed: " ++ err
  | .expired sig => "tx " ++ sig ++ " expired (blockhash too old)"
  | .notConfirmed sig timeoutMs => "tx " ++ sig ++ " not confirmed within " ++ toString timeoutMs ++ "ms"
  | .polling => ""

inductive RpcCall where
  | getLatestBlockhash
  | sendRawTransaction (raw : RawTransaction)
  | getSignatureStatuses (sig : Signature)
  | getBlockHeight
  | now
  | sleep (ms : Int)

abbrev RpcCall.Answer : RpcCall → Type
  | .getLatestBlockhash => LatestBlockhash
  | .sendRawTransaction _ => Signature
  | .getSignatureStatuses _ => Option SignatureStatus
  | .getBlockHeight => Nat
  | .now => Int
  | .sleep _ => Unit

abbrev Rpc := Async RpcCall RpcCall.Answer RpcError

abbrev Told := History RpcCall RpcCall.Answer RpcError

abbrev rpcCall (c : RpcCall) : Rpc c.Answer := Async.call c

/-! ## The backoff -/

/-- `rate.?limit` stands at the head of the text; the point is no end of a line. -/
def beginsRateLimit (text : List Char) : Bool :=
  "rate".toList.isPrefixOf text && ("limit".toList.isPrefixOf (text.drop 4) ||
    ((text.drop 4).head?.any fun c => !([0xA, 0xD, 0x2028, 0x2029].contains c.toNat) && c.toNat < 0x10000) &&
      "limit".toList.isPrefixOf (text.drop 5))

/-- The pattern ignores case. -/
def isRateLimited (err : RpcError) : Bool :=
  let text := err.message.toList.map Char.toLower
  Text.hasWord "429".toList false text || text.tails.any beginsRateLimit ||
    Text.occurs "too many requests".toList text

structure BackoffOptions where
  retries : Nat := 8
  baseMs : Nat := 1000
  capMs : Nat := 30000
  retryOn : RpcError → Bool := isRateLimited

def backoffDelay (attempt baseMs capMs : Nat) : Nat := min (baseMs * 2 ^ attempt) capMs

variable {α : Type}

def withBackoff (fn : Rpc α) (o : BackoffOptions := {}) : Rpc α :=
  retry (pure ()) (fun _ => fn) (fun attempt err =>
    if attempt ≥ o.retries ∨ o.retryOn err = false then throw err
    else rpcCall (.sleep (backoffDelay attempt o.baseMs o.capMs))) o.retries 0

/-! ## Sending -/

/-- Whether the chain has confirmed the transaction of a status. -/
def SignatureStatus.landed (st : SignatureStatus) : Bool :=
  st.confirmationStatus == some .confirmed || st.confirmationStatus == some .finalized

/-- Whether the transaction is confirmed; an error if it landed and failed. -/
def landed (sig : Signature) : Rpc Bool := do
  let st ← withBackoff (rpcCall (.getSignatureStatuses sig))
  match st.bind (·.err) with
  | some err => throw (.failed sig err)
  | none => return st.any (·.landed)

/-- At most `turns` turns of the loop. -/
def poll (sig : Signature) (lastValidBlockHeight : Nat) (timeoutMs pollMs deadline : Int) : Nat → Rpc Signature
  | 0 => throw .polling
  | turns + 1 => do
    let now ← rpcCall .now
    if now < deadline then
      rpcCall (.sleep pollMs)
      if ← landed sig then return sig
      else
        let height ← withBackoff (rpcCall .getBlockHeight)
        if height > lastValidBlockHeight then
          -- it may have landed in the last valid block, since the status was read
          if ← landed sig then return sig else throw (.expired sig)
        else poll sig lastValidBlockHeight timeoutMs pollMs deadline turns
    else if ← landed sig then return sig
    else throw (.notConfirmed sig timeoutMs)

structure SendOptions where
  timeoutMs : Int := 90000
  pollMs : Int := 2000

/-- `sendPolled(conn, tx, signer, opts)`; `sign` signs the transaction for a blockhash. -/
def sendPolled (sign : Blockhash → RawTransaction) (opts : SendOptions) (turns : Nat) : Rpc Signature := do
  let latest ← withBackoff (rpcCall .getLatestBlockhash)
  let sig ← withBackoff (rpcCall (.sendRawTransaction (sign latest.blockhash)))
  let start ← rpcCall .now
  poll sig latest.lastValidBlockHeight opts.timeoutMs opts.pollMs (start + opts.timeoutMs) turns

/-! ## The node -/

/-- A transaction in a block, with its error if it failed. -/
structure Entry where
  raw : RawTransaction
  err : Option String := none

structure Node where
  /-- The confirmed chain. -/
  blocks : List (List Entry) := []
  /-- The transactions whose status is too old to be served. -/
  forgotten : Signature → Prop := fun _ => False

namespace Node

def height (w : Node) : Nat := w.blocks.length

/-- The transaction is in the confirmed chain. -/
def Has (w : Node) (e : Entry) : Prop := ∃ block ∈ w.blocks, e ∈ block

/-- A status that the node serves: of a transaction in its chain, unless it has forgotten it. -/
def Shows (w : Node) (sig : Signature) (st : Option SignatureStatus) : Prop :=
  if st.any (·.landed) then ∃ e, w.Has e ∧ e.raw.signature = sig ∧ st.bind (·.err) = e.err
  else w.forgotten sig ∨ ∀ e, w.Has e → e.raw.signature ≠ sig

variable (lastValid : Blockhash → Nat)

inductive Serves : Node → (c : RpcCall) → Except RpcError c.Answer → Node → Prop
  | latest {w} (blockhash : Blockhash) :
    Serves w .getLatestBlockhash (.ok ⟨blockhash, lastValid blockhash⟩) w
  | send {w} (raw : RawTransaction) : Serves w (.sendRawTransaction raw) (.ok raw.signature) w
  | statuses {w sig st} (h : w.Shows sig st) : Serves w (.getSignatureStatuses sig) (.ok st) w
  | height {w n} (h : n ≤ w.height) : Serves w .getBlockHeight (.ok n) w
  | now {w} (ms : Int) : Serves w .now (.ok ms) w
  | sleep {w ms} : Serves w (.sleep ms) (.ok ()) w
  | throws {w c} (message : String) : Serves w c (.error (.thrown message)) w

inductive Moves : Node → Node → Prop
  /-- A block is confirmed, of transactions whose blockhash is valid at its height. -/
  | confirm {w : Node} (block : List Entry)
    (h : ∀ e ∈ block, w.height + 1 ≤ lastValid e.raw.recentBlockhash) :
    Moves w { w with blocks := w.blocks ++ [block] }
  | forget {w : Node} (e : Entry) (h : w.Has e) :
    Moves w { w with forgotten := fun sig => sig = e.raw.signature ∨ w.forgotten sig }

/-- What comes of a node. -/
abbrev Later : Node → Node → Prop := Relation.ReflTransGen (Moves lastValid)

end Node

/-- A script sends one transaction after another. -/
def host (lastValid : Blockhash → Nat) (sign : Blockhash → RawTransaction) (opts : SendOptions) :
    Host Node RpcCall RpcCall.Answer RpcError Signature where
  starts w p w' := w' = w ∧ ∃ turns, p = sendPolled sign opts turns
  serves := Node.Serves lastValid
  moves := Node.Moves lastValid

/-! ## What the answers say -/

/-- The call was answered so. -/
def Answered (told : Told) (c : RpcCall) (a : c.Answer) : Prop :=
  (⟨c, .ok a⟩ : Σ c : RpcCall, Except RpcError c.Answer) ∈ told

/-- The call was made. -/
def Made (told : Told) (c : RpcCall) : Prop := ∃ r, (⟨c, r⟩ : Σ c : RpcCall, Except RpcError c.Answer) ∈ told

/-- The transaction was not confirmed when its status was read, behind a block height of `n`. -/
def Missed (told : Told) (sig : Signature) (n : Nat) : Prop :=
  ∃ before st after, told = before ++ ⟨.getSignatureStatuses sig, .ok st⟩ :: after ∧ st.any (·.landed) = false ∧
    Answered before .getBlockHeight n

variable {told : Told} {c : RpcCall} {sig : Signature} {n : Nat}

theorem Answered.later {a : c.Answer} (h : Answered told c a) (x : Σ c : RpcCall, Except RpcError c.Answer) :
    Answered (told ++ [x]) c a :=
  List.mem_append_left _ h

theorem Answered.earlier {a : c.Answer} {x : Σ c : RpcCall, Except RpcError c.Answer} (h : Answered (told ++ [x]) c a)
    (hx : x ≠ ⟨c, .ok a⟩) : Answered told c a :=
  (List.mem_append.mp h).resolve_right fun hm => hx (List.mem_singleton.mp hm).symm

/-- A call was made before, or just now. -/
theorem Made.cases {d : RpcCall} {r : Except RpcError d.Answer} (h : Made (told ++ [⟨d, r⟩]) c) :
    Made told c ∨ d = c := by
  obtain ⟨r', hr⟩ := h
  rcases List.mem_append.mp hr with hr | hr
  · exact Or.inl ⟨r', hr⟩
  · exact Or.inr (congrArg Sigma.fst (List.mem_singleton.mp hr).symm)

theorem Missed.later (h : Missed told sig n) (x : Σ c : RpcCall, Except RpcError c.Answer) :
    Missed (told ++ [x]) sig n := by
  obtain ⟨before, st, after, rfl, hst, hheight⟩ := h
  exact ⟨before, st, after ++ [x], by rw [List.append_assoc, List.cons_append], hst, hheight⟩

/-- What is missed is missed before the last answer, or by it. -/
theorem Missed.cases {x : Σ c : RpcCall, Except RpcError c.Answer} (h : Missed (told ++ [x]) sig n) :
    Missed told sig n ∨ ∃ st, x = ⟨.getSignatureStatuses sig, .ok st⟩ ∧ st.any (·.landed) = false ∧
      Answered told .getBlockHeight n := by
  obtain ⟨before, st, after, heq, hst, hheight⟩ := h
  rcases List.eq_nil_or_concat after with rfl | ⟨after, y, rfl⟩
  · obtain ⟨rfl, hx⟩ := List.append_inj' heq rfl
    exact Or.inr ⟨st, List.singleton_injective hx, hst, hheight⟩
  · rw [List.concat_eq_append, ← List.cons_append, ← List.append_assoc] at heq
    obtain ⟨rfl, -⟩ := List.append_inj' heq rfl
    exact Or.inl ⟨before, st, after, rfl, hst, hheight⟩

/-- A transaction that can be accepted no more, and is not in the chain unless it is forgotten. -/
structure Gone (lastValid : Blockhash → Nat) (w : Node) (raw : RawTransaction) : Prop where
  past : lastValid raw.recentBlockhash < w.height
  closed : ∀ w', Node.Later lastValid w w' → ∀ e, w'.Has e → e.raw = raw → w.Has e
  out : w.forgotten raw.signature ∨ ∀ e, w.Has e → e.raw ≠ raw

/-- The errors of calls are the client's own. -/
def Thrown (told : Told) : Prop :=
  ∀ c err, (⟨c, .error err⟩ : Σ c : RpcCall, Except RpcError c.Answer) ∈ told → ∃ message, err = .thrown message

/-- The chain, by what a script was told of it. -/
structure Knows (lastValid : Blockhash → Nat) (w : Node) (told : Told) : Prop where
  latest : ∀ latest, Answered told .getLatestBlockhash latest →
    latest.lastValidBlockHeight = lastValid latest.blockhash
  sent : ∀ raw sig, Answered told (.sendRawTransaction raw) sig → sig = raw.signature
  landed : ∀ sig st, Answered told (.getSignatureStatuses sig) st → st.any (·.landed) = true →
    ∃ e, w.Has e ∧ e.raw.signature = sig ∧ st.bind (·.err) = e.err
  height : ∀ n, Answered told .getBlockHeight n → n ≤ w.height
  missed : ∀ sig n, Missed told sig n → ∀ raw, raw.signature = sig →
    lastValid raw.recentBlockhash < n → Gone lastValid w raw
  thrown : Thrown told

/-- What a script comes to, and what it means for the transaction. -/
structure Verdict (lastValid : Blockhash → Nat) (sign : Blockhash → RawTransaction) (w : Node) (told : Told)
    (r : Except RpcError Signature) : Prop where
  /-- There is one transaction, however often it was sent. -/
  once : ∃ blockhash, ∀ raw, Made told (.sendRawTransaction raw) → raw = sign blockhash
  returned : ∀ sig, r = .ok sig → (∃ raw, Answered told (.sendRawTransaction raw) sig) ∧
    ∃ e, w.Has e ∧ e.raw.signature = sig ∧ e.err = none
  expired : ∀ sig, r = .error (.expired sig) → ∃ raw, Answered told (.sendRawTransaction raw) sig ∧
    raw.signature = sig ∧ Gone lastValid w raw
  /-- It failed on the chain, or on a fork that may yet be dropped. -/
  failed : ∀ sig err, r = .error (.failed sig err) → (∃ raw, Answered told (.sendRawTransaction raw) sig) ∧
    ∃ st : SignatureStatus, Answered told (.getSignatureStatuses sig) (some st) ∧ st.err = some err ∧
      (st.landed = true → ∃ e, w.Has e ∧ e.raw.signature = sig ∧ e.err = some err)

/-! ## The script -/

variable (sign : Blockhash → RawTransaction)

/-- What a script was told when it ends. -/
structure Ends (told : Told) (r : Except RpcError Signature) : Prop where
  once : ∃ blockhash, ∀ raw, Made told (.sendRawTransaction raw) → raw = sign blockhash
  returned : ∀ sig, r = .ok sig → (∃ raw, Answered told (.sendRawTransaction raw) sig) ∧
    ∃ st, Answered told (.getSignatureStatuses sig) st ∧ st.any (·.landed) = true ∧ st.bind (·.err) = none
  expired : ∀ sig, r = .error (.expired sig) → ∃ latest n, Answered told .getLatestBlockhash latest ∧
    Answered told (.sendRawTransaction (sign latest.blockhash)) sig ∧ latest.lastValidBlockHeight < n ∧
      Missed told sig n
  failed : ∀ sig err, r = .error (.failed sig err) → (∃ raw, Answered told (.sendRawTransaction raw) sig) ∧
    ∃ st : SignatureStatus, Answered told (.getSignatureStatuses sig) (some st) ∧ st.err = some err

variable {sign}

/-- No transaction was sent, or one that was signed for `latest`. -/
def SentFor (sign : Blockhash → RawTransaction) (latest : LatestBlockhash) (told : Told) : Prop :=
  Answered told .getLatestBlockhash latest ∧
    ∀ raw, Made told (.sendRawTransaction raw) → raw = sign latest.blockhash

/-- The transaction that was signed for `latest` was sent. -/
structure Pending (sign : Blockhash → RawTransaction) (latest : LatestBlockhash) (sig : Signature) (told : Told) :
    Prop where
  sentFor : SentFor sign latest told
  sent : Answered told (.sendRawTransaction (sign latest.blockhash)) sig

theorem SentFor.later {latest : LatestBlockhash} (h : SentFor sign latest told)
    {r : Except RpcError c.Answer} (hc : ∀ raw, c = .sendRawTransaction raw → raw = sign latest.blockhash) :
    SentFor sign latest (told ++ [⟨c, r⟩]) :=
  ⟨h.1.later _, fun raw hraw => hraw.cases.elim (h.2 raw) (hc raw)⟩

theorem Pending.later {latest : LatestBlockhash} (h : Pending sign latest sig told)
    {r : Except RpcError c.Answer} (hc : ∀ raw, c ≠ .sendRawTransaction raw) :
    Pending sign latest sig (told ++ [⟨c, r⟩]) :=
  ⟨h.sentFor.later fun raw hraw => absurd hraw (hc raw), h.sent.later _⟩

variable {lastValid : Blockhash → Nat} {w w' : Node} {raw : RawTransaction}

theorem Node.Moves.height_le (h : Node.Moves lastValid w w') : w.height ≤ w'.height := by
  cases h with
  | confirm block h => simp [Node.height]
  | forget e h => exact Nat.le_refl _

theorem Node.Moves.has (h : Node.Moves lastValid w w') {e : Entry} (he : w.Has e) : w'.Has e := by
  cases h with
  | confirm block h =>
    obtain ⟨b, hb, he⟩ := he
    exact ⟨b, List.mem_append_left _ hb, he⟩
  | forget e h => exact he

/-- What is new in the chain was valid at its height. -/
theorem Node.Moves.has_valid (h : Node.Moves lastValid w w') {e : Entry} (he : w'.Has e) :
    w.Has e ∨ w.height < lastValid e.raw.recentBlockhash := by
  cases h with
  | forget e h => exact Or.inl he
  | confirm block h =>
    obtain ⟨b, hb, he⟩ := he
    rcases List.mem_append.mp hb with hb | hb
    · exact Or.inl ⟨b, hb, he⟩
    · rw [List.mem_singleton] at hb
      subst hb
      exact Or.inr (h e he)

/-- No block to come has a transaction whose blockhash is too old. -/
theorem Node.Later.has_expired (h : Node.Later lastValid w w')
    (hheight : lastValid raw.recentBlockhash ≤ w.height) : ∀ e, w'.Has e → e.raw = raw → w.Has e := by
  have hkept : lastValid raw.recentBlockhash ≤ w'.height ∧ ∀ e, w'.Has e → e.raw = raw → w.Has e := by
    induction h with
    | refl => exact ⟨hheight, fun e he _ => he⟩
    | tail _ hmove ih =>
      refine ⟨Nat.le_trans ih.1 hmove.height_le, fun e he heq => ?_⟩
      obtain hin | hvalid := hmove.has_valid he
      · exact ih.2 e hin heq
      · rw [heq] at hvalid
        exact absurd hvalid (Nat.not_lt.mpr ih.1)
  exact hkept.2

theorem Gone.later (h : Gone lastValid w raw) (hmove : Node.Moves lastValid w w') : Gone lastValid w' raw where
  past := Nat.lt_of_lt_of_le h.past hmove.height_le
  closed w'' hlater e he heq := hmove.has (h.closed w'' (.head hmove hlater) e he heq)
  out := by
    obtain hforgotten | hout := h.out
    · left
      cases hmove with
      | confirm block hvalid => exact hforgotten
      | forget e he => exact Or.inr hforgotten
    · exact Or.inr fun e he heq => hout e (h.closed w' (.single hmove) e he heq) heq

/-- A status that shows nothing, behind a height past the last valid one, is of a transaction that is gone. -/
theorem gone_of_shows {st : Option SignatureStatus} (hshows : w.Shows sig st) (hst : st.any (·.landed) = false)
    (hsig : raw.signature = sig) (hn : n ≤ w.height)
    (hpast : lastValid raw.recentBlockhash < n) : Gone lastValid w raw where
  past := Nat.lt_of_lt_of_le hpast hn
  closed w' hlater := hlater.has_expired (Nat.le_trans (Nat.le_of_lt hpast) hn)
  out := by
    rw [Node.Shows, hst, if_neg Bool.false_ne_true] at hshows
    subst hsig
    exact hshows.imp id fun hnone e he heq => hnone e he (congrArg RawTransaction.signature heq)

theorem Knows.start (w : Node) : Knows lastValid w [] where
  latest _ h := absurd h List.not_mem_nil
  sent _ _ h := absurd h List.not_mem_nil
  landed _ _ h := absurd h List.not_mem_nil
  height _ h := absurd h List.not_mem_nil
  missed sig n h := by
    obtain ⟨before, st, after, heq, -⟩ := h
    simp at heq
  thrown _ _ h := absurd h List.not_mem_nil

theorem Knows.moves (h : Knows lastValid w told) (hmove : Node.Moves lastValid w w') : Knows lastValid w' told where
  latest := h.latest
  sent := h.sent
  landed sig st hst hlanded := by
    obtain ⟨e, he, hsig, herr⟩ := h.landed sig st hst hlanded
    exact ⟨e, hmove.has he, hsig, herr⟩
  height n hn := Nat.le_trans (h.height n hn) hmove.height_le
  missed sig n hmissed raw hsig hpast := (h.missed sig n hmissed raw hsig hpast).later hmove
  thrown := h.thrown

/-- The last answer, or an earlier one. -/
theorem Answered.cases {d : RpcCall} {r : Except RpcError d.Answer} {a : c.Answer}
    (h : Answered (told ++ [⟨d, r⟩]) c a) : Answered told c a ∨
      (⟨d, r⟩ : Σ c : RpcCall, Except RpcError c.Answer) = ⟨c, .ok a⟩ :=
  (List.mem_append.mp h).imp id fun hm => (List.mem_singleton.mp hm).symm

theorem Knows.serves {r : Except RpcError c.Answer} (h : Knows lastValid w told)
    (hserves : Node.Serves lastValid w c r w') : Knows lastValid w' (told ++ [⟨c, r⟩]) := by
  have hsame : w' = w := by cases hserves <;> rfl
  subst hsame
  constructor
  case latest =>
    intro latest hlatest
    rcases hlatest.cases with hearlier | hlast
    · exact h.latest latest hearlier
    · cases hserves <;> cases hlast
      rfl
  case sent =>
    intro raw sig hsent
    rcases hsent.cases with hearlier | hlast
    · exact h.sent raw sig hearlier
    · cases hserves <;> cases hlast
      rfl
  case landed =>
    intro sig st hst hlanded
    rcases hst.cases with hearlier | hlast
    · exact h.landed sig st hearlier hlanded
    · cases hserves with
      | statuses hshows =>
        cases hlast
        rwa [Node.Shows, if_pos hlanded] at hshows
      | _ => cases hlast
  case height =>
    intro n hn
    rcases hn.cases with hearlier | hlast
    · exact h.height n hearlier
    · cases hserves with
      | height hle =>
        cases hlast
        exact hle
      | _ => cases hlast
  case missed =>
    intro sig n hmissed raw hsig hpast
    rcases hmissed.cases with hearlier | ⟨st, hlast, hst, hheight⟩
    · exact h.missed sig n hearlier raw hsig hpast
    · cases hserves with
      | statuses hshows =>
        cases hlast
        exact gone_of_shows hshows hst hsig (h.height n hheight) hpast
      | _ => cases hlast
  case thrown =>
    intro d err hmem
    rcases List.mem_append.mp hmem with hearlier | hlast
    · exact h.thrown d err hearlier
    · rw [List.mem_singleton] at hlast
      cases hserves with
      | throws message =>
        cases hlast
        exact ⟨message, rfl⟩
      | _ => cases hlast

/-- A script ends with the verdict that the chain bears out. -/
theorem Ends.verdict {r : Except RpcError Signature}
    (hsign : ∀ blockhash, (sign blockhash).recentBlockhash = blockhash) (hends : Ends sign told r)
    (hknows : Knows lastValid w told) : Verdict lastValid sign w told r where
  once := hends.once
  returned sig hr := by
    obtain ⟨hsent, st, hst, hlanded, hnone⟩ := hends.returned sig hr
    obtain ⟨e, he, hsig, herr⟩ := hknows.landed sig st hst hlanded
    exact ⟨hsent, e, he, hsig, herr.symm.trans hnone⟩
  expired sig hr := by
    obtain ⟨latest, n, hlatest, hsent, hpast, hmissed⟩ := hends.expired sig hr
    have hsig := (hknows.sent _ _ hsent).symm
    refine ⟨_, hsent, hsig, hknows.missed sig n hmissed _ hsig ?_⟩
    rwa [hsign, ← hknows.latest latest hlatest]
  failed sig err hr := by
    obtain ⟨hsent, st, hst, herr⟩ := hends.failed sig err hr
    refine ⟨hsent, st, hst, herr, fun hlanded => ?_⟩
    obtain ⟨e, he, hsig, heq⟩ := hknows.landed sig (some st) hst hlanded
    exact ⟨e, he, hsig, heq.symm.trans herr⟩

def exampleTransaction (blockhash : Blockhash) : RawTransaction := ⟨"5VERv8", blockhash, [2]⟩

end Bosphor.Scripts.SolanaRpc

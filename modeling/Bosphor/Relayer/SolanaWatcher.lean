import Bosphor.Relayer.LifecycleWatcher
import Bosphor.Relayer.SolanaIntentCodec

/-!
# The Solana lifecycle watcher

The watcher of `IntentSubmitted` on the Solana adapter. A poll asks for the
newest signatures since its cursor, one page of them, and for the transactions
they name; the cursor moves to the newest. So a poll leaves no event out if the
page holds all that came since the cursor, and no transaction with an event is
answered without its log (`solana_fetches`).
-/

namespace Bosphor.Relayer.SolanaWatcher

open StagedIntentStore Async Watcher

def SIGNATURE_PAGE_LIMIT : Nat := 100

structure SignatureInfo where
  signature : String
  err : Bool
  deriving DecidableEq

inductive Rpc where
  | getSignaturesForAddress (untilSignature : Option String) (limit : Nat)
  | getTransaction (signature : String)

/-- A transaction is answered with its log messages, without them, or not at all. -/
abbrev Reply : Rpc → Type
  | .getSignaturesForAddress .. => List SignatureInfo
  | .getTransaction _ => Option (Option (List (List Char)))

abbrev Program := WatcherProgram Rpc (Option String) Reply

structure Config where
  /-- Whether a connection and a program are configured. -/
  enabled : Bool := true
  /-- The Sui address that is to receive the blobs. -/
  recipient : String

variable (cfg : Config)

def getSignaturesForAddress (untilSignature : Option String) (limit : Nat) : Program (List SignatureInfo) :=
  Async.call (WatcherCall.rpc (Rpc.getSignaturesForAddress untilSignature limit))

def getTransaction (signature : String) : Program (Option (Option (List (List Char)))) :=
  Async.call (WatcherCall.rpc (Rpc.getTransaction signature))

/-- The newest signature, if there is one and it can be read. -/
def getLatestSignature : Program (Option String) :=
  if !cfg.enabled then return none
  else
    tryCatch (do
      let sigs ← getSignaturesForAddress none 1
      return sigs.head?.map (·.signature)) fun _ => return none

structure SolanaSubmittedEvent extends SolanaIntentSubmitted where
  signature : String
  deriving DecidableEq

structure SolanaSubmitPoll where
  events : List SolanaSubmittedEvent
  newestSignature : Option String

/-- The events of the transactions, one after the other; a failed transaction is passed over. -/
def eventsOf (sigs : List SignatureInfo) : Program (List SolanaSubmittedEvent) :=
  match sigs with
  | [] => return []
  | s :: rest =>
    if s.err then eventsOf rest
    else do
      let tx ← getTransaction s.signature
      let logs := tx.join.getD []
      let later ← eventsOf rest
      return (parseIntentSubmittedEvents logs).map (fun ev => ⟨ev, s.signature⟩) ++ later

def pollIntentSubmitted (untilSignature : Option String) : Program SolanaSubmitPoll :=
  if !cfg.enabled then return ⟨[], untilSignature⟩
  else
    tryCatch (do
      let sigs ← getSignaturesForAddress untilSignature SIGNATURE_PAGE_LIMIT
      match sigs with
      | [] => return ⟨[], untilSignature⟩
      | newest :: _ => do
        let events ← eventsOf sigs.reverse
        return ⟨events, some newest.signature⟩) fun _ => return ⟨[], untilSignature⟩

def SolanaSubmittedEvent.tracked (e : SolanaSubmittedEvent) : TrackedHop :=
  ⟨e.intentId, .submitted, {
    sender := some cfg.recipient
    txHash := some e.signature
    committedBlobId := some e.committedBlobId
    size := some e.size
    deadline := some (e.deadline * 1000) }⟩

/-- What `pollOnce` fetches and tracks. -/
def poll (cursor : Option String) : Program (List TrackedHop × Option String) := do
  let polled ← pollIntentSubmitted cfg cursor
  return (polled.events.map (·.tracked cfg), polled.newestSignature)

def pollOnce (cursor : Option String) : Program (Option String) := Watcher.pollOnce (poll cfg) cursor

/-! ## The chain -/

/-- A transaction that references the program. -/
structure Tx where
  signature : String
  err : Bool
  logMessages : List (List Char)
  deriving DecidableEq

/-- The transactions that reference the program, the oldest first. -/
structure Chain where
  txs : List Tx
  nodup : (txs.map (·.signature)).Nodup

def Tx.info (tx : Tx) : SignatureInfo := ⟨tx.signature, tx.err⟩

/-- The transactions of a view since the signature, the newest first; all of them if it is not there. -/
def since (view : List Tx) (untilSignature : Option String) : List Tx :=
  view.reverse.takeWhile fun tx => untilSignature ≠ some tx.signature

/-- An event is known by the place of its transaction and by its hop. -/
abbrev Item := Nat × TrackedHop

/-- The signature is that of a transaction of the chain. -/
def Chain.Place (chain : Chain) (signature : String) (j : Nat) : Prop :=
  ∃ tx, chain.txs[j]? = some tx ∧ tx.signature = signature

theorem Chain.place_unique (chain : Chain) {signature : String} {j k : Nat} (hj : chain.Place signature j)
    (hk : chain.Place signature k) : j = k := by
  have hat : ∀ {i}, chain.Place signature i → (chain.txs.map (·.signature))[i]? = some signature := by
    intro i hi
    obtain ⟨tx, htx, rfl⟩ := hi
    rw [List.getElem?_map, htx]
    rfl
  obtain ⟨hlt, -⟩ := List.getElem?_eq_some_iff.mp (hat hj)
  exact (List.getElem?_inj hlt chain.nodup).mp ((hat hj).trans (hat hk).symm)

theorem Chain.tx_unique (chain : Chain) {tx tx' : Tx} (h : tx ∈ chain.txs) (h' : tx' ∈ chain.txs)
    (hsame : tx.signature = tx'.signature) : tx = tx' := by
  obtain ⟨j, hj⟩ := List.mem_iff_getElem?.mp h
  obtain ⟨k, hk⟩ := List.mem_iff_getElem?.mp h'
  obtain rfl := chain.place_unique ⟨tx, hj, hsame⟩ ⟨tx', hk, rfl⟩
  exact Option.some.inj (hj.symm.trans hk)

/-- The chain with more transactions. -/
def Chain.Grows (chain chain' : Chain) : Prop := ∃ new, chain'.txs = chain.txs ++ new

theorem Chain.Grows.get {chain chain' : Chain} (h : chain.Grows chain') {j : Nat} (hj : j < chain.txs.length) :
    chain'.txs[j]? = chain.txs[j]? := by
  obtain ⟨new, hnew⟩ := h
  rw [hnew, List.getElem?_append_left hj]

theorem Chain.Grows.place {chain chain' : Chain} (h : chain.Grows chain') {signature : String} {j : Nat}
    (hj : chain.Place signature j) : chain'.Place signature j := by
  obtain ⟨tx, htx, hsignature⟩ := hj
  obtain ⟨hlt, -⟩ := List.getElem?_eq_some_iff.mp htx
  exact ⟨tx, (h.get hlt).trans htx, hsignature⟩

/-- The transactions up to the one that the cursor names are read. -/
def feed : Feed Chain (Option String) Item where
  has chain x := ∃ tx, chain.txs[x.1]? = some tx ∧ tx.err = false ∧
    ∃ ev ∈ parseIntentSubmittedEvents tx.logMessages, x.2 = (⟨ev, tx.signature⟩ : SolanaSubmittedEvent).tracked cfg
  upTo chain c x := ∃ signature j, c = some signature ∧ chain.Place signature j ∧ x.1 ≤ j
  marks chain c := ∀ signature, c = some signature → ∃ j, chain.Place signature j
  grows := Chain.Grows
  grows_marks hgrows hmarks signature hc := by
    obtain ⟨j, hj⟩ := hmarks signature hc
    exact ⟨j, hgrows.place hj⟩
  grows_upTo hgrows hupTo := by
    obtain ⟨signature, j, hc, hj, hle⟩ := hupTo
    exact ⟨signature, j, hc, hgrows.place hj, hle⟩
  grows_before hgrows hmarks hhas hupTo := by
    obtain ⟨signature, j, hc, hj, hle⟩ := hupTo
    obtain ⟨j', hj'⟩ := hmarks signature hc
    -- the cursor is where it was in the old chain, so what is before it is old
    obtain rfl := Chain.place_unique _ hj (hgrows.place hj')
    obtain ⟨tx', htx', -⟩ := id hj'
    obtain ⟨hlt, -⟩ := List.getElem?_eq_some_iff.mp htx'
    obtain ⟨tx, htx, hrest⟩ := hhas
    exact ⟨⟨tx, (hgrows.get (by omega)).symm.trans htx, hrest⟩, signature, j, hc, hj', hle⟩

/-- How a query is answered: by a node that may lag behind. -/
def Reads (chain : Chain) : (q : Rpc) → Except String (Reply q) → Prop
  | .getSignaturesForAddress untilSignature limit, .ok sigs =>
    ∃ n ≤ chain.txs.length, sigs = ((since (chain.txs.take n) untilSignature).take limit).map Tx.info
  | .getTransaction signature, .ok (some (some logs)) =>
    ∃ tx ∈ chain.txs, tx.signature = signature ∧ logs = tx.logMessages
  | _, _ => True

/-- An answer by which a poll leaves no event out: a page holds what came since the cursor, if the node knows the
cursor, and a transaction with an event is answered with it. -/
def Shows (chain : Chain) : (q : Rpc) → Except String (Reply q) → Prop
  | .getSignaturesForAddress untilSignature limit, .ok sigs => limit = SIGNATURE_PAGE_LIMIT →
    ∃ n ≤ chain.txs.length, sigs = ((since (chain.txs.take n) untilSignature).take limit).map Tx.info ∧
      ((∃ signature j, untilSignature = some signature ∧ chain.Place signature j ∧ n ≤ j) ∨
        (since (chain.txs.take n) untilSignature).length ≤ limit)
  | .getTransaction signature, .ok reply => ∃ tx ∈ chain.txs, tx.signature = signature ∧
    ∀ ev ∈ parseIntentSubmittedEvents tx.logMessages, ev ∈ parseIntentSubmittedEvents (reply.join.getD [])
  | _, _ => True

abbrev Host := WatchHost (feed cfg) Reads (getLatestSignature cfg) (poll cfg)

variable {cfg} {chain : Chain}

/-! ## What a poll fetches -/

/-- What the answers are trusted to say. -/
def Trusted (chain : Chain) (q : Rpc) (r : Except String (Reply q)) : Prop := Reads chain q r ∧ Shows chain q r

theorem Chain.Grows.mem {chain chain' : Chain} (h : chain.Grows chain') {tx : Tx} (htx : tx ∈ chain.txs) :
    tx ∈ chain'.txs := by
  obtain ⟨new, hnew⟩ := h
  rw [hnew]
  exact List.mem_append_left _ htx

/-- A view of the chain is one of the chain that it has grown to. -/
theorem Chain.Grows.take {chain chain' : Chain} (h : chain.Grows chain') {n : Nat} (hn : n ≤ chain.txs.length) :
    n ≤ chain'.txs.length ∧ chain'.txs.take n = chain.txs.take n := by
  obtain ⟨new, hnew⟩ := h
  rw [hnew, List.length_append, List.take_append_of_le_length hn]
  exact ⟨by omega, rfl⟩

theorem reads_grows {chain chain' : Chain} (q : Rpc) (r : Except String (Reply q)) (hgrows : chain.Grows chain')
    (h : Reads chain q r) : Reads chain' q r := by
  cases r with
  | error e => cases q <;> trivial
  | ok reply =>
    cases q with
    | getSignaturesForAddress untilSignature limit =>
      obtain ⟨n, hn, hsigs⟩ := h
      obtain ⟨hle, hsame⟩ := hgrows.take hn
      exact ⟨n, hle, by rw [hsame]; exact hsigs⟩
    | getTransaction signature =>
      cases reply with
      | none => trivial
      | some logs =>
        cases logs with
        | none => trivial
        | some logs =>
          obtain ⟨tx, htx, hrest⟩ := h
          exact ⟨tx, hgrows.mem htx, hrest⟩

theorem trusted_grows {chain chain' : Chain} (q : Rpc) (r : Except String (Reply q)) (hgrows : chain.Grows chain')
    (h : Trusted chain q r) : Trusted chain' q r := by
  obtain ⟨hreads, hshows⟩ := h
  refine ⟨reads_grows q r hgrows hreads, ?_⟩
  cases r with
  | error e => cases q <;> trivial
  | ok reply =>
    cases q with
    | getSignaturesForAddress untilSignature limit =>
      intro hlimit
      obtain ⟨n, hn, hsigs, hwhole⟩ := hshows hlimit
      obtain ⟨hle, hsame⟩ := hgrows.take hn
      refine ⟨n, hle, by rw [hsame]; exact hsigs, ?_⟩
      obtain ⟨signature, j, hc, hplace, hlag⟩ | hpage := hwhole
      · exact Or.inl ⟨signature, j, hc, hgrows.place hplace, hlag⟩
      · exact Or.inr (by rw [hsame]; exact hpage)
    | getTransaction signature =>
      obtain ⟨tx, htx, hrest⟩ := hshows
      exact ⟨tx, hgrows.mem htx, hrest⟩

/-- The newest signature of an answer is a place of the chain. -/
theorem newest_place {untilSignature : Option String} {limit n : Nat} {newest : SignatureInfo}
    {rest : List SignatureInfo}
    (hsigs : newest :: rest = ((since (chain.txs.take n) untilSignature).take limit).map Tx.info)
    (hn : n ≤ chain.txs.length) :
    chain.Place newest.signature (n - 1) ∧ 0 < n := by
  unfold since at hsigs
  cases hview : (chain.txs.take n).reverse with
  | nil =>
    rw [hview] at hsigs
    simp at hsigs
  | cons tx older =>
    have hnewest : newest = tx.info := by
      rw [hview, List.takeWhile_cons] at hsigs
      split at hsigs
      · cases limit with
        | zero => simp at hsigs
        | succ limit =>
          rw [List.take_succ_cons, List.map_cons] at hsigs
          exact (List.cons.inj hsigs).1
      · simp at hsigs
    have hlength : (chain.txs.take n).length = n := by
      rw [List.length_take]
      omega
    have hlast : (chain.txs.take n)[n - 1]? = some tx := by
      have hhead : (chain.txs.take n).reverse.head? = some tx := by
        rw [hview]
        rfl
      rw [List.head?_reverse, List.getLast?_eq_getElem?, hlength] at hhead
      exact hhead
    have hpos : 0 < n := by
      obtain ⟨hlt, -⟩ := List.getElem?_eq_some_iff.mp hlast
      omega
    rw [List.getElem?_take_of_lt (by omega)] at hlast
    exact ⟨⟨tx, hlast, by rw [hnewest]; rfl⟩, hpos⟩

/-- A transaction of the view that is after the cursor is in its page. -/
theorem mem_since {untilSignature : Option String} {n k : Nat} {tx : Tx} (hk : k < n) (htx : chain.txs[k]? = some tx)
    (hafter : ∀ signature j, untilSignature = some signature → chain.Place signature j → j < k) :
    tx ∈ since (chain.txs.take n) untilSignature := by
  -- from `tx` on, no transaction of the view is the one that the cursor names
  have hlater : ∀ t ∈ ((chain.txs.take n).drop k).reverse, decide (untilSignature ≠ some t.signature) = true := by
    intro t ht
    obtain ⟨i, hi⟩ := List.mem_iff_getElem?.mp (List.mem_reverse.mp ht)
    rw [List.getElem?_drop] at hi
    obtain ⟨hlt, -⟩ := List.getElem?_eq_some_iff.mp hi
    rw [List.length_take] at hlt
    rw [List.getElem?_take_of_lt (by omega)] at hi
    refine decide_eq_true fun hsame => ?_
    have hbefore := hafter t.signature (k + i) hsame ⟨t, hi, rfl⟩
    omega
  have hmem : tx ∈ ((chain.txs.take n).drop k).reverse := by
    rw [List.mem_reverse, List.mem_iff_getElem?]
    refine ⟨0, ?_⟩
    rw [List.getElem?_drop, Nat.add_zero, List.getElem?_take_of_lt hk, htx]
  unfold since
  rw [← List.take_append_drop k (chain.txs.take n), List.reverse_append, List.takeWhile_append_of_pos hlater]
  exact List.mem_append_left _ hmem

section

variable {P : Told Rpc (Option String) Reply → WatcherCall Rpc (Option String) → Prop}
  {h : Told Rpc (Option String) Reply}

theorem wp_getSignaturesForAddress {Q : Told Rpc (Option String) Reply → Except String (List SignatureInfo) → Prop}
    (untilSignature : Option String) (limit : Nat) : wp P Q h (getSignaturesForAddress untilSignature limit) ↔
      P h (.rpc (.getSignaturesForAddress untilSignature limit)) ∧
        ∀ r, Q (h ++ [⟨.rpc (.getSignaturesForAddress untilSignature limit), r⟩]) r :=
  wp_call (Q := Q) (WatcherCall.rpc (Rpc.getSignaturesForAddress untilSignature limit))

theorem wp_getTransaction
    {Q : Told Rpc (Option String) Reply → Except String (Option (Option (List (List Char)))) → Prop}
    (signature : String) : wp P Q h (getTransaction signature) ↔
      P h (.rpc (.getTransaction signature)) ∧ ∀ r, Q (h ++ [⟨.rpc (.getTransaction signature), r⟩]) r :=
  wp_call (Q := Q) (WatcherCall.rpc (Rpc.getTransaction signature))

end

variable {h : Told Rpc (Option String) Reply}

theorem getLatestSignature_seeds : wp (fun _ c => c.Queries)
    (fun h r => ∀ c, r = .ok c → Seeds (feed cfg) Trusted h c) h (getLatestSignature cfg) := by
  have hnone : ∀ h : Told Rpc (Option String) Reply, Seeds (feed cfg) Trusted h none := by
    intro h chain _ signature hc
    cases hc
  unfold getLatestSignature
  split
  · intro c hc
    cases hc
    exact hnone h
  · rw [wp_tryCatch, wp_bind, wp_getSignaturesForAddress]
    refine ⟨trivial, fun r => ?_⟩
    cases r with
    | error e =>
      intro c hc
      cases hc
      exact hnone _
    | ok sigs =>
      intro c hc chain htrusts signature hsignature
      obtain ⟨⟨n, hn, hsigs⟩, -⟩ := htrusts (.getSignaturesForAddress none 1) (.ok sigs) (by simp)
      cases sigs with
      | nil =>
        cases hc
        cases hsignature
      | cons newest rest =>
        cases hc
        cases hsignature
        exact ⟨n - 1, (newest_place hsigs hn).1⟩

/-- The transactions of a page are asked for, and their events collected. -/
theorem eventsOf_collects (sigs : List SignatureInfo) : wp (fun _ c => c.Queries)
    (fun h r => ∀ events, r = .ok events → ∀ s ∈ sigs, s.err = false →
      ∃ tx, ⟨.rpc (.getTransaction s.signature), .ok tx⟩ ∈ h ∧
      ∀ ev ∈ parseIntentSubmittedEvents (tx.join.getD []), ⟨ev, s.signature⟩ ∈ events) h (eventsOf sigs) := by
  induction sigs generalizing h with
  | nil => exact fun events _ s hs => absurd hs List.not_mem_nil
  | cons s rest ih =>
    unfold eventsOf
    split
    · rename_i herr
      refine wp_mono ih (fun _ _ => id) fun h r hr events hevents s' hs' hok => ?_
      obtain rfl | hs' := List.mem_cons.mp hs'
      · rw [herr] at hok
        cases hok
      · exact hr events hevents s' hs' hok
    · rw [wp_bind, wp_getTransaction]
      refine ⟨trivial, fun r => ?_⟩
      cases r with
      | error e =>
        intro events hevents
        cases hevents
      | ok tx =>
        rw [andThen_ok, wp_bind]
        have hstays : ∀ (h : Told Rpc (Option String) Reply) x, ⟨.rpc (.getTransaction s.signature), .ok tx⟩ ∈ h →
            ⟨.rpc (.getTransaction s.signature), .ok tx⟩ ∈ h ++ [x] := fun h x hmem => List.mem_append_left _ hmem
        refine wp_mono (wp_stays hstays ih (by simp)) (fun _ _ => id) fun h r hr => ?_
        cases r with
        | error e =>
          intro events hevents
          cases hevents
        | ok later =>
          intro events hevents s' hs' hok
          cases hevents
          obtain rfl | hs' := List.mem_cons.mp hs'
          · exact ⟨tx, hr.2, fun ev hev => List.mem_append_left _ (List.mem_map_of_mem hev)⟩
          · obtain ⟨tx', htx', hevents⟩ := hr.1 later rfl s' hs' hok
            exact ⟨tx', htx', fun ev hev => List.mem_append_right _ (hevents ev hev)⟩

/-- A poll fetches every event from its cursor up to the signature it moves to. -/
theorem poll_fetches (h : Told Rpc (Option String) Reply) (c : Option String) :
    wp (fun _ c => c.Queries)
      (fun h r => ∀ hops c', r = .ok (hops, c') → Fetched (feed cfg) Prod.snd Trusted h c hops c') h (poll cfg c) := by
  -- where nothing is fetched, the cursor stays
  have hstays : ∀ h : Told Rpc (Option String) Reply, Fetched (feed cfg) Prod.snd Trusted h c [] c :=
    fun h chain _ hmarks => ⟨hmarks, .start⟩
  unfold poll pollIntentSubmitted
  rw [wp_bind]
  split
  · intro hops c' hc'
    cases hc'
    exact hstays h
  · rw [wp_tryCatch, wp_bind, wp_getSignaturesForAddress]
    refine ⟨trivial, fun r => ?_⟩
    cases r with
    | error e =>
      intro hops c' hc'
      cases hc'
      exact hstays _
    | ok sigs =>
      rw [andThen_ok]
      cases sigs with
      | nil =>
        intro hops c' hc'
        cases hc'
        exact hstays _
      | cons newest rest =>
        dsimp only
        rw [wp_bind]
        have hasked : ∀ (h : Told Rpc (Option String) Reply) x,
            ⟨.rpc (.getSignaturesForAddress c SIGNATURE_PAGE_LIMIT), .ok (newest :: rest)⟩ ∈ h →
            ⟨.rpc (.getSignaturesForAddress c SIGNATURE_PAGE_LIMIT), .ok (newest :: rest)⟩ ∈ h ++ [x] :=
          fun h x hmem => List.mem_append_left _ hmem
        refine wp_mono (wp_stays hasked (eventsOf_collects (newest :: rest).reverse) (by simp)) (fun _ _ => id)
          fun h r hr => ?_
        obtain ⟨hcollects, hpage⟩ := hr
        cases r with
        | error e =>
          intro hops c' hc'
          cases hc'
          exact hstays _
        | ok events =>
          intro hops c' hc'
          cases hc'
          intro chain htrusts _
          obtain ⟨-, hshows⟩ := htrusts _ _ hpage
          obtain ⟨n, hn, hsigs, hwhole⟩ := hshows rfl
          obtain ⟨hplace, hpos⟩ := newest_place hsigs hn
          refine ⟨fun signature hsignature => ?_, fun x hhas hupTo hafter => ?_⟩
          · cases hsignature
            exact ⟨n - 1, hplace⟩
          · obtain ⟨tx, htx, hok, ev, hev, hhop⟩ := hhas
            have hk : x.1 < n := by
              obtain ⟨signature, j, hsignature, hj, hle⟩ := hupTo
              cases hsignature
              have := chain.place_unique hj hplace
              omega
            have hlater : ∀ signature j, c = some signature → chain.Place signature j → j < x.1 := by
              intro signature j hc hj
              by_contra hbefore
              exact hafter ⟨signature, j, hc, hj, by omega⟩
            have hinfo : tx.info ∈ newest :: rest := by
              rw [hsigs]
              obtain ⟨signature, j, hc, hj, hlag⟩ | hwhole := hwhole
              · have := hlater signature j hc hj
                omega
              · rw [List.take_of_length_le hwhole]
                exact List.mem_map_of_mem (mem_since hk htx hlater)
            obtain ⟨reply, hreply, hevents⟩ := hcollects events rfl tx.info (List.mem_reverse.mpr hinfo) hok
            obtain ⟨-, tx', htx', hsame, hshown⟩ := htrusts _ _ hreply
            obtain rfl : tx' = tx := chain.tx_unique htx' (List.mem_of_getElem? htx) hsame
            rw [hhop]
            exact List.mem_map_of_mem (hevents ev (hshown ev hev))

theorem solana_fetches : Fetches (feed cfg) Prod.snd Trusted (getLatestSignature cfg) (poll cfg) where
  bootstrap := getLatestSignature_seeds
  poll := poll_fetches
  grows _ _ q r hgrows h := trusted_grows q r hgrows h

end Bosphor.Relayer.SolanaWatcher

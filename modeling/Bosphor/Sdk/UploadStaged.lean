import Bosphor.Lib.Host
import Bosphor.Relayer.IngestAnswers
import Bosphor.Relayer.IngestController
import Bosphor.Sdk.Upload

/-!
# What an upload has done

A client uploads to a relayer that ingests the bytes of each of its requests
while other sessions run their statements and the lifecycle records change. A
request may be lost, or its answer.

An upload returns on an acknowledgement, or on the conflict that a retry is
told. Either says what it should: the bytes were staged at some moment of the
upload, or the records showed one of its ingests an intent that was executed
(`uploadBlob_staged`).
-/

namespace Bosphor.Sdk

open Async Relayer
open Relayer.StagedIntentStore (Op upsert_some)
open ReadCommitted (Database Open)

/-! ## An ingest over the records -/

/-- An ingest under way, and the lifecycle records beside it. -/
structure Ingestion (τ : Type) where
  call : Admission τ
  records : Relayer.IntentId → Option IntentLifecycleRecord
  /-- The commitments that the records have shown. -/
  known : Set IntentCommitment := ∅

variable {τ : Type} [DecidableEq τ]

/-- One step of the ingest in the session `t`, of the other sessions, or of the records. -/
inductive IngestionStep (t : τ) (x : Ingestion τ) : Ingestion τ → Prop
  | admission {e σ} (h : AdmissionStep t x.call e σ) (he : ∀ id, e ≠ .answered (.getCommitment id)) :
    IngestionStep t x { x with call := σ }
  | commitment {id next} (hprogram : x.call.program = .await (.getCommitment id) next) :
    IngestionStep t x { x with
      call := { x.call with program := next (.ok (getCommitment (x.records id))) }
      known := {c | c ∈ x.known ∨ getCommitment (x.records id) = some c} }
  | hop (id : Relayer.IntentId) (record : IntentLifecycleRecord) :
    IngestionStep t x { x with records := Function.update x.records id (some record) }

/-- The row of the intent holds the bytes, under the app id that they came with. -/
def StagedAs (id : Relayer.IntentId) (bytes : List UInt8) (appId : Option String) (rows : Rows) : Prop :=
  ∃ r, rows id = some r ∧ r.bytes = some bytes ∧ ∀ app, appId = some app → r.appId = some app

variable (cfg : IngestConfig) (id : Relayer.IntentId) (bytes : List UInt8) (appId : Option String)

/-- An ingest stages its own bytes. -/
def StagesOwn : IngestCall → Prop
  | .upsert k blob _ _ => k = id ∧ blob.bytes = bytes ∧ blob.appId = appId
  | _ => True

/-- What an answer of ingest rests on. -/
structure RestsOn (h : History IngestCall IngestCall.Answer Unit) (r : Except Unit IngestResult) : Prop where
  accepted : ∀ k blobId size, r = .ok (.accepted k blobId size) →
    ∃ k blob cap now, ⟨.upsert k blob cap now, .ok true⟩ ∈ h
  executed : ∀ k message, r = .ok (.rejected k .alreadyExecuted message) →
    ∃ k, ∃ c : IntentCommitment, ⟨.getCommitment k, .ok (some c)⟩ ∈ h ∧ isExecuted c.status = true

variable {cfg id bytes appId} {h : History IngestCall IngestCall.Answer Unit}

/-- An end that is neither. -/
theorem RestsOn.other {r : Except Unit IngestResult} (haccepted : ∀ k blobId size, r ≠ .ok (.accepted k blobId size))
    (hexecuted : ∀ k message, r ≠ .ok (.rejected k .alreadyExecuted message)) : RestsOn h r :=
  ⟨fun k blobId size hr => absurd hr (haccepted k blobId size), fun k message hr => absurd hr (hexecuted k message)⟩

theorem stage_rests (hstaged : cfg.staged = true) (blobId : String) (deadline : Nat) :
    wp (fun _ => StagesOwn id bytes appId) RestsOn h (stage cfg id bytes blobId appId deadline) := by
  unfold stage upsertBytes
  rw [hstaged, if_pos rfl, wp_bind, wp_bind]
  refine (wp_call _).mpr ⟨trivial, fun now => ?_⟩
  cases now with
  | error e => exact .other nofun nofun
  | ok now =>
    rw [andThen_ok, wp_bind]
    refine (wp_call _).mpr ⟨⟨rfl, rfl, rfl⟩, fun wrote => ?_⟩
    cases wrote with
    | error e => exact .other nofun nofun
    | ok wrote =>
      cases wrote with
      | true =>
        exact ⟨fun k blobId size _ => ⟨_, _, _, _, List.mem_append_right _ (List.mem_singleton_self _)⟩,
          fun k message hr => by cases hr⟩
      | false =>
        rw [andThen_ok]
        show wp _ _ _ (ingestCall (.stagedBytesTotalExcluding id) >>= _)
        rw [wp_bind]
        refine (wp_call _).mpr ⟨trivial, fun total => ?_⟩
        cases total with
        | error e => exact .other nofun nofun
        | ok total =>
          rw [andThen_ok]
          show andThen _ _ _ _ (.ok (if total + bytes.length > cfg.maxStagedBytes then UpsertOutcome.backpressure
            else UpsertOutcome.terminal))
          split <;> exact .other nofun nofun

theorem bindBytes_rests (hstaged : cfg.staged = true) (commitment : IntentCommitment) :
    wp (fun _ => StagesOwn id bytes appId) RestsOn h (bindBytes cfg id bytes appId commitment) := by
  unfold bindBytes
  rw [wp_bind]
  refine (wp_call _).mpr ⟨trivial, fun blobId => ?_⟩
  cases blobId with
  | error e => exact .other nofun nofun
  | ok blobId =>
    rw [andThen_ok]
    split
    · exact .other nofun nofun
    · exact stage_rests hstaged _ _

theorem admitBytes_rests (hstaged : cfg.staged = true) {k : Relayer.IntentId} {commitment : IntentCommitment}
    (hknown : ⟨.getCommitment k, .ok (some commitment)⟩ ∈ h) :
    wp (fun _ => StagesOwn id bytes appId) RestsOn h (admitBytes cfg id bytes appId commitment) := by
  unfold admitBytes
  split
  case isTrue hexecuted =>
    exact ⟨fun k blobId size hr => (by cases hr), fun _ _ _ => ⟨k, commitment, hknown, hexecuted⟩⟩
  case isFalse =>
    rw [wp_bind]
    refine (wp_call _).mpr ⟨trivial, fun now => ?_⟩
    cases now with
    | error e => exact .other nofun nofun
    | ok now =>
      rw [andThen_ok]
      split
      · exact .other nofun nofun
      · split
        · exact .other nofun nofun
        · split
          · exact .other nofun nofun
          · unfold shed
            rw [hstaged, if_pos rfl, wp_bind, wp_bind]
            refine (wp_call _).mpr ⟨trivial, fun total => ?_⟩
            cases total with
            | error e => exact .other nofun nofun
            | ok total =>
              rw [andThen_ok]
              by_cases hover : total + bytes.length > cfg.maxStagedBytes
              · rw [if_pos hover]
                exact .other nofun nofun
              · rw [if_neg hover]
                exact bindBytes_rests hstaged commitment

theorem ingest_rests (hstaged : cfg.staged = true) :
    wp (fun _ => StagesOwn id bytes appId) RestsOn [] (ingest cfg id bytes appId) := by
  unfold ingest
  rw [wp_bind]
  refine (wp_call _).mpr ⟨trivial, fun found => ?_⟩
  cases found with
  | error e => exact .other nofun nofun
  | ok found =>
    cases found with
    | none => exact .other nofun nofun
    | some commitment => exact admitBytes_rests hstaged (List.mem_append_right _ (List.mem_singleton_self _))

/-! ## What an ingest has done -/

/-- What an answer attests. -/
def Attests (x : Ingestion τ) (id : Relayer.IntentId) (bytes : List UInt8) (appId : Option String) :
    (Σ c : IngestCall, Except Unit c.Answer) → Prop
  | ⟨.upsert .., .ok true⟩ => ∃ rows ∈ x.call.seen, StagedAs id bytes appId rows
  | ⟨.getCommitment _, .ok (some c)⟩ => c ∈ x.known
  | _ => True

/-- What holds of an ingest under way. -/
structure Attested (cfg : IngestConfig) (id : Relayer.IntentId) (bytes : List UInt8) (appId : Option String) (t : τ)
    (x : Ingestion τ) : Prop where
  own : ∀ o, x.call.db.opened t = some o → ∃ blob cap now next, x.call.program = .await (.upsert id blob cap now) next ∧
    o.statement = (Op.upsertBytes id blob cap now).statement ∧
    (o.locked = [] ∨ ∃ r, o.written id = some (some r) ∧ r.bytes = some bytes ∧
      ∀ app, appId = some app → r.appId = some app)
  told : ∃ h, Leads (ingest cfg id bytes appId) h x.call.program ∧ ∀ y ∈ h, Attests x id bytes appId y

variable {t : τ} {x x' : Ingestion τ}

omit [DecidableEq τ] in
theorem Attests.mono (hseen : x.call.seen ⊆ x'.call.seen) (hknown : x.known ⊆ x'.known)
    {y : Σ c : IngestCall, Except Unit c.Answer} (hy : Attests x id bytes appId y) : Attests x' id bytes appId y := by
  unfold Attests at hy ⊢
  split
  · obtain ⟨rows, hrows, hstaged⟩ := hy
    exact ⟨rows, hseen hrows, hstaged⟩
  · exact hknown hy
  · trivial

omit [DecidableEq τ] in
/-- What was told, with one more answer. -/
theorem Attested.tell (hx : Attested cfg id bytes appId t x) {c : IngestCall} {next}
    (hprogram : x.call.program = .await c next) (r : Except Unit c.Answer)
    (hnext : x'.call.program = next r) (hseen : x.call.seen ⊆ x'.call.seen) (hknown : x.known ⊆ x'.known)
    (hr : Attests x' id bytes appId ⟨c, r⟩) :
    ∃ h, Leads (ingest cfg id bytes appId) h x'.call.program ∧ ∀ y ∈ h, Attests x' id bytes appId y := by
  obtain ⟨told, hlead, htold⟩ := hx.told
  rw [hprogram] at hlead
  refine ⟨told ++ [⟨c, r⟩], hnext ▸ hlead.answer r, fun y hy => ?_⟩
  obtain hy | hy := List.mem_append.mp hy
  · exact (htold y hy).mono hseen hknown
  · rw [List.mem_singleton.mp hy]
    exact hr

omit [DecidableEq τ] in
theorem Attested.awaits (hx : Attested cfg id bytes appId t x) (hstaged : cfg.staged = true) {c : IngestCall} {next}
    (hprogram : x.call.program = .await c next) : StagesOwn id bytes appId c := by
  obtain ⟨told, hlead, -⟩ := hx.told
  have hwp := wp_leads (ingest_rests hstaged) hlead
  rw [hprogram] at hwp
  exact hwp.1

omit [DecidableEq τ] in
/-- A call other than its statement is awaited with no statement under way. -/
theorem Attested.idle (hx : Attested cfg id bytes appId t x) {c : IngestCall} {next}
    (hprogram : x.call.program = .await c next) (hc : ∀ k blob cap now, c ≠ .upsert k blob cap now) :
    x.call.db.opened t = none := by
  by_contra hopen
  obtain ⟨o, ho⟩ := Option.ne_none_iff_exists'.mp hopen
  obtain ⟨blob, cap, now, next', hawaits, -⟩ := hx.own o ho
  rw [hprogram] at hawaits
  cases hawaits
  exact hc _ _ _ _ rfl

/-- The statement that stages the bytes writes them under their app id. -/
theorem upsert_stagesAs {blob : StagedBytes} {cap : Option Nat} {now : Nat} {rows : Rows} {latest v : Option Row}
    (hwrite : (Op.upsertBytes id blob cap now).statement.write rows id latest = some v) :
    ∃ r, v = some r ∧ r.bytes = some blob.bytes ∧ ∀ app, blob.appId = some app → r.appId = some app := by
  obtain ⟨-, ⟨-, rfl⟩ | ⟨r, -, -, rfl⟩⟩ := upsert_some.mp hwrite
  · exact ⟨_, rfl, rfl, fun app happ => happ⟩
  · refine ⟨_, rfl, rfl, fun app happ => ?_⟩
    show (blob.appId.orElse fun _ => r.appId) = some app
    rw [happ]
    rfl

/-- The other steps of a call keep what it has done. -/
theorem Attested.admission (hstaged : cfg.staged = true) (hx : Attested cfg id bytes appId t x) {e : AdmissionEvent}
    {σ : Admission τ} (hstep : AdmissionStep t x.call e σ) (he : ∀ k, e ≠ .answered (.getCommitment k)) :
    Attested cfg id bytes appId t { x with call := σ } := by
  cases hstep with
  | @others db hdb hown =>
    refine ⟨fun o ho => hx.own o (hown ▸ ho), ?_⟩
    obtain ⟨told, hlead, htold⟩ := hx.told
    refine ⟨told, hlead, fun y hy => Attests.mono ?_ ?_ (htold y hy)⟩
    · exact Set.subset_insert ..
    · exact Set.Subset.refl _
  | @answered c next hprogram a ha =>
    have hidle := hx.idle hprogram fun k blob cap now hc => by
      subst hc
      exact ha
    refine ⟨fun o ho => ?_, hx.tell hprogram (.ok a) rfl (Set.Subset.refl _) (Set.Subset.refl _) ?_⟩
    · rw [hidle] at ho
      cases ho
    · cases c with
      | getCommitment k => exact absurd rfl (he k)
      | upsert k blob cap now => exact ha.elim
      | now | stagedBytesTotal | encodeBlob blob | stagedBytesTotalExcluding k => trivial
  | @failed c next hprogram =>
    refine ⟨fun o ho => ?_, hx.tell hprogram (.error ()) rfl (Set.Subset.refl _) (Set.Subset.refl _) ?_⟩
    · exact absurd (ho.symm.trans (x.call.db.rollback_opened t)) (Option.some_ne_none _)
    · cases c <;> trivial
  | @began k blob cap now next hprogram hidle =>
    refine ⟨fun o ho => ?_, hx.told⟩
    obtain rfl := Option.some.inj ((x.call.db.start_opened t _).symm.trans ho)
    obtain ⟨rfl, -⟩ := hx.awaits hstaged hprogram
    exact ⟨blob, cap, now, next, hprogram, rfl, Or.inl rfl⟩
  | @locked k blob cap now next hprogram o ho v hfree htarget hwrite =>
    refine ⟨fun o' ho' => ?_, hx.told⟩
    obtain rfl := Option.some.inj ((x.call.db.lock_opened t o k v).symm.trans ho')
    obtain ⟨blob', cap', now', next', hprogram', hstatement, -⟩ := hx.own o ho
    rw [hprogram] at hprogram'
    cases hprogram'
    obtain ⟨-, hbytes, happ⟩ := hx.awaits hstaged hprogram
    rw [hstatement] at hwrite
    obtain ⟨r, rfl, hr, hrapp⟩ := upsert_stagesAs hwrite
    exact ⟨blob, cap, now, next, hprogram, hstatement,
      Or.inr ⟨r, o.lock_written_self .., hbytes ▸ hr, fun app h => hrapp app (happ.trans h)⟩⟩
  | @wrote k blob cap now next hprogram o ho hlocked r hr =>
    refine ⟨fun o' ho' => ?_, hx.tell hprogram r rfl (Set.subset_insert ..) (Set.Subset.refl _) ?_⟩
    · exact absurd (ho'.symm.trans (x.call.db.commit_opened t o)) (Option.some_ne_none _)
    · obtain rfl | rfl := hr
      · obtain ⟨blob', cap', now', next', -, -, hnone | ⟨row, hwritten, hrow⟩⟩ := hx.own o ho
        · exact absurd hnone hlocked
        · refine ⟨_, Set.mem_insert .., row, ?_, hrow⟩
          show (o.written id).getD (x.call.db.rows id) = some row
          rw [hwritten]
          rfl
      · trivial
  | @wroteNothing k blob cap now next hprogram o ho hlocked hleft =>
    refine ⟨fun o' ho' => ?_, hx.tell hprogram (.ok false) rfl (Set.Subset.refl _) (Set.Subset.refl _) trivial⟩
    exact absurd (ho'.symm.trans (x.call.db.rollback_opened t)) (Option.some_ne_none _)

theorem Attested.step (hstaged : cfg.staged = true) (hx : Attested cfg id bytes appId t x)
    (hstep : IngestionStep t x x') : Attested cfg id bytes appId t x' := by
  cases hstep with
  | admission h he => exact hx.admission hstaged h he
  | @commitment k next hprogram =>
    have hidle := hx.idle hprogram nofun
    refine ⟨fun o ho => ?_, hx.tell hprogram (.ok (getCommitment (x.records k))) rfl (Set.Subset.refl _)
      (fun c hc => Or.inl hc) ?_⟩
    · rw [hidle] at ho
      cases ho
    · cases hfound : getCommitment (x.records k) with
      | none => trivial
      | some c => exact Or.inr (hfound ▸ rfl)
  | hop k record =>
    obtain ⟨told, hlead, htold⟩ := hx.told
    exact ⟨hx.own, told, hlead, fun y hy => (htold y hy).mono (Set.Subset.refl _) (Set.Subset.refl _)⟩

/-- An ingest that starts over any table and any records, and comes to its end while the others go on. -/
theorem ingestion_ends (hstaged : cfg.staged = true) {db : Database τ Relayer.IntentId Row}
    (hidle : db.opened t = none) {records : Relayer.IntentId → Option IntentLifecycleRecord}
    (hrun : Relation.ReflTransGen (IngestionStep t) ⟨.start cfg id bytes appId db, records, ∅⟩ x)
    {ended : Except Unit IngestResult} (hended : x.call.program = Async.ofExcept ended) :
    (∀ k blobId size, ended = .ok (.accepted k blobId size) → ∃ rows ∈ x.call.seen, StagedAs id bytes appId rows) ∧
      ∀ k message, ended = .ok (.rejected k .alreadyExecuted message) →
        ∃ c ∈ x.known, isExecuted c.status = true := by
  have hstart : Attested cfg id bytes appId t ⟨.start cfg id bytes appId db, records, ∅⟩ :=
    ⟨fun o ho => absurd (ho.symm.trans hidle) (Option.some_ne_none _), [], .start,
      fun y hy => absurd hy List.not_mem_nil⟩
  have hend : Attested cfg id bytes appId t x := by
    clear hended
    induction hrun with
    | refl => exact hstart
    | tail _ hlast ih => exact ih.step hstaged hlast
  obtain ⟨told, hlead, htold⟩ := hend.told
  have hwp := wp_leads (ingest_rests hstaged) hlead
  rw [hended, wp_ofExcept] at hwp
  refine ⟨fun k blobId size hk => ?_, fun k message hk => ?_⟩
  · obtain ⟨k, blob, cap, now, hmem⟩ := hwp.accepted k blobId size hk
    exact htold _ hmem
  · obtain ⟨k, c, hmem, hexecuted⟩ := hwp.executed k message hk
    exact ⟨c, htold _ hmem, hexecuted⟩

/-! ## A relayer that serves uploads -/

/-- The relayer as its clients find it. -/
structure RelayerWorld (τ : Type) where
  db : Database τ Relayer.IntentId Row
  records : Relayer.IntentId → Option IntentLifecycleRecord
  /-- The tables since the upload began. -/
  seen : Set Rows
  /-- The commitments that the records have shown to its ingests. -/
  known : Set IntentCommitment

/-- The header of a request; names are taken without their case. -/
def Request.header (req : Request) (name : String) : Option String :=
  (req.headers.find? fun field => field.1.toLower = name.toLower).map (·.2)

/-- An answer of the endpoint as a client reads it; `render` writes the body. -/
def response (render : IngestReply → String) (reply : IngestReply) : Response where
  ok := 200 ≤ reply.status && reply.status < 300
  status := reply.status
  retryAfter := match reply with
    | .refused _ _ (some seconds) => some (toString seconds)
    | _ => none
  text := some (render reply)

variable (render : IngestReply → String) (cfg : IngestConfig) (relayerUrl : String)

/-- How a call of a client is answered: a request is ingested in a session of its own, or refused for its form, or it
is lost and the relayer goes on with it or not. What stands before the endpoint, the rate limit or a proxy, answers a
request with statuses of its own, none of which acknowledges an upload or is a conflict. -/
inductive RelayerServes : RelayerWorld τ → (c : HttpCall) → Except HttpError c.Answer → RelayerWorld τ → Prop
  | now {w} (ms : Int) : RelayerServes w .now (.ok ms) w
  | sleep {w} (ms : Int) : RelayerServes w (.sleep ms) (.ok ()) w
  | throwIfAborted {w} : RelayerServes w .throwIfAborted (.ok ()) w
  | fails {w} (c : HttpCall) (e : HttpError) : RelayerServes w c (.error e) w
  | intercepted {w req res} (hok : res.ok = false) (hstatus : res.status ≠ 409) :
    RelayerServes w (.fetch req) (.ok res) w
  | refused {w req id reply} (hroute : req.url = relayerUrl ++ "/blob/" ++ id)
      (hcheck : checkRequest (req.header APP_ID_HEADER) req.body = .error reply) :
    RelayerServes w (.fetch req) (.ok (response render reply)) w
  | ingested {w req id bytes appId t ended} {x : Ingestion τ} (hroute : req.url = relayerUrl ++ "/blob/" ++ id)
      (hcheck : checkRequest (req.header APP_ID_HEADER) req.body = .ok (bytes, appId)) (hidle : w.db.opened t = none)
      (hrun : Relation.ReflTransGen (IngestionStep t) ⟨.start cfg id bytes appId w.db, w.records, ∅⟩ x)
      (hended : x.call.program = Async.ofExcept ended) :
    RelayerServes w (.fetch req) (.ok (response render (ingestBlobReply ended)))
      ⟨x.call.db, x.records, w.seen ∪ x.call.seen, w.known ∪ x.known⟩

variable (parseDate : String → Option Int) (intentId : String) (data : List UInt8) (opts : UploadBlobOptions)

/-- What the acknowledgements and the conflicts that a client was told say of the relayer. -/
def Uploaded (w : RelayerWorld τ) (told : HttpTold) : Prop :=
  ∀ req res, ⟨.fetch req, .ok res⟩ ∈ told →
    (res.ok = true → ∃ rows ∈ w.seen, StagedAs intentId data (opts.appId.map String.toLower) rows) ∧
      (res.status = 409 → ∃ c ∈ w.known, isExecuted c.status = true)

variable {render cfg relayerUrl parseDate intentId data opts}

omit [DecidableEq τ] in
theorem Uploaded.mono {w w' : RelayerWorld τ} {told : HttpTold} (h : Uploaded intentId data opts w told)
    (hseen : w.seen ⊆ w'.seen) (hknown : w.known ⊆ w'.known) : Uploaded intentId data opts w' told := by
  intro req res hmem
  refine ⟨fun hok => ?_, fun hstatus => ?_⟩
  · obtain ⟨rows, hrows, hstaged⟩ := (h req res hmem).1 hok
    exact ⟨rows, hseen hrows, hstaged⟩
  · obtain ⟨c, hc, hexecuted⟩ := (h req res hmem).2 hstatus
    exact ⟨c, hknown hc, hexecuted⟩

/-- A request carries the app id that its client is configured with. -/
theorem Request.header_app {req : Request} {contentType : String} {appId : Option String}
    (hheaders : req.headers = relayerHeaders contentType appId) (happ : validateAppId appId = .ok appId) :
    req.header APP_ID_HEADER = appId := by
  have hother : "content-type".toLower ≠ APP_ID_HEADER.toLower := by decide +kernel
  unfold Request.header relayerHeaders at *
  rw [hheaders, List.find?_cons_of_neg (by simpa using hother)]
  cases appId with
  | none => rfl
  | some app =>
    have hsome : app ≠ "" := by
      rintro rfl
      exact absurd happ (by decide)
    simp only [if_neg hsome]
    rw [List.find?_cons_of_pos (by simp)]
    rfl

/-- What an endpoint that takes raw bytes reads of a request. -/
theorem checkRequest_body {req : Request} {contentType : String} {appId recorded : Option String}
    (hheaders : req.headers = relayerHeaders contentType appId) (happ : validateAppId appId = .ok appId)
    {bytes : List UInt8} (h : checkRequest (req.header APP_ID_HEADER) req.body = .ok (bytes, recorded)) :
    req.body = some bytes ∧ recorded = appId.map String.toLower := by
  have hparsed : parseAppId (appId.map fun value => [value]) = .ok (appId.map String.toLower) := by
    cases appId with
    | none => rfl
    | some app => exact (parseAppId_validated happ).2
  unfold checkRequest at h
  rw [Request.header_app hheaders happ, hparsed] at h
  simp only at h
  split at h
  · rename_i b rest hdata
    cases h
    exact ⟨hdata, rfl⟩
  · cases h

/-- What the endpoint ingests of an upload. -/
theorem checkRequest_upload (happ : validateAppId opts.appId = .ok opts.appId) {bytes : List UInt8}
    {appId : Option String}
    (h : checkRequest ((uploadRequest relayerUrl intentId data opts).header APP_ID_HEADER)
      (uploadRequest relayerUrl intentId data opts).body = .ok (bytes, appId)) :
    bytes = data ∧ appId = opts.appId.map String.toLower := by
  obtain ⟨hbody, hrecorded⟩ := checkRequest_body rfl happ h
  exact ⟨(Option.some.inj hbody).symm, hrecorded⟩

/-- An answer of the relayer says what it should. -/
theorem RelayerServes.uploaded (hstaged : cfg.staged = true) (happ : validateAppId opts.appId = .ok opts.appId)
    {w w' : RelayerWorld τ} {told : HttpTold} {c : HttpCall} {r : Except HttpError c.Answer}
    (hserves : RelayerServes render cfg relayerUrl w c r w')
    (hreq : ∀ req, c = .fetch req → req = uploadRequest relayerUrl intentId data opts)
    (h : Uploaded intentId data opts w told) : Uploaded intentId data opts w' (told ++ [⟨c, r⟩]) := by
  have hold : ∀ {req : Request} {res : Response}, ⟨.fetch req, .ok res⟩ ∈ told ++ [⟨c, r⟩] →
      (∀ h : c = .fetch req, h ▸ r ≠ .ok res) → ⟨.fetch req, .ok res⟩ ∈ told := by
    intro req res hmem hnot
    obtain hmem | hmem := List.mem_append.mp hmem
    · exact hmem
    · cases List.mem_singleton.mp hmem
      exact absurd rfl (hnot rfl)
  cases hserves with
  | now ms => exact fun req res hmem => h req res (hold hmem nofun)
  | sleep ms => exact fun req res hmem => h req res (hold hmem nofun)
  | throwIfAborted => exact fun req res hmem => h req res (hold hmem nofun)
  | fails c e =>
    refine fun req res hmem => h req res (hold hmem fun hc => ?_)
    subst hc
    nofun
  | @intercepted req res hfails hstatus =>
    intro req' res' hmem
    obtain hmem | hmem := List.mem_append.mp hmem
    · exact h req' res' hmem
    · cases List.mem_singleton.mp hmem
      exact ⟨fun hok => absurd (hok.symm.trans hfails) (by decide), fun hconflict => absurd hconflict hstatus⟩
  | @refused req id reply hroute hcheck =>
    intro req' res hmem
    obtain hmem | hmem := List.mem_append.mp hmem
    · exact h req' res hmem
    · cases List.mem_singleton.mp hmem
      have hstatus := checkRequest_refused hcheck
      refine ⟨fun hok => ?_, fun hconflict => ?_⟩
      · simp only [response, hstatus] at hok
        exact absurd hok (by decide)
      · exact absurd (hstatus.symm.trans hconflict) (by decide)
  | @ingested req id bytes appId t ended x hroute hcheck hidle hrun hended =>
    obtain rfl := hreq req rfl
    obtain ⟨rfl, rfl⟩ := checkRequest_upload happ hcheck
    have hid : id = intentId := by
      have htext := congrArg String.toList hroute
      simp only [uploadRequest, String.toList_append] at htext
      exact String.toList_inj.mp (List.append_cancel_left htext).symm
    subst hid
    obtain ⟨haccepted, hexecuted⟩ := ingestion_ends hstaged hidle hrun hended
    intro req' res hmem
    obtain hmem | hmem := List.mem_append.mp hmem
    · exact h.mono Set.subset_union_left Set.subset_union_left req' res hmem
    · cases List.mem_singleton.mp hmem
      refine ⟨fun hok => ?_, fun hconflict => ?_⟩
      · simp only [response, Bool.and_eq_true, decide_eq_true_eq] at hok
        have hlow : (ingestBlobReply ended).status < 400 := by omega
        obtain ⟨k, blobId, size, hk⟩ := ingestBlobReply_ack hlow
        obtain ⟨rows, hrows, hstaged⟩ := haccepted k blobId size hk
        exact ⟨rows, Or.inr hrows, hstaged⟩
      · obtain ⟨k, message, hk⟩ := ingestBlobReply_conflict hconflict
        obtain ⟨c, hc, hexecuted⟩ := hexecuted k message hk
        exact ⟨c, Or.inr hc, hexecuted⟩

/-- The record of an intent that has been stored on Walrus. -/
def exampleStored : IntentLifecycleRecord where
  intentId := "0x01"
  status := .storedWalrus
  hops := []
  committedBlobId := some exampleField
  size := some 1
  deadline := some 3600000
  createdAt := 0
  updatedAt := 0

/-- The connection is reset. -/
def exampleReset : HttpError := .thrown { code := some "ECONNRESET" }

end Bosphor.Sdk

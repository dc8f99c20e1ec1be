import Bosphor.CrossChain.BlobIds
import Bosphor.Sdk.UploadStaged

/-!
# Blob ids from a relayer

A client that does not carry the Walrus encoder has a relayer encode its bytes
(`relayerComputeBlob`). The relayer's decoder of blob ids skips what the SDK's
refuses; where the SDK reads a blob id, the relayer reads the same
(`base64UrlToBytes32Hex_field`).

Whatever becomes of the requests, an encoding that the client returns is the one
of the local encoder, and an ingest of these bytes for an intent that commits to
it rejects neither their size nor their blob id (`relayerComputeBlob_local`).
-/

namespace Bosphor.Sdk

open Async Relayer

/-! ## The two decoders -/

theorem atobDigit_some {c : Char} {d : Nat} (h : atobDigit c = some d) : base64Digit c = some d ∧ c ≠ '=' := by
  unfold atobDigit at h
  split at h
  · cases h
  · refine ⟨h, ?_⟩
    rintro rfl
    cases h

/-- The relayer reads the digits of the text that the SDK has put into the standard alphabet. -/
theorem digits_standard (chars : List Char) : (chars.takeWhile (· ≠ '=')).filterMap base64Digit =
    (((chars.map standardChar).filter (· ∉ ['\t', '\n', '\x0c', '\r', ' '])).takeWhile (· ≠ '=')).filterMap
      base64Digit := by
  induction chars with
  | nil => rfl
  | cons c rest ih =>
    have hdigit : base64Digit (standardChar c) = base64Digit c := by
      unfold standardChar
      split
      case isTrue h => rw [h]; decide
      case isFalse =>
        split
        case isTrue h => rw [h]; decide
        case isFalse => rfl
    have hpad : standardChar c = '=' ↔ c = '=' := by
      unfold standardChar
      split
      case isTrue h => rw [h]; decide
      case isFalse =>
        split
        case isTrue h => rw [h]; decide
        case isFalse => rfl
    rw [List.map_cons]
    by_cases hspace : standardChar c ∈ ['\t', '\n', '\x0c', '\r', ' ']
    · have hskip : base64Digit (standardChar c) = none ∧ standardChar c ≠ '=' := by
        simp only [List.mem_cons, List.not_mem_nil, or_false] at hspace
        obtain h | h | h | h | h := hspace <;> rw [h] <;> decide
      rw [List.filter_cons_of_neg (by rw [decide_eq_true_eq]; exact not_not.mpr hspace),
        List.takeWhile_cons_of_pos (by simpa using fun h => hskip.2 (hpad.mpr h)),
        List.filterMap_cons_none (hdigit ▸ hskip.1), ih]
    · rw [List.filter_cons_of_pos (by rw [decide_eq_true_eq]; exact hspace)]
      by_cases hstop : c = '='
      · rw [List.takeWhile_cons_of_neg (by simpa using hstop),
          List.takeWhile_cons_of_neg (by simpa using hpad.mpr hstop)]
      · rw [List.takeWhile_cons_of_pos (by simpa using hstop),
          List.takeWhile_cons_of_pos (by simpa using fun h => hstop (hpad.mp h)), List.filterMap_cons,
          List.filterMap_cons, hdigit, ih]

theorem withoutPadding_append (chars : List Char) : ∃ n, chars = withoutPadding chars ++ List.replicate n '=' := by
  unfold withoutPadding
  split
  case h_1 rest h => exact ⟨2, by rw [← List.reverse_reverse chars, h]; simp⟩
  case h_2 rest _ h => exact ⟨1, by rw [← List.reverse_reverse chars, h]; simp⟩
  case h_3 => exact ⟨0, (List.append_nil _).symm⟩

/-- The digits that the SDK reads are those that the relayer reads, up to the padding. -/
theorem digits_padded {chars : List Char} {digits : List Nat} (n : Nat) (h : chars.mapM atobDigit = some digits) :
    ((chars ++ List.replicate n '=').takeWhile (· ≠ '=')).filterMap base64Digit = digits := by
  induction chars generalizing digits with
  | nil =>
    cases h
    cases n with
    | zero => rfl
    | succ n => rfl
  | cons c rest ih =>
    rw [List.mapM_cons] at h
    obtain ⟨d, hd, h⟩ := Option.bind_eq_some_iff.mp h
    obtain ⟨ds, hds, h⟩ := Option.bind_eq_some_iff.mp h
    cases h
    obtain ⟨hdigit, hpad⟩ := atobDigit_some hd
    rw [List.cons_append, List.takeWhile_cons_of_pos (by simpa using hpad), List.filterMap_cons_some hdigit, ih hds]

/-- The characters that the SDK reads are digits. -/
theorem digit_of_mapM {chars : List Char} {digits : List Nat} (h : chars.mapM atobDigit = some digits) :
    ∀ c ∈ chars, ∃ d, base64Digit c = some d := by
  induction chars generalizing digits with
  | nil => exact fun c hc => absurd hc List.not_mem_nil
  | cons c rest ih =>
    rw [List.mapM_cons] at h
    obtain ⟨d, hd, h⟩ := Option.bind_eq_some_iff.mp h
    obtain ⟨ds, hds, -⟩ := Option.bind_eq_some_iff.mp h
    exact List.forall_mem_cons.mpr ⟨⟨d, (atobDigit_some hd).1⟩, ih hds⟩

/-- A text that is digits, padding and blanks in the standard alphabet has characters of one byte only. -/
theorem latin1_standard {chars read : List Char} {n : Nat} (hread : ∀ c ∈ read, ∃ d, base64Digit c = some d)
    (h : (chars.map standardChar).filter (· ∉ ['\t', '\n', '\x0c', '\r', ' ']) = read ++ List.replicate n '=') :
    Text.latin1 chars = chars := by
  refine Text.latin1_eq_self fun c hc => ?_
  have hstandard : (standardChar c).toNat < 256 := by
    by_cases hspace : standardChar c ∈ ['\t', '\n', '\x0c', '\r', ' ']
    · simp only [List.mem_cons, List.not_mem_nil, or_false] at hspace
      obtain h | h | h | h | h := hspace <;> (rw [h]; decide)
    · have hmem : standardChar c ∈ read ++ List.replicate n '=' :=
        h ▸ List.mem_filter.mpr ⟨List.mem_map_of_mem hc, decide_eq_true hspace⟩
      obtain hdigit | hpad := List.mem_append.mp hmem
      · obtain ⟨d, hd⟩ := hread _ hdigit
        exact base64Digit_lt hd
      · rw [List.eq_of_mem_replicate hpad]
        decide
  unfold standardChar at hstandard
  split at hstandard
  case isTrue hminus => rw [hminus]; decide
  case isFalse =>
    split at hstandard
    case isTrue hunderscore => rw [hunderscore]; decide
    case isFalse => exact hstandard

/-- Where the SDK decodes a text, the relayer decodes the same bytes. -/
theorem bufferFromBase64url_of_atob {text : String} {bytes : List UInt8} (h : base64UrlToBytes text = .ok bytes) :
    bufferFromBase64url text = bytes := by
  simp only [base64UrlToBytes, base64ToBytes, atob, String.toList_ofList] at h
  generalize hchars : (text.toList.map standardChar).filter (· ∉ ['\t', '\n', '\x0c', '\r', ' ']) = chars at h
  obtain ⟨n, hpadded⟩ : ∃ n, chars = (if chars.length % 4 = 0 then withoutPadding chars else chars) ++
      List.replicate n '=' := by
    split
    · exact withoutPadding_append chars
    · exact ⟨0, (List.append_nil _).symm⟩
  generalize (if chars.length % 4 = 0 then withoutPadding chars else chars) = read at h hpadded
  split at h
  case h_2 => cases h
  case h_1 digits hdigits =>
    split at h
    · cases h
    · cases h
      unfold bufferFromBase64url
      rw [latin1_standard (digit_of_mapM hdigits) (hchars.trans hpadded), digits_standard, hchars, hpadded,
        digits_padded n hdigits]

/-- The field of a blob id that the SDK reads is the one that the relayer reads. -/
theorem base64UrlToBytes32Hex_field {text blobId : String} (h : base64UrlToBytes32Hex text = .ok blobId) :
    walrusBlobIdToField text = .ok (bufferFromHex blobId) ∧ (bufferFromHex blobId).length = 32 := by
  unfold base64UrlToBytes32Hex at h
  obtain ⟨bytes, hbytes, h⟩ := Result.bind_ok.mp h
  split at h
  · cases h
  · rename_i hlength
    rw [not_not] at hlength
    cases h
    unfold walrusBlobIdToField
    rw [CrossChain.bufferFromHex_hexlify, bufferFromBase64url_of_atob hbytes, List.length_reverse]
    exact ⟨if_neg (not_not.mpr hlength), hlength⟩

/-! ## The client -/

def MAX_RELAYER_ENCODE_BYTES : Nat := 10 * 1024 * 1024

def DEFAULT_ENCODE_RETRY : RetryBounds where
  maxAttempts := 4
  maxElapsedMs := 30000
  baseDelayMs := 1000
  maxDelayMs := 8000

structure RelayerComputeBlobOptions where
  appId : Option String := none
  maxBytes : Option Nat := none
  retry : Option UploadRetryOptions := none

def RelayerComputeBlobOptions.limit (opts : RelayerComputeBlobOptions) : Nat :=
  opts.maxBytes.getD MAX_RELAYER_ENCODE_BYTES

/-- A `BlobEncoding`, its blob id in hexadecimal. -/
structure HexEncoding where
  blobId : String
  size : Nat
  encodingType : Nat
  deriving DecidableEq

/-- What `JSON.parse` makes of a body, as far as the client reads it: of a value that is not null, a blob id that is a
string, a size that is a natural number, and what `String` writes of the size. -/
inductive EncodeBody where
  | unparseable
  | null
  | value (blobId : Option String) (size : Option Nat) (sizeText : String)

/-- An error that the client throws itself. -/
def plainError (message : String) : HttpError := .thrown { name := some "Error", message := some message }

def bosphorError (message : String) : HttpError :=
  .thrown { name := some "BosphorError", code := some "BOSPHOR_ERROR", message := some message }

/-- The encoding of the local encoder, `createDefaultComputeBlob`. -/
def createDefaultComputeBlob (encodeBlob : List UInt8 → String) (data : List UInt8) : Except String HexEncoding := do
  let blobId ← base64UrlToBytes32Hex (encodeBlob data)
  return ⟨blobId, data.length, 0⟩

variable (parseDate : String → Option Int) (parse : String → EncodeBody) (textFailed : HttpError) (relayerUrl : String)
  (opts : RelayerComputeBlobOptions) (data : List UInt8)

/-- The address of the endpoint; slashes at the end of the relayer's are left out. -/
def encodeUrl : String :=
  String.ofList (relayerUrl.toList.reverse.dropWhile (· = '/')).reverse ++ "/blob/encode"

def encodeRequest (appId : Option String) : Request where
  url := encodeUrl relayerUrl
  method := "POST"
  body := some data
  headers := relayerHeaders "application/octet-stream" appId

/-- One request: the text of an acknowledgement. `textFailed` is what `text()` throws. -/
def encodeAttempt (appId : Option String) (_n : Nat) : Http String := do
  let res ← httpCall (.fetch (encodeRequest relayerUrl data appId))
  match res.text with
  | none => throw textFailed
  | some text =>
    if res.ok then return text
    else
      let retryAfterMs ← readRetryAfterMs parseDate res
      throw (.relayerRequest "blob encode" res.status text retryAfterMs)

/-- What the client makes of the text of an acknowledgement. -/
def readEncoding (text : String) : Except HttpError HexEncoding :=
  match parse text with
  | .unparseable => .error (bosphorError s!"relayer blob encode returned an unparseable body: {text}")
  | .null =>
    .error (.thrown { name := some "TypeError", message := some "Cannot read properties of null (reading 'blobId')" })
  | .value none _ _ => .error (bosphorError s!"relayer blob encode returned no blobId: {text}")
  | .value (some blobId) size sizeText =>
    if size ≠ some data.length then
      .error (bosphorError s!"relayer blob encode reported size {sizeText} but data is {data.length} bytes")
    else
      match base64UrlToBytes32Hex blobId with
      | .error message => .error (plainError message)
      | .ok blobId => .ok ⟨blobId, data.length, 0⟩

/-- The bounds that a call runs with. -/
def RelayerComputeBlobOptions.bounds : RetryBounds :=
  match opts.retry with
  | some .never => { DEFAULT_ENCODE_RETRY with maxAttempts := 1 }
  | some (.policy policy) => policy.over DEFAULT_ENCODE_RETRY
  | none => DEFAULT_ENCODE_RETRY

/-- The text of the acknowledgement, in one attempt or in as many as the bounds allow. -/
def encodeText (appId : Option String) : Http String :=
  match opts.retry with
  | some .never => encodeAttempt parseDate textFailed relayerUrl data appId 1
  | _ => withRelayerRetry opts.bounds (encodeAttempt parseDate textFailed relayerUrl data appId)

/-- A call of what `relayerComputeBlob` returns. -/
def computeBlob (appId : Option String) : Http HexEncoding := do
  httpCall .throwIfAborted
  if data.length = 0 then throw (plainError "cannot encode empty data")
  else if data.length > opts.limit then
    throw (plainError s!"blob is {data.length} bytes, over the relayer encode limit of {opts.limit} bytes")
  else
    let text ← encodeText parseDate textFailed relayerUrl opts data appId
    Async.ofExcept (readEncoding parse data text)

/-- `relayerComputeBlob(relayerUrl, opts)`. -/
def relayerComputeBlob : Except String (List UInt8 → Http HexEncoding) := do
  let appId ← validateAppId opts.appId
  return fun data => computeBlob parseDate parse textFailed relayerUrl opts data appId

/-! ## What it returns -/

/-- An attempt fails by an error of the request, an unreadable body or a rejection; it succeeds by the text of an
acknowledgement. -/
def encodeOutcome : Outcome String where
  fails r err := r = .error err ∨ ∃ res, r = .ok res ∧ ((res.text = none ∧ err = textFailed) ∨
    ∃ text ms, res.text = some text ∧ res.ok = false ∧ err = .relayerRequest "blob encode" res.status text ms)
  succeeds _ r text := ∃ res, r = .ok res ∧ res.ok = true ∧ res.text = some text

variable {parseDate parse textFailed relayerUrl opts data} {appId : Option String}

theorem encodeAttempt_attempts {bounds : RetryBounds} :
    (encodeOutcome textFailed).Attempts bounds (encodeAttempt parseDate textFailed relayerUrl data appId) := by
  intro n h hfetch
  unfold encodeAttempt
  rw [wp_bind]
  refine (wp_call _).mpr ⟨hfetch _, fun r => ?_⟩
  cases r with
  | error e => exact ⟨_, .error e, rfl, rfl, rfl, fun _ => Or.inl rfl⟩
  | ok res =>
    rw [andThen_ok]
    split
    case h_1 hnone => exact ⟨_, .ok res, rfl, rfl, rfl, fun _ => Or.inr ⟨res, rfl, Or.inl ⟨hnone, rfl⟩⟩⟩
    case h_2 text htext =>
      split
      case isTrue hok => exact ⟨_, .ok res, rfl, rfl, rfl, res, rfl, hok, htext⟩
      case isFalse hok =>
        rw [Bool.not_eq_true] at hok
        exact rejects_tries fun ms _ _ => Or.inr ⟨res, rfl, Or.inr ⟨text, ms, htext, hok, rfl⟩⟩

/-- The calls of an attempt are requests for the encoding and looks at the clock. -/
theorem encodeAttempt_calls (n : Nat) :
    Calls (fun c => ∀ req, c = .fetch req → req = encodeRequest relayerUrl data appId)
      (encodeAttempt parseDate textFailed relayerUrl data appId n) := by
  unfold encodeAttempt
  refine Calls.bind (calls_call fun req hreq => (HttpCall.fetch.inj hreq).symm) fun res => ?_
  split
  · trivial
  · split
    · trivial
    · exact Calls.bind (readRetryAfterMs_calls res) fun _ => trivial

/-- The requests are for the encoding of the data. -/
def Requested (relayerUrl : String) (data : List UInt8) (appId : Option String) (told : HttpTold) : Prop :=
  ∀ req r, ⟨.fetch req, r⟩ ∈ told → req = encodeRequest relayerUrl data appId

/-- An encoding comes from the text of an acknowledgement. -/
structure Encoded (parse : String → EncodeBody) (relayerUrl : String) (data : List UInt8) (appId : Option String)
    (told : HttpTold) (enc : HexEncoding) : Prop where
  requested : Requested relayerUrl data appId told
  acknowledged : ∃ req res text, ⟨.fetch req, .ok res⟩ ∈ told ∧ res.ok = true ∧ res.text = some text ∧
    readEncoding parse data text = .ok enc

theorem encodeText_succeeds : wp (fun _ _ => True)
    (ends (fun h text => ∃ res, .ok res ∈ fetched h ∧ res.ok = true ∧ res.text = some text) fun _ _ => True) []
    (encodeText parseDate textFailed relayerUrl opts data appId) := by
  have hall : wp ((encodeOutcome textFailed).Tries opts.bounds)
      (ends (encodeOutcome textFailed).Returned ((encodeOutcome textFailed).Threw opts.bounds)) []
      (encodeText parseDate textFailed relayerUrl opts data appId) := by
    unfold encodeText
    split
    case h_2 => exact withRelayerRetry_tries encodeAttempt_attempts
    case h_1 hnever =>
      have hone : opts.bounds = { DEFAULT_ENCODE_RETRY with maxAttempts := 1 } := by
        unfold RelayerComputeBlobOptions.bounds
        rw [hnever]
      exact single_tries (by rw [hone]) encodeAttempt_attempts
  refine wp_mono hall (fun _ _ _ => trivial) fun h r hr => ?_
  cases r with
  | error e => trivial
  | ok text =>
    obtain ⟨before, r, hfetched, ⟨res, rfl, hok, htext⟩, -⟩ := hr
    exact ⟨res, by rw [hfetched]; exact List.mem_append_right _ (List.mem_singleton_self _), hok, htext⟩

theorem computeBlob_calls :
    Calls (fun c => ∀ req, c = .fetch req → req = encodeRequest relayerUrl data appId)
      (computeBlob parseDate parse textFailed relayerUrl opts data appId) := by
  unfold computeBlob
  refine Calls.bind (calls_call fun req hreq => by cases hreq) fun _ => ?_
  split
  · trivial
  · split
    · trivial
    · refine Calls.bind ?_ fun text => ?_
      · unfold encodeText
        split
        · exact encodeAttempt_calls 1
        · exact withRelayerRetry_calls encodeAttempt_calls
      · cases readEncoding parse data text <;> trivial

/-- Whatever it was told, a call returns only what an acknowledgement of its own request reads as. -/
theorem computeBlob_encoded : wp (fun _ _ => True)
    (ends (Encoded parse relayerUrl data appId) fun _ _ => True) []
    (computeBlob parseDate parse textFailed relayerUrl opts data appId) := by
  have hread : wp (fun _ _ => True) (ends (fun h enc => ∃ req res text, ⟨.fetch req, .ok res⟩ ∈ h ∧ res.ok = true ∧
      res.text = some text ∧ readEncoding parse data text = .ok enc) fun _ _ => True) []
      (computeBlob parseDate parse textFailed relayerUrl opts data appId) := by
    unfold computeBlob
    rw [wp_bind]
    refine (wp_call HttpCall.throwIfAborted).mpr ⟨trivial, fun r => ?_⟩
    cases r with
    | error e => trivial
    | ok _ =>
      rw [andThen_ok]
      split
      · trivial
      · split
        · trivial
        · rw [wp_bind]
          refine wp_mono (wp_behind [⟨.throwIfAborted, .ok ()⟩] encodeText_succeeds) (fun _ _ _ => trivial)
            fun h r hr => ?_
          cases r with
          | error e => trivial
          | ok text =>
            rw [andThen_ok, wp_ofExcept]
            obtain ⟨t, rfl, res, hmem, hok, htext⟩ := hr
            cases hread : readEncoding parse data text with
            | error e => trivial
            | ok enc =>
              obtain ⟨req, hfetch⟩ := mem_fetched.mp hmem
              exact ⟨req, res, text, List.mem_append_right _ hfetch, hok, htext, hread⟩
  refine wp_mono (wp_keep (fun h c r hc hI req r' hmem => ?_) hread computeBlob_calls
    (I := Requested relayerUrl data appId) fun req r hr => absurd hr List.not_mem_nil) (fun _ _ _ => trivial)
    fun h r hr => ?_
  · obtain hmem | hmem := List.mem_append.mp hmem
    · exact hI req r' hmem
    · cases List.mem_singleton.mp hmem
      exact hc req rfl
  · cases r with
    | error e => trivial
    | ok enc => exact ⟨hr.2, hr.1⟩

/-! ## What an ingest makes of it -/

/-- No rejection for the size or for the blob id. -/
def Fits (r : Except Unit IngestResult) : Prop :=
  ∀ id reason message, r = .ok (.rejected id reason message) → reason ≠ .wrongSize ∧ reason ≠ .wrongBlobId

/-- An answer to an ingest for an intent that commits to the encoding; `encodeBlob` is the encoder of Walrus. -/
def CommittedTo (encodeBlob : List UInt8 → String) (enc : HexEncoding) : (Σ c : IngestCall, Except Unit c.Answer) → Prop
  | ⟨.getCommitment _, .ok (some commitment)⟩ =>
    commitment.committedBlobId = enc.blobId ∧ commitment.size = enc.size
  | ⟨.encodeBlob bytes, .ok blobId⟩ => blobId = encodeBlob bytes
  | _ => True

theorem fits_error : Fits (.error ()) := nofun

theorem fits_accepted (id : Relayer.IntentId) (blobId : String) (size : Nat) : Fits (.ok (.accepted id blobId size)) :=
  nofun

theorem fits_rejected {id : Relayer.IntentId} {reason : IngestRejectReason} {message : String}
    (hsize : reason ≠ .wrongSize) (hblob : reason ≠ .wrongBlobId) : Fits (.ok (.rejected id reason message)) := by
  rintro _ _ _ ⟨⟩
  exact ⟨hsize, hblob⟩

variable {cfg : IngestConfig} {id : Relayer.IntentId} {bytes : List UInt8}
  {h : History IngestCall IngestCall.Answer Unit} {encodeBlob : List UInt8 → String} {enc : HexEncoding}

/-- Whatever a part of an ingest comes to, the rest of it fits. -/
theorem wp_fits {α : Type} (p : Ingesting α) {f : α → Ingesting IngestResult}
    (hf : ∀ h a, wp (fun _ _ => True) (fun _ => Fits) h (f a)) : wp (fun _ _ => True) (fun _ => Fits) h (p >>= f) := by
  rw [wp_bind]
  refine wp_frame (I := fun _ => True) (fun _ _ _ _ _ => trivial) (fun _ _ _ _ => trivial) (fun h r _ => ?_)
    (calls_true p) trivial
  cases r with
  | error e => exact fits_error
  | ok a => exact hf h a

theorem stage_fits (blobId : String) (deadline : Nat) :
    wp (fun _ _ => True) (fun _ => Fits) h (stage cfg id bytes blobId appId deadline) := by
  unfold stage
  split
  case isFalse => exact fits_accepted _ _ _
  case isTrue =>
    refine wp_fits _ fun h outcome => ?_
    cases outcome with
    | accepted => exact fits_accepted _ _ _
    | backpressure | terminal => exact fits_rejected nofun nofun

/-- The blob id of the bytes is the committed one. -/
theorem bindBytes_fits (henc : createDefaultComputeBlob encodeBlob bytes = .ok enc) {commitment : IntentCommitment}
    (hcommitted : commitment.committedBlobId = enc.blobId) :
    wp (fun _ _ => True) (fun h r => (∀ x ∈ h, CommittedTo encodeBlob enc x) → Fits r) h
      (bindBytes cfg id bytes appId commitment) := by
  unfold bindBytes
  rw [wp_bind]
  refine (wp_call _).mpr ⟨trivial, fun r => ?_⟩
  cases r with
  | error e => exact fun _ => fits_error
  | ok blobId =>
    rw [andThen_ok]
    split
    case isFalse => exact wp_mono (stage_fits ..) (fun _ _ hc => hc) fun _ _ hr _ => hr
    case isTrue hmismatch =>
      intro htold
      have hid : blobId = encodeBlob bytes :=
        htold ⟨.encodeBlob bytes, .ok blobId⟩ (List.mem_append_right _ (List.mem_singleton_self _))
      obtain ⟨hex, hhex, henc⟩ := Result.bind_ok.mp henc
      cases henc
      obtain ⟨hfield, hlength⟩ := base64UrlToBytes32Hex_field hhex
      rw [hid, hcommitted, blobIdMatches_iff.mpr ⟨hlength, hfield⟩] at hmismatch
      cases hmismatch

theorem admitBytes_fits (henc : createDefaultComputeBlob encodeBlob bytes = .ok enc) {commitment : IntentCommitment}
    (hcommitted : commitment.committedBlobId = enc.blobId) (hsize : commitment.size = enc.size) :
    wp (fun _ _ => True) (fun h r => (∀ x ∈ h, CommittedTo encodeBlob enc x) → Fits r) h
      (admitBytes cfg id bytes appId commitment) := by
  have hbytes : bytes.length = commitment.size := by
    obtain ⟨hex, -, henc⟩ := Result.bind_ok.mp henc
    cases henc
    exact hsize.symm
  unfold admitBytes
  split
  · exact fun _ => fits_rejected nofun nofun
  · rw [wp_bind]
    refine (wp_call IngestCall.now).mpr ⟨trivial, fun r => ?_⟩
    cases r with
    | error e => exact fun _ => fits_error
    | ok now =>
      rw [andThen_ok]
      split
      · exact fun _ => fits_rejected nofun nofun
      · split
        · exact fun _ => fits_rejected nofun nofun
        · rw [if_neg (not_not.mpr hbytes), wp_bind]
          refine wp_frame (I := fun _ => True) (fun _ _ _ _ _ => trivial) (fun _ _ _ _ => trivial) (fun h r _ => ?_)
            (calls_true _) trivial
          cases r with
          | error e => exact fun _ => fits_error
          | ok overfull =>
            cases overfull with
            | some message => exact fun _ => fits_rejected nofun nofun
            | none => exact bindBytes_fits henc hcommitted

theorem ingest_fits (henc : createDefaultComputeBlob encodeBlob bytes = .ok enc) :
    wp (fun _ _ => True) (fun h r => (∀ x ∈ h, CommittedTo encodeBlob enc x) → Fits r) []
      (ingest cfg id bytes appId) := by
  unfold ingest
  rw [wp_bind]
  refine (wp_call (IngestCall.getCommitment id)).mpr ⟨trivial, fun found => ?_⟩
  cases found with
  | error e => exact fun _ => fits_error
  | ok found =>
    cases found with
    | none => exact fun _ => fits_rejected nofun nofun
    | some commitment =>
      rw [andThen_ok]
      by_cases hcommitted : commitment.committedBlobId = enc.blobId ∧ commitment.size = enc.size
      · exact admitBytes_fits henc hcommitted.1 hcommitted.2
      · exact wp_frame (I := fun h => ⟨.getCommitment id, .ok (some commitment)⟩ ∈ h)
          (fun _ _ _ _ hmem => List.mem_append_left _ hmem) (fun _ _ _ _ => trivial)
          (fun h r hmem htold => absurd (htold _ hmem) hcommitted) (calls_true _) (List.mem_singleton_self _)

/-! ## A relayer that encodes -/

variable (stringify : EncodeReply → String) (encodeBlob)

/-- How a call of the client is answered: a request is encoded, or turned away, or lost. -/
inductive EncodeServes : (c : HttpCall) → Except HttpError c.Answer → Prop
  | now (ms : Int) : EncodeServes .now (.ok ms)
  | sleep (ms : Int) : EncodeServes (.sleep ms) (.ok ())
  | throwIfAborted : EncodeServes .throwIfAborted (.ok ())
  | fails (c : HttpCall) (e : HttpError) : EncodeServes c (.error e)
  | turnedAway {req : Request} {res : Response} (hres : res.ok = false) : EncodeServes (.fetch req) (.ok res)
  | encoded {req : Request} {bytes : List UInt8} {appId : Option String}
      (hcheck : checkRequest (req.header APP_ID_HEADER) req.body = .ok (bytes, appId)) (text : Option String)
      (htext : ∀ t, text = some t → t = stringify (encode encodeBlob bytes)) :
    EncodeServes (.fetch req) (.ok { ok := true, status := 201, text := text })

variable {stringify encodeBlob}

/-- The client reads what the relayer has written as the encoding of the local encoder. -/
theorem readEncoding_stringify
    (hjson : parse (stringify (encode encodeBlob bytes)) =
      .value (some (encodeBlob bytes)) (some bytes.length) (toString bytes.length))
    (h : readEncoding parse bytes (stringify (encode encodeBlob bytes)) = .ok enc) :
    createDefaultComputeBlob encodeBlob bytes = .ok enc := by
  unfold readEncoding at h
  rw [hjson] at h
  simp only [ne_eq, not_true_eq_false, if_false] at h
  unfold createDefaultComputeBlob
  split at h
  · cases h
  · rename_i blobId hblobId
    cases h
    rw [hblobId]
    rfl

/-- Whatever becomes of its requests, and however often they are made again, an encoding that a client has a relayer
compute is the one of the local encoder. An ingest of its bytes for an intent that commits to it rejects neither their
size nor their blob id. -/
theorem relayerComputeBlob_local
    (hjson : parse (stringify (encode encodeBlob data)) =
      .value (some (encodeBlob data)) (some data.length) (toString data.length))
    {computeBlob : List UInt8 → Http HexEncoding}
    (hmade : relayerComputeBlob parseDate parse textFailed relayerUrl opts = .ok computeBlob) {told : HttpTold}
    (hrun : Leads (computeBlob data) told (.done enc))
    (hserved : ∀ x ∈ told, EncodeServes encodeBlob stringify x.1 x.2) :
    createDefaultComputeBlob encodeBlob data = .ok enc ∧
      ∀ {cfg : IngestConfig} {id : Relayer.IntentId} {appId : Option String}
        {answered : History IngestCall IngestCall.Answer Unit} {r : Except Unit IngestResult},
        Leads (ingest cfg id data appId) answered (Async.ofExcept r) →
          (∀ x ∈ answered, CommittedTo encodeBlob enc x) → Fits r := by
  obtain ⟨appId, happ, hmade⟩ := Result.bind_ok.mp hmade
  cases hmade
  obtain rfl := validateAppId_ok happ
  obtain ⟨hrequested, req, res, text, hmem, hok, htext, hread⟩ := wp_leads computeBlob_encoded hrun
  have hlocal : createDefaultComputeBlob encodeBlob data = .ok enc := by
    cases hserved _ hmem with
    | turnedAway hres =>
      rw [hres] at hok
      cases hok
    | encoded hcheck written hwritten =>
      obtain rfl := hrequested req _ hmem
      obtain ⟨hbody, -⟩ := checkRequest_body rfl happ hcheck
      cases hbody
      rw [hwritten text htext] at hread
      exact readEncoding_stringify hjson hread
  refine ⟨hlocal, fun hingest htold => ?_⟩
  have hfits := wp_leads (ingest_fits hlocal) hingest
  rw [wp_ofExcept] at hfits
  exact hfits htold

/-! ## An encoding whose first request was lost -/

def exampleJson (reply : EncodeReply) : String :=
  "\x7b\"blobId\":\"" ++ reply.blobId ++ "\",\"size\":" ++ toString reply.size ++ "\x7d"

def exampleEncoder (_ : List UInt8) : String := exampleBlobId

/-- The body of the answer, read. -/
def exampleParse (text : String) : EncodeBody :=
  if text = exampleJson (encode exampleEncoder [7]) then .value (some exampleBlobId) (some 1) (toString 1)
  else .unparseable

def exampleEncoding : HexEncoding := ⟨exampleField, 1, 0⟩

theorem relayerComputeBlob_local_retry :
    createDefaultComputeBlob exampleEncoder [7] = .ok exampleEncoding ∧
      ∀ {cfg : IngestConfig} {id : Relayer.IntentId} {appId : Option String}
        {answered : History IngestCall IngestCall.Answer Unit} {r : Except Unit IngestResult},
        Leads (ingest cfg id [7] appId) answered (Async.ofExcept r) →
          (∀ x ∈ answered, CommittedTo exampleEncoder exampleEncoding x) → Fits r := by
  have hread : readEncoding exampleParse [7] (exampleJson (encode exampleEncoder [7])) = .ok exampleEncoding := by
    decide +kernel
  have h0 : Leads (computeBlob (fun _ => none) exampleParse exampleReset "https://relayer/" {} [7] none) [] _ := .start
  have h1 := h0.answer (.ok ())
  have h2 := h1.answer (.ok (0 : Int))
  have h3 := h2.answer (.ok ())
  have h4 := h3.answer (.error exampleReset)
  have h5 := h4.answer (.ok ())
  have h6 := h5.answer (.ok (0 : Int))
  have h7 := h6.answer (.ok ())
  have h8 := h7.answer (.ok ())
  have h9 := h8.answer (.ok ⟨true, 201, none, some (exampleJson (encode exampleEncoder [7]))⟩)
  have hdone : Leads (computeBlob (fun _ => none) exampleParse exampleReset "https://relayer/" {} [7] none) _
      (Async.ofExcept (readEncoding exampleParse [7] (exampleJson (encode exampleEncoder [7])))) := h9
  rw [hread] at hdone
  have hjson : exampleParse (exampleJson (encode exampleEncoder [7])) =
      .value (some (exampleEncoder [7])) (some [7].length) (toString [7].length) := if_pos rfl
  have hmade : relayerComputeBlob (fun _ => none) exampleParse exampleReset "https://relayer/" {} =
      .ok fun data => computeBlob (fun _ => none) exampleParse exampleReset "https://relayer/" {} data none := rfl
  refine relayerComputeBlob_local hjson hmade hdone fun x hx => ?_
  have hcheck : checkRequest ((encodeRequest "https://relayer/" [7] none).header APP_ID_HEADER) (some [7]) =
      .ok ([7], none) := by
    rw [Request.header_app rfl (show validateAppId none = .ok none from rfl)]
    rfl
  simp only [List.nil_append, List.cons_append, List.mem_cons, List.not_mem_nil, or_false] at hx
  obtain rfl | rfl | rfl | rfl | rfl | rfl | rfl | rfl | rfl := hx
  · exact .throwIfAborted
  · exact .now 0
  · exact .throwIfAborted
  · exact .fails _ _
  · exact .throwIfAborted
  · exact .now 0
  · exact .sleep _
  · exact .throwIfAborted
  · exact .encoded hcheck _ fun t ht => (Option.some.inj ht).symm

end Bosphor.Sdk

import Utsuroi.Executors.Proofs.TokenAgreement
import Utsuroi.Executors.Server
import Utsuroi.Fetch.Proofs.ExecutorPath

/-!
# The exchange between the Worker and the GCP executor

The executor starts the very fetch that the Worker has asked for, and the Worker reads what has come
of it.  Between them are a token, two JSON texts and their limits.
-/

namespace Utsuroi.GcpServer

open HomeRunner (JobResult base64Text)

/-! ## What is posted -/

section Request

variable (inv : Rpc.FetcherInvocation)

private theorem requestHeaders_keys : ((gcpRequestHeaders inv).map Prod.fst).Nodup ∧
    ∀ header ∈ gcpRequestHeaders inv, header.1 ≠ "__proto__" := by
  have hkeys : ∀ etag lastModified : Option String,
      (["user-agent", "accept-language", "referer"] ++ etag.toList.map (fun _ => "if-none-match") ++
        lastModified.toList.map fun _ => "if-modified-since").Nodup ∧
      ∀ name ∈ ["user-agent", "accept-language", "referer"] ++
        etag.toList.map (fun _ => "if-none-match") ++
        lastModified.toList.map fun _ => "if-modified-since", name ≠ "__proto__" := by
    intro etag lastModified
    cases etag <;> cases lastModified <;> simp
  have hmap : (gcpRequestHeaders inv).map Prod.fst =
      ["user-agent", "accept-language", "referer"] ++
        (inv.etag.filter (· ≠ "")).toList.map (fun _ => "if-none-match") ++
        (inv.lastModified.filter (· ≠ "")).toList.map fun _ => "if-modified-since" := by
    simp only [gcpRequestHeaders, List.map_append, List.map_map]
    rfl
  obtain ⟨hnodup, hproto⟩ := hkeys (inv.etag.filter (· ≠ "")) (inv.lastModified.filter (· ≠ ""))
  rw [hmap]
  refine ⟨hnodup, fun header hheader => hproto header.1 ?_⟩
  rw [← hmap]
  exact List.mem_map_of_mem hheader

private theorem mapM_strings (headers : List (String × String)) :
    (headers.map fun header => (header.1, Json.string header.2)).mapM
      (fun entry => entry.2.string?.map fun text => (entry.1, text)) = some headers := by
  induction headers with
  | nil => rfl
  | cons header headers ih =>
      rw [List.map_cons, List.mapM_cons, ih]
      rfl

/-- A request reads back as it was meant, its limit cut to the executor's. -/
theorem parseRequest_posted (hurl : inv.url ≠ "") {limits : FetchLimits}
    (hlimit : 0 < limits.maxBytes) (maxBytesCap : Nat) :
    parseRequest (Utf8.encode (gcpRequest inv limits).text) maxBytesCap =
      some ⟨inv.url, min limits.maxBytes maxBytesCap, gcpRequestHeaders inv⟩ := by
  obtain ⟨hnodup, hproto⟩ := requestHeaders_keys inv
  have hentries : ((gcpRequestHeaders inv).map fun header =>
      (header.1, Json.string header.2)).map Prod.fst = (gcpRequestHeaders inv).map Prod.fst := by
    rw [List.map_map]
    rfl
  have hheaders : requestHeaders (some (.object ((gcpRequestHeaders inv).map fun header =>
      (header.1, .string header.2)))) = some (gcpRequestHeaders inv) := by
    simp only [requestHeaders, Json.object?, Option.bind_some,
      Json.objectEntries_eq (hentries ▸ hnodup), mapM_strings, Option.map_some]
    rw [List.filter_eq_self.mpr fun header hheader => by simpa using hproto header hheader]
  have hmaxBytes : requestLimit (some (.int limits.maxBytes)) = some limits.maxBytes := by
    have hpos : (0 : Rat) < limits.maxBytes := by exact_mod_cast hlimit
    have hnat : Json.decimal limits.maxBytes 0 = (limits.maxBytes : Rat) := by
      rw [Json.decimal_int, Int.cast_natCast]
    simp [requestLimit, Json.int, Json.number?, hnat, hpos]
  have hparse : Json.parse (Utf8.decode (Utf8.encode (gcpRequest inv limits).text)) =
      some (gcpRequest inv limits) := by
    rw [Utf8.decode_encode, Json.parse_text]
  have hkeys : ∀ maxBytes headers : Json,
      Json.member? [("url", .string inv.url), ("maxBytes", maxBytes), ("headers", headers)] "url" =
          some (.string inv.url) ∧
        Json.member? [("url", .string inv.url), ("maxBytes", maxBytes), ("headers", headers)]
          "maxBytes" = some maxBytes ∧
        Json.member? [("url", .string inv.url), ("maxBytes", maxBytes), ("headers", headers)]
          "headers" = some headers := by
    intro maxBytes headers
    exact ⟨rfl, rfl, rfl⟩
  obtain ⟨h₁, h₂, h₃⟩ := hkeys (.int limits.maxBytes) (.object ((gcpRequestHeaders inv).map
    fun header => (header.1, .string header.2)))
  rw [parseRequest, hparse]
  simp only [gcpRequest, Json.object?, h₁, h₂, h₃, Json.string?, hmaxBytes,
    hheaders, Option.bind_eq_bind, Option.bind_some, hurl, ne_eq, not_false_eq_true, guard_true,
    Option.pure_def]

end Request

/-! ## What is started -/

section Served

variable (sign : List UInt8 → List UInt8) (verify : List UInt8 → List UInt8 → Bool)
  (sha256 : List UInt8 → List UInt8) (newUrl : String → Option ParsedUrl) (env : GcpExecutorEnv)
  (inv : Rpc.FetcherInvocation) (sentAt : TimeValue) (jti : String)

/-- The signer of the Worker, with the key the executor verifies by. -/
def signer : String → List UInt8 → Except String String := fun _ body =>
  .ok (signExecutorToken sign sha256 ⟨GCP_HTTP_AUDIENCE, body, sentAt⟩ jti)

/-- The fetch that is asked for. -/
def askedFetch (opts : ServerOptions) : FetchInput :=
  ⟨inv.url, min DEFAULT_FETCH_LIMITS.maxBytes opts.maxBytesCap, gcpRequestHeaders inv⟩

/-- The clocks of both sides agree well enough, and the token is new to an executor with room for
it. -/
structure TokenHolds (jtiCache : JtiCache) (nowMs : Int) : Prop where
  begun : ((sentAt.ms / 1000 : Int) : Rat) ≤ secondsOf nowMs + CLOCK_SKEW_SECONDS
  unexpired : (secondsOf nowMs : Rat) ≤
    (sentAt.ms / 1000 + EXECUTOR_TOKEN_LIFETIME_SECONDS : Int) + CLOCK_SKEW_SECONDS
  fresh : (jtiCache.purge (secondsOf nowMs)).has jti = false
  room : (jtiCache.purge (secondsOf nowMs)).entries.length < jtiCache.maxEntries

variable {sign verify sha256 newUrl env inv sentAt jti} {request : ExecutorRequest}

/-- Whatever is posted asks for the URL and is signed; the URL has passed its guard. -/
theorem executorRequest_ok
    (h : executorRequest newUrl (signer sign sha256 sentAt jti) env inv = .ok request) :
    (inv.urlGuard inv.url).allowed = true ∧
      request.body = Utf8.encode (gcpRequest inv DEFAULT_FETCH_LIMITS).text ∧
      request.authorization =
        "Bearer " ++ signExecutorToken sign sha256 ⟨GCP_HTTP_AUDIENCE, request.body, sentAt⟩ jti := by
  unfold executorRequest at h
  simp only [bind, Except.bind, pure, Except.pure, throw, throwThe, MonadExceptOf.throw] at h
  split at h
  · exact absurd h (by simp)
  split at h
  · exact absurd h (by simp)
  split at h
  · exact absurd h (by simp)
  split at h
  · exact absurd h (by simp)
  split at h
  · exact absurd h (by simp)
  next hguard =>
    obtain rfl := Except.ok.inj h
    refine ⟨?_, rfl, rfl⟩
    by_contra hnot
    simp [guardRefusal, hnot] at hguard

variable (hlength : ∀ message, (sign message).length = 64)
  (hverify : ∀ message, verify message (sign message) = true) (hjti : IsUuid jti)

include hlength hverify hjti

/-- The executor accepts the token exactly where it holds. -/
theorem posted_accepted_iff (body : List UInt8) (jtiCache : JtiCache) (nowMs : Int) :
    (verifyRequestToken verify sha256
        (some ("Bearer " ++ signExecutorToken sign sha256 ⟨GCP_HTTP_AUDIENCE, body, sentAt⟩ jti)) body
        nowMs jtiCache).1 = .ok () ↔ TokenHolds sentAt jti jtiCache nowMs := by
  have hsigned := @checkRequestToken_signed sha256 ⟨GCP_HTTP_AUDIENCE, body, sentAt⟩ jti sign
    verify hlength hverify hjti rfl body (secondsOf nowMs)
  rw [verifyRequestToken_ok_iff]
  constructor
  · rintro ⟨jti', exp, hcheck, hclaim⟩
    obtain ⟨hresult, -, hbegun, hunexpired⟩ := (hsigned _).mp hcheck
    obtain ⟨rfl, rfl⟩ := Prod.mk.inj hresult
    obtain ⟨hfresh, hroom⟩ := JtiCache.claim_iff.mp hclaim
    exact ⟨hbegun, hunexpired, hfresh, hroom⟩
  · intro h
    exact ⟨jti, _, (hsigned _).mpr ⟨rfl, rfl, h.begun, h.unexpired⟩,
      JtiCache.claim_iff.mpr ⟨h.fresh, h.room⟩⟩

/-- Of a body that the Worker has posted the executor starts just the fetch asked for, exactly where
the token holds and a place is free; else it answers 401 or 503. -/
theorem serveBody_posted_iff (hurl : inv.url ≠ "")
    (hposted : executorRequest newUrl (signer sign sha256 sentAt jti) env inv = .ok request)
    (opts : ServerOptions) (s : ServerState) (id : RequestId) (nowMs : Int) :
    (∀ other input, .started other input ∈
        (s.serveBody verify sha256 opts id request.authorization request.body nowMs).2 ↔
      (other, input) = (id, askedFetch inv opts) ∧ TokenHolds sentAt jti s.jtiCache nowMs ∧
        s.inflight < opts.maxInflight) ∧
    ∀ other answer, .answered other answer ∈
        (s.serveBody verify sha256 opts id request.authorization request.body nowMs).2 ↔
      (other = id ∧ ¬ TokenHolds sentAt jti s.jtiCache nowMs ∧
          answer = errorAnswer 401 "unauthorized") ∨
        other = id ∧ TokenHolds sentAt jti s.jtiCache nowMs ∧ opts.maxInflight ≤ s.inflight ∧
          answer = errorAnswer 503 "busy" := by
  obtain ⟨-, hbody, hauthorization⟩ := executorRequest_ok hposted
  have haccepted : (verifyRequestToken verify sha256 (some request.authorization) request.body nowMs
      s.jtiCache).1 = .ok () ↔ TokenHolds sentAt jti s.jtiCache nowMs := by
    rw [hauthorization]
    exact posted_accepted_iff hlength hverify hjti request.body s.jtiCache nowMs
  have hparsed : parseRequest request.body opts.maxBytesCap = some (askedFetch inv opts) := by
    rw [hbody]
    exact parseRequest_posted inv hurl (by decide) opts.maxBytesCap
  unfold ServerState.serveBody
  simp only [hparsed]
  split
  · next message hrefused =>
      have hnot : ¬ TokenHolds sentAt jti s.jtiCache nowMs := by
        rw [← haccepted, hrefused]
        exact nofun
      simp [hnot]
  · next hok =>
      have hholds := haccepted.mp hok
      by_cases hbusy : opts.maxInflight ≤ s.inflight
      · simp [hbusy, hholds]
      · simp [hbusy, hholds, not_le.mp hbusy]

end Served

/-! ## What is read -/

section Answered

variable {tools : HttpTools} {now : Nat} {inv : Rpc.FetcherInvocation} {response : HttpResponse}

/-- The response carries what `sendJson` has written, however it is cut. -/
def Carries (tools : HttpTools) (response : HttpResponse) (answer : Answer) : Prop :=
  SameAnswer tools response answer.status response.headers (Utf8.encode answer.payload.text)

theorem readExecutorResponse_members {members : List (String × Json)}
    (h : Carries tools response ⟨200, .object members⟩) :
    readExecutorResponse inv tools now response =
      if responseLimit DEFAULT_FETCH_LIMITS.maxBytes < (Json.object members).size then
        .ok (internalError "gcp executor response exceeded the expected size")
      else
        outcomeFromExecutorPayload tools now { url := inv.url, userAgent := inv.userAgent }
          DEFAULT_FETCH_LIMITS gcpNames none members := by
  have hstatus : response.status = 200 := h.status
  have hread := h.read (responseLimit DEFAULT_FETCH_LIMITS.maxBytes)
  rw [Json.length_encode_text] at hread
  have hparse : Json.parse (RunnerApi.decodeText (Utf8.encode (Json.object members).text)) =
      some (.object members) := by
    rw [RunnerApi.decodeText_object, Json.parse_text]
  by_cases hlong : responseLimit DEFAULT_FETCH_LIMITS.maxBytes < (Json.object members).size
  · rw [if_pos hlong] at hread ⊢
    simp only [readExecutorResponse, hstatus, ne_eq, not_true_eq_false, if_false, hread, if_true]
  · rw [if_neg hlong] at hread ⊢
    simp only [readExecutorResponse, hstatus, ne_eq, not_true_eq_false, if_false, hread,
      Bool.false_eq_true, hparse, Json.object?]

/-- An answer that starts no fetch is a failure; the busy executor's alone may pass. -/
theorem readExecutorResponse_refused {answer : Answer} (h : Carries tools response answer)
    (hstatus : answer.status ≠ 200) :
    readExecutorResponse inv tools now response = .ok
      (if answer.status = 502 ∨ answer.status = 503 ∨ answer.status = 504 then
        .failure .networkError none
          ("gcp executor unavailable (status " ++ toString answer.status ++ ")") none
      else
        internalError
          ("gcp executor rejected the request (status " ++ toString answer.status ++ ")")) := by
  have hsame : response.status = answer.status := h.status
  simp only [readExecutorResponse, hsame, if_pos hstatus]
  split <;> rfl

private theorem terminal_not_internal {direct : HttpResponse} {status : Nat} {headers : Headers}
    {whole : List UInt8} (h : SameAnswer tools direct status headers whole) (finalUrl : Url)
    (req : FetchRequest) (limits : FetchLimits) (message : String) :
    handleTerminalResponse tools now direct finalUrl req limits ≠ .ok (internalError message) := by
  have hread := h.read limits.maxBytes
  have hforbidden : handleForbidden tools direct limits ≠ .ok (internalError message) := by
    rw [handleForbidden, hread]
    simp only [bind, Except.bind, pure, Except.pure]
    split_ifs
    all_goals simp_all [tooLarge, internalError]
  have hsuccess : handleSuccess tools direct finalUrl req limits ≠ .ok (internalError message) := by
    rw [handleSuccess, hread]
    simp only [bind, Except.bind, pure, Except.pure]
    split_ifs
    all_goals simp_all [tooLarge, internalError]
  unfold handleTerminalResponse
  simp only
  split_ifs
  all_goals first | exact hforbidden | exact hsuccess | simp [internalError]

/-- The class an executor's failure has here. -/
def classOf : ExecutorFailureClass → FailureClass
  | .ssrfBlocked => .ssrfBlocked
  | .timeout => .timeout
  | .networkError => .networkError
  | .tooLarge => .tooLarge

/-- A failure keeps its class and its message. -/
theorem outcomeFromExecutorPayload_error (failureClass : ExecutorFailureClass) (message : String)
    (req : FetchRequest) (limits : FetchLimits) (names : ExecutorNames)
    (finalUrlGuard : Option (Url → SsrfCheckResult)) :
    outcomeFromExecutorPayload tools now req limits names finalUrlGuard
        (JobResult.error failureClass message).members =
      .ok (.failure (classOf failureClass) none (names.start ++ ": " ++ message) none) := by
  have hkind : Json.member? (JobResult.error failureClass message).members "kind" =
      some (.string "error") := rfl
  have hclass : Json.member? (JobResult.error failureClass message).members "failureClass" =
      some (.string (HomeRunner.failureClassText failureClass)) := rfl
  have hmessage : Json.member? (JobResult.error failureClass message).members "message" =
      some (.string message) := rfl
  have hknown : (FailureClass.ofText? (HomeRunner.failureClassText failureClass)).filter
      EXECUTOR_FAILURE_CLASSES.contains = some (classOf failureClass) := by
    cases failureClass <;> decide
  simp only [outcomeFromExecutorPayload, hkind, hclass, hmessage, Option.bind_some, Json.string?,
    if_true, Option.getD_some, hknown]

end Answered

/-! ## The whole exchange -/

section Exchange

variable {sign : List UInt8 → List UInt8} {verify : List UInt8 → List UInt8 → Bool}
  {sha256 : List UInt8 → List UInt8} {newUrl : String → Option ParsedUrl} {env : GcpExecutorEnv}
  {inv : Rpc.FetcherInvocation} {sentAt : TimeValue} {jti : String} {request : ExecutorRequest}
  {node : NodeTools} {options : FetchServiceOptions} {upstream : Upstream} {opts : ServerOptions}
  {input : FetchInput} {fetched : FetchResult} {failure : FetchFailure} {s : ServerState}
  {id : RequestId} {nowMs : Int}

/-- A fetch through the executor comes to what a direct fetch of the same answer comes to, but for a
status no `Response` has, the body of a status that has none, and a payload beyond what is read. -/
theorem gcpHttpFetch_eq_iff (tools : HttpTools) (now : Nat)
    (hlength : ∀ message, (sign message).length = 64)
    (hverify : ∀ message, verify message (sign message) = true) (hjti : IsUuid jti)
    (hurl : inv.url ≠ "")
    (hposted : executorRequest newUrl (signer sign sha256 sentAt jti) env inv = .ok request)
    (hstarted : .started id input ∈
      (s.serveBody verify sha256 opts id request.authorization request.body nowMs).2)
    (hcap : DEFAULT_FETCH_LIMITS.maxBytes ≤ opts.maxBytesCap)
    (hoptions : options.maxBytesCap = opts.maxBytesCap)
    (hfetched : (fetchTarget node options upstream input).outcome = .ok fetched)
    (hparsed : Parsed tools fetched.headers) :
    ∃ hop connection raw stream,
      (fetchTarget node options upstream input).connections[hop]? = some connection ∧
        hop + 1 = (fetchTarget node options upstream input).connections.length ∧
        upstream.exchange hop connection = .answered fetched.status raw stream ∧
        ∀ direct, SameAnswer tools direct fetched.status (pickResponseHeaders raw).entries
            (decodedBody node raw stream).chunks.flatten →
          ∀ response durationMs, Carries tools response (fetchedAnswer (.ok fetched) durationMs) →
            ((gcpHttpFetch newUrl (signer sign sha256 sentAt jti) env inv tools now
                  fun _ => .ok response).outcome =
                handleTerminalResponse tools now direct fetched.url
                  { url := inv.url, userAgent := inv.userAgent }
                  DEFAULT_FETCH_LIMITS ↔
              (200 ≤ fetched.status ∧ fetched.status ≤ 599) ∧
                ¬ ((fetched.status = 204 ∨ fetched.status = 205) ∧
                  (decodedBody node raw stream).chunks.flatten ≠ [] ∧
                    (decodedBody node raw stream).chunks.flatten.length ≤
                      DEFAULT_FETCH_LIMITS.maxBytes) ∧
                (responseJson fetched durationMs).size ≤
                  responseLimit DEFAULT_FETCH_LIMITS.maxBytes) := by
  obtain ⟨hasked, -, -⟩ := ((serveBody_posted_iff hlength hverify hjti hurl hposted opts s id
    nowMs).1 id input).mp hstarted
  obtain ⟨-, rfl⟩ := Prod.mk.inj hasked
  have hlimit : (askedFetch inv opts).maxBytes = DEFAULT_FETCH_LIMITS.maxBytes := min_eq_left hcap
  obtain ⟨hop, connection, raw, stream, hconnection, hlast, hexchange, hdirect⟩ :=
    @executorPath_eq_iff _ _ _ _ _ tools _ now gcpNames
      { url := inv.url, userAgent := inv.userAgent } hfetched hlimit
      (hoptions ▸ hcap) hparsed rfl
  refine ⟨hop, connection, raw, stream, hconnection, hlast, hexchange, ?_⟩
  intro direct hsame response durationMs hcarries
  have houtcome : (gcpHttpFetch newUrl (signer sign sha256 sentAt jti) env inv tools now
      fun _ => .ok response).outcome = readExecutorResponse inv tools now response := by
    simp only [gcpHttpFetch, hposted]
  rw [houtcome, readExecutorResponse_members hcarries]
  by_cases hlong : responseLimit DEFAULT_FETCH_LIMITS.maxBytes < (responseJson fetched durationMs).size
  · have hlong' := hlong
    rw [responseJson] at hlong'
    rw [if_pos hlong']
    refine iff_of_false (fun heq => ?_) fun h => absurd h.2.2 (not_le.mpr hlong)
    exact terminal_not_internal hsame _ _ _ _ heq.symm
  · have hshort := hlong
    rw [responseJson] at hshort
    rw [if_neg hshort, hdirect direct hsame durationMs]
    exact and_congr_right fun _ => (and_iff_left (not_lt.mp hlong)).symm

/-- A failure of the executor's fetch arrives as a failure of its class. -/
theorem gcpHttpFetch_failure (tools : HttpTools) (now : Nat)
    (hposted : executorRequest newUrl (signer sign sha256 sentAt jti) env inv = .ok request)
    (failure : FetchFailure) (durationMs : Int) {response : HttpResponse}
    (hcarries : Carries tools response (fetchedAnswer (.error (some failure)) durationMs))
    (hshort : (Json.object (JobResult.error failure.failureClass failure.message).members).size ≤
      responseLimit DEFAULT_FETCH_LIMITS.maxBytes) :
    (gcpHttpFetch newUrl (signer sign sha256 sentAt jti) env inv tools now
        fun _ => .ok response).outcome =
      .ok (.failure (classOf failure.failureClass) none ("gcp-http: " ++ failure.message) none) := by
  have houtcome : (gcpHttpFetch newUrl (signer sign sha256 sentAt jti) env inv tools now
      fun _ => .ok response).outcome = readExecutorResponse inv tools now response := by
    simp only [gcpHttpFetch, hposted]
  rw [houtcome, readExecutorResponse_members hcarries, if_neg (not_lt.mpr hshort),
    outcomeFromExecutorPayload_error]
  rfl

end Exchange

/-! ## A page -/

def pageInvocation : Rpc.FetcherInvocation where
  url := "https://example.com/"
  userAgent := "utsuroi"
  etag := none
  lastModified := none
  headers := []
  urlGuard _ := allow

def pageBody : List UInt8 := Utf8.encode (gcpRequest pageInvocation DEFAULT_FETCH_LIMITS).text

/-- SHA-256 of that body; no other hash is looked at. -/
def pageHash (_ : List UInt8) : List UInt8 :=
  [124, 0, 49, 186, 228, 202, 20, 209, 235, 24, 228, 121, 144, 12, 140, 154, 72, 182, 231, 170, 164,
    254, 95, 106, 25, 21, 158, 147, 227, 149, 221, 76]

/-- The signature of the token for it. -/
def pageSignature : List UInt8 :=
  [164, 236, 167, 35, 16, 86, 56, 86, 252, 248, 73, 57, 243, 2, 43, 105, 154, 181, 174, 43, 255, 173,
    1, 27, 154, 107, 35, 46, 217, 13, 230, 153, 225, 245, 220, 72, 47, 46, 200, 185, 149, 221, 189,
    166, 134, 96, 36, 155, 94, 63, 251, 96, 130, 244, 18, 31, 247, 240, 112, 193, 222, 9, 198, 7]

def pageSentAt : TimeValue := sampleInput.nowMs

def pageAuthorization : String :=
  "Bearer " ++ signExecutorToken (fun _ => pageSignature) pageHash
    ⟨GCP_HTTP_AUDIENCE, pageBody, pageSentAt⟩ sampleJti

def pageVerify (_ signature : List UInt8) : Bool := signature == pageSignature

def pageOptions : ServerOptions := ⟨5 * 1024 * 1024, 8⟩

theorem pageVerify_signed : ∀ message : List UInt8, pageVerify message pageSignature = true := by
  simp [pageVerify]

theorem pageJti_uuid : IsUuid sampleJti := ⟨by decide +kernel, by decide +kernel⟩

theorem pageToken_holds : TokenHolds pageSentAt sampleJti ⟨MAX_JTI_ENTRIES, []⟩ 1750000000100 where
  begun := by decide +kernel
  unexpired := by decide +kernel
  fresh := rfl
  room := by decide

def executorUrl (text : String) : Option ParsedUrl :=
  if text = "https://executor.example/" then
    some { HomeRunner.samplePage with
      hostname := "executor.example", href := "https://executor.example/", href_ne := by decide }
  else none

def pageEnv : GcpExecutorEnv := ⟨some "https://executor.example/", some "key"⟩

def pageRequest : ExecutorRequest := ⟨"https://executor.example/", pageAuthorization, pageBody⟩

theorem pageRequest_posted :
    executorRequest executorUrl (signer (fun _ => pageSignature) pageHash pageSentAt sampleJti) pageEnv
      pageInvocation = .ok pageRequest := by
  have hurl : (pageEnv.GCP_EXECUTOR_URL.map trim).getD "" = "https://executor.example/" := by
    decide +kernel
  have hkey : (pageEnv.GCP_EXECUTOR_SIGNING_KEY.map trim).getD "" = "key" := by decide +kernel
  simp only [executorRequest, hurl, hkey]
  rfl

/-- The server with the request before its body has been read. -/
def pageQueued : ServerState := ⟨⟨MAX_JTI_ENTRIES, []⟩, 0, 1, [(0, .body pageAuthorization)]⟩

def pageBegun : ServerState × List ServerEffect :=
  pageQueued.serveBody pageVerify pageHash pageOptions 0 pageAuthorization pageBody 1750000000100

theorem serveBody_started {verify : List UInt8 → List UInt8 → Bool}
    {sha256 : List UInt8 → List UInt8} {opts : ServerOptions} {s : ServerState} {id : RequestId}
    {authorization : String} {raw : List UInt8} {nowMs : Int} {input : FetchInput}
    (hok : (verifyRequestToken verify sha256 (some authorization) raw nowMs s.jtiCache).1 = .ok ())
    (hparsed : parseRequest raw opts.maxBytesCap = some input) (hfree : s.inflight < opts.maxInflight) :
    (s.serveBody verify sha256 opts id authorization raw nowMs).2 =
      [.verified id ⟨some authorization, raw, nowMs, .ok ()⟩, .started id input] := by
  unfold ServerState.serveBody
  simp only [hok, hparsed, if_neg (not_le.mpr hfree)]

theorem pageBody_parsed : parseRequest pageBody pageOptions.maxBytesCap =
    some (askedFetch pageInvocation pageOptions) :=
  parseRequest_posted pageInvocation (by decide) (by decide) _

/-- Its fetch is started. -/
theorem pageBegun_effects : ∃ verification, pageBegun.2 =
    [.verified 0 verification, .started 0 (askedFetch pageInvocation pageOptions)] := by
  have hok : (verifyRequestToken pageVerify pageHash (some pageAuthorization) pageBody 1750000000100
      pageQueued.jtiCache).1 = .ok () :=
    (posted_accepted_iff (fun _ => rfl) pageVerify_signed pageJti_uuid pageBody pageQueued.jtiCache 1750000000100).mpr pageToken_holds
  rw [pageBegun]
  exact ⟨_, serveBody_started hok pageBody_parsed (by decide)⟩

/-- What `sendJson` has written, in one chunk. -/
def pageResponse : HttpResponse :=
  ⟨200, [], some ⟨[Utf8.encode (responseJson onePageFetched 3).text], none⟩⟩

theorem gcpHttpFetch_eq_page :
    (gcpHttpFetch executorUrl (signer (fun _ => pageSignature) pageHash pageSentAt sampleJti) pageEnv
        pageInvocation onePageTools 0 fun _ => .ok pageResponse).outcome =
      handleTerminalResponse onePageTools 0 onePageDirect "https://example.com/"
        { url := "https://example.com/", userAgent := "utsuroi" } DEFAULT_FETCH_LIMITS := by
  have hstarted : .started 0 (askedFetch pageInvocation pageOptions) ∈
      (pageQueued.serveBody pageVerify pageHash pageOptions 0 pageRequest.authorization
        pageRequest.body 1750000000100).2 := by
    obtain ⟨verification, heffects⟩ := pageBegun_effects
    exact heffects ▸ List.mem_cons_of_mem _ List.mem_cons_self
  obtain ⟨hop, connection, raw, stream, -, -, hexchange, hdirect⟩ :=
    gcpHttpFetch_eq_iff onePageTools 0 (fun _ => rfl) pageVerify_signed pageJti_uuid (by decide) pageRequest_posted hstarted (by decide) rfl
      (fetchTarget_onePage (gcpRequestHeaders pageInvocation)) onePage_parsed
  simp only [onePage, Exchange.answered.injEq] at hexchange
  obtain ⟨-, rfl, rfl⟩ := hexchange
  rw [onePage_decoded] at hdirect
  refine (hdirect onePageDirect onePage_sameAnswer pageResponse 3 ?_).mpr
    ⟨by decide, by decide, by decide +kernel⟩
  exact ⟨rfl, fun _ _ => rfl, by simp [pageResponse], by simp [pageResponse],
    by simp [pageResponse, fetchedAnswer], by simp [pageResponse, Headers.get]⟩

end Utsuroi.GcpServer

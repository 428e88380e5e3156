import Mathlib.Data.Rat.Lemmas
import Utsuroi.Api.Runner
import Utsuroi.Executors.Execute
import Utsuroi.Executors.Proofs.Pinning

/-!
# Which results the Worker reads

The header limits, the content type and messages are cut to what the Worker's schema admits; the
status, the final URL, the clock and the size of the whole are not.
-/

namespace Utsuroi.HomeRunner

open RunnerApi

/-- The JSON of a response with its values left out. -/
def frameSize : Nat :=
  ("\x7b\"leaseToken\":,\"result\":\x7b\"kind\":\"response\",\"status\":,\"url\":," ++
    "\"contentType\":,\"headers\":,\"body\":\"\",\"truncated\":,\"durationMs\":\x7d\x7d").length

/-- The bytes of the headers' JSON. -/
def headersSize (headers : StringRecord String) : Nat :=
  (headers.entries.map fun entry => Json.quotedSize entry.1 + Json.quotedSize entry.2 + 2).sum +
    if headers.entries = [] then 2 else 1

/-- The bytes a response takes on its way, the letters of its body apart. -/
def envelopeSize (leaseToken : String) (fetched : FetchResult) (durationMs : Int) : Nat :=
  frameSize + Json.quotedSize leaseToken + (Json.intText fetched.status).length +
    Json.quotedSize fetched.url +
    fetched.contentType.elim 4 (fun value => Json.quotedSize (slice 1024 value)) +
    headersSize (fitHeaders fetched.headers) + (if fetched.truncated then 4 else 5) +
    (Json.intText durationMs).length

/-- The lease token is one that the Worker hands out. -/
structure TokenFits (leaseToken : String) : Prop where
  nonempty : 1 ≤ utf16Length leaseToken.toList
  short : utf16Length leaseToken.toList ≤ 128

/-- The response is within the limits of the Worker that the runner does not cut it to. -/
structure ResponseFits (leaseToken : String) (fetched : FetchResult) (durationMs : Int) : Prop where
  status : 100 ≤ fetched.status ∧ fetched.status ≤ 599
  url : utf16Length fetched.url.toList ≤ 8192
  duration : 0 ≤ durationMs
  size : envelopeSize leaseToken fetched durationMs + Crawler.maxBase64Length fetched.body.length ≤
    maxResultRequestBytes DEFAULT_FETCH_LIMITS.maxBytes

/-! ## What is cut down -/

theorem length_slice_le (n : Nat) (text : String) : utf16Length (slice n text).toList ≤ n := by
  rw [slice, String.toList_ofList]
  exact utf16Length_take_le n _

private theorem base64_letters {c : Char} {bytes : List UInt8}
    (h : c ∈ Base64.unpadded '+' '/' bytes) : isBase64Letter c = true ∧ c.toNat < 128 := by
  obtain ⟨sextet, hsextet, rfl⟩ := List.mem_map.mp h
  have hall : ∀ n < 64, isBase64Letter (Base64.letter '+' '/' n) = true ∧
      (Base64.letter '+' '/' n).toNat < 128 := by
    decide +kernel
  exact hall sextet (Base64.sextetsOf_lt hsextet)

theorem base64_base64Text (bytes : List UInt8) : base64 (.string (base64Text bytes)) = true := by
  have hpadding : (Base64.padding bytes).dropWhile isBase64Letter = Base64.padding bytes := by
    unfold Base64.padding
    generalize (3 - bytes.length % 3) % 3 = n
    cases n with
    | zero => rfl
    | succ n => rfl
  have hrest : (base64Text bytes).toList.dropWhile isBase64Letter = Base64.padding bytes := by
    rw [base64Text, String.toList_ofList,
      List.dropWhile_append_of_pos fun c hc => (base64_letters hc).1, hpadding]
  simp only [base64, Schema.string, hrest]
  have hshort : (3 - bytes.length % 3) % 3 ≤ 2 := by omega
  simp [Base64.padding, hshort]

theorem fitHeaders_fits {headers : StringRecord String} {entry : String × String}
    (h : entry ∈ (fitHeaders headers).entries) :
    utf16Length entry.1.toList ≤ 256 ∧ utf16Length entry.2.toList ≤ 8192 := by
  have hkept := List.mem_of_mem_take h
  simp only [StringRecord.filterMap, List.mem_filterMap, Option.map_eq_some_iff] at hkept
  obtain ⟨header, -, value, hvalue, rfl⟩ := hkept
  split at hvalue
  next hfits =>
    obtain rfl := Option.some.inj hvalue
    exact hfits
  next => cases hvalue

theorem responseHeaders_fitHeaders (headers : StringRecord String) :
    responseHeaders (.object (headersJson (fitHeaders headers))) = true := by
  have hkeys : (headersJson (fitHeaders headers)).map Prod.fst =
      (fitHeaders headers).entries.map Prod.fst := by
    simp [headersJson]
  have hcount : (fitHeaders headers).entries.length ≤ 200 := List.length_take_le 200 _
  refine Schema.record_of_forall (by rw [hkeys]; exact (fitHeaders headers).nodup) ?_ ?_
  · intro entry hentry
    obtain ⟨header, hheader, rfl⟩ := List.mem_map.mp hentry
    obtain ⟨hname, hvalue⟩ := fitHeaders_fits hheader
    simp [lengthWithin, Schema.string, hname, hvalue]
  · simpa [headersJson] using hcount

/-! ## The schema -/

private theorem resultRequestSchema_iff (request : ResultRequest) :
    resultRequestSchema request.json = true ↔
      TokenFits request.leaseToken ∧
        runnerResultSchema (.object request.result.members) = true := by
  have hnodup : (request.members.map Prod.fst).Nodup :=
    show ["leaseToken", "result"].Nodup by decide
  unfold resultRequestSchema ResultRequest.json
  rw [Schema.object_iff hnodup rfl]
  simp only [ResultRequest.members, List.forall₂_cons, List.Forall₂.nil, and_true, lengthWithin,
    Schema.string, Bool.and_eq_true, decide_eq_true_eq]
  exact and_congr_left fun _ => ⟨fun h => ⟨h.1, h.2⟩, fun h => ⟨h.nonempty, h.short⟩⟩

theorem runnerResultSchema_error (failureClass : ExecutorFailureClass) {message : String}
    (hmessage : utf16Length message.toList ≤ 1024) :
    runnerResultSchema (.object (JobResult.error failureClass message).members) = true := by
  have hnodup : ((JobResult.error failureClass message).members.map Prod.fst).Nodup :=
    show ["kind", "failureClass", "message"].Nodup by decide
  have hclass : failureClassText failureClass ∈ RUNNER_ERROR_CLASSES := by
    cases failureClass <;> decide
  have hkind : ("kind", Json.string "error") ∈ (JobResult.error failureClass message).members :=
    List.mem_cons_self
  have hschema : [("response", responseSchema), ("error", errorSchema)].lookup "error" =
      some errorSchema := rfl
  rw [runnerResultSchema, Schema.discriminatedUnion_eq hnodup hkind hschema, errorSchema,
    Schema.object_iff hnodup rfl]
  simp [JobResult.members, Schema.string, lengthWithin, hclass, hmessage]

/-- Of a response the status, the URL and the duration may be refused. -/
theorem runnerResultSchema_response (fetched : FetchResult) (durationMs : Int) :
    runnerResultSchema (.object (jobResult (.ok fetched) durationMs).members) = true ↔
      (100 ≤ fetched.status ∧ fetched.status ≤ 599) ∧
        (1 ≤ utf16Length fetched.url.toList ∧ utf16Length fetched.url.toList ≤ 8192) ∧
          0 ≤ durationMs := by
  have hnodup : ((jobResult (.ok fetched) durationMs).members.map Prod.fst).Nodup :=
    show ["kind", "status", "url", "contentType", "headers", "body", "truncated",
      "durationMs"].Nodup by decide
  have hkind : ("kind", Json.string "response") ∈ (jobResult (.ok fetched) durationMs).members :=
    List.mem_cons_self
  have hschema : [("response", responseSchema), ("error", errorSchema)].lookup "response" =
      some responseSchema := rfl
  have htype : Schema.nullable (lengthWithin 0 1024)
      ((fetched.contentType.map (slice 1024)).elim .null .string) = true := by
    cases fetched.contentType with
    | none => rfl
    | some value => simp [Schema.nullable, lengthWithin, Schema.string, length_slice_le]
  rw [runnerResultSchema, Schema.discriminatedUnion_eq hnodup hkind hschema, responseSchema,
    Schema.object_iff hnodup rfl]
  simp only [jobResult, JobResult.members, List.forall₂_cons, List.Forall₂.nil, and_true, htype,
    responseHeaders_fitHeaders, base64_base64Text, Schema.boolean, true_and]
  simp only [lengthWithin, Schema.string, Schema.number, Json.int, Json.decimal_int, decide_true,
    Bool.and_eq_true, decide_eq_true_eq, true_and]
  norm_cast
  simp

/-! ## The size -/

private theorem membersSize_eq (members : List (String × Json)) :
    Json.membersSize members =
      (members.map fun entry => Json.quotedSize entry.1 + entry.2.size + 2).sum + 1 := by
  induction members with
  | nil => rfl
  | cons entry members ih =>
      simp only [Json.membersSize, ih, List.map_cons, List.sum_cons]
      omega

theorem size_headersJson (headers : StringRecord String) :
    (Json.object (headersJson headers)).size = headersSize headers := by
  unfold headersJson headersSize
  cases headers.entries with
  | nil => rfl
  | cons header entries =>
      have hmap : (entries.map fun entry => (entry.1, Json.string entry.2)).map
          (fun entry => Json.quotedSize entry.1 + entry.2.size + 2) =
            entries.map fun entry => Json.quotedSize entry.1 + Json.quotedSize entry.2 + 2 := by
        rw [List.map_map]
        apply List.map_congr_left
        intro entry _
        simp [Json.size]
      rw [if_neg (List.cons_ne_nil header entries), List.map_cons, Json.size, membersSize_eq, hmap,
        Json.size, List.map_cons, List.sum_cons]
      omega

/-- The letters of the body need no escape. -/
theorem quotedSize_base64Text (bytes : List UInt8) :
    Json.quotedSize (base64Text bytes) = Crawler.maxBase64Length bytes.length + 2 := by
  have hpadding : ∀ c ∈ Base64.padding bytes, c = '=' := fun c hc => (List.mem_replicate.mp hc).2
  have hplain : ∀ c ∈ (base64Text bytes).toList, Json.escapedSize c = 1 := by
    intro c hc
    rw [base64Text, String.toList_ofList] at hc
    rcases List.mem_append.mp hc with hc | hc
    · obtain ⟨sextet, hsextet, rfl⟩ := List.mem_map.mp hc
      have hall : ∀ n < 64, Json.escapedSize (Base64.letter '+' '/' n) = 1 := by decide +kernel
      exact hall sextet (Base64.sextetsOf_lt hsextet)
    · rw [hpadding c hc]
      decide
  have hlength : (base64Text bytes).toList.length = Crawler.maxBase64Length bytes.length := by
    rw [base64Text, String.toList_ofList, List.length_append, Base64.unpadded, List.length_map,
      Base64.length_sextetsOf, Base64.padding, List.length_replicate, Crawler.maxBase64Length]
    omega
  rw [Json.quotedSize_plain hplain, hlength]

theorem size_response (leaseToken : String) (fetched : FetchResult) (durationMs : Int) :
    (ResultRequest.json ⟨leaseToken, jobResult (.ok fetched) durationMs⟩).size =
      envelopeSize leaseToken fetched durationMs + Crawler.maxBase64Length fetched.body.length := by
  have hframe : frameSize = 124 := by decide +kernel
  have htype : ((fetched.contentType.map (slice 1024)).elim .null .string : Json).size =
      fetched.contentType.elim 4 fun value => Json.quotedSize (slice 1024 value) := by
    cases fetched.contentType with
    | none => rfl
    | some value => simp [Json.size]
  have htruncated : (Json.bool fetched.truncated).size = if fetched.truncated then 4 else 5 := by
    cases fetched.truncated <;> rfl
  have hkeys : Json.quotedSize "leaseToken" = 12 ∧ Json.quotedSize "result" = 8 ∧
      Json.quotedSize "kind" = 6 ∧ Json.quotedSize "response" = 10 ∧ Json.quotedSize "status" = 8 ∧
      Json.quotedSize "url" = 5 ∧ Json.quotedSize "contentType" = 13 ∧
      Json.quotedSize "headers" = 9 ∧ Json.quotedSize "body" = 6 ∧
      Json.quotedSize "truncated" = 11 ∧ Json.quotedSize "durationMs" = 12 := by
    decide +kernel
  obtain ⟨h₁, h₂, h₃, h₄, h₅, h₆, h₇, h₈, h₉, h₁₀, h₁₁⟩ := hkeys
  simp only [ResultRequest.json, ResultRequest.members, jobResult, JobResult.members, Json.size,
    Json.membersSize, size_headersJson, htype, htruncated, quotedSize_base64Text, Json.int,
    Json.numberText, if_true, h₁, h₂, h₃, h₄, h₅, h₆, h₇, h₈, h₉, h₁₀, h₁₁, envelopeSize, hframe]
  omega

private theorem quotedSize_le (value : String) :
    Json.quotedSize value ≤ 6 * utf16Length value.toList + 2 := by
  have hchar : ∀ c : Char, Json.escapedSize c ≤ 6 * utf16Width c := by
    intro c
    have hutf8 : c.utf8Size ≤ 4 := c.utf8Size_le_four
    have hsize : Json.escapedSize c ≤ 6 := by
      unfold Json.escapedSize
      split
      · omega
      · split <;> omega
    have hwidth : 1 ≤ utf16Width c := by
      unfold utf16Width
      split <;> omega
    omega
  have hsum : Json.charsSize value.toList ≤ 6 * utf16Length value.toList := by
    induction value.toList with
    | nil => exact Nat.le_refl 0
    | cons c cs ih =>
        have hc := hchar c
        simp only [Json.charsSize, utf16Length]
        omega
  unfold Json.quotedSize
  omega

/-- An error is never too large. -/
theorem size_error_le {leaseToken message : String} (failureClass : ExecutorFailureClass)
    (htoken : TokenFits leaseToken) (hmessage : utf16Length message.toList ≤ 1024) :
    (ResultRequest.json ⟨leaseToken, .error failureClass message⟩).size ≤
      maxResultRequestBytes DEFAULT_FETCH_LIMITS.maxBytes := by
  have hlimit : maxResultRequestBytes DEFAULT_FETCH_LIMITS.maxBytes = 7056044 := by decide
  have hkeys : Json.quotedSize "leaseToken" = 12 ∧ Json.quotedSize "result" = 8 ∧
      Json.quotedSize "kind" = 6 ∧ Json.quotedSize "error" = 7 ∧
      Json.quotedSize "failureClass" = 14 ∧ Json.quotedSize "message" = 9 := by
    decide +kernel
  have hclass : Json.quotedSize (failureClassText failureClass) ≤ 15 := by
    cases failureClass <;> decide +kernel
  have htokenSize := quotedSize_le leaseToken
  have hshort := htoken.short
  have hmessageSize := quotedSize_le message
  obtain ⟨h₁, h₂, h₃, h₄, h₅, h₆⟩ := hkeys
  simp only [ResultRequest.json, ResultRequest.members, JobResult.members, Json.size,
    Json.membersSize, h₁, h₂, h₃, h₄, h₅, h₆, hlimit]
  omega

/-! ## What the Worker reads -/

/-- It is within the schema and within the limit. -/
theorem readResult_posted_iff (request : ResultRequest) (issues : Json → String)
    (carriage : Carriage (Utf8.encode request.json.text)) :
    (∃ data, readResult issues (posted request.json carriage) = .ok data) ↔
      (TokenFits request.leaseToken ∧
        runnerResultSchema (.object request.result.members) = true) ∧
          request.json.size ≤ maxResultRequestBytes DEFAULT_FETCH_LIMITS.maxBytes := by
  rw [← resultRequestSchema_iff]
  exact parseBody_posted_iff issues request.members carriage resultRequestSchema
    (maxResultRequestBytes DEFAULT_FETCH_LIMITS.maxBytes)

section Sent

variable {leaseToken : String} {fetched : FetchResult} {durationMs : Int}

theorem accepted_response_iff (hurl : fetched.url ≠ "") (issues : Json → String)
    (carriage : Carriage (Utf8.encode
      (ResultRequest.json ⟨leaseToken, jobResult (.ok fetched) durationMs⟩).text)) :
    (∃ data, readResult issues (posted _ carriage) = .ok data) ↔
      TokenFits leaseToken ∧ ResponseFits leaseToken fetched durationMs := by
  have hnonempty := utf16Length_pos hurl
  rw [readResult_posted_iff, runnerResultSchema_response, size_response]
  constructor
  · rintro ⟨⟨htoken, hstatus, hlength, hduration⟩, hbytes⟩
    exact ⟨htoken, hstatus, hlength.2, hduration, hbytes⟩
  · rintro ⟨htoken, hfits⟩
    exact ⟨⟨htoken, hfits.status, ⟨hnonempty, hfits.url⟩, hfits.duration⟩, hfits.size⟩

theorem accepted_error_iff (failureClass : ExecutorFailureClass) {message : String}
    (hmessage : utf16Length message.toList ≤ 1024) (issues : Json → String)
    (carriage : Carriage (Utf8.encode
      (ResultRequest.json ⟨leaseToken, .error failureClass message⟩).text)) :
    (∃ data, readResult issues (posted _ carriage) = .ok data) ↔ TokenFits leaseToken := by
  rw [readResult_posted_iff]
  constructor
  · exact fun h => h.1.1
  · intro htoken
    exact ⟨⟨htoken, runnerResultSchema_error failureClass hmessage⟩,
      size_error_le failureClass htoken hmessage⟩

end Sent

/-- The service over this network, whatever its timeout. -/
def fetchService (node : NodeTools) (options : FetchServiceOptions) (upstream : Upstream)
    (_timeoutMs : Int) (input : FetchInput) : Fetched :=
  (fetchTarget node options upstream input).outcome.mapError some

theorem fetchTarget_url_ne {node : NodeTools} {options : FetchServiceOptions} {upstream : Upstream}
    {input : FetchInput} {fetched : FetchResult}
    (h : (fetchTarget node options upstream input).outcome = .ok fetched) : fetched.url ≠ "" := by
  unfold fetchTarget at h
  split at h
  · cases h
  split at h
  · cases h
  · obtain ⟨k, connection, -, -, hcut⟩ := (fetchHops_confined (le_refl _)).answer fetched h
    rw [hcut.url]
    exact connection.url.href_ne

/-- What the runner sends of a job is read exactly where the response has a status from 100 to 599
and a URL of at most 8192 units, the clock has not gone back, and the values take no more bytes
than the limit leaves.  Errors are always read. -/
theorem execute_accepted_iff (node : NodeTools) (options : FetchServiceOptions)
    (upstream : Upstream) (issues : Json → String) (fetchTimeoutMs : Int) (clock : ExecuteClock) (job : PulledJob)
    (sent : ResultRequest)
    (hsent : execute fetchTimeoutMs (fetchService node options upstream) clock job = some sent)
    (carriage : Carriage (Utf8.encode sent.json.text)) :
    (∃ data, readResult issues (posted sent.json carriage) = .ok data) ↔
      TokenFits job.leaseToken ∧
        ∀ fetched, (fetchTarget node options upstream job.request).outcome = .ok fetched →
          ResponseFits job.leaseToken fetched (clock.finishedAt - clock.startedAt) := by
  obtain ⟨timeoutMs, rfl⟩ := execute_sent hsent
  cases houtcome : (fetchTarget node options upstream job.request).outcome with
  | error failure =>
      have hresult : jobResult (fetchService node options upstream timeoutMs job.request)
          (clock.finishedAt - clock.startedAt) =
            .error failure.failureClass (slice 1024 failure.message) := by
        simp [fetchService, houtcome, Except.mapError, jobResult]
      revert carriage
      rw [hresult]
      intro carriage
      rw [accepted_error_iff failure.failureClass (length_slice_le 1024 failure.message)]
      exact (and_iff_left nofun).symm
  | ok fetched =>
      have hresult : fetchService node options upstream timeoutMs job.request = .ok fetched := by
        simp [fetchService, houtcome, Except.mapError]
      revert carriage
      rw [hresult]
      intro carriage
      rw [accepted_response_iff (fetchTarget_url_ne houtcome)]
      refine and_congr_right fun _ => ⟨fun hfits other hother => ?_, fun h => h fetched rfl⟩
      obtain rfl := Except.ok.inj hother
      exact hfits

/-! ## A server that answers 999 -/

def samplePage : ParsedUrl where
  protocol := "https:"
  username := ""
  password := ""
  hostname := "example.com"
  port := none
  pathname := "/"
  search := ""
  href := "https://example.com/"
  href_ne := by decide

def sampleNode : NodeTools where
  newUrl text := if text = "https://example.com/" then some samplePage else none
  newUrlFrom _ _ := none
  isIP text := if text = "93.184.216.34" then .v4 (IPv4.ofGroups 0x5db8 0xd822) else .none
  decompress _ stream := stream

def sampleOptions : FetchServiceOptions where
  maxBytesCap := 5 * 1024 * 1024
  maxRedirects := 5
  isBlockedAddress := isBlockedAddress ⟨[], []⟩
  allowedPorts := DEFAULT_ALLOWED_PORTS
  userAgent := "utsuroi-gcp-http"
  allowIpv6 := false

def answeredHeaders : IncomingHttpHeaders :=
  ⟨[("content-type", .one "text/html"), ("x-powered-by", .one "PHP"), ("etag", .one "v1")],
    by decide⟩

def keptHeaders : StringRecord String :=
  ⟨[("content-type", "text/html"), ("etag", "v1")], by decide⟩

/-- A page with this status, its body in two chunks. -/
def answering (status : Nat) : Upstream where
  resolve _ _ := .addresses [⟨"93.184.216.34", 4⟩]
  exchange _ _ := .answered status answeredHeaders ⟨[[0x3c, 0x70], [0x3e]], none⟩

def sampleJob : PulledJob where
  jobId := "job-1"
  fetchMode := "http"
  leaseExpiresAt := some 60000
  leaseToken := "f0e1d2c3"
  request := ⟨"https://example.com/", DEFAULT_FETCH_LIMITS.maxBytes, []⟩

def sampleClock : ExecuteClock := ⟨0, 0, 200⟩

def sampleFetched (status : Nat) : FetchResult where
  status := status
  url := "https://example.com/"
  contentType := some "text/html"
  headers := keptHeaders
  body := [0x3c, 0x70, 0x3e]
  truncated := false

/-- What is sent of the page. -/
def sampleSent (status : Nat) : ResultRequest :=
  ⟨"f0e1d2c3", jobResult (.ok (sampleFetched status)) 200⟩

private theorem fetchTarget_sample {status : Nat} (h : isRedirectStatus status = false) :
    (fetchTarget sampleNode sampleOptions (answering status) sampleJob.request).outcome =
      .ok (sampleFetched status) := by
  have hbare : bareHostname samplePage = "example.com" := by decide +kernel
  have hhost : isBlockedHostname "example.com" = false := by decide +kernel
  have hvet : vet sampleNode sampleOptions (answering status) 0 samplePage =
      .ok ⟨"93.184.216.34", 4⟩ := by
    simp only [vet, hbare, hhost]
    rfl
  have hredirects : sampleOptions.maxRedirects - sampleOptions.maxRedirects = 0 := rfl
  have hpicked : pickResponseHeaders answeredHeaders = keptHeaders :=
    StringRecord.ext (by decide +kernel)
  have hcap : 3 ≤ min sampleJob.request.maxBytes sampleOptions.maxBytesCap := by decide
  have hhop (connection : Connection) (maxBytes : Nat) (hmax : 3 ≤ maxBytes) :
      hop sampleNode (answering status) 0 connection maxBytes =
        .ok ⟨status, answeredHeaders, [0x3c, 0x70, 0x3e], false⟩ := by
    have hdecoder : responseDecoder none = none := by decide +kernel
    have hencoding : answeredHeaders.get "content-encoding" = none := by decide +kernel
    have hfirst : ¬maxBytes < 2 := by omega
    have hsecond : ¬maxBytes - 2 < 1 := by omega
    simp only [hop, answering, h, hencoding, headerText, hdecoder, collectChunks,
      List.length_cons, List.length_nil, Nat.zero_add, Nat.sub_zero, Nat.reduceAdd,
      List.nil_append, if_neg hfirst, if_neg hsecond, Option.elim_none]
    rfl
  have hpage : sampleNode.newUrl sampleJob.request.url = some samplePage := rfl
  have hshort : ¬ MAX_URL_LENGTH < utf16Length sampleJob.request.url.toList := by decide +kernel
  rw [fetchTarget, if_neg hshort, hpage]
  simp only
  rw [fetchHops, hredirects, hvet]
  simp only [hhop _ _ hcap, h]
  rw [if_neg Bool.false_ne_true, terminalResult, hpicked]
  rfl

theorem sent_sample {status : Nat} (h : isRedirectStatus status = false) :
    execute 30000 (fetchService sampleNode sampleOptions (answering status)) sampleClock sampleJob =
      some (sampleSent status) := by
  have hmode : sampleJob.fetchMode = "http" := rfl
  have hresult (timeoutMs : Int) :
      jobResult
        (fetchService sampleNode sampleOptions (answering status) timeoutMs sampleJob.request)
        (sampleClock.finishedAt - sampleClock.startedAt) = (sampleSent status).result := by
    rw [fetchService, fetchTarget_sample h]
    rfl
  rw [execute, if_neg (not_not_intro hmode)]
  simp only [hresult]
  rfl

/-- How the request arrives: in one chunk, its length declared. -/
def whole (bytes : List UInt8) : Carriage bytes := ⟨[bytes], by simp, true⟩

theorem execute_refused_999 :
    ¬ ∀ (node : NodeTools) (options : FetchServiceOptions) (upstream : Upstream)
      (issues : Json → String) (fetchTimeoutMs : Int) (clock : ExecuteClock) (job : PulledJob)
      (sent : ResultRequest), job.request.maxBytes = DEFAULT_FETCH_LIMITS.maxBytes →
        TokenFits job.leaseToken →
        execute fetchTimeoutMs (fetchService node options upstream) clock job = some sent →
          ∀ carriage : Carriage (Utf8.encode sent.json.text),
            ∃ data, readResult issues (posted sent.json carriage) = .ok data := by
  intro hall
  have hredirect : isRedirectStatus 999 = false := by decide
  have hread := hall sampleNode sampleOptions (answering 999) (fun _ => "") 30000 sampleClock
    sampleJob (sampleSent 999) rfl ⟨by decide, by decide⟩ (sent_sample hredirect) (whole _)
  rw [sampleSent, readResult_posted_iff] at hread
  have hschema := (runnerResultSchema_response (sampleFetched 999) 200).mp hread.1.2
  exact absurd hschema.1.2 (by decide)

theorem execute_accepted_200 :
    ∃ data, readResult (fun _ => "") (posted (sampleSent 200).json (whole _)) = .ok data := by
  have hredirect : isRedirectStatus 200 = false := by decide
  have hsent := sent_sample hredirect
  refine (execute_accepted_iff sampleNode sampleOptions (answering 200) (fun _ => "") 30000
    sampleClock sampleJob (sampleSent 200) hsent (whole _)).mpr ⟨⟨by decide, by decide⟩, ?_⟩
  intro fetched hfetched
  rw [fetchTarget_sample hredirect] at hfetched
  obtain rfl := Except.ok.inj hfetched
  exact ⟨by decide, by decide, by decide, by decide +kernel⟩

end Utsuroi.HomeRunner

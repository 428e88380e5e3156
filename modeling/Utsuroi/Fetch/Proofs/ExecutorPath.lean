import Mathlib.Data.Rat.Lemmas
import Utsuroi.Executors.Proofs.Execute
import Utsuroi.Fetch.GcpHttp

/-!
# A fetch by an executor comes to what a direct fetch comes to

An executor cuts the body at the limit, picks a few headers and wraps the rest up in JSON.  The Worker
takes a response out of it again, which its classifier treats as it treats the server's own.
-/

namespace Utsuroi

open HomeRunner (JobResult base64Text headersJson)

/-! ## The payload -/

section Payload

variable (status : Nat) (url : String) (contentType : Option String)
  (headers : StringRecord String) (body : List UInt8) (truncated : Bool) (durationMs : Int)

private theorem response_keys :
    ((JobResult.response status url contentType headers (base64Text body) truncated
      durationMs).members.map Prod.fst).Nodup := by
  have hkeys : ["kind", "status", "url", "contentType", "headers", "body", "truncated",
      "durationMs"].Nodup := by
    decide
  exact hkeys

private theorem payloadStatus?_int :
    payloadStatus? (Json.decimal status 0) = if 200 ≤ status ∧ status ≤ 599 then some status else none := by
  have hnat : Json.decimal status 0 = (status : Rat) := by
    rw [Json.decimal_int, Int.cast_natCast]
  have hlow : (200 : Rat) ≤ status ↔ 200 ≤ status := by exact_mod_cast Iff.rfl
  have hhigh : (status : Rat) ≤ 599 ↔ status ≤ 599 := by exact_mod_cast Iff.rfl
  rw [payloadStatus?, hnat]
  simp only [Rat.den_natCast, true_and, hlow, hhigh, Rat.num_natCast, Int.toNat_natCast]

/-- What an executor writes reads back, unless its status is none a `Response` may have. -/
theorem responsePayload?_members :
    responsePayload? (JobResult.response status url contentType headers (base64Text body) truncated
        durationMs).members =
      if 200 ≤ status ∧ status ≤ 599 then
        some ⟨status, url, headersJson headers, base64Text body, truncated⟩
      else none := by
  have hget := fun key value => @Schema.member?_eq _
    (response_keys status url contentType headers body truncated durationMs) key value
  have hstatus := hget "status" (.int status) (by simp [JobResult.members])
  have hurl := hget "url" (.string url) (by simp [JobResult.members])
  have hheaders := hget "headers" (.object (headersJson headers)) (by simp [JobResult.members])
  have hbody := hget "body" (.string (base64Text body)) (by simp [JobResult.members])
  have htruncated := hget "truncated" (.bool truncated) (by simp [JobResult.members])
  simp only [responsePayload?, hstatus, hurl, hheaders, hbody, htruncated, Option.bind_eq_bind,
    Option.bind_some, Json.number?, Json.int, Json.string?, Json.object?, Json.bool?,
    payloadStatus?_int]
  split <;> rfl

private theorem kind_response :
    (Json.member? (JobResult.response status url contentType headers (base64Text body) truncated
      durationMs).members "kind").bind Json.string? = some "response" := by
  rw [@Schema.member?_eq _ (response_keys status url contentType headers body truncated durationMs)
    "kind" (.string "response") (by simp [JobResult.members])]
  rfl

theorem decode?_base64Text : Base64.decode? (base64Text body).toList = some body := by
  rw [base64Text, String.toList_ofList]
  exact Base64.decode?_padded body

end Payload

/-! ## Headers -/

/-- The headers are such as the platform's parser makes them: `Headers` takes them as they are. -/
def Parsed (tools : HttpTools) (headers : StringRecord String) : Prop :=
  ∀ header ∈ headers.entries, keptHeader? tools.latin1Headers header.1 header.2 = some header

private theorem set_concat (headers : Headers) {header : String × String}
    (h : header.1 ∉ headers.map Prod.fst) : headers.set header = headers ++ [header] := by
  refine if_neg ?_
  rw [List.any_eq_true]
  rintro ⟨kept, hkept, heq⟩
  exact h (List.mem_map.mpr ⟨kept, hkept, of_decide_eq_true heq⟩)

private theorem foldl_set (headers kept : Headers)
    (hnodup : ((kept ++ headers).map Prod.fst).Nodup) : headers.foldl Headers.set kept = kept ++ headers := by
  induction headers generalizing kept with
  | nil => simp
  | cons header headers ih =>
      have hfresh : header.1 ∉ kept.map Prod.fst := by
        intro hmem
        rw [List.map_append, List.nodup_append] at hnodup
        exact hnodup.2.2 _ hmem _ (by simp) rfl
      rw [List.foldl_cons, set_concat kept hfresh, ih, List.append_assoc]
      · rfl
      · rwa [List.append_assoc]

/-- The headers of an executor's response arrive as they were picked. -/
theorem syntheticHeaders_eq {tools : HttpTools} {headers : StringRecord String}
    (h : Parsed tools headers) :
    syntheticHeaders tools (headersJson headers) = headers.entries := by
  have hnodup : ((headersJson headers).map Prod.fst).Nodup := by
    have hkeys : (headersJson headers).map Prod.fst = headers.entries.map Prod.fst := by
      rw [headersJson, List.map_map]
      rfl
    rw [hkeys]
    exact headers.nodup
  have hkept : (headersJson headers).filterMap (fun entry =>
      entry.2.string?.bind (keptHeader? tools.latin1Headers entry.1)) = headers.entries := by
    rw [headersJson, List.filterMap_map]
    calc headers.entries.filterMap _ = headers.entries.filterMap some := by
          apply List.filterMap_congr
          intro header hheader
          simpa [Json.string?] using h header hheader
      _ = headers.entries := List.filterMap_some
  rw [syntheticHeaders, Json.objectEntries_eq hnodup, hkept]
  exact foldl_set headers.entries [] headers.nodup

/-! ## The classifier -/

/-- The headers that an executor picks are those the classifier looks at. -/
def isPicked (name : String) : Bool :=
  KEPT_RESPONSE_HEADERS.contains name || startsWith name "cf-chl-"

/-- `HttpResponse` says what the server has answered with this status, these headers and this body. -/
structure SameAnswer (tools : HttpTools) (direct : HttpResponse) (status : Nat)
    (headers : Headers) (whole : List UInt8) : Prop where
  status : direct.status = status
  get : ∀ name, isPicked name = true → direct.headers.get name = headers.get name
  lower : ∀ header ∈ direct.headers, header.1.toLower = header.1
  complete : ∀ stream ∈ direct.body, stream.failure = none
  body : direct.body.elim [] (fun stream => stream.chunks.flatten) = whole
  /-- no length is declared that goes beyond the body -/
  declared : ∀ n, (direct.headers.get "content-length").bind tools.number = some n → n ≤ whole.length

section Classifier

variable {tools : HttpTools} {now : Nat} {limits : FetchLimits} {req : FetchRequest} {finalUrl : Url}

private theorem get_isSome_iff (headers : Headers) (name : String) :
    (headers.get name).isSome = true ↔ name ∈ headers.map Prod.fst := by
  have hnames : headers.filter (fun header => decide (header.1 = name)) = [] ↔
      name ∉ headers.map Prod.fst := by
    rw [List.filter_eq_nil_iff, List.mem_map, not_exists]
    simp only [decide_eq_true_eq, not_and]
  unfold Headers.get
  split
  · next hnil => simp [hnames.mp hnil]
  · next values hne =>
      have hmem : name ∈ headers.map Prod.fst := by
        by_contra hnot
        exact hne (hnames.mpr hnot)
      simp [hmem]

/-- Headers of which the same can be got hold the same names. -/
private theorem any_congr {first second : Headers} {test : String → Bool}
    (h : ∀ name, test name = true → first.get name = second.get name) :
    first.any (fun header => test header.1) = second.any fun header => test header.1 := by
  have hany : ∀ headers : Headers, headers.any (fun header => test header.1) = true ↔
      ∃ name, test name = true ∧ (headers.get name).isSome = true := by
    intro headers
    simp only [List.any_eq_true, get_isSome_iff, List.mem_map]
    constructor
    · rintro ⟨header, hmem, htest⟩
      exact ⟨header.1, htest, header, hmem, rfl⟩
    · rintro ⟨_, htest, header, hmem, rfl⟩
      exact ⟨header, hmem, htest⟩
  rw [Bool.eq_iff_iff, hany, hany]
  refine exists_congr fun name => and_congr_right fun htest => ?_
  rw [h name htest]

private theorem captcha_congr {first second : Headers}
    (hget : ∀ name, isPicked name = true → first.get name = second.get name)
    (hfirst : ∀ header ∈ first, header.1.toLower = header.1)
    (hsecond : ∀ header ∈ second, header.1.toLower = header.1) (bodyText : String) :
    detectCaptchaSignal first bodyText = detectCaptchaSignal second bodyText := by
  have hlower : ∀ headers : Headers, (∀ header ∈ headers, header.1.toLower = header.1) →
      headers.any (fun header =>
        startsWith header.1.toLower "cf-chl-" || header.1.toLower == "cf-mitigated") =
      headers.any fun header => startsWith header.1 "cf-chl-" || header.1 == "cf-mitigated" := by
    intro headers hheaders
    rw [Bool.eq_iff_iff, List.any_eq_true, List.any_eq_true]
    refine exists_congr fun header => and_congr_right fun hheader => ?_
    rw [hheaders header hheader]
  rw [detectCaptchaSignal, detectCaptchaSignal, hlower first hfirst, hlower second hsecond,
    @any_congr first second (fun name => startsWith name "cf-chl-" || name == "cf-mitigated")]
  intro name htest
  refine hget name ?_
  rw [isPicked, Bool.or_eq_true]
  rcases Bool.or_eq_true_iff.mp htest with hstart | hname
  · exact .inr hstart
  · rw [eq_of_beq hname]
    exact .inl (by decide)

/-- Two responses are classified alike where they agree on what is looked at. -/
theorem handleTerminalResponse_congr {first second : HttpResponse}
    (hstatus : first.status = second.status)
    (hget : ∀ name, isPicked name = true → first.headers.get name = second.headers.get name)
    (hfirst : ∀ header ∈ first.headers, header.1.toLower = header.1)
    (hsecond : ∀ header ∈ second.headers, header.1.toLower = header.1)
    (hread : readsBody first.status = true →
      readBodyWithLimit tools first limits.maxBytes = readBodyWithLimit tools second limits.maxBytes) :
    handleTerminalResponse tools now first finalUrl req limits =
      handleTerminalResponse tools now second finalUrl req limits := by
  have htype := hget "content-type" (by decide)
  have hetag := hget "etag" (by decide)
  have hmodified := hget "last-modified" (by decide)
  have hretry := hget "retry-after" (by decide)
  have hforbidden : first.status = 403 →
      handleForbidden tools first limits = handleForbidden tools second limits := by
    intro h403
    simp only [handleForbidden, hread (by simp [readsBody, h403]), hstatus,
      captcha_congr hget hfirst hsecond]
  have hsuccess : 200 ≤ first.status ∧ first.status < 300 →
      handleSuccess tools first finalUrl req limits =
        handleSuccess tools second finalUrl req limits := by
    intro h2xx
    simp only [handleSuccess, hread (by simp [readsBody, h2xx]), hstatus, htype, hetag, hmodified]
  rw [hstatus] at hforbidden hsuccess
  simp only [handleTerminalResponse, hstatus, htype, hetag, hmodified, hretry]
  split_ifs with _ _ h403 _ _ _ h2xx
  · rfl
  · rfl
  · exact hforbidden h403
  · rfl
  · rfl
  · rfl
  · exact hsuccess h2xx
  · rfl

/-! ## Reading the body -/

private theorem readChunks_whole {maxBytes : Nat} (chunks : List (List UInt8)) {combined : List UInt8}
    (h : combined.length ≤ maxBytes) :
    readChunks maxBytes none chunks combined =
      .ok (if maxBytes < (combined ++ chunks.flatten).length then ⟨none, true⟩
        else ⟨some (combined ++ chunks.flatten), false⟩) := by
  induction chunks generalizing combined with
  | nil => simp [readChunks, h]
  | cons chunk chunks ih =>
      rw [readChunks, List.flatten_cons]
      by_cases hlong : maxBytes < combined.length + chunk.length
      · have hlonger : maxBytes < (combined ++ (chunk ++ chunks.flatten)).length := by
          simp only [List.length_append]
          omega
        rw [if_pos hlong, if_pos hlonger]
      · rw [if_neg hlong, ih (by rw [List.length_append]; omega), List.append_assoc]

/-- What is read of a response says how long its body is, however it arrives. -/
theorem SameAnswer.read {direct : HttpResponse} {status : Nat} {headers : Headers}
    {whole : List UInt8} (h : SameAnswer tools direct status headers whole) (maxBytes : Nat) :
    readBodyWithLimit tools direct maxBytes =
      .ok (if maxBytes < whole.length then ⟨none, true⟩ else ⟨some whole, false⟩) := by
  have hbody := h.body
  have hcomplete := h.complete
  rw [readBodyWithLimit]
  split
  · next hdeclared =>
      rw [Option.any_eq_true] at hdeclared
      obtain ⟨n, hn, hlong⟩ := hdeclared
      rw [if_pos (lt_of_lt_of_le (of_decide_eq_true hlong) (h.declared n hn))]
  · cases hstream : direct.body with
    | none =>
        have hempty : whole = [] := by
          rw [← hbody, hstream]
          rfl
        rw [hempty, List.length_nil, if_neg (Nat.not_lt_zero _)]
    | some stream =>
        rw [hstream] at hbody hcomplete
        have hread := readChunks_whole stream.chunks (show ([] : List UInt8).length ≤ maxBytes by simp)
        rw [List.nil_append, ← hcomplete stream rfl] at hread
        rw [← hbody]
        exact hread

/-! ## Both paths -/

section Paths

variable {names : ExecutorNames} {finalUrlGuard : Option (Url → SsrfCheckResult)}
  {status : Nat} {contentType : Option String} {headers : StringRecord String}
  {whole : List UInt8} {direct : HttpResponse}

private theorem no_declared_length (hpicked : ∀ header ∈ headers.entries, isPicked header.1 = true) :
    Headers.get headers.entries "content-length" = none := by
  have hnot : ¬ (Headers.get headers.entries "content-length").isSome = true := by
    rw [get_isSome_iff, List.mem_map]
    rintro ⟨header, hheader, heq⟩
    have htest := hpicked header hheader
    rw [heq] at htest
    exact absurd htest (by decide +kernel)
  exact Option.not_isSome_iff_eq_none.mp hnot

private theorem lower_of_parsed (h : Parsed tools headers) :
    ∀ header ∈ headers.entries, header.1.toLower = header.1 := by
  intro header hheader
  have hkept := h header hheader
  simp only [keptHeader?] at hkept
  split at hkept
  · exact congrArg Prod.fst (Option.some.inj hkept)
  · exact absurd hkept (by simp)

/-- The body an executor's response gets, unless it is one of a status that has none. -/
private theorem synthetic_sameAnswer (payload : ResponsePayload)
    (hheaders : syntheticHeaders tools payload.headers = headers.entries) (hparsed : Parsed tools headers)
    (hpicked : ∀ header ∈ headers.entries, isPicked header.1 = true) :
    SameAnswer tools (syntheticResponse tools payload whole) payload.status headers.entries
      (if isNullBodyStatus payload.status then [] else whole) where
  status := rfl
  get _ _ := congrArg (Headers.get · _) hheaders
  lower := by
    change ∀ header ∈ syntheticHeaders tools payload.headers, _
    rw [hheaders]
    exact lower_of_parsed hparsed
  complete := by
    intro stream hstream
    simp only [syntheticResponse] at hstream
    split at hstream
    · exact absurd hstream (by simp)
    · rw [← Option.some.inj hstream]
  body := by
    cases hnull : isNullBodyStatus payload.status with
    | true => simp [syntheticResponse, hnull]
    | false =>
        cases whole with
        | nil => simp [syntheticResponse, hnull]
        | cons byte bytes => simp [syntheticResponse, hnull]
  declared := by
    intro n hn
    change ((syntheticHeaders tools payload.headers).get "content-length").bind tools.number = some n at hn
    rw [hheaders, no_declared_length hpicked] at hn
    exact absurd hn (by simp)

variable (hall : req.allowedContentTypes = [])

include hall

private theorem direct_tooLarge (hdirect : SameAnswer tools direct status headers.entries whole)
    (hreads : readsBody status = true) (hlong : limits.maxBytes < whole.length) :
    handleTerminalResponse tools now direct finalUrl req limits = .ok (tooLarge status limits) := by
  have hread := hdirect.read limits.maxBytes
  rw [if_pos hlong] at hread
  have hforbidden : handleForbidden tools direct limits = .ok (tooLarge status limits) := by
    rw [handleForbidden, hread, hdirect.status]
    rfl
  have hsuccess : handleSuccess tools direct finalUrl req limits = .ok (tooLarge status limits) := by
    rw [handleSuccess, hread, hall, hdirect.status]
    rfl
  simp only [readsBody, Bool.or_eq_true, Bool.and_eq_true, decide_eq_true_eq, beq_iff_eq] at hreads
  simp only [handleTerminalResponse, hdirect.status, hforbidden, hsuccess]
  split_ifs
  all_goals first | rfl | omega

private theorem success_of_read {response : HttpResponse} {named : Headers} {body : List UInt8}
    (h : SameAnswer tools response status named body) (h2xx : 200 ≤ status ∧ status < 300)
    (hfits : body.length ≤ limits.maxBytes) :
    handleTerminalResponse tools now response finalUrl req limits =
      .ok (.success status false finalUrl (response.headers.get "content-type")
        (response.headers.get "etag") (response.headers.get "last-modified") (some body)) := by
  have hread := h.read limits.maxBytes
  rw [if_neg (not_lt.mpr hfits)] at hread
  have hsuccess : handleSuccess tools response finalUrl req limits =
      .ok (.success status false finalUrl (response.headers.get "content-type")
        (response.headers.get "etag") (response.headers.get "last-modified") (some body)) := by
    rw [handleSuccess, hread, hall, h.status]
    rfl
  simp only [handleTerminalResponse, h.status, hsuccess]
  split_ifs
  all_goals first | rfl | omega

/-- The response of the executor, once its body is decoded. -/
private theorem synthetic_eq_iff (payload : ResponsePayload)
    (hheaders : syntheticHeaders tools payload.headers = headers.entries) (hparsed : Parsed tools headers)
    (hpicked : ∀ header ∈ headers.entries, isPicked header.1 = true)
    (hdirect : SameAnswer tools direct payload.status headers.entries whole)
    (hfits : readsBody payload.status = true → whole.length ≤ limits.maxBytes) :
    handleTerminalResponse tools now
          (syntheticResponse tools payload (whole.take limits.maxBytes)) finalUrl req limits =
        handleTerminalResponse tools now direct finalUrl req limits ↔
      ¬ ((payload.status = 204 ∨ payload.status = 205) ∧ whole ≠ []) := by
  have hsynthetic := @synthetic_sameAnswer tools headers (whole.take limits.maxBytes) payload hheaders
    hparsed hpicked
  have hget : ∀ name, isPicked name = true →
      (syntheticResponse tools payload (whole.take limits.maxBytes)).headers.get name =
        direct.headers.get name :=
    fun name hname => (hsynthetic.get name hname).trans (hdirect.get name hname).symm
  have hagree : (readsBody payload.status = true →
      (if isNullBodyStatus payload.status then [] else whole.take limits.maxBytes) = whole) →
      handleTerminalResponse tools now
          (syntheticResponse tools payload (whole.take limits.maxBytes)) finalUrl req limits =
        handleTerminalResponse tools now direct finalUrl req limits := by
    intro hsame
    refine handleTerminalResponse_congr (hsynthetic.status.trans hdirect.status.symm) hget
      hsynthetic.lower hdirect.lower fun hreads => ?_
    rw [hsynthetic.read, hdirect.read, hsame hreads]
  by_cases hnull : payload.status = 204 ∨ payload.status = 205
  · have hnobody : isNullBodyStatus payload.status = true := by
      rcases hnull with h | h <;> simp [isNullBodyStatus, h]
    have h2xx : 200 ≤ payload.status ∧ payload.status < 300 := by omega
    have hreads : readsBody payload.status = true := by simp [readsBody, h2xx]
    rw [hnobody, if_pos rfl] at hsynthetic hagree
    by_cases hempty : whole = []
    · exact iff_of_true (hagree fun _ => hempty.symm) fun h => h.2 hempty
    · refine iff_of_false ?_ fun h => h ⟨hnull, hempty⟩
      rw [success_of_read hall hsynthetic h2xx (Nat.zero_le _),
        success_of_read hall hdirect h2xx (hfits hreads)]
      intro heq
      simp only [Except.ok.injEq, HttpOutcome.success.injEq, Option.some.injEq] at heq
      exact hempty heq.2.2.2.2.2.2.symm
  · refine iff_of_true (hagree fun hreads => ?_) fun h => hnull h.1
    have hbody : isNullBodyStatus payload.status = false := by
      simp only [readsBody, Bool.or_eq_true, Bool.and_eq_true, decide_eq_true_eq, beq_iff_eq]
        at hreads
      simp only [isNullBodyStatus, Bool.or_eq_false_iff, beq_eq_false_iff_ne]
      omega
    rw [hbody, if_neg Bool.false_ne_true, List.take_of_length_le (hfits hreads)]

/-- A response that an executor has cut at the limit is taken for what the server's own would be, but
for a status that no `Response` has and for the body of a status that has none. -/
theorem outcomeFromExecutorPayload_eq_iff {truncated : Bool} (durationMs : Int)
    (hguard : ∀ guard ∈ finalUrlGuard, (guard finalUrl).allowed = true) (hparsed : Parsed tools headers)
    (hpicked : ∀ header ∈ headers.entries, isPicked header.1 = true)
    (htruncated : truncated = true ↔ limits.maxBytes < whole.length)
    (hdirect : SameAnswer tools direct status headers.entries whole) :
    outcomeFromExecutorPayload tools now req limits names finalUrlGuard
          (JobResult.response status finalUrl contentType headers
            (base64Text (whole.take limits.maxBytes)) truncated durationMs).members =
        handleTerminalResponse tools now direct finalUrl req limits ↔
      (200 ≤ status ∧ status ≤ 599) ∧
        ¬ ((status = 204 ∨ status = 205) ∧ whole ≠ [] ∧ whole.length ≤ limits.maxBytes) := by
  simp only [outcomeFromExecutorPayload, kind_response, responsePayload?_members, Option.some.injEq,
    ne_eq, not_true_eq_false, if_false]
  rw [if_neg (by decide : ¬ "response" = "error")]
  by_cases hrange : 200 ≤ status ∧ status ≤ 599
  · rw [if_pos hrange]
    have hallowed : (finalUrlGuard.bind fun guard =>
        if (guard finalUrl).allowed then none else some (guard finalUrl)) = none := by
      cases hcase : finalUrlGuard with
      | none => rfl
      | some guard => simp [hguard guard (by simp [hcase])]
    simp only [outcomeFromResponse, hallowed, decode?_base64Text]
    by_cases hlong : truncated = true ∧ readsBody status = true
    · rw [if_pos (by simp [hlong]), direct_tooLarge hall hdirect hlong.2 (htruncated.mp hlong.1)]
      have hlonger := htruncated.mp hlong.1
      exact iff_of_true rfl ⟨hrange, fun h => absurd h.2.2 (not_le.mpr hlonger)⟩
    · rw [if_neg (by simpa using hlong)]
      have hfits : readsBody status = true → whole.length ≤ limits.maxBytes := by
        intro hreads
        by_contra hnot
        exact hlong ⟨htruncated.mpr (not_le.mp hnot), hreads⟩
      rw [synthetic_eq_iff hall ⟨status, finalUrl, headersJson headers,
        base64Text (whole.take limits.maxBytes), truncated⟩ (syntheticHeaders_eq hparsed) hparsed
        hpicked hdirect hfits]
      constructor
      · intro h
        exact ⟨hrange, fun hbodyless => h ⟨hbodyless.1, hbodyless.2.1⟩⟩
      · rintro ⟨-, h⟩ hbodyless
        have hnull : status = 204 ∨ status = 205 := hbodyless.1
        refine h ⟨hnull, hbodyless.2, hfits ?_⟩
        rcases hnull with h204 | h205
        · simp [readsBody, h204]
        · simp [readsBody, h205]
  · rw [if_neg hrange]
    refine iff_of_false ?_ fun h => hrange h.1
    have hunexpected : handleTerminalResponse tools now direct finalUrl req limits =
        .ok (.failure .networkError (some status) ("unexpected status " ++ toString status) none) := by
      simp only [handleTerminalResponse, hdirect.status]
      split_ifs
      all_goals first | rfl | omega
    rw [hunexpected]
    simp [internalError]

end Paths

end Classifier

/-! ## The executor of the Worker's limits -/

section Executor

variable {node : NodeTools} {options : FetchServiceOptions} {upstream : Upstream} {input : FetchInput}
  {fetched : FetchResult} {tools : HttpTools} {limits : FetchLimits}

theorem isPicked_of_pick (raw : IncomingHttpHeaders) :
    ∀ header ∈ (pickResponseHeaders raw).entries, isPicked header.1 = true := by
  intro header hheader
  obtain ⟨entry, -, hentry⟩ := List.mem_filterMap.mp hheader
  rw [Option.map_eq_some_iff] at hentry
  obtain ⟨value, hvalue, rfl⟩ := hentry
  simp only at hvalue
  split at hvalue
  · split at hvalue
    · next hpicked => exact hpicked
    · exact absurd hvalue (by simp)
  · exact absurd hvalue (by simp)

private theorem fetchTarget_confined : Confined node options upstream
    (min input.maxBytes options.maxBytesCap) options.maxRedirects
      (fetchTarget node options upstream input) := by
  unfold fetchTarget
  split
  · exact ⟨by simp, by simp, by simp⟩
  · split
    · exact ⟨by simp, by simp, by simp⟩
    · exact fetchHops_confined (le_refl _)

/-- What an executor fetches is what the server has answered on the last connection.  Any response
that says the same is classified as the executor's is, but for a status that no `Response` has and
for the body of a status that has none. -/
theorem executorPath_eq_iff (now : Nat) (names : ExecutorNames) (req : FetchRequest)
    (hfetched : (fetchTarget node options upstream input).outcome = .ok fetched)
    (hlimit : input.maxBytes = limits.maxBytes) (hcap : limits.maxBytes ≤ options.maxBytesCap)
    (hparsed : Parsed tools fetched.headers) (hall : req.allowedContentTypes = []) :
    ∃ hop connection raw stream,
      (fetchTarget node options upstream input).connections[hop]? = some connection ∧
        hop + 1 = (fetchTarget node options upstream input).connections.length ∧
        upstream.exchange hop connection = .answered fetched.status raw stream ∧
        ∀ direct, SameAnswer tools direct fetched.status (pickResponseHeaders raw).entries
            (decodedBody node raw stream).chunks.flatten →
          ∀ durationMs, (outcomeFromExecutorPayload tools now req limits names none
                (JobResult.response fetched.status fetched.url fetched.contentType fetched.headers
                  (base64Text fetched.body) fetched.truncated durationMs).members =
              handleTerminalResponse tools now direct fetched.url req limits ↔
            (200 ≤ fetched.status ∧ fetched.status ≤ 599) ∧
              ¬ ((fetched.status = 204 ∨ fetched.status = 205) ∧
                (decodedBody node raw stream).chunks.flatten ≠ [] ∧
                  (decodedBody node raw stream).chunks.flatten.length ≤ limits.maxBytes)) := by
  have hmin : min input.maxBytes options.maxBytesCap = limits.maxBytes := by
    rw [hlimit]
    exact min_eq_left hcap
  have hconfined : Confined node options upstream limits.maxBytes options.maxRedirects
      (fetchTarget node options upstream input) := by
    rw [← hmin]
    exact fetchTarget_confined
  obtain ⟨k, connection, hk, hlast, hanswer⟩ := hconfined.answer fetched hfetched
  rw [Nat.sub_self, Nat.zero_add] at hanswer
  obtain ⟨raw, stream, hexchange, hheaders, hbody, htruncated⟩ := hanswer.answer
  refine ⟨k, connection, raw, stream, hk, hlast, hexchange, fun direct hdirect durationMs => ?_⟩
  rw [hheaders] at hparsed ⊢
  rw [hbody]
  exact outcomeFromExecutorPayload_eq_iff hall durationMs (by simp) hparsed (isPicked_of_pick raw)
    htruncated hdirect

end Executor

/-! ## A page of one byte -/

def onePage : Upstream where
  resolve _ _ := .addresses [⟨"93.184.216.34", 4⟩]
  exchange _ _ := .answered 200 ⟨[("content-type", .one "text/html")], by decide⟩ ⟨[[], [60]], none⟩

def onePageFetched : FetchResult where
  status := 200
  url := "https://example.com/"
  contentType := some "text/html"
  headers := ⟨[("content-type", "text/html")], by decide⟩
  body := [60]
  truncated := false

theorem fetchTarget_onePage (headers : List (String × String)) :
    (fetchTarget HomeRunner.sampleNode HomeRunner.sampleOptions onePage
      ⟨"https://example.com/", DEFAULT_FETCH_LIMITS.maxBytes, headers⟩).outcome =
        .ok onePageFetched := by
  have hbare : bareHostname HomeRunner.samplePage = "example.com" := by decide +kernel
  have hhost : isBlockedHostname "example.com" = false := by decide +kernel
  have hvet : vet HomeRunner.sampleNode HomeRunner.sampleOptions onePage 0 HomeRunner.samplePage =
      .ok ⟨"93.184.216.34", 4⟩ := by
    simp only [vet, hbare, hhost]
    rfl
  have hredirects : HomeRunner.sampleOptions.maxRedirects - HomeRunner.sampleOptions.maxRedirects = 0 :=
    rfl
  have hdecoder : responseDecoder (headerText (StringRecord.get
      (⟨[("content-type", .one "text/html")], by decide⟩ : IncomingHttpHeaders)
        "content-encoding")) = none := by
    decide +kernel
  have hlimit : min DEFAULT_FETCH_LIMITS.maxBytes HomeRunner.sampleOptions.maxBytesCap = 5242880 := rfl
  have hhop (connection : Connection) :
      hop HomeRunner.sampleNode onePage 0 connection 5242880 =
        .ok ⟨200, ⟨[("content-type", .one "text/html")], by decide⟩, [60], false⟩ := by
    have hredirect : isRedirectStatus 200 = false := by decide
    simp [hop, onePage, hredirect, hdecoder, collectChunks]
  have hpage : HomeRunner.sampleNode.newUrl "https://example.com/" = some HomeRunner.samplePage := rfl
  have hshort : ¬ MAX_URL_LENGTH < utf16Length "https://example.com/".toList := by decide +kernel
  rw [fetchTarget, if_neg hshort, hpage]
  simp only [hlimit]
  rw [fetchHops, hredirects, hvet]
  simp only [hhop]
  rfl

/-- The same page as a direct fetch meets it. -/
def onePageDirect : HttpResponse where
  status := 200
  headers := [("content-type", "text/html"), ("content-length", "1")]
  body := some ⟨[[60], []], none⟩

/-- The only number read is the declared length. -/
def onePageTools : HttpTools :=
  ⟨fun _ => "<", fun text => if text = "1" then some 1 else none, fun _ => none, false⟩

theorem onePage_sameAnswer :
    SameAnswer onePageTools onePageDirect 200 [("content-type", "text/html")] [60] where
  status := rfl
  get name hname := by
    have hne : "content-length" ≠ name := by
      rintro rfl
      exact absurd hname (by decide +kernel)
    simp [Headers.get, onePageDirect, List.filter_cons, hne]
  lower := by
    intro header hheader
    rcases List.mem_cons.mp hheader with rfl | hheader
    · decide +kernel
    · rw [List.mem_singleton.mp hheader]
      decide +kernel
  complete stream hstream := by rw [← Option.some.inj hstream]
  body := rfl
  declared n hn := by
    have hone : (onePageDirect.headers.get "content-length").bind onePageTools.number = some 1 := by
      decide +kernel
    rw [hone] at hn
    exact (Option.some.inj hn).ge

theorem onePage_parsed : Parsed onePageTools onePageFetched.headers := by
  intro header hheader
  obtain rfl := List.mem_singleton.mp hheader
  decide +kernel

theorem onePage_decoded : decodedBody HomeRunner.sampleNode
    ⟨[("content-type", .one "text/html")], by decide⟩ ⟨[[], [60]], none⟩ = ⟨[[], [60]], none⟩ := by
  have hdecoder : responseDecoder (headerText (StringRecord.get
      (⟨[("content-type", .one "text/html")], by decide⟩ : IncomingHttpHeaders)
        "content-encoding")) = none := by
    decide +kernel
  rw [decodedBody, hdecoder]
  rfl

end Utsuroi

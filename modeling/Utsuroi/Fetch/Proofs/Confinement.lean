import Utsuroi.Fetch.Proofs.Transport

/-!
# What a fetch may request and read

Each URL is checked right before it is requested, and the loop over the redirects ends.  Of a body
no more than `maxBytes` is returned.
-/

namespace Utsuroi

/-! ## The order of checks and requests -/

inductive FetchEvent
  | checked (url : Url) (result : SsrfCheckResult)
  | requested (url : Url)

def FetchEvent.request? : FetchEvent → Option Url
  | .checked _ _ => none
  | .requested url => some url

section Fetch

variable (net : NetTools) (tools : HttpTools) (now : Nat) (servers : Servers)
  (guard : Url → SsrfCheckResult) (req : FetchRequest) (limits : FetchLimits)

/-- What the loop of `httpFetch` under a guard does, in its order. -/
def followEvents : Nat → Url → List FetchEvent
  | left, currentUrl =>
    match guardRefusal (some guard) currentUrl with
    | some _ => [.checked currentUrl (guard currentUrl)]
    | none =>
      let events := [.checked currentUrl (guard currentUrl), .requested currentUrl]
      match servers (limits.maxRedirects - left) currentUrl with
      | .error _ => events
      | .ok response =>
        if isRedirectStatus response.status then
          match redirectTarget net limits left currentUrl response with
          | .error _ => events
          | .ok url =>
            match left with
            | 0 => events
            | left + 1 => events ++ followEvents left url
        else events

/-- What `httpFetch` does under a guard: nothing where its headers are not taken. -/
def fetchEvents : List FetchEvent :=
  match buildRequestHeaders tools req with
  | none => []
  | some _ => followEvents net servers guard limits limits.maxRedirects req.url

/-- Each request stands right behind a check of its URL that has passed. -/
inductive GuardedEvents : List FetchEvent → Prop
  | ended : GuardedEvents []
  | refused (url : Url) : (guard url).allowed = false → GuardedEvents [.checked url (guard url)]
  | requested (url : Url) (rest : List FetchEvent) : (guard url).allowed = true → GuardedEvents rest →
      GuardedEvents (.checked url (guard url) :: .requested url :: rest)

variable {net servers guard limits}

private theorem guardRefusal_none {url : Url} (h : guardRefusal (some guard) url = none) :
    (guard url).allowed = true := by
  by_contra hnot
  simp [guardRefusal, hnot] at h

private theorem guardRefusal_some {url : Url} {refusal : HttpOutcome}
    (h : guardRefusal (some guard) url = some refusal) : (guard url).allowed = false := by
  by_contra hallowed
  simp [guardRefusal, hallowed] at h

theorem followEvents_guarded (left : Nat) (url : Url) :
    GuardedEvents guard (followEvents net servers guard limits left url) := by
  fun_induction followEvents net servers guard limits left url with
  | case1 left url refusal hrefusal => exact .refused url (guardRefusal_some hrefusal)
  | case2 left url hguard => exact .requested url [] (guardRefusal_none hguard) .ended
  | case3 left url hguard => exact .requested url [] (guardRefusal_none hguard) .ended
  | case4 url hguard => exact .requested url [] (guardRefusal_none hguard) .ended
  | case5 url hguard events response hredirect next left hanswer htarget ih =>
      exact .requested url _ (guardRefusal_none hguard) ih
  | case6 left url hguard => exact .requested url [] (guardRefusal_none hguard) .ended

/-- The requests are those of the fetch itself. -/
theorem followEvents_requests (left : Nat) (url : Url) :
    (followEvents net servers guard limits left url).filterMap FetchEvent.request? =
      (followRedirects net tools now servers (some guard) req limits left url).requests := by
  fun_induction followRedirects net tools now servers (some guard) req limits left url with
  | case1 left url refusal hrefusal =>
      rw [followEvents]
      simp only [hrefusal]
      rfl
  | case2 left url hguard err hanswer =>
      rw [followEvents]
      simp only [hguard, hanswer]
      rfl
  | case3 left url hguard response hanswer hredirect outcome htarget =>
      rw [followEvents]
      simp only [hguard, hanswer, hredirect, htarget, if_true]
      rfl
  | case4 url hguard response hredirect next hanswer htarget =>
      rw [followEvents]
      simp only [hguard, hanswer, hredirect, htarget, if_true]
      rfl
  | case5 url hguard response hredirect next left run hanswer htarget ih =>
      rw [followEvents]
      simp only [hguard, hanswer, hredirect, htarget, if_true]
      rw [List.filterMap_append, ih]
      rfl
  | case6 left url hguard response hanswer hend =>
      rw [followEvents]
      simp only [hguard, hanswer, hend]
      rfl

theorem followRedirects_bounded {urlGuard : Option (Url → SsrfCheckResult)} (left : Nat) (url : Url) :
    (followRedirects net tools now servers urlGuard req limits left url).requests.length ≤
      left + 1 := by
  fun_induction followRedirects net tools now servers urlGuard req limits left url with
  | case1 => simp
  | case2 => simp
  | case3 => simp
  | case4 => simp
  | case5 url hguard response hredirect next left run hanswer htarget ih =>
      exact Nat.succ_le_succ ih
  | case6 => simp

variable {tools now req}

theorem fetchEvents_guarded : GuardedEvents guard (fetchEvents net tools servers guard req limits) := by
  unfold fetchEvents
  cases buildRequestHeaders tools req with
  | none => exact .ended
  | some headers => exact followEvents_guarded _ _

theorem fetchEvents_requests :
    (fetchEvents net tools servers guard req limits).filterMap FetchEvent.request? =
      (httpFetch net tools now servers (some guard) req limits).requests := by
  unfold fetchEvents httpFetch
  cases buildRequestHeaders tools req with
  | none => rfl
  | some headers => exact followEvents_requests tools now req _ _

theorem httpFetch_bounded {urlGuard : Option (Url → SsrfCheckResult)} :
    (httpFetch net tools now servers urlGuard req limits).requests.length ≤
      limits.maxRedirects + 1 := by
  unfold httpFetch
  cases buildRequestHeaders tools req with
  | none => exact Nat.zero_le _
  | some headers => exact followRedirects_bounded tools now req _ _

end Fetch

/-! ## The limit of a body -/

/-- How many bytes come before the body ends or breaks off. -/
def bodyLength (response : HttpResponse) : Nat :=
  response.body.elim 0 fun stream => (stream.chunks.map List.length).sum

theorem readChunks_ok {maxBytes : Nat} {failure : Option NetworkError} {chunks : List (List UInt8)}
    {combined : List UInt8} {result : BoundedBodyResult} (hcombined : combined.length ≤ maxBytes)
    (h : readChunks maxBytes failure chunks combined = .ok result) :
    (∀ body, result.body = some body → body.length ≤ maxBytes) ∧
      (result.tooLarge = true ↔ maxBytes < combined.length + (chunks.map List.length).sum) := by
  induction chunks generalizing combined with
  | nil =>
      cases failure with
      | some err => simp [readChunks] at h
      | none =>
          obtain rfl := Except.ok.inj h
          simp [hcombined]
  | cons chunk chunks ih =>
      rw [readChunks] at h
      split at h
      next hlarge =>
        obtain rfl := Except.ok.inj h
        simp only [List.map_cons, List.sum_cons, true_iff]
        refine ⟨by simp, by omega⟩
      next hfits =>
        have hmore := ih (by simp only [List.length_append]; omega) h
        simp only [List.length_append] at hmore
        simp only [List.map_cons, List.sum_cons]
        rw [← Nat.add_assoc]
        exact hmore

section Terminal

variable {tools : HttpTools} {maxBytes : Nat} {response : HttpResponse} {result : BoundedBodyResult}

theorem readBodyWithLimit_bounded (h : readBodyWithLimit tools response maxBytes = .ok result) :
    ∀ body, result.body = some body → body.length ≤ maxBytes := by
  unfold readBodyWithLimit at h
  split at h
  · obtain rfl := Except.ok.inj h
    simp
  · cases hbody : response.body with
    | none =>
        rw [hbody] at h
        obtain rfl := Except.ok.inj h
        simp
    | some stream =>
        rw [hbody] at h
        exact (readChunks_ok (Nat.zero_le _) h).1

/-- Where no length is declared the body alone decides. -/
theorem readBodyWithLimit_undeclared (hlength : response.headers.get "content-length" = none)
    (h : readBodyWithLimit tools response maxBytes = .ok result) :
    result.tooLarge = true ↔ maxBytes < bodyLength response := by
  unfold readBodyWithLimit at h
  simp only [hlength, Option.bind_none, Option.any_none, Bool.false_eq_true, if_false] at h
  unfold bodyLength
  cases hbody : response.body with
  | none =>
      rw [hbody] at h
      obtain rfl := Except.ok.inj h
      simp
  | some stream =>
      rw [hbody] at h
      simpa using (readChunks_ok (Nat.zero_le _) h).2

end Terminal

section Outcome

variable {tools : HttpTools} {req : FetchRequest} {limits : FetchLimits} {response : HttpResponse}
  {finalUrl : Url} {now : Nat}

private theorem handleSuccess_refused (h : typeAllowed req response = false) :
    ∃ message, handleSuccess tools response finalUrl req limits =
      .ok (.failure .invalidContentType (some response.status) message none) := by
  have hrefused : (!req.allowedContentTypes.isEmpty &&
      !((response.headers.get "content-type").any fun value =>
        value != "" && matchesAllowedContentType value req.allowedContentTypes)) = true := by
    rw [← Bool.not_or, Bool.not_eq_true']
    exact h
  unfold handleSuccess
  simp only [hrefused, if_true]
  exact ⟨_, rfl⟩

private theorem handleSuccess_allowed (h : typeAllowed req response = true) :
    handleSuccess tools response finalUrl req limits =
      (readBodyWithLimit tools response limits.maxBytes).map fun read =>
        if read.tooLarge then tooLarge response.status limits
        else .success response.status false finalUrl (response.headers.get "content-type")
          (response.headers.get "etag") (response.headers.get "last-modified") read.body := by
  have hread : (!req.allowedContentTypes.isEmpty &&
      !((response.headers.get "content-type").any fun value =>
        value != "" && matchesAllowedContentType value req.allowedContentTypes)) = false := by
    rw [← Bool.not_or, Bool.not_eq_false']
    exact h
  unfold handleSuccess
  simp only [hread, Bool.false_eq_true, if_false]
  cases readBodyWithLimit tools response limits.maxBytes with
  | error err => rfl
  | ok read =>
      cases hlarge : read.tooLarge with
      | false => simp [bind, Except.bind, Except.map, hlarge, pure, Except.pure]
      | true => simp [bind, Except.bind, Except.map, hlarge, pure, Except.pure]

/-- Which branch a status 2xx takes. -/
private theorem handleTerminalResponse_success (h : 200 ≤ response.status ∧ response.status < 300) :
    handleTerminalResponse tools now response finalUrl req limits =
      handleSuccess tools response finalUrl req limits := by
  have hunmodified : response.status ≠ 304 := by omega
  have hunauthorized : ¬(response.status = 401 ∨ response.status = 407) := by omega
  have hforbidden : response.status ≠ 403 := by omega
  have hfound : ¬(response.status = 404 ∨ response.status = 410) := by omega
  have hunlimited : response.status ≠ 429 := by omega
  have hserved : ¬(500 ≤ response.status ∧ response.status < 600) := by omega
  unfold handleTerminalResponse
  simp only [hunmodified, hunauthorized, hforbidden, hfound, hunlimited, hserved, h, if_false,
    and_self, if_true]

private theorem handleForbidden_no_success {status : Nat} {notModified : Bool} {url : Url}
    {contentType etag lastModified : Option String} {body : Option (List UInt8)} :
    handleForbidden tools response limits ≠
      .ok (.success status notModified url contentType etag lastModified body) := by
  unfold handleForbidden
  cases readBodyWithLimit tools response limits.maxBytes with
  | error err => simp [bind, Except.bind]
  | ok read =>
      simp only [bind, Except.bind]
      split
      · simp [pure, Except.pure, tooLarge]
      · split
        · simp [pure, Except.pure]
        · simp [pure, Except.pure]

theorem handleTerminalResponse_bounded {status : Nat} {notModified : Bool} {url : Url}
    {contentType etag lastModified : Option String} {body : List UInt8}
    (h : handleTerminalResponse tools now response finalUrl req limits =
      .ok (.success status notModified url contentType etag lastModified (some body))) :
    body.length ≤ limits.maxBytes := by
  by_cases hsuccess : 200 ≤ response.status ∧ response.status < 300
  · rw [handleTerminalResponse_success hsuccess] at h
    cases htype : typeAllowed req response with
    | false =>
        obtain ⟨message, hrefused⟩ := @handleSuccess_refused tools req limits response finalUrl htype
        rw [hrefused] at h
        simp at h
    | true =>
        rw [handleSuccess_allowed htype] at h
        cases hread : readBodyWithLimit tools response limits.maxBytes with
        | error err => simp [hread, Except.map] at h
        | ok read =>
            cases hlarge : read.tooLarge with
            | true => simp [hread, Except.map, hlarge, tooLarge] at h
            | false =>
                simp only [hread, Except.map, hlarge, Bool.false_eq_true, if_false, Except.ok.injEq,
                  HttpOutcome.success.injEq] at h
                exact readBodyWithLimit_bounded hread body h.2.2.2.2.2.2
  · unfold handleTerminalResponse at h
    simp only [hsuccess, if_false] at h
    split at h
    · simp at h
    · split at h
      · simp at h
      · split at h
        · exact absurd h handleForbidden_no_success
        · repeat' split at h
          all_goals simp at h

theorem handleTerminalResponse_tooLarge_iff (hsuccess : 200 ≤ response.status ∧ response.status < 300)
    (htype : typeAllowed req response = true)
    (hlength : response.headers.get "content-length" = none) :
    (∃ resolved, handleTerminalResponse tools now response finalUrl req limits = .ok resolved ∧
      resolved.failureClass = some .tooLarge) ↔ limits.maxBytes < bodyLength response := by
  rw [handleTerminalResponse_success hsuccess, handleSuccess_allowed htype]
  cases hread : readBodyWithLimit tools response limits.maxBytes with
  | error err =>
      -- What breaks off has not exceeded the limit before.
      have hbroken := readBodyWithLimit_error_iff.mp hread
      simp only [bodyError, hlength, Option.bind_none, Option.any_none, Bool.false_eq_true,
        if_false] at hbroken
      simp only [Except.map, reduceCtorEq, false_and, exists_false, false_iff, bodyLength]
      cases hbody : response.body with
      | none => simp
      | some stream =>
          simp only [hbody, Option.bind_some] at hbroken
          split at hbroken
          next hfits => simpa using hfits
          next => contradiction
  | ok read =>
      rw [← readBodyWithLimit_undeclared hlength hread]
      cases hlarge : read.tooLarge with
      | true => simp [Except.map, hlarge, tooLarge, HttpOutcome.failureClass]
      | false => simp [Except.map, hlarge, HttpOutcome.failureClass]

end Outcome

/-! ## Whole fetches -/

section Confined

variable {net : NetTools} {tools : HttpTools} {now : Nat} {servers : Servers}
  {urlGuard : Option (Url → SsrfCheckResult)} {req : FetchRequest} {limits : FetchLimits}

/-- The outcome returns no body beyond the limit. -/
def HttpOutcome.Within (limits : FetchLimits) (outcome : HttpOutcome) : Prop :=
  ∀ status notModified url contentType etag lastModified body,
    outcome = .success status notModified url contentType etag lastModified (some body) →
      body.length ≤ limits.maxBytes

private theorem within_failure {failureClass : FailureClass} {status : Option Nat} {message : String}
    {retryAfter : Option Nat} :
    HttpOutcome.Within limits (.failure failureClass status message retryAfter) := by
  simp [HttpOutcome.Within]

private theorem guardRefusal_within {url : Url} {refusal : HttpOutcome}
    (h : guardRefusal urlGuard url = some refusal) : refusal.Within limits := by
  unfold guardRefusal at h
  cases urlGuard with
  | none => simp at h
  | some guard =>
      simp only [Option.bind_some] at h
      split at h
      · contradiction
      · obtain rfl := Option.some.inj h
        exact within_failure

private theorem redirectTarget_within {left : Nat} {url : Url} {response : HttpResponse}
    {outcome : HttpOutcome} (h : redirectTarget net limits left url response = .error outcome) :
    outcome.Within limits := by
  unfold redirectTarget redirectTarget.missing at h
  repeat' split at h
  all_goals first
    | contradiction
    | (obtain rfl := Except.error.inj h
       exact within_failure)

private theorem classifyNetworkError_within {err : NetworkError} :
    (classifyNetworkError err).Within limits := by
  unfold classifyNetworkError
  split
  · exact within_failure
  · exact within_failure

theorem followRedirects_within (left : Nat) (url : Url) {outcome : HttpOutcome}
    (h : (followRedirects net tools now servers urlGuard req limits left url).outcome = .ok outcome) :
    outcome.Within limits := by
  fun_induction followRedirects net tools now servers urlGuard req limits left url with
  | case1 left url refusal hrefusal =>
      obtain rfl := Except.ok.inj h
      exact guardRefusal_within hrefusal
  | case2 left url hguard err hanswer =>
      obtain rfl := Except.ok.inj h
      exact classifyNetworkError_within
  | case3 left url hguard response hanswer hredirect failure htarget =>
      obtain rfl := Except.ok.inj h
      exact redirectTarget_within htarget
  | case4 url hguard response hredirect next hanswer htarget =>
      obtain rfl := Except.ok.inj h
      exact within_failure
  | case5 url hguard response hredirect next left run hanswer htarget ih => exact ih h
  | case6 left url hguard response hanswer hend =>
      intro status notModified finalUrl contentType etag lastModified body heq
      rw [heq] at h
      exact handleTerminalResponse_bounded h

theorem httpFetch_within {outcome : HttpOutcome}
    (h : (httpFetch net tools now servers urlGuard req limits).outcome = .ok outcome) :
    outcome.Within limits := by
  unfold httpFetch at h
  cases hheaders : buildRequestHeaders tools req with
  | none =>
      rw [hheaders] at h
      contradiction
  | some headers =>
      rw [hheaders] at h
      exact followRedirects_within _ _ h

end Confined

/-- Under a guard each request stands right behind a passed check of its URL, there are at most
`maxRedirects + 1`, and no body beyond the limit is returned.  The body of a status 2xx whose type
is allowed and whose length is not declared is too large exactly where it exceeds the limit. -/
theorem httpFetch_confined (net : NetTools) (tools : HttpTools) (now : Nat) (servers : Servers)
    (guard : Url → SsrfCheckResult) (req : FetchRequest) (limits : FetchLimits) :
    GuardedEvents guard (fetchEvents net tools servers guard req limits) ∧
    (fetchEvents net tools servers guard req limits).filterMap
        FetchEvent.request? = (httpFetch net tools now servers (some guard) req limits).requests ∧
    (httpFetch net tools now servers (some guard) req limits).requests.length ≤
      limits.maxRedirects + 1 ∧
    (∀ outcome, (httpFetch net tools now servers (some guard) req limits).outcome = .ok outcome →
      outcome.Within limits) ∧
    ∀ response,
      FetchEndsIn net servers (some guard) limits tools req (.ok response) →
      200 ≤ response.status → response.status < 300 → typeAllowed req response = true →
      response.headers.get "content-length" = none →
        ((∃ resolved, (httpFetch net tools now servers (some guard) req limits).outcome = .ok resolved ∧
          resolved.failureClass = some .tooLarge) ↔ limits.maxBytes < bodyLength response) := by
  refine ⟨fetchEvents_guarded, fetchEvents_requests, httpFetch_bounded,
    fun outcome h => httpFetch_within h, ?_⟩
  rintro response ⟨hsendable, hends⟩ hlow hhigh htype hlength
  rw [httpFetch_sendable hsendable]
  rcases @followRedirects_ends net servers (some guard) limits tools req now limits.maxRedirects
      req.url with ⟨answer, finalUrl, hends', houtcome⟩ | ⟨hnone, -⟩
  · cases hends'.unique hends
    rw [houtcome]
    exact handleTerminalResponse_tooLarge_iff ⟨hlow, hhigh⟩ htype hlength
  · exact absurd hends (hnone _)

private def imagePage : HttpResponse := ⟨200, [("content-type", "image/png")], some ⟨[[1], [2]], none⟩⟩

private def imageRequest : FetchRequest :=
  { url := "https://example.com/a.png", userAgent := "utsuroi", allowedContentTypes := ["text/html"] }

/-- The type is looked at before the length. -/
theorem httpFetch_typeBeforeLength :
    imagePage.headers.get "content-length" = none ∧ 1 < bodyLength imagePage ∧
      (httpFetch ⟨fun _ => none, fun _ _ => none, fun _ => none, by simp, by simp⟩
        ⟨fun _ => "", fun _ => none, fun _ => none, false⟩ 0 (fun _ _ => .ok imagePage)
        (some fun _ => allow) imageRequest ⟨1, 5⟩).outcome =
          .ok (.failure .invalidContentType (some 200)
            "content-type 'image/png' not in allowed list" none) := by
  refine ⟨by decide, by decide, by decide +kernel⟩

end Utsuroi

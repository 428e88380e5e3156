import Utsuroi.Fetch.Http

/-!
# Transport errors of a fetch

A request may be rejected, and the body of the last response may break off while it is read.
-/

namespace Utsuroi

/-! ## Bodies that break off -/

/-- The error that ends reading a body, if one does: the body is not refused by its declared length,
and what comes before the error is within the limit. -/
def bodyError (tools : HttpTools) (maxBytes : Nat) (response : HttpResponse) : Option NetworkError :=
  if ((response.headers.get "content-length").bind tools.number).any fun declared =>
      decide (maxBytes < declared) then
    none
  else
    response.body.bind fun stream =>
      if (stream.chunks.map List.length).sum ≤ maxBytes then stream.failure else none

def typeAllowed (req : FetchRequest) (response : HttpResponse) : Bool :=
  req.allowedContentTypes.isEmpty || (response.headers.get "content-type").any fun value =>
    value != "" && matchesAllowedContentType value req.allowedContentTypes

/-- The body of such a response is read. -/
def ReadsBody (req : FetchRequest) (response : HttpResponse) : Prop :=
  response.status = 403 ∨
    (200 ≤ response.status ∧ response.status < 300) ∧ typeAllowed req response = true

theorem readChunks_error_iff {maxBytes : Nat} {failure : Option NetworkError}
    {chunks : List (List UInt8)} {combined : List UInt8} {err : NetworkError}
    (hcombined : combined.length ≤ maxBytes) :
    readChunks maxBytes failure chunks combined = .error err ↔
      failure = some err ∧ combined.length + (chunks.map List.length).sum ≤ maxBytes := by
  induction chunks generalizing combined with
  | nil => cases failure <;> simp [readChunks, hcombined]
  | cons chunk chunks ih =>
    rw [readChunks, List.map_cons, List.sum_cons]
    split
    next hlarge =>
      simp only [reduceCtorEq, false_iff]
      omega
    next hfits =>
      have hlength : (combined ++ chunk).length = combined.length + chunk.length := List.length_append
      rw [ih (by omega), hlength, Nat.add_assoc]

section Terminal

variable {tools : HttpTools} {req : FetchRequest} {limits : FetchLimits} {response : HttpResponse}
  {finalUrl : Url} {now : Nat} {err : NetworkError}

theorem readBodyWithLimit_error_iff {maxBytes : Nat} :
    readBodyWithLimit tools response maxBytes = .error err ↔
      bodyError tools maxBytes response = some err := by
  unfold readBodyWithLimit bodyError
  split
  · simp
  · cases response.body with
    | none => simp
    | some stream =>
      simp only [Option.bind_some]
      rw [readChunks_error_iff (Nat.zero_le _), List.length_nil, Nat.zero_add]
      split
      next hfits => simp [hfits]
      next hlarge => simp [hlarge]

private theorem handleForbidden_error_iff :
    handleForbidden tools response limits = .error err ↔
      bodyError tools limits.maxBytes response = some err := by
  rw [← readBodyWithLimit_error_iff]
  unfold handleForbidden
  cases readBodyWithLimit tools response limits.maxBytes with
  | error err' => simp [bind, Except.bind]
  | ok read =>
    simp only [bind, Except.bind, reduceCtorEq, iff_false]
    split
    · simp [pure, Except.pure]
    · split <;> simp [pure, Except.pure]

private theorem handleSuccess_error_iff :
    handleSuccess tools response finalUrl req limits = .error err ↔
      typeAllowed req response = true ∧ bodyError tools limits.maxBytes response = some err := by
  have hrefused : (!req.allowedContentTypes.isEmpty &&
      !((response.headers.get "content-type").any fun value =>
        value != "" && matchesAllowedContentType value req.allowedContentTypes)) =
      !typeAllowed req response := (Bool.not_or _ _).symm
  rw [← readBodyWithLimit_error_iff]
  unfold handleSuccess
  simp only [hrefused]
  cases typeAllowed req response with
  | false => simp [pure, Except.pure]
  | true =>
    simp only [Bool.not_true, Bool.false_eq_true, if_false, true_and]
    cases readBodyWithLimit tools response limits.maxBytes with
    | error err' => simp [bind, Except.bind]
    | ok read =>
      simp only [bind, Except.bind, reduceCtorEq, iff_false]
      split <;> simp [pure, Except.pure]

/-- The classification of a response throws exactly where it reads a body that breaks off. -/
theorem handleTerminalResponse_error_iff :
    handleTerminalResponse tools now response finalUrl req limits = .error err ↔
      ReadsBody req response ∧ bodyError tools limits.maxBytes response = some err := by
  unfold handleTerminalResponse ReadsBody
  by_cases hforbidden : response.status = 403
  · simp only [hforbidden, Nat.reduceEqDiff, or_self, if_false, if_true, true_or, true_and]
    exact handleForbidden_error_iff
  by_cases hsuccess : 200 ≤ response.status ∧ response.status < 300
  · have hunmodified : response.status ≠ 304 := by omega
    have hunauthorized : ¬(response.status = 401 ∨ response.status = 407) := by omega
    have hfound : ¬(response.status = 404 ∨ response.status = 410) := by omega
    have hunlimited : response.status ≠ 429 := by omega
    have hserved : ¬(500 ≤ response.status ∧ response.status < 600) := by omega
    simp only [hunmodified, hunauthorized, hforbidden, hfound, hunlimited, hserved, hsuccess, if_false,
      false_or, and_self, if_true, true_and]
    exact handleSuccess_error_iff
  · simp only [hforbidden, hsuccess, false_and, or_self, iff_false, if_false]
    repeat' split
    all_goals simp

end Terminal

/-! ## Where the redirects end -/

section Fetch

variable (net : NetTools) (servers : Servers) (urlGuard : Option (Url → SsrfCheckResult))
  (limits : FetchLimits)

/-- With `left` redirects to go the fetch of a URL ends in this answer of a server, a rejection or a
response that is no redirect. -/
inductive EndsIn : Nat → Url → Except NetworkError HttpResponse → Prop
  | here {left : Nat} {url : Url} {answer : Except NetworkError HttpResponse}
    (hguard : guardRefusal urlGuard url = none)
    (hanswer : servers (limits.maxRedirects - left) url = answer)
    (hend : ∀ response, answer = .ok response → isRedirectStatus response.status = false) :
    EndsIn left url answer
  | redirected {left : Nat} {url next : Url} {response : HttpResponse}
    {answer : Except NetworkError HttpResponse} (hguard : guardRefusal urlGuard url = none)
    (hanswer : servers (limits.maxRedirects - (left + 1)) url = .ok response)
    (hredirect : isRedirectStatus response.status = true)
    (htarget : redirectTarget net limits (left + 1) url response = .ok next)
    (hnext : EndsIn left next answer) : EndsIn (left + 1) url answer

variable (tools : HttpTools) (req : FetchRequest)

/-- The answer is a transport error, at the request or in the body. -/
def FailsWith (answer : Except NetworkError HttpResponse) (err : NetworkError) : Prop :=
  answer = .error err ∨ ∃ response, answer = .ok response ∧ ReadsBody req response ∧
    bodyError tools limits.maxBytes response = some err

/-- Each header of the request is one that `Headers` takes. -/
def FetchRequest.Sendable : Prop :=
  ∀ entry ∈ req.headerEntries, (keptHeader? tools.latin1Headers entry.1 entry.2).isSome = true

/-- The fetch ends in this answer of a server. -/
def FetchEndsIn (answer : Except NetworkError HttpResponse) : Prop :=
  req.Sendable tools ∧ EndsIn net servers urlGuard limits limits.maxRedirects req.url answer

/-- The body that the fetch reads at the end breaks off. -/
def BodyBreaksOff : Prop :=
  ∃ response err, FetchEndsIn net servers urlGuard limits tools req (.ok response) ∧
    ReadsBody req response ∧ bodyError tools limits.maxBytes response = some err

/-- The signal of the total timeout makes the request and the read reject so. -/
def NetworkError.TimedOut (err : NetworkError) : Prop :=
  err.name = "AbortError" ∨ err.name = "TimeoutError"

def HttpOutcome.failureClass : HttpOutcome → Option FailureClass
  | .success .. => none
  | .failure failureClass .. => some failureClass

/-- The fetch resolves, and a transport error has its class. -/
def Classifies (outcome : Except NetworkError HttpOutcome) : Prop :=
  ∃ resolved, outcome = .ok resolved ∧
    ∀ answer err, FetchEndsIn net servers urlGuard limits tools req answer →
      FailsWith limits tools req answer err →
        (err.TimedOut → resolved.failureClass = some .timeout) ∧
          (¬err.TimedOut → resolved.failureClass = some .networkError)

/-- What the fetch makes of the answer it ends in. -/
def answerOutcome (now : Nat) (finalUrl : Url) :
    Except NetworkError HttpResponse → Except NetworkError HttpOutcome
  | .error err => .ok (classifyNetworkError err)
  | .ok response => handleTerminalResponse tools now response finalUrl req limits

section Ends

variable {net servers urlGuard limits tools req} {now left : Nat} {url : Url}
  {answer answer' : Except NetworkError HttpResponse} {err : NetworkError}

theorem EndsIn.unique (h : EndsIn net servers urlGuard limits left url answer)
    (h' : EndsIn net servers urlGuard limits left url answer') : answer = answer' := by
  induction h with
  | here hguard hanswer hend =>
    cases h' with
    | here _ hanswer' _ => exact hanswer.symm.trans hanswer'
    | redirected _ hanswer' hredirect =>
      exact absurd hredirect (ne_true_of_eq_false (hend _ (hanswer.symm.trans hanswer')))
  | redirected hguard hanswer hredirect htarget hnext ih =>
    cases h' with
    | here _ hanswer' hend' =>
      exact absurd hredirect (ne_true_of_eq_false (hend' _ (hanswer'.symm.trans hanswer)))
    | redirected _ hanswer' _ htarget' hnext' =>
      cases hanswer.symm.trans hanswer'
      cases htarget.symm.trans htarget'
      exact ih hnext'

private theorem not_endsIn_of_refusal {refusal : HttpOutcome}
    (h : guardRefusal urlGuard url = some refusal) :
    ¬EndsIn net servers urlGuard limits left url answer := by
  intro hends
  cases hends with
  | here hguard => cases hguard.symm.trans h
  | redirected hguard => cases hguard.symm.trans h

private theorem not_endsIn_of_stop {response : HttpResponse} {outcome : HttpOutcome}
    (hanswer : servers (limits.maxRedirects - left) url = .ok response)
    (hredirect : isRedirectStatus response.status = true)
    (hstop : redirectTarget net limits left url response = .error outcome) :
    ¬EndsIn net servers urlGuard limits left url answer := by
  intro hends
  cases hends with
  | here _ hanswer' hend =>
    exact absurd hredirect (ne_true_of_eq_false (hend _ (hanswer'.symm.trans hanswer)))
  | redirected _ hanswer' _ htarget =>
    cases hanswer'.symm.trans hanswer
    cases htarget.symm.trans hstop

/-- A fetch comes to what its last answer is made into, or resolves without such an answer. -/
theorem followRedirects_ends (left : Nat) (url : Url) :
    (∃ answer finalUrl, EndsIn net servers urlGuard limits left url answer ∧
      (followRedirects net tools now servers urlGuard req limits left url).outcome =
        answerOutcome limits tools req now finalUrl answer) ∨
    (∀ answer, ¬EndsIn net servers urlGuard limits left url answer) ∧
      ∃ resolved, (followRedirects net tools now servers urlGuard req limits left url).outcome =
        .ok resolved := by
  fun_induction followRedirects net tools now servers urlGuard req limits left url with
  | case1 left url refusal hguard => exact Or.inr ⟨fun _ => not_endsIn_of_refusal hguard, refusal, rfl⟩
  | case2 left url hguard err hanswer =>
    refine Or.inl ⟨.error err, url, .here hguard hanswer ?_, rfl⟩
    intro response heq
    cases heq
  | case3 left url hguard response hanswer hredirect outcome hstop =>
    exact Or.inr ⟨fun _ => not_endsIn_of_stop hanswer hredirect hstop, outcome, rfl⟩
  | case4 url hguard response hredirect next hanswer _ =>
    refine Or.inr ⟨fun answer hends => ?_, _, rfl⟩
    cases hends with
    | here _ hanswer' hend =>
      exact absurd hredirect (ne_true_of_eq_false (hend _ (hanswer'.symm.trans hanswer)))
  | case5 url hguard response hredirect next left run hanswer htarget ih =>
    rcases ih with ⟨answer, finalUrl, hends, houtcome⟩ | ⟨hnone, hresolved⟩
    · exact Or.inl ⟨answer, finalUrl, .redirected hguard hanswer hredirect htarget hends, houtcome⟩
    · refine Or.inr ⟨fun answer hends => ?_, hresolved⟩
      cases hends with
      | here _ hanswer' hend =>
        exact absurd hredirect (ne_true_of_eq_false (hend _ (hanswer'.symm.trans hanswer)))
      | redirected _ hanswer' _ htarget' hnext =>
        cases hanswer'.symm.trans hanswer
        cases htarget'.symm.trans htarget
        exact hnone answer hnext
  | case6 left url hguard response hanswer hredirect =>
    refine Or.inl ⟨.ok response, url, .here hguard hanswer ?_, rfl⟩
    rintro _ ⟨⟩
    exact Bool.eq_false_of_not_eq_true hredirect

theorem classifyNetworkError_class :
    (err.TimedOut → (classifyNetworkError err).failureClass = some .timeout) ∧
      (¬err.TimedOut → (classifyNetworkError err).failureClass = some .networkError) := by
  unfold classifyNetworkError NetworkError.TimedOut
  constructor
  · intro htimeout
    rw [if_pos htimeout]
    rfl
  · intro htimeout
    rw [if_neg htimeout]
    rfl

/-- A last answer that is no broken body is classified. -/
private theorem answerOutcome_classifies {finalUrl : Url}
    (hbody : ∀ response err, answer = .ok response → ReadsBody req response →
      bodyError tools limits.maxBytes response ≠ some err) :
    ∃ resolved, answerOutcome limits tools req now finalUrl answer = .ok resolved ∧
      ∀ err, FailsWith limits tools req answer err →
        (err.TimedOut → resolved.failureClass = some .timeout) ∧
          (¬err.TimedOut → resolved.failureClass = some .networkError) := by
  cases answer with
  | error rejected =>
    refine ⟨classifyNetworkError rejected, rfl, ?_⟩
    rintro err (heq | ⟨response, heq, _⟩)
    · cases heq
      exact classifyNetworkError_class
    · cases heq
  | ok response =>
    have hresolves : ∀ err, handleTerminalResponse tools now response finalUrl req limits ≠ .error err := by
      intro err hthrown
      obtain ⟨hreads, hbroken⟩ := handleTerminalResponse_error_iff.mp hthrown
      exact hbody response err rfl hreads hbroken
    cases houtcome : handleTerminalResponse tools now response finalUrl req limits with
    | error err => exact absurd houtcome (hresolves err)
    | ok resolved =>
      refine ⟨resolved, houtcome, ?_⟩
      rintro err (heq | ⟨_, heq, hreads, hbroken⟩)
      · cases heq
      · cases heq
        exact absurd hbroken (hbody response err rfl hreads)

end Ends

section Headers

variable {req}

theorem Headers.setEntry_isSome {latin1 : Bool} {headers : Headers} {entry : String × String} :
    (headers.setEntry latin1 entry).isSome = (keptHeader? latin1 entry.1 entry.2).isSome := by
  rw [Headers.setEntry, Option.isSome_map]

/-- The headers are built exactly where each of them is taken. -/
theorem buildRequestHeaders_isSome_iff {tools : HttpTools} :
    (buildRequestHeaders tools req).isSome = true ↔ req.Sendable tools := by
  have hentries : ∀ (entries : List (String × String)) (headers : Headers),
      (entries.foldlM (Headers.setEntry tools.latin1Headers) headers).isSome = true ↔
        ∀ entry ∈ entries, (keptHeader? tools.latin1Headers entry.1 entry.2).isSome = true := by
    intro entries
    induction entries with
    | nil => simp
    | cons entry entries ih =>
      intro headers
      have hfirst := @Headers.setEntry_isSome tools.latin1Headers headers entry
      rw [List.foldlM_cons, List.forall_mem_cons, ← hfirst]
      cases headers.setEntry tools.latin1Headers entry with
      | none => simp
      | some headers => simpa using ih headers
  exact hentries _ _

theorem httpFetch_sendable {net : NetTools} {tools : HttpTools} {now : Nat} {servers : Servers}
    {urlGuard : Option (Url → SsrfCheckResult)} {limits : FetchLimits} (h : req.Sendable tools) :
    httpFetch net tools now servers urlGuard req limits =
      followRedirects net tools now servers urlGuard req limits limits.maxRedirects req.url := by
  obtain ⟨headers, hheaders⟩ := Option.isSome_iff_exists.mp (buildRequestHeaders_isSome_iff.mpr h)
  rw [httpFetch, hheaders]

theorem httpFetch_unsendable {net : NetTools} {tools : HttpTools} {now : Nat} {servers : Servers}
    {urlGuard : Option (Url → SsrfCheckResult)} {limits : FetchLimits} (h : ¬req.Sendable tools) :
    httpFetch net tools now servers urlGuard req limits = ⟨[], .error headersError⟩ := by
  have hheaders : buildRequestHeaders tools req = none := by
    rw [← buildRequestHeaders_isSome_iff, Option.not_isSome_iff_eq_none] at h
    exact h
  rw [httpFetch, hheaders]

end Headers

end Fetch

/-- A fetch resolves, with the class of its transport error if it meets one, exactly where the
headers of the request are taken and no body breaks off that it reads. -/
theorem httpFetch_classifies_iff (net : NetTools) (tools : HttpTools) (now : Nat) (servers : Servers)
    (urlGuard : Option (Url → SsrfCheckResult)) (req : FetchRequest) (limits : FetchLimits) :
    Classifies net servers urlGuard limits tools req
        (httpFetch net tools now servers urlGuard req limits).outcome ↔
      req.Sendable tools ∧ ¬BodyBreaksOff net servers urlGuard limits tools req := by
  by_cases hsendable : req.Sendable tools
  swap
  · rw [httpFetch_unsendable hsendable]
    constructor
    · rintro ⟨resolved, hresolved, _⟩
      cases hresolved
    · exact fun h => absurd h.1 hsendable
  rw [httpFetch_sendable hsendable]
  have hcases := @followRedirects_ends net servers urlGuard limits tools req now limits.maxRedirects req.url
  constructor
  · rintro ⟨resolved, hresolved, _⟩
    refine ⟨hsendable, ?_⟩
    rintro ⟨response, err, ⟨-, hends⟩, hreads, hbroken⟩
    rcases hcases with ⟨answer, finalUrl, hends', houtcome⟩ | ⟨hnone, _⟩
    · cases hends'.unique hends
      have hthrown : answerOutcome limits tools req now finalUrl (.ok response) = .error err :=
        handleTerminalResponse_error_iff.mpr ⟨hreads, hbroken⟩
      rw [houtcome, hthrown] at hresolved
      cases hresolved
    · exact hnone _ hends
  · rintro ⟨-, hunbroken⟩
    rcases hcases with ⟨answer, finalUrl, hends, houtcome⟩ | ⟨hnone, resolved, houtcome⟩
    · have hbody : ∀ response err, answer = .ok response → ReadsBody req response →
          bodyError tools limits.maxBytes response ≠ some err := by
        rintro response err rfl hreads hbroken
        exact hunbroken ⟨response, err, ⟨hsendable, hends⟩, hreads, hbroken⟩
      obtain ⟨resolved, hresolved, hclass⟩ := @answerOutcome_classifies limits tools req now answer finalUrl hbody
      refine ⟨resolved, houtcome.trans hresolved, ?_⟩
      intro answer' err hends' hfails
      cases hends'.2.unique hends
      exact hclass err hfails
    · exact ⟨resolved, houtcome, fun answer _ hends => absurd hends.2 (hnone answer)⟩

/-! ## A body that times out -/

/-- No URL is parsed. -/
private def noUrls : NetTools where
  parse := fun _ => none
  join := fun _ _ => none
  classifyHostname := fun _ => none
  parse_origin := by
    intro url parts hparse
    cases hparse
  join_robots := by
    intro url parts hparse
    cases hparse

private def plainTools : HttpTools where
  decodeText := fun _ => ""
  number := fun _ => none
  dateParse := fun _ => none
  latin1Headers := false

/-- A page whose second chunk does not come before the total timeout. -/
private def stalledPage : HttpResponse :=
  ⟨200, [("content-type", "text/html")],
    some ⟨[[0x3c]], some ⟨"TimeoutError", "The operation was aborted due to timeout"⟩⟩⟩

private def pageRequest (url : Url) : FetchRequest := { url, userAgent := "utsuroi" }

theorem stalledPage_thrown :
    let run := httpFetch noUrls plainTools 0 (fun _ _ => .ok stalledPage) none
      (pageRequest "https://example.com/") DEFAULT_FETCH_LIMITS
    run.outcome = .error ⟨"TimeoutError", "The operation was aborted due to timeout"⟩ ∧
      ¬Classifies noUrls (fun _ _ => .ok stalledPage) none DEFAULT_FETCH_LIMITS plainTools
        (pageRequest "https://example.com/") run.outcome := by
  have hthrown : (httpFetch noUrls plainTools 0 (fun _ _ => .ok stalledPage) none
      (pageRequest "https://example.com/") DEFAULT_FETCH_LIMITS).outcome =
        .error ⟨"TimeoutError", "The operation was aborted due to timeout"⟩ := by
    decide
  refine ⟨hthrown, ?_⟩
  rintro ⟨resolved, hresolved, _⟩
  cases hthrown.symm.trans hresolved

/-- A line break in the URL, which `new URL` takes out and the header `referer` does not take. -/
example : buildRequestHeaders plainTools (pageRequest "https://example.com/\nfeed") = none := by decide

end Utsuroi

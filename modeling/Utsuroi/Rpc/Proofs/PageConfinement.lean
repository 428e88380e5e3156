import Utsuroi.Rpc.FetchPage

/-!
# The confinement of `fetchPage`

Whatever the fetchers do, what is requested from here and what is returned lies on the hosts of the
caller, and no more of a body is used than was agreed.
-/

namespace Utsuroi.Rpc

section Guard

variable {net : NetTools} {caller : CallerConfig} {url : Url}

/-- The host is one of the caller's and the static check passes. -/
structure Reachable (net : NetTools) (caller : CallerConfig) (url : Url) : Prop where
  host : ∃ host, hostOf net url = some host ∧ host ∈ caller.allowedHosts
  checked : (checkUrlForSsrf net url).allowed = true

theorem urlGuard_allowed_iff : (urlGuard net caller url).allowed = true ↔
    Reachable net caller url := by
  unfold urlGuard
  cases hhost : hostOf net url with
  | none =>
      constructor
      · intro h
        contradiction
      · intro h
        obtain ⟨host, hsome, -⟩ := h.host
        rw [hhost] at hsome
        contradiction
  | some host =>
      by_cases hmem : host ∈ caller.allowedHosts
      · simp only [List.contains_eq_mem, hmem, decide_true, if_true]
        exact ⟨fun h => ⟨⟨host, hhost, hmem⟩, h⟩, Reachable.checked⟩
      · simp only [List.contains_eq_mem, hmem, decide_false, Bool.false_eq_true, if_false]
        constructor
        · intro h
          contradiction
        · intro h
          obtain ⟨other, hother, hallowed⟩ := h.host
          rw [hhost] at hother
          exact absurd (Option.some.inj hother ▸ hallowed) hmem

end Guard

theorem resolveMaxBytes_le (requested : Option Rat) : resolveMaxBytes requested ≤ HARD_MAX_BYTES := by
  unfold resolveMaxBytes
  cases requested with
  | none => decide
  | some requested =>
      dsimp only
      split
      · decide
      · exact Nat.min_le_right _ _

/-! ## What is returned -/

/-- Nothing of a body is returned. -/
def FetchPageResult.Bodyless (result : FetchPageResult) : Prop :=
  result.bytes = 0 ∧ result.html = ""

/-- The answer of a fetcher is returned, its body cut off at `maxBytes`. -/
structure Delivered (tools : PageTools) (maxBytes : Nat) (outcome : HttpOutcome)
    (result : FetchPageResult) : Prop where
  body : ∃ status notModified contentType etag lastModified body,
    outcome = .success status notModified result.url contentType etag lastModified body ∧
      result.html = decodeBody tools ((body.getD []).take maxBytes) contentType ∧
      result.bytes = ((body.getD []).take maxBytes).length

section Returned

variable {net : NetTools} {tools : PageTools} {caller : CallerConfig} {registry : FetcherRegistry}
  {invocation : FetcherInvocation} {maxBytes : Nat}

theorem blocked_bodyless (url : Option Url) : (blocked url).Bodyless := ⟨rfl, rfl⟩

theorem failed_bodyless (url : Url) (lastFailure : Option (String × FailureClass)) (lastStatus : Nat) :
    (failed url lastFailure lastStatus).Bodyless := ⟨rfl, rfl⟩

private theorem kept_eq (body : List UInt8) :
    (if maxBytes < body.length then body.take maxBytes else body) = body.take maxBytes := by
  by_cases hlong : maxBytes < body.length
  · rw [if_pos hlong]
  · rw [if_neg hlong, List.take_of_length_le (by omega)]

theorem answered_returned {url finalUrl : Url} {fetcherId : String} {status : Nat}
    {notModified : Bool} {contentType etag lastModified : Option String}
    {body : Option (List UInt8)} {outcome : HttpOutcome}
    (houtcome : outcome =
      .success status notModified finalUrl contentType etag lastModified body) :
    (answered net tools caller url maxBytes fetcherId status finalUrl contentType
        (body.getD [])).Bodyless ∨
      Reachable net caller (answered net tools caller url maxBytes fetcherId status finalUrl
        contentType (body.getD [])).url ∧
      Delivered tools maxBytes outcome (answered net tools caller url maxBytes fetcherId status
        finalUrl contentType (body.getD [])) := by
  unfold answered
  cases hguard : (urlGuard net caller finalUrl).allowed with
  | false =>
      left
      exact blocked_bodyless _
  | true =>
      right
      refine ⟨urlGuard_allowed_iff.mp hguard, ⟨status, notModified, contentType, etag,
        lastModified, body, houtcome, ?_, ?_⟩⟩
      · exact congrArg (decodeBody tools · contentType) (kept_eq (body.getD []))
      · exact congrArg List.length (kept_eq (body.getD []))

/-! ## The loop over the fetchers -/

/-- What has been returned, or nothing of a body. -/
def Settled (net : NetTools) (tools : PageTools) (caller : CallerConfig) (maxBytes : Nat)
    (run : FetchPageRun) : Prop :=
  run.result.Bodyless ∨ Reachable net caller run.result.url ∧
    ∃ call ∈ run.calls, Delivered tools maxBytes call.outcome run.result

/-- No further fetcher is tried after such an outcome. -/
def Final : HttpOutcome → Prop
  | .success _ _ _ _ _ _ _ => True
  | .failure failureClass _ _ _ => failureClass ∈ NEVER_PROCEEDABLE_FAILURES

theorem runFetcher_fetcherId (call : Nat) (fetcherId : String) :
    (runFetcher registry call fetcherId invocation).fetcherId = fetcherId := by
  unfold runFetcher
  split
  · rfl
  · dsimp only
    split
    · rfl
    · rfl

theorem shouldContinue_not_final {failureClass : FailureClass} {status : Option Nat}
    (h : shouldContinue failureClass status = true) :
    failureClass ∉ NEVER_PROCEEDABLE_FAILURES := by
  intro hnever
  simp [shouldContinue, hnever] at h

/-- Those run are the first of the list, each in its turn. -/
theorem tryFetchers_prefix (fetchers : List String) (call : Nat)
    (lastFailure : Option (String × FailureClass)) (lastStatus : Nat) :
    (tryFetchers net tools caller registry invocation maxBytes fetchers call lastFailure
      lastStatus).calls.map FetcherCall.fetcherId <+: fetchers := by
  fun_induction tryFetchers net tools caller registry invocation maxBytes fetchers call lastFailure
    lastStatus with
  | case1 => exact List.nil_prefix
  | case2 fetcherId fetchers call _ lastStatus executed =>
      exact List.prefix_cons_iff.mpr (.inr ⟨[], by
        rw [List.map_cons, runFetcher_fetcherId, List.map_nil], List.nil_prefix⟩)
  | case3 fetcherId fetchers call _ lastStatus executed failureClass status _ _ _ _ _ rest ih =>
      rw [List.map_cons, runFetcher_fetcherId]
      exact List.cons_prefix_cons.mpr ⟨rfl, ih⟩
  | case4 fetcherId fetchers call _ lastStatus executed =>
      exact List.prefix_cons_iff.mpr (.inr ⟨[], by
        rw [List.map_cons, runFetcher_fetcherId, List.map_nil], List.nil_prefix⟩)

theorem tryFetchers_ran (fetchers : List String) (call : Nat)
    (lastFailure : Option (String × FailureClass)) (lastStatus : Nat) :
    ∀ executed ∈ (tryFetchers net tools caller registry invocation maxBytes fetchers call lastFailure
      lastStatus).calls, ∃ turn, executed = runFetcher registry turn executed.fetcherId invocation := by
  fun_induction tryFetchers net tools caller registry invocation maxBytes fetchers call lastFailure
    lastStatus with
  | case1 => simp
  | case2 fetcherId fetchers call _ lastStatus executed =>
      rw [List.forall_mem_singleton, runFetcher_fetcherId]
      exact ⟨call, rfl⟩
  | case3 fetcherId fetchers call _ lastStatus executed failureClass status _ _ _ _ _ rest ih =>
      rw [List.forall_mem_cons, runFetcher_fetcherId]
      exact ⟨⟨call, rfl⟩, ih⟩
  | case4 fetcherId fetchers call _ lastStatus executed =>
      rw [List.forall_mem_singleton, runFetcher_fetcherId]
      exact ⟨call, rfl⟩

theorem tryFetchers_stops (fetchers : List String) (call : Nat)
    (lastFailure : Option (String × FailureClass)) (lastStatus : Nat) :
    ∀ before executed after, (tryFetchers net tools caller registry invocation maxBytes fetchers call
      lastFailure lastStatus).calls = before ++ executed :: after → Final executed.outcome →
        after = [] := by
  fun_induction tryFetchers net tools caller registry invocation maxBytes fetchers call lastFailure
    lastStatus with
  | case1 => simp
  | case2 =>
      intro before executed after hcalls _
      cases before with
      | nil => exact (List.cons.inj hcalls).2.symm
      | cons first before => simp at hcalls
  | case3 fetcherId fetchers call _ lastStatus executed failureClass status message retryAfter
      houtcome _ hcontinue rest ih =>
      intro before other after hcalls hfinal
      cases before with
      | nil =>
          obtain rfl := (List.cons.inj hcalls).1
          rw [houtcome] at hfinal
          exact absurd hfinal (shouldContinue_not_final hcontinue)
      | cons first before => exact ih before other after (List.cons.inj hcalls).2 hfinal
  | case4 =>
      intro before executed after hcalls _
      cases before with
      | nil => exact (List.cons.inj hcalls).2.symm
      | cons first before => simp at hcalls

theorem tryFetchers_settled (fetchers : List String) (call : Nat)
    (lastFailure : Option (String × FailureClass)) (lastStatus : Nat) :
    Settled net tools caller maxBytes (tryFetchers net tools caller registry invocation maxBytes
      fetchers call lastFailure lastStatus) := by
  fun_induction tryFetchers net tools caller registry invocation maxBytes fetchers call lastFailure
    lastStatus with
  | case1 => exact .inl (failed_bodyless _ _ _)
  | case2 fetcherId fetchers call _ lastStatus executed status notModified finalUrl contentType etag
      lastModified body houtcome =>
      rcases answered_returned houtcome with hbodyless | ⟨hreachable, hdelivered⟩
      · exact .inl hbodyless
      · exact .inr ⟨hreachable, executed, List.mem_singleton.mpr rfl, hdelivered⟩
  | case3 fetcherId fetchers call _ lastStatus executed failureClass status _ _ _ _ _ rest ih =>
      rcases ih with hbodyless | ⟨hreachable, answering, hmem, hdelivered⟩
      · exact .inl hbodyless
      · exact .inr ⟨hreachable, answering, List.mem_cons_of_mem _ hmem, hdelivered⟩
  | case4 => exact .inl (failed_bodyless _ _ _)

end Returned

/-! ## Whole calls -/

section Page

variable (net : NetTools) (tools : PageTools) (caller : CallerConfig) (registry : FetcherRegistry)

/-- A page is refused before any fetcher runs, or it is for the loop over the fetchers. -/
theorem fetchPage_cases (USER_AGENT : String) (req : FetchPageRequest) :
    (∃ url, fetchPage net tools caller registry USER_AGENT req = ⟨[], blocked url⟩) ∨
      ∃ url, req.url = some url ∧ Reachable net caller url ∧
        fetchPage net tools caller registry USER_AGENT req =
          tryFetchers net tools caller registry (invocationOf net caller USER_AGENT req url)
            (resolveMaxBytes req.maxBytes) caller.fetchers 0 none 0 := by
  unfold fetchPage
  cases req.url with
  | none => exact .inl ⟨none, rfl⟩
  | some url =>
      cases hguard : (urlGuard net caller url).allowed with
      | false => exact .inl ⟨some url, by simp only [hguard, Bool.not_false, if_true]⟩
      | true =>
          refine .inr ⟨url, rfl, urlGuard_allowed_iff.mp hguard, ?_⟩
          simp only [hguard, Bool.not_true, Bool.false_eq_true, if_false]

/-- `cf-http` requests what the guard of its invocation allows. -/
theorem cfHttp_requests {httpTools : HttpTools} {now : Nat}
    {servers : Nat → FetcherInvocation → Servers} {call : Nat} {fetcherId : String}
    {invocation : FetcherInvocation} (hguard : invocation.urlGuard = urlGuard net caller)
    (hcfHttp : registry.lookup fetcherId = some (cfHttp net httpTools now servers)) :
    ∀ url ∈ (runFetcher registry call fetcherId invocation).requests, Reachable net caller url := by
  intro url hurl
  have hrequests : (runFetcher registry call fetcherId invocation).requests =
      (cfHttp net httpTools now servers call invocation).requests := by
    unfold runFetcher
    rw [hcfHttp]
    dsimp only
    split
    · rfl
    · rfl
  rw [hrequests] at hurl
  rw [← urlGuard_allowed_iff, ← hguard]
  exact httpFetch_guarded url hurl

/-- What `cf-http` requests, redirects included, and what is returned lies on hosts of the caller
and passes the static check; of a body no more than the agreed bytes is used; the fetchers run in
the order of the caller's list, none after a success or a failure that is final. -/
theorem fetchPage_confined (httpTools : HttpTools) (now : Nat)
    (servers : Nat → FetcherInvocation → Servers) (USER_AGENT : String) (req : FetchPageRequest) :
    (∀ call ∈ (fetchPage net tools caller registry USER_AGENT req).calls,
      registry.lookup call.fetcherId = some (cfHttp net httpTools now servers) →
        ∀ url ∈ call.requests, Reachable net caller url) ∧
    ((fetchPage net tools caller registry USER_AGENT req).result.Bodyless ∨
      Reachable net caller (fetchPage net tools caller registry USER_AGENT req).result.url ∧
        ∃ call ∈ (fetchPage net tools caller registry USER_AGENT req).calls,
          Delivered tools (resolveMaxBytes req.maxBytes) call.outcome
            (fetchPage net tools caller registry USER_AGENT req).result) ∧
    (fetchPage net tools caller registry USER_AGENT req).result.bytes ≤
      resolveMaxBytes req.maxBytes ∧
    resolveMaxBytes req.maxBytes ≤ HARD_MAX_BYTES ∧
    (fetchPage net tools caller registry USER_AGENT req).calls.map FetcherCall.fetcherId <+:
      caller.fetchers ∧
    ∀ before call after, (fetchPage net tools caller registry USER_AGENT req).calls =
      before ++ call :: after → Final call.outcome → after = [] := by
  have hlimit := resolveMaxBytes_le req.maxBytes
  rcases fetchPage_cases net tools caller registry USER_AGENT req with
    ⟨url, hrefused⟩ | ⟨url, hurl, hreachable, hrun⟩
  · rw [hrefused]
    exact ⟨by simp, .inl (blocked_bodyless url), Nat.zero_le _, hlimit, List.nil_prefix, by simp⟩
  · rw [hrun]
    have hsettled := @tryFetchers_settled net tools caller registry
      (invocationOf net caller USER_AGENT req url) (resolveMaxBytes req.maxBytes) caller.fetchers 0
      none 0
    refine ⟨?_, hsettled, ?_, hlimit, tryFetchers_prefix _ _ _ _, tryFetchers_stops _ _ _ _⟩
    · intro call hcall hcfHttp
      obtain ⟨turn, hexecuted⟩ := tryFetchers_ran _ _ _ _ call hcall
      rw [hexecuted]
      exact cfHttp_requests net caller registry rfl hcfHttp
    · rcases hsettled with hbodyless | ⟨-, call, -, hdelivered⟩
      · rw [hbodyless.1]
        exact Nat.zero_le _
      · obtain ⟨_, _, _, _, _, body, -, -, hbytes⟩ := hdelivered.body
        rw [hbytes]
        exact List.length_take_le _ _

end Page

end Utsuroi.Rpc

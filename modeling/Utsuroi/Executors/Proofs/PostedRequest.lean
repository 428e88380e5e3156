import Utsuroi.Executors.Proofs.Server

/-!
# From the arrival of a posted request to its answer

The executor looks at the path of a request, then at the length of its body, then at its token, and
last for a free place.  Other requests come and go between the arrival and the body.
-/

namespace Utsuroi.GcpServer

open Transition

/-! ## A request that waits for its body -/

/-- The request is one that has arrived, and what it waits for its body with is this. -/
structure Awaited (id : RequestId) (authorization : String) (s : ServerState) : Prop where
  arrived : id < s.arrived
  same : ∀ other, (id, Phase.body other) ∈ s.pending → other = authorization

section Awaited

variable {verify : List UInt8 → List UInt8 → Bool} {sha256 : List UInt8 → List UInt8}
  {opts : ServerOptions} {id : RequestId} {authorization : String} {s s' : ServerState}
  {log : List ServerEffect} {past between : List ServerEvent}

private theorem Awaited.drop (h : Awaited id authorization s) (other : RequestId) :
    ∀ text, (id, Phase.body text) ∈ (s.drop other).pending → text = authorization :=
  fun text hmem => h.same text (List.mem_of_mem_filter hmem)

private theorem Awaited.step {effects : List ServerEffect} (h : Awaited id authorization s)
    (hmove : ServerMove verify sha256 opts s s' effects) : Awaited id authorization s' := by
  have harrived := h.arrived
  cases hmove with
  | refused => exact ⟨Nat.lt_succ_of_lt harrived, h.same⟩
  | queued text =>
      refine ⟨Nat.lt_succ_of_lt harrived, fun other hmem => ?_⟩
      rcases List.mem_append.mp hmem with hold | hnew
      · exact h.same other hold
      · obtain ⟨rfl, -⟩ := Prod.mk.inj (List.mem_singleton.mp hnew)
        exact absurd harrived (lt_irrefl _)
  | dropped => exact ⟨harrived, h.drop _⟩
  | rejected => exact ⟨harrived, h.drop _⟩
  | begun =>
      refine ⟨harrived, fun other hmem => ?_⟩
      rcases List.mem_append.mp hmem with hold | hnew
      · exact h.drop _ other hold
      · exact absurd (Prod.mk.inj (List.mem_singleton.mp hnew)).2 (by simp)
  | ended => exact ⟨harrived, h.drop _⟩

private theorem Awaited.steps {after : ServerState × List ServerEffect}
    (h : Awaited id authorization s)
    (hsteps : (server verify sha256 opts).Steps anyStep past (s, log) between after) :
    Awaited id authorization after.1 := by
  induction hsteps with
  | refl => exact h
  | next _ hstep _ ih =>
      obtain ⟨effects, hserved, -⟩ := hstep
      exact ih.step (serverStep_move hserved).1

/-- A request that arrives is a new one. -/
private theorem awaited_arrival (hrun : (server verify sha256 opts).Run anyStep past (s, log)) :
    Awaited s.arrived authorization
      { s with arrived := s.arrived + 1,
               pending := s.pending ++ [(s.arrived, .body authorization)] } := by
  refine ⟨Nat.lt_succ_self _, fun other hmem => ?_⟩
  rcases List.mem_append.mp hmem with hold | hnew
  · have hanswered := (run_orderly hrun).answered s.arrived
    rw [if_neg (lt_irrefl _)] at hanswered
    have hwaiting : 0 < s.waiting s.arrived :=
      List.countP_pos_iff.mpr ⟨_, hold, decide_eq_true rfl⟩
    omega
  · exact Phase.body.inj (Prod.mk.inj (List.mem_singleton.mp hnew)).2

end Awaited

/-! ## What is made of it -/

/-- What stands in the request line. -/
def requestTarget (endpoint : ParsedUrl) : String := endpoint.pathname ++ endpoint.search

/-- The answers to a posted body that no fetch is started for. -/
inductive Declined (opts : ServerOptions) (body : List UInt8) (sentAt : TimeValue) (jti : String)
    (s : ServerState) (nowMs : Int) : Answer → Prop
  | tooLarge (hlong : MAX_REQUEST_BODY_BYTES < body.length) :
      Declined opts body sentAt jti s nowMs (errorAnswer 413 "request too large")
  | unauthorized (hshort : body.length ≤ MAX_REQUEST_BODY_BYTES)
      (htoken : ¬ TokenHolds sentAt jti s.jtiCache nowMs) :
      Declined opts body sentAt jti s nowMs (errorAnswer 401 "unauthorized")
  | busy (hshort : body.length ≤ MAX_REQUEST_BODY_BYTES)
      (htoken : TokenHolds sentAt jti s.jtiCache nowMs) (hfull : opts.maxInflight ≤ s.inflight) :
      Declined opts body sentAt jti s nowMs (errorAnswer 503 "busy")

section Declined

variable {opts : ServerOptions} {body : List UInt8} {sentAt : TimeValue} {jti : String}
  {s : ServerState} {nowMs : Int} {answer : Answer}

private theorem declined_tooLarge (hlong : MAX_REQUEST_BODY_BYTES < body.length) :
    Declined opts body sentAt jti s nowMs answer ↔ answer = errorAnswer 413 "request too large" := by
  constructor
  · intro h
    cases h with
    | tooLarge => rfl
    | unauthorized hshort => exact absurd hlong (not_lt.mpr hshort)
    | busy hshort => exact absurd hlong (not_lt.mpr hshort)
  · rintro rfl
    exact .tooLarge hlong

private theorem declined_iff (hshort : body.length ≤ MAX_REQUEST_BODY_BYTES) :
    Declined opts body sentAt jti s nowMs answer ↔
      (¬ TokenHolds sentAt jti s.jtiCache nowMs ∧ answer = errorAnswer 401 "unauthorized") ∨
      (TokenHolds sentAt jti s.jtiCache nowMs ∧ opts.maxInflight ≤ s.inflight ∧
        answer = errorAnswer 503 "busy") := by
  constructor
  · intro h
    cases h with
    | tooLarge hlong => exact absurd hlong (not_lt.mpr hshort)
    | unauthorized _ htoken => exact .inl ⟨htoken, rfl⟩
    | busy _ htoken hfull => exact .inr ⟨htoken, hfull, rfl⟩
  · rintro (⟨htoken, rfl⟩ | ⟨htoken, hfull, rfl⟩)
    · exact .unauthorized hshort htoken
    · exact .busy hshort htoken hfull

end Declined

section Posted

variable {sign : List UInt8 → List UInt8} {verify : List UInt8 → List UInt8 → Bool}
  {sha256 : List UInt8 → List UInt8} {newUrl : String → Option ParsedUrl} {env : GcpExecutorEnv}
  {inv : Rpc.FetcherInvocation} {sentAt : TimeValue} {jti : String} {request : ExecutorRequest}
  {opts : ServerOptions} {s : ServerState} {log : List ServerEffect}
  {past : List ServerEvent}

private theorem authorization_ne
    (hposted : executorRequest newUrl (signer sign sha256 sentAt jti) env inv = .ok request) :
    request.authorization ≠ "" := by
  rw [(executorRequest_ok hposted).2.2]
  intro h
  have hhead := congrArg (fun text => text.toList.take 1) h
  simp at hhead

private theorem executorRequest_endpoint
    (h : executorRequest newUrl (signer sign sha256 sentAt jti) env inv = .ok request) :
    ∃ endpoint, newUrl ((env.GCP_EXECUTOR_URL.map trim).getD "") = some endpoint ∧
      request.endpoint = endpoint.href := by
  unfold executorRequest at h
  simp only [bind, Except.bind, pure, Except.pure, throw, throwThe, MonadExceptOf.throw] at h
  split at h
  · exact absurd h (by simp)
  split at h
  · exact absurd h (by simp)
  split at h
  · exact absurd h (by simp)
  next endpoint hendpoint =>
    split at h
    · exact absurd h (by simp)
    split at h
    · exact absurd h (by simp)
    obtain rfl := Except.ok.inj h
    exact ⟨endpoint, hendpoint, rfl⟩

/-- What becomes of a posted body that has been read as far as it is read. -/
private theorem bodyRead_posted
    (hlength : ∀ message, (sign message).length = 64)
    (hverify : ∀ message, verify message (sign message) = true) (hjti : IsUuid jti)
    (hurl : inv.url ≠ "")
    (hposted : executorRequest newUrl (signer sign sha256 sentAt jti) env inv = .ok request)
    (t : ServerState) (id : RequestId) {contentLength : Option Nat} {chunks : List (List UInt8)}
    (hchunks : chunks.flatten = request.body)
    (hdeclared : ∀ n ∈ contentLength, n = request.body.length) (nowMs : Int) :
    (∀ other input, .started other input ∈
        (t.bodyRead verify sha256 opts id request.authorization contentLength chunks nowMs).2 ↔
      (other, input) = (id, askedFetch inv opts) ∧
        request.body.length ≤ MAX_REQUEST_BODY_BYTES ∧ TokenHolds sentAt jti t.jtiCache nowMs ∧
        t.inflight < opts.maxInflight) ∧
    ∀ other answer, .answered other answer ∈
        (t.bodyRead verify sha256 opts id request.authorization contentLength chunks nowMs).2 ↔
      other = id ∧ Declined opts request.body sentAt jti t nowMs answer := by
  have hread := @readBody_eq chunks contentLength (hchunks ▸ hdeclared)
  rw [hchunks] at hread
  rw [ServerState.bodyRead, hread]
  by_cases hlong : MAX_REQUEST_BODY_BYTES < request.body.length
  · rw [if_pos hlong]
    constructor
    · intro other input
      simp [not_le.mpr hlong]
    · intro other answer
      rw [List.mem_singleton, ServerEffect.answered.injEq, declined_tooLarge hlong]
  · have hshort := not_lt.mp hlong
    obtain ⟨hstarted, hanswered⟩ :=
      serveBody_posted_iff hlength hverify hjti hurl hposted opts t id nowMs
    rw [if_neg hlong]
    refine ⟨fun other input => ?_, fun other answer => ?_⟩
    · rw [hstarted]
      simp only [hshort, true_and]
    · rw [hanswered, declined_iff hshort, and_or_left]

/-- Whatever the executor does at the same time: a posted request under another path than `/` is
answered 404; under this path it waits, and when its body has come, the executor starts just the
fetch asked for, exactly where the body is no longer than allowed, the token holds and a place is
free; else it answers 413, 401 or 503. -/
theorem posted_started_iff (hlength : ∀ message, (sign message).length = 64)
    (hverify : ∀ message, verify message (sign message) = true) (hjti : IsUuid jti)
    (hurl : inv.url ≠ "")
    (hposted : executorRequest newUrl (signer sign sha256 sentAt jti) env inv = .ok request)
    (hrun : (server verify sha256 opts).Run anyStep past (s, log)) :
    ∃ endpoint, newUrl ((env.GCP_EXECUTOR_URL.map trim).getD "") = some endpoint ∧
      request.endpoint = endpoint.href ∧
    let arrival := ServerEvent.arrives "POST" (requestTarget endpoint) (some request.authorization)
    let queued := { s with arrived := s.arrived + 1,
                           pending := s.pending ++ [(s.arrived, Phase.body request.authorization)] }
    (requestTarget endpoint ≠ "/" →
      serverStep verify sha256 opts s arrival = some ({ s with arrived := s.arrived + 1 },
        [.answered s.arrived (errorAnswer 404 "not found")])) ∧
    (requestTarget endpoint = "/" →
      serverStep verify sha256 opts s arrival = some (queued, []) ∧
      ∀ between t log' contentLength chunks nowMs t' effects,
        (server verify sha256 opts).Steps anyStep (arrival :: past) (queued, log) between (t, log') →
        serverStep verify sha256 opts t (.bodyRead s.arrived contentLength chunks nowMs) =
          some (t', effects) →
        chunks.flatten = request.body → (∀ n ∈ contentLength, n = request.body.length) →
          (∀ other input, .started other input ∈ effects ↔
            (other, input) = (s.arrived, askedFetch inv opts) ∧
              request.body.length ≤ MAX_REQUEST_BODY_BYTES ∧
              TokenHolds sentAt jti t.jtiCache nowMs ∧ t.inflight < opts.maxInflight) ∧
          ∀ other answer, .answered other answer ∈ effects ↔
            other = s.arrived ∧ Declined opts request.body sentAt jti t nowMs answer) := by
  obtain ⟨endpoint, hendpoint, hhref⟩ := executorRequest_endpoint hposted
  refine ⟨endpoint, hendpoint, hhref, ?_⟩
  intro arrival queued
  refine ⟨fun htarget => ?_, fun htarget => ⟨?_, ?_⟩⟩
  · simp only [arrival, serverStep, ServerState.arrive, htarget, ne_eq, not_true_eq_false,
      not_false_eq_true, or_true, if_true]
  · simp only [arrival, htarget, serverStep]
    exact congrArg some (arrive_queued (authorization_ne hposted) s)
  · intro between t log' contentLength chunks nowMs t' effects hsteps hread hchunks hdeclared
    have hawaited : Awaited s.arrived request.authorization t := (awaited_arrival hrun).steps hsteps
    simp only [serverStep] at hread
    split at hread
    · next authorization hwaits =>
        obtain rfl : authorization = request.authorization :=
          hawaited.same _ (Table.mem_of_lookup hwaits)
        have heffects := congrArg Prod.snd (Option.some.inj hread)
        change _ = effects at heffects
        rw [← heffects]
        exact bodyRead_posted hlength hverify hjti hurl hposted t s.arrived hchunks hdeclared nowMs
    · contradiction

end Posted

/-! ## A page, with another request in between -/

private def pageWaiting : ServerState :=
  ⟨⟨MAX_JTI_ENTRIES, []⟩, 0, 2, [(0, .body pageRequest.authorization)]⟩

theorem posted_started_page :
    ∃ t' effects, serverStep pageVerify pageHash pageOptions pageWaiting
        (.bodyRead 0 (some pageBody.length) [pageBody] 1750000000100) = some (t', effects) ∧
      .started 0 (askedFetch pageInvocation pageOptions) ∈ effects := by
  have hurl : (pageEnv.GCP_EXECUTOR_URL.map trim).getD "" = "https://executor.example/" := by
    decide +kernel
  have hinit : (server pageVerify pageHash pageOptions).Run anyStep [] (.init, []) := .start rfl
  obtain ⟨endpoint, hendpoint, -, -, hserved⟩ := posted_started_iff (fun _ => rfl) pageVerify_signed
    pageJti_uuid (by decide) pageRequest_posted hinit
  rw [hurl] at hendpoint
  have htarget : requestTarget endpoint = "/" := by
    rw [← Option.some.inj hendpoint]
    decide
  obtain ⟨-, hread⟩ := hserved htarget
  -- between the arrival and the body comes a request that is not found
  have hother : (server pageVerify pageHash pageOptions).Steps anyStep
      [.arrives "POST" (requestTarget endpoint) (some pageRequest.authorization)]
      ({ ServerState.init with
          arrived := 1, pending := [(0, .body pageRequest.authorization)] }, [])
      [.arrives "GET" "/" none] (pageWaiting, [] ++ [.answered 1 (errorAnswer 404 "not found")]) := by
    refine .next .refl ⟨_, ?_, rfl⟩ trivial
    rw [serverStep, ServerState.arrive, if_pos (.inl (by decide))]
    rfl
  have hwaits : pageWaiting.pending.lookup 0 = some (.body pageRequest.authorization) := rfl
  have hstep : serverStep pageVerify pageHash pageOptions pageWaiting
      (.bodyRead 0 (some pageBody.length) [pageBody] 1750000000100) =
        some (pageWaiting.bodyRead pageVerify pageHash pageOptions 0 pageRequest.authorization
          (some pageBody.length) [pageBody] 1750000000100) := by
    simp only [serverStep, hwaits]
  refine ⟨_, _, hstep.trans (congrArg some (Prod.eta _).symm), ?_⟩
  have hfits : pageBody.length ≤ MAX_REQUEST_BODY_BYTES := by
    rw [pageBody, Json.length_encode_text]
    decide +kernel
  exact ((hread _ _ _ _ _ _ _ _ hother (hstep.trans (congrArg some (Prod.eta _).symm))
    (List.append_nil _) (fun n hn => (Option.some.inj hn).symm)).1 0 _).mpr
      ⟨rfl, hfits, pageToken_holds, by decide⟩

end Utsuroi.GcpServer

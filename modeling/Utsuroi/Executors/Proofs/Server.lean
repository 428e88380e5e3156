import Mathlib.Data.List.Count
import Utsuroi.Executors.Proofs.GcpExchange
import Utsuroi.Framework.Log
import Utsuroi.Framework.Table

/-!
# What the GCP executor keeps to while requests overlap

Of the requests it serves at the same time no more than `maxInflight` fetch, each fetches only what
a token accepted for its own body allows, no token lets two of them in, and each is answered once.
-/

namespace Utsuroi.GcpServer

open Transition

/-! ## The requests that wait -/

/-- How often a request waits. -/
def ServerState.waiting (s : ServerState) (id : RequestId) : Nat := Table.count s.pending id

/-- How often a request waits for its body. -/
def ServerState.unread (s : ServerState) (id : RequestId) : Nat :=
  s.pending.countP fun request => request.1 = id && !request.2.isFetch

/-- How many requests wait for their fetch. -/
def ServerState.fetching (s : ServerState) : Nat := s.pending.countP fun request => request.2.isFetch

/-! ## What is seen -/

def ServerEffect.verification? : ServerEffect → Option Verification
  | verified _ verification => some verification
  | _ => none

def verifications (log : List ServerEffect) : List Verification :=
  log.filterMap ServerEffect.verification?

def ServerEffect.isAnswer (id : RequestId) : ServerEffect → Bool
  | answered other _ => other = id
  | _ => false

def ServerEffect.isStart (id : RequestId) : ServerEffect → Bool
  | started other _ => other = id
  | _ => false

def answers (log : List ServerEffect) (id : RequestId) : Nat := log.countP (ServerEffect.isAnswer id)

def starts (log : List ServerEffect) (id : RequestId) : Nat := log.countP (ServerEffect.isStart id)

/-- A fetch starts right after a token has been accepted for the body that asks for it. -/
def Authorised (opts : ServerOptions) (before : List ServerEffect) (e : ServerEffect) : Prop :=
  ∀ id input, e = .started id input →
    ∃ verification, before.getLast? = some (.verified id verification) ∧
      verification.outcome = .ok () ∧
        parseRequest verification.rawBody opts.maxBytesCap = some input

/-! ## Bodies -/

section Bodies

variable {chunks : List (List UInt8)}

theorem collectBody_eq {read : List UInt8} (hread : read.length ≤ MAX_REQUEST_BODY_BYTES) :
    collectBody chunks read =
      if MAX_REQUEST_BODY_BYTES < read.length + chunks.flatten.length then none
      else some (read ++ chunks.flatten) := by
  induction chunks generalizing read with
  | nil => simp [collectBody, hread]
  | cons chunk chunks ih =>
      rw [collectBody, List.flatten_cons, List.length_append, ← Nat.add_assoc, ← List.append_assoc]
      split
      next hlarge => rw [if_pos (by omega)]
      next hfits => rw [ih (by rw [List.length_append]; omega), List.length_append]

/-- A body is read as a whole or not at all, whatever the chunks; its declared length is its own. -/
theorem readBody_eq {contentLength : Option Nat}
    (hdeclared : ∀ n ∈ contentLength, n = chunks.flatten.length) :
    readBody contentLength chunks =
      if MAX_REQUEST_BODY_BYTES < chunks.flatten.length then none else some chunks.flatten := by
  have hcollected := @collectBody_eq chunks [] (Nat.zero_le _)
  rw [List.length_nil, Nat.zero_add, List.nil_append] at hcollected
  rw [readBody, hcollected]
  cases contentLength with
  | none => exact if_neg (Nat.not_lt_zero _)
  | some n =>
      rw [hdeclared n rfl, Option.getD_some]
      split
      · rfl
      · rfl

end Bodies

/-! ## What a step can do -/

section Steps

variable (verify : List UInt8 → List UInt8 → Bool) (sha256 : List UInt8 → List UInt8)
  (opts : ServerOptions)

/-- The ways of a step, with what is seen of it. -/
inductive ServerMove (s : ServerState) : ServerState → List ServerEffect → Prop
  | refused (answer : Answer) :
      ServerMove s { s with arrived := s.arrived + 1 } [.answered s.arrived answer]
  | queued (authorization : String) :
      ServerMove s
        { s with arrived := s.arrived + 1, pending := s.pending ++ [(s.arrived, .body authorization)] }
        []
  | dropped {id : RequestId} {authorization : String} (answer : Answer)
      (hwaits : s.pending.lookup id = some (.body authorization)) :
      ServerMove s (s.drop id) [.answered id answer]
  | rejected {id : RequestId} {authorization : String} (answer : Answer)
      {verification : Verification} {jtiCache : JtiCache}
      (hwaits : s.pending.lookup id = some (.body authorization))
      (hverified : verifyRequestToken verify sha256 verification.authorization verification.rawBody
        verification.nowMs s.jtiCache = (verification.outcome, jtiCache)) :
      ServerMove s { s.drop id with jtiCache := jtiCache }
        [.verified id verification, .answered id answer]
  | begun {id : RequestId} {authorization : String} {verification : Verification}
      {jtiCache : JtiCache} {input : FetchInput}
      (hwaits : s.pending.lookup id = some (.body authorization))
      (hverified : verifyRequestToken verify sha256 verification.authorization verification.rawBody
        verification.nowMs s.jtiCache = (verification.outcome, jtiCache))
      (haccepted : verification.outcome = .ok ())
      (hparsed : parseRequest verification.rawBody opts.maxBytesCap = some input)
      (hfree : s.inflight < opts.maxInflight) :
      ServerMove s
        ⟨jtiCache, s.inflight + 1, s.arrived,
          (s.drop id).pending ++ [(id, .fetch verification.nowMs)]⟩
        [.verified id verification, .started id input]
  | ended {id : RequestId} {startedAt : Int} (answer : Answer)
      (hwaits : s.pending.lookup id = some (.fetch startedAt)) :
      ServerMove s { s.drop id with inflight := s.inflight - 1 } [.answered id answer]

variable {verify sha256 opts} {s s' : ServerState} {e : ServerEvent} {effects : List ServerEffect}

private theorem arrive_move (method url : String) (authorization : Option String) :
    ServerMove verify sha256 opts s (s.arrive method url authorization).1
        (s.arrive method url authorization).2 ∧
      verifications (s.arrive method url authorization).2 = [] := by
  unfold ServerState.arrive
  simp only
  split
  · exact ⟨.refused _, rfl⟩
  · split
    · exact ⟨.refused _, rfl⟩
    · exact ⟨.queued _, rfl⟩

private theorem serveBody_move {id : RequestId} {authorization : String} (raw : List UInt8)
    (nowMs : Int) (hwaits : s.pending.lookup id = some (.body authorization)) :
    ServerMove verify sha256 opts s
        (s.serveBody verify sha256 opts id authorization raw nowMs).1
        (s.serveBody verify sha256 opts id authorization raw nowMs).2 ∧
      ∀ v ∈ verifications (s.serveBody verify sha256 opts id authorization raw nowMs).2,
        v.nowMs = nowMs := by
  let verification : Verification := ⟨some authorization, raw, nowMs,
    (verifyRequestToken verify sha256 (some authorization) raw nowMs s.jtiCache).1⟩
  have hverified : verifyRequestToken verify sha256 verification.authorization verification.rawBody
      verification.nowMs s.jtiCache = (verification.outcome,
        (verifyRequestToken verify sha256 (some authorization) raw nowMs s.jtiCache).2) := rfl
  unfold ServerState.serveBody
  simp only
  split
  · exact ⟨.rejected _ hwaits hverified, by simp [verifications, ServerEffect.verification?]⟩
  · next hok =>
      split
      · exact ⟨.rejected _ hwaits hverified, by simp [verifications, ServerEffect.verification?]⟩
      · next input hparsed =>
          split
          · exact ⟨.rejected _ hwaits hverified,
              by simp [verifications, ServerEffect.verification?]⟩
          · next hfree =>
              exact ⟨.begun hwaits hverified hok hparsed (not_le.mp hfree),
                by simp [verifications, ServerEffect.verification?]⟩

theorem serverStep_move (h : serverStep verify sha256 opts s e = some (s', effects)) :
    ServerMove verify sha256 opts s s' effects ∧
      ∀ v ∈ verifications effects, e.verifiedAt = some v.nowMs := by
  cases e with
  | arrives method url authorization =>
      have heq : s.arrive method url authorization = (s', effects) := Option.some.inj h
      obtain ⟨hmove, hnone⟩ := @arrive_move verify sha256 opts s method url authorization
      rw [heq] at hmove hnone
      exact ⟨hmove, by simp [hnone]⟩
  | bodyRead id contentLength chunks nowMs =>
      simp only [serverStep] at h
      split at h
      · next authorization hwaits =>
          rw [Option.some.injEq, ServerState.bodyRead] at h
          cases hraw : readBody contentLength chunks with
          | none =>
              simp only [hraw, Prod.mk.injEq] at h
              obtain ⟨rfl, rfl⟩ := h
              exact ⟨.dropped _ hwaits, by simp [verifications, ServerEffect.verification?]⟩
          | some raw =>
              simp only [hraw] at h
              obtain ⟨hmove, hwhen⟩ :=
                @serveBody_move verify sha256 opts s id authorization raw nowMs hwaits
              rw [h] at hmove hwhen
              exact ⟨hmove, fun v hv => congrArg some (hwhen v hv).symm⟩
      · exact absurd h (by simp)
  | bodyFails id =>
      simp only [serverStep] at h
      split at h
      · next authorization hwaits =>
          simp only [Option.some.injEq, Prod.mk.injEq] at h
          obtain ⟨rfl, rfl⟩ := h
          exact ⟨.dropped _ hwaits, by simp [verifications, ServerEffect.verification?]⟩
      · exact absurd h (by simp)
  | fetched id result nowMs =>
      simp only [serverStep] at h
      split at h
      · next startedAt hwaits =>
          simp only [Option.some.injEq, Prod.mk.injEq] at h
          obtain ⟨rfl, rfl⟩ := h
          exact ⟨.ended _ hwaits, by simp [verifications, ServerEffect.verification?]⟩
      · exact absurd h (by simp)

/-! ## The invariant -/

variable {log : List ServerEffect}

/-- What holds of the server and of all that has been seen of it. -/
structure Orderly (opts : ServerOptions) (s : ServerState) (log : List ServerEffect) : Prop where
  inflight : s.inflight = s.fetching
  bounded : s.inflight ≤ opts.maxInflight
  answered : ∀ id, s.waiting id + answers log id = if id < s.arrived then 1 else 0
  started : ∀ id, s.unread id + starts log id ≤ if id < s.arrived then 1 else 0
  authorised : Log.Each (Authorised opts) log

private theorem Orderly.nodup (h : Orderly opts s log) : (s.pending.map Prod.fst).Nodup := by
  refine Table.nodup_of_count fun id => ?_
  have hanswered := h.answered id
  change s.waiting id ≤ 1
  split at hanswered <;> omega

/-- What is known of a request that waits, and of the rest. -/
private theorem Orderly.taken (h : Orderly opts s log) {id : RequestId} {phase : Phase}
    (hwaits : s.pending.lookup id = some phase) :
    id < s.arrived ∧ (s.drop id).fetching + (if phase.isFetch then 1 else 0) = s.fetching ∧
      (∀ other, (s.drop id).waiting other + (if id = other then 1 else 0) = s.waiting other) ∧
      ∀ other, (s.drop id).unread other + (if id = other ∧ phase.isFetch = false then 1 else 0) =
        s.unread other := by
  have hwaiting : ∀ other, (s.drop id).waiting other + (if id = other then 1 else 0) =
      s.waiting other := Table.count_others h.nodup hwaits
  have hcounted := Table.countP_others h.nodup hwaits
  refine ⟨?_, ?_, hwaiting, fun other => ?_⟩
  · have hanswered := h.answered id
    have hone := hwaiting id
    rw [if_pos rfl] at hone
    by_contra hlater
    rw [if_neg hlater] at hanswered
    omega
  · exact hcounted fun request => request.2.isFetch
  · have hunread := hcounted fun request => request.1 = other && !request.2.isFetch
    have hif : (if (decide (id = other) && !phase.isFetch) = true then 1 else 0) =
        if id = other ∧ phase.isFetch = false then 1 else 0 := by
      simp only [Bool.and_eq_true, decide_eq_true_eq, Bool.not_eq_true']
    rw [← hif]
    exact hunread

private theorem answers_append (effects : List ServerEffect) (id : RequestId) :
    answers (log ++ effects) id = answers log id + answers effects id := List.countP_append

private theorem starts_append (effects : List ServerEffect) (id : RequestId) :
    starts (log ++ effects) id = starts log id + starts effects id := List.countP_append

private theorem authorised_of_not_start {effect : ServerEffect}
    (h : ∀ id input, effect ≠ .started id input) (before : List ServerEffect) :
    Authorised opts before effect := fun id input heq => absurd heq (h id input)

/-- A request that waited is answered, whatever it waited for. -/
private theorem Orderly.leave (h : Orderly opts s log) {id : RequestId} {phase : Phase}
    (hwaits : s.pending.lookup id = some phase) (jtiCache : JtiCache)
    (hanswers : ∀ other, answers effects other = if id = other then 1 else 0)
    (hstarts : ∀ effect ∈ effects, ∀ other input, effect ≠ .started other input) :
    Orderly opts ⟨jtiCache, s.inflight - (if phase.isFetch then 1 else 0), s.arrived,
      (s.drop id).pending⟩ (log ++ effects) := by
  obtain ⟨-, hfetching, hwaiting, hunread⟩ := h.taken hwaits
  have hnone : ∀ other, starts effects other = 0 := by
    intro other
    refine List.countP_eq_zero.mpr fun effect heffect => ?_
    cases effect with
    | verified => simp [ServerEffect.isStart]
    | answered => simp [ServerEffect.isStart]
    | started id input => exact absurd rfl (hstarts _ heffect id input)
  refine ⟨?_, le_trans (Nat.sub_le _ _) h.bounded, fun other => ?_, fun other => ?_,
    h.authorised.append fun effect heffect => authorised_of_not_start (hstarts effect heffect)⟩
  · have hinflight := h.inflight
    change s.inflight - _ = (s.drop id).fetching
    omega
  · have hanswered := h.answered other
    change (s.drop id).waiting other + _ = _
    rw [answers_append, hanswers other, ← add_assoc, add_right_comm, hwaiting other]
    exact hanswered
  · have hle := hunread other
    have hstarted := h.started other
    change (s.drop id).unread other + _ ≤ _
    rw [starts_append, hnone other]
    exact le_trans (by omega) hstarted

private theorem Orderly.begin (h : Orderly opts s log) {id : RequestId} {authorization : String}
    {verification : Verification} {jtiCache : JtiCache} {input : FetchInput}
    (hwaits : s.pending.lookup id = some (.body authorization))
    (haccepted : verification.outcome = .ok ())
    (hparsed : parseRequest verification.rawBody opts.maxBytesCap = some input)
    (hfree : s.inflight < opts.maxInflight) :
    Orderly opts
      ⟨jtiCache, s.inflight + 1, s.arrived, (s.drop id).pending ++ [(id, .fetch verification.nowMs)]⟩
      (log ++ [.verified id verification, .started id input]) := by
  obtain ⟨-, hfetching, hwaiting, hunread⟩ := h.taken hwaits
  refine ⟨?_, hfree, fun other => ?_, fun other => ?_, ?_⟩
  · have hinflight := h.inflight
    rw [ServerState.fetching, List.countP_append]
    change s.inflight + 1 = (s.drop id).fetching + 1
    simp only [Phase.isFetch, Bool.false_eq_true, if_false] at hfetching
    omega
  · have hanswered := h.answered other
    have hnone : answers [ServerEffect.verified id verification, .started id input] other = 0 := rfl
    rw [answers_append, hnone, ServerState.waiting, Table.count, List.countP_append,
      List.countP_singleton]
    change (s.drop id).waiting other + _ + _ = _
    simp only [decide_eq_true_eq]
    rw [hwaiting other]
    exact hanswered
  · have hstarted := h.started other
    have hone : starts [ServerEffect.verified id verification, .started id input] other =
        if id = other then 1 else 0 := by
      simp [starts, ServerEffect.isStart]
    have hle := hunread other
    rw [starts_append, hone, ServerState.unread, List.countP_append, List.countP_singleton]
    change (s.drop id).unread other + _ + _ ≤ _
    simp only [Phase.isFetch, Bool.not_true, Bool.and_false, Bool.false_eq_true, if_false, and_true]
      at hle ⊢
    omega
  · rw [List.append_cons]
    refine (h.authorised.concat (authorised_of_not_start (by simp) log)).concat ?_
    rintro other started heq
    obtain ⟨rfl, rfl⟩ := ServerEffect.started.inj heq
    exact ⟨verification, List.getLast?_concat, haccepted, hparsed⟩

/-- Every way of a step keeps the invariant. -/
theorem Orderly.step (h : Orderly opts s log) (hmove : ServerMove verify sha256 opts s s' effects) :
    Orderly opts s' (log ++ effects) := by
  cases hmove with
  | refused answer =>
      refine ⟨h.inflight, h.bounded, fun id => ?_, fun id => ?_,
        h.authorised.concat (authorised_of_not_start (by simp) log)⟩
      · have hanswered := h.answered id
        have hone : answers [ServerEffect.answered s.arrived answer] id =
            if s.arrived = id then 1 else 0 := by
          simp [answers, ServerEffect.isAnswer]
        change s.waiting id + _ = if id < s.arrived + 1 then 1 else 0
        rw [answers_append, hone]
        grind
      · have hstarted := h.started id
        have hnone : starts [ServerEffect.answered s.arrived answer] id = 0 := rfl
        change s.unread id + _ ≤ if id < s.arrived + 1 then 1 else 0
        rw [starts_append, hnone]
        grind
  | queued authorization =>
      rw [List.append_nil]
      refine ⟨?_, h.bounded, fun id => ?_, fun id => ?_, h.authorised⟩
      · rw [ServerState.fetching, List.countP_append]
        exact h.inflight
      · have hanswered := h.answered id
        rw [ServerState.waiting, Table.count, List.countP_append, List.countP_singleton]
        change s.waiting id + _ + _ = if id < s.arrived + 1 then 1 else 0
        simp only [decide_eq_true_eq]
        grind
      · have hstarted := h.started id
        rw [ServerState.unread, List.countP_append, List.countP_singleton]
        change s.unread id + _ + _ ≤ if id < s.arrived + 1 then 1 else 0
        simp only [Phase.isFetch, Bool.not_false, Bool.and_true, decide_eq_true_eq]
        grind
  | dropped answer hwaits =>
      exact h.leave hwaits s.jtiCache (by simp [answers, ServerEffect.isAnswer]) (by simp)
  | rejected answer hwaits hverified =>
      exact h.leave hwaits _ (by simp [answers, ServerEffect.isAnswer]) (by simp)
  | begun hwaits hverified haccepted hparsed hfree => exact h.begin hwaits haccepted hparsed hfree
  | ended answer hwaits =>
      exact h.leave hwaits s.jtiCache (by simp [answers, ServerEffect.isAnswer]) (by simp)

/-! ## Runs -/

variable {es : List ServerEvent}

private theorem init_orderly : Orderly opts .init [] where
  inflight := rfl
  bounded := Nat.zero_le _
  answered id := by simp [ServerState.waiting, Table.count, ServerState.init, answers]
  started id := by simp [ServerState.unread, ServerState.init, starts]
  authorised := Log.each_nil

theorem run_orderly {C : StepCond (ServerState × List ServerEffect) ServerEvent}
    (h : (server verify sha256 opts).Run C es (s, log)) : Orderly opts s log := by
  refine h.invariant (I := fun _ state => Orderly opts state.1 state.2) ?_ ?_
  · rintro _ rfl
    exact init_orderly
  · rintro past before e after - hinv ⟨effects, hstep, hlog⟩ -
    rw [hlog]
    exact hinv.step (serverStep_move hstep).1

private theorem verifications_append (effects : List ServerEffect) :
    verifications (log ++ effects) = verifications log ++ verifications effects :=
  List.filterMap_append

/-- What one step adds to the verifications, and what becomes of the replay cache. -/
private theorem move_verifications (h : ServerMove verify sha256 opts s s' effects) :
    verifications effects = [] ∧ s'.jtiCache = s.jtiCache ∨
      ∃ v, verifications effects = [v] ∧
        (verifier verify sha256 MAX_JTI_ENTRIES).step s.jtiCache v s'.jtiCache := by
  cases h with
  | refused => exact .inl ⟨rfl, rfl⟩
  | queued => exact .inl ⟨rfl, rfl⟩
  | dropped => exact .inl ⟨rfl, rfl⟩
  | rejected _ _ hverified => exact .inr ⟨_, rfl, hverified⟩
  | begun _ hverified => exact .inr ⟨_, rfl, hverified⟩
  | ended => exact .inl ⟨rfl, rfl⟩

/-- The verifications of a run, whichever requests they serve, are a run of one verifier. -/
theorem run_verifier (h : (server verify sha256 opts).Run clockForward es (s, log)) :
    (verifier verify sha256 MAX_JTI_ENTRIES).Run Utsuroi.clockForward (verifications log).reverse
        s.jtiCache ∧
      ∀ v ∈ verifications log, ∃ e ∈ es, e.verifiedAt = some v.nowMs := by
  refine h.invariant (I := fun es state =>
    (verifier verify sha256 MAX_JTI_ENTRIES).Run Utsuroi.clockForward
        (verifications state.2).reverse state.1.jtiCache ∧
      ∀ v ∈ verifications state.2, ∃ e ∈ es, e.verifiedAt = some v.nowMs) ?_ ?_
  · rintro _ rfl
    exact ⟨.start rfl, by simp [verifications]⟩
  · rintro past before e after - ⟨hrun, hwhen⟩ ⟨effects, hstep, hlog⟩ hclock
    obtain ⟨hmove, hnow⟩ := serverStep_move hstep
    have hwhen' : ∀ v ∈ verifications before.2, ∃ e' ∈ e :: past, e'.verifiedAt = some v.nowMs := by
      intro v hv
      obtain ⟨e', he', hat⟩ := hwhen v hv
      exact ⟨e', List.mem_cons_of_mem _ he', hat⟩
    rw [hlog, verifications_append]
    rcases move_verifications hmove with ⟨hnone, hcache⟩ | ⟨v, hone, hverified⟩
    · rw [hnone, List.append_nil, hcache]
      exact ⟨hrun, hwhen'⟩
    · have hat : e.verifiedAt = some v.nowMs := hnow v (by simp [hone])
      rw [hone, List.reverse_concat]
      refine ⟨.next hrun hverified fun earlier hearlier => ?_, ?_⟩
      · obtain ⟨e', he', hat'⟩ := hwhen earlier (List.mem_reverse.mp hearlier)
        exact hclock e' he' _ hat' _ hat
      · intro w hw
        rcases List.mem_append.mp hw with hw | hw
        · exact hwhen' w hw
        · rw [List.mem_singleton.mp hw]
          exact ⟨e, List.mem_cons_self, hat⟩

/-- However the requests overlap: the fetches under way are those the counter counts and no more
than allowed, every request is answered once or still waits, a fetch starts once and only for the
body its token was accepted for, and no token is accepted twice while it holds. -/
theorem server_safe (h : (server verify sha256 opts).Run clockForward es (s, log)) :
    s.inflight = s.fetching ∧ s.fetching ≤ opts.maxInflight ∧
      (∀ id, s.waiting id + answers log id = if id < s.arrived then 1 else 0) ∧
      (∀ id, starts log id ≤ 1) ∧ Log.Each (Authorised opts) log ∧
      (verifications log).reverse.Pairwise NotReplayed := by
  have hinv := run_orderly h
  refine ⟨hinv.inflight, hinv.inflight ▸ hinv.bounded, hinv.answered, fun id => ?_, hinv.authorised,
    verifier_notReplayed (run_verifier h).1⟩
  have hstarted := hinv.started id
  split at hstarted <;> omega

end Steps

private theorem server_step {verify : List UInt8 → List UInt8 → Bool}
    {sha256 : List UInt8 → List UInt8} {opts : ServerOptions} {s s' : ServerState}
    {log effects : List ServerEffect} {e : ServerEvent}
    (h : serverStep verify sha256 opts s e = some (s', effects)) :
    (server verify sha256 opts).step (s, log) e (s', log ++ effects) := ⟨effects, h, rfl⟩

/-! ## A token that comes twice -/

section Twice

variable {verify : List UInt8 → List UInt8 → Bool} {sha256 : List UInt8 → List UInt8}
  {opts : ServerOptions} {authorization : String} {raw : List UInt8}

theorem arrive_queued (hne : authorization ≠ "") (s : ServerState) :
    s.arrive "POST" "/" (some authorization) =
      ({ s with arrived := s.arrived + 1, pending := s.pending ++ [(s.arrived, .body authorization)] },
        []) := by
  have hfilter : (some authorization).filter (fun text => text ≠ "") = some authorization := by
    simp only [Option.filter, ne_eq, hne, not_false_eq_true, decide_true, if_true]
  simp only [ServerState.arrive, hfilter]
  rfl

private theorem serveBody_verifications (s : ServerState) (id : RequestId) (nowMs : Int) :
    verifications (s.serveBody verify sha256 opts id authorization raw nowMs).2 =
      [⟨some authorization, raw, nowMs,
        (verifyRequestToken verify sha256 (some authorization) raw nowMs s.jtiCache).1⟩] := by
  unfold ServerState.serveBody
  simp only
  split
  · rfl
  · split
    · rfl
    · split
      · rfl
      · rfl

private theorem serveBody_refused {s : ServerState} {id : RequestId} {nowMs : Int} {message : String}
    (h : (verifyRequestToken verify sha256 (some authorization) raw nowMs s.jtiCache).1 =
      .error message) :
    (s.serveBody verify sha256 opts id authorization raw nowMs).2 =
      [.verified id ⟨some authorization, raw, nowMs, .error message⟩,
        .answered id (errorAnswer 401 "unauthorized")] := by
  simp only [ServerState.serveBody, h]

private theorem serveBody_pending (s : ServerState) (id : RequestId) (nowMs : Int) :
    ∃ fetches : List (RequestId × Phase), (∀ request ∈ fetches, request.1 = id) ∧
      (s.serveBody verify sha256 opts id authorization raw nowMs).1.pending =
        (s.drop id).pending ++ fetches := by
  unfold ServerState.serveBody
  simp only
  split
  · exact ⟨[], by simp, (List.append_nil _).symm⟩
  · split
    · exact ⟨[], by simp, (List.append_nil _).symm⟩
    · split
      · exact ⟨[], by simp, (List.append_nil _).symm⟩
      · exact ⟨_, by simp, rfl⟩

variable (authorization) in
/-- The server with two requests under one token before their bodies have been read. -/
private def twiceQueued : ServerState :=
  ⟨⟨MAX_JTI_ENTRIES, []⟩, 0, 2, [(0, .body authorization), (1, .body authorization)]⟩

variable (verify sha256 opts authorization raw)

private def firstRead (nowMs : Int) : ServerState × List ServerEffect :=
  (twiceQueued authorization).serveBody verify sha256 opts 0 authorization raw nowMs

private def secondRead (nowMs laterMs : Int) : ServerState × List ServerEffect :=
  (firstRead verify sha256 opts authorization raw nowMs).1.serveBody verify sha256 opts 1
    authorization raw laterMs

variable {verify sha256 opts authorization raw}

private theorem twice_run (hne : authorization ≠ "") {contentLength contentLength' : Option Nat}
    {chunks chunks' : List (List UInt8)} (hread : readBody contentLength chunks = some raw)
    (hread' : readBody contentLength' chunks' = some raw) {nowMs laterMs : Int}
    (hle : nowMs ≤ laterMs) :
    (server verify sha256 opts).Run clockForward
      [.bodyRead 1 contentLength' chunks' laterMs, .bodyRead 0 contentLength chunks nowMs,
        .arrives "POST" "/" (some authorization), .arrives "POST" "/" (some authorization)]
      ((secondRead verify sha256 opts authorization raw nowMs laterMs).1,
        (firstRead verify sha256 opts authorization raw nowMs).2 ++
          (secondRead verify sha256 opts authorization raw nowMs laterMs).2) := by
  have hfirst : (server verify sha256 opts).Run clockForward
      [.arrives "POST" "/" (some authorization)]
      (⟨⟨MAX_JTI_ENTRIES, []⟩, 0, 1, [(0, .body authorization)]⟩, []) :=
    .next (.start rfl) (server_step (congrArg some (arrive_queued hne _)))
      fun _ h => absurd h List.not_mem_nil
  have hqueued : (server verify sha256 opts).Run clockForward
      [.arrives "POST" "/" (some authorization), .arrives "POST" "/" (some authorization)]
      (twiceQueued authorization, []) :=
    .next hfirst (server_step (congrArg some (arrive_queued hne _))) fun _ _ _ _ now hnow =>
      absurd hnow (by simp [ServerEvent.verifiedAt])
  have hbegun : (server verify sha256 opts).Run clockForward
      [.bodyRead 0 contentLength chunks nowMs, .arrives "POST" "/" (some authorization),
        .arrives "POST" "/" (some authorization)]
      ((firstRead verify sha256 opts authorization raw nowMs).1,
        [] ++ (firstRead verify sha256 opts authorization raw nowMs).2) := by
    refine .next hqueued (server_step ?_) ?_
    · have hwaits : (twiceQueued authorization).pending.lookup 0 = some (.body authorization) := rfl
      simp only [serverStep, hwaits, ServerState.bodyRead, hread]
      rfl
    · intro earlier hearlier before hbefore
      simp only [List.mem_cons, List.not_mem_nil, or_false, or_self] at hearlier
      rw [hearlier] at hbefore
      exact absurd hbefore (by simp [ServerEvent.verifiedAt])
  refine .next hbegun (server_step ?_) ?_
  · have hwaits : (firstRead verify sha256 opts authorization raw nowMs).1.pending.lookup 1 =
        some (.body authorization) := by
      obtain ⟨fetches, -, hpending⟩ := @serveBody_pending verify sha256 opts authorization raw
        (twiceQueued authorization) 0 nowMs
      rw [firstRead, hpending]
      rfl
    simp only [serverStep, hwaits, ServerState.bodyRead, hread']
    rfl
  · intro earlier hearlier before hbefore now hnow
    obtain rfl := Option.some.inj hnow
    simp only [List.mem_cons, List.not_mem_nil, or_false, or_self] at hearlier
    rcases hearlier with rfl | rfl
    · rw [← Option.some.inj hbefore]
      exact hle
    · exact absurd hbefore (by simp [ServerEvent.verifiedAt])

end Twice

theorem pageBody_read {contentLength : Option Nat} (h : ∀ n ∈ contentLength, n = pageBody.length) :
    readBody contentLength [pageBody] = some pageBody := by
  have hlength : ¬ MAX_REQUEST_BODY_BYTES < pageBody.length := by
    rw [pageBody, Json.length_encode_text]
    decide +kernel
  have hflatten : [pageBody].flatten = pageBody := List.append_nil pageBody
  rw [readBody_eq (by rwa [hflatten]), hflatten, if_neg hlength]

theorem pageAuthorization_ne : pageAuthorization ≠ "" := by
  intro h
  have hhead := congrArg (fun text => text.toList.take 1) h
  simp [pageAuthorization] at hhead

private def pageFirst : ServerState × List ServerEffect :=
  firstRead pageVerify pageHash pageOptions pageAuthorization pageBody 1750000000100

private def pageSecond : ServerState × List ServerEffect :=
  secondRead pageVerify pageHash pageOptions pageAuthorization pageBody 1750000000100 1750000000200

/-- Two requests come under one token: the fetch of the first is under way, the second is refused. -/
theorem server_safe_replay :
    starts (pageFirst.2 ++ pageSecond.2) 0 = 1 ∧ starts (pageFirst.2 ++ pageSecond.2) 1 = 0 ∧
      answers (pageFirst.2 ++ pageSecond.2) 1 = 1 ∧
      pageSecond.1.inflight = pageSecond.1.fetching := by
  have hrun : (server pageVerify pageHash pageOptions).Run clockForward _
      (pageSecond.1, pageFirst.2 ++ pageSecond.2) :=
    twice_run pageAuthorization_ne (@pageBody_read (some pageBody.length)
      fun n hn => (Option.some.inj hn).symm) (@pageBody_read none nofun) (by decide)
  obtain ⟨hinflight, -, -, -, -, hpairwise⟩ := server_safe hrun
  have hok : (verifyRequestToken pageVerify pageHash (some pageAuthorization) pageBody 1750000000100
      ⟨MAX_JTI_ENTRIES, []⟩).1 = .ok () :=
    (posted_accepted_iff (fun _ => rfl) pageVerify_signed pageJti_uuid pageBody
      ⟨MAX_JTI_ENTRIES, []⟩ 1750000000100).mpr pageToken_holds
  have hfirst : pageFirst.2 = [.verified 0 ⟨some pageAuthorization, pageBody, 1750000000100, .ok ()⟩,
      .started 0 (askedFetch pageInvocation pageOptions)] :=
    @serveBody_started pageVerify pageHash pageOptions (twiceQueued pageAuthorization) 0
      pageAuthorization pageBody 1750000000100 _ hok pageBody_parsed (Nat.succ_pos 7)
  have hsecond : pageSecond = pageFirst.1.serveBody pageVerify pageHash pageOptions 1
      pageAuthorization pageBody 1750000000200 := rfl
  generalize pageSecond = second at hsecond hpairwise hinflight ⊢
  generalize pageFirst = first at hfirst hsecond hpairwise ⊢
  cases houtcome : (verifyRequestToken pageVerify pageHash (some pageAuthorization) pageBody
      1750000000200 first.1.jtiCache).1 with
  | error message =>
      have heffects : second.2 = _ := hsecond ▸ serveBody_refused houtcome
      rw [hfirst, heffects]
      exact ⟨rfl, rfl, rfl, hinflight⟩
  | ok =>
      -- the token would have been accepted twice
      have hlater : verifications second.2 =
          [⟨some pageAuthorization, pageBody, 1750000000200, .ok ()⟩] := by
        rw [← houtcome, hsecond]
        exact serveBody_verifications first.1 1 1750000000200
      have hearlier : verifications first.2 =
          [⟨some pageAuthorization, pageBody, 1750000000100, .ok ()⟩] := by
        rw [hfirst]
        rfl
      rw [verifications_append, hlater, hearlier] at hpairwise
      have hreplayed : NotReplayed
          ⟨some pageAuthorization, pageBody, 1750000000200, .ok ()⟩
          ⟨some pageAuthorization, pageBody, 1750000000100, .ok ()⟩ :=
        List.rel_of_pairwise_cons hpairwise List.mem_cons_self
      exact absurd rfl (hreplayed rfl rfl).1

end Utsuroi.GcpServer

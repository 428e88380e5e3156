import Mathlib.Tactic
import Utsuroi.Fetch.Proofs.Policy
import Utsuroi.Framework.Log
import Utsuroi.Pipeline.FetchTarget

/-!
# The pull fetchers of a check

What holds of the shared fields holds after any sequence of fetchers, whatever the policy makes of
their answers; the policy only ends a sequence when an attempt could not be recorded.
-/

namespace Utsuroi

/-! ## Invocations -/

/-- The limits are positive and fit what remained of the budget. -/
def Invocation.Fits (invocation : Invocation) : Prop :=
  ∃ limits, invocation.submitLimits = some limits ∧ 0 < limits.leaseWaitMs ∧
    0 < limits.resultWaitMs ∧ limits.leaseWaitMs + limits.resultWaitMs ≤ invocation.remainingMs

/-- A pull fetcher took no longer than its limits. -/
def Invocation.InTime (invocation : Invocation) : Prop :=
  ∀ limits, invocation.submitLimits = some limits →
    (invocation.answer.elapsedMs : Int) ≤ limits.leaseWaitMs + limits.resultWaitMs

instance (invocation : Invocation) : Decidable invocation.InTime :=
  inferInstanceAs (Decidable (∀ limits ∈ invocation.submitLimits,
    (invocation.answer.elapsedMs : Int) ≤ limits.leaseWaitMs + limits.resultWaitMs))

/-- What the check has waited for pull fetchers. -/
def pullWait (invocations : List Invocation) : Nat :=
  ((invocations.filter fun invocation => isPull invocation.fetcherId).map
    fun invocation => invocation.answer.elapsedMs).sum

theorem pullWait_append (before after : List Invocation) :
    pullWait (before ++ after) = pullWait before + pullWait after := by
  rw [pullWait, List.filter_append, List.map_append, List.sum_append]
  rfl

theorem pullWait_singleton (invocation : Invocation) :
    pullWait [invocation] =
      if isPull invocation.fetcherId then invocation.answer.elapsedMs else 0 := by
  cases hpull : isPull invocation.fetcherId with
  | true => simp [pullWait, hpull]
  | false => simp [pullWait, hpull]

theorem submitLimits_fits {s : FetchState} {fetcherId : String} (hpull : isPull fetcherId = true)
    (hremaining : MIN_PULL_WAIT_MS ≤ s.remainingMs) (answer : FetcherAnswer) :
    Invocation.Fits ⟨fetcherId, s.remainingMs, s.submitLimits fetcherId, answer⟩ := by
  refine ⟨_, if_pos hpull, ?_, ?_, ?_⟩
  all_goals
    simp only [FetchState.leaseWaitMs, MIN_PULL_WAIT_MS] at *
    omega

/-! ## What every fetcher leaves true -/

structure Budgeted (s : FetchState) : Prop where
  fits : ∀ invocation ∈ s.invocations, isPull invocation.fetcherId = true → invocation.Fits
  remaining : ∀ before invocation after, s.invocations = before ++ invocation :: after →
    invocation.remainingMs ≤ PULL_WAIT_BUDGET_MS - pullWait before
  counted : pullWait s.invocations ≤ s.pullWaitUsedMs
  bounded : (∀ invocation ∈ s.invocations, invocation.InTime) →
    (pullWait s.invocations : Int) ≤ PULL_WAIT_BUDGET_MS
  noted : ∀ invocation ∈ s.invocations, invocation.answer.outcome.isUnavailable = true →
    invocation.fetcherId ∈ s.unavailableFetchers
  once : s.invocations.Pairwise fun invocation later =>
    invocation.answer.outcome.isUnavailable = true → later.fetcherId ≠ invocation.fetcherId

theorem budgeted_init : Budgeted .init where
  fits := by simp [FetchState.init]
  remaining := by simp [FetchState.init]
  counted := by simp [FetchState.init, pullWait]
  bounded := by simp [FetchState.init, pullWait, PULL_WAIT_BUDGET_MS]
  noted := by simp [FetchState.init]
  once := List.Pairwise.nil

/-- Fields of one fetch do not matter. -/
theorem Budgeted.congr {s t : FetchState} (h : Budgeted s)
    (hused : t.pullWaitUsedMs = s.pullWaitUsedMs)
    (hunavailable : t.unavailableFetchers = s.unavailableFetchers)
    (hinvocations : t.invocations = s.invocations) : Budgeted t where
  fits := hinvocations ▸ h.fits
  remaining := hinvocations ▸ h.remaining
  counted := by
    rw [hinvocations, hused]
    exact h.counted
  bounded := hinvocations ▸ h.bounded
  noted := by
    rw [hinvocations, hunavailable]
    exact h.noted
  once := hinvocations ▸ h.once

section Steps

variable {s : FetchState} {fetcherId : String}

theorem noteOutcome_used (s : FetchState) (fetcherId : String) (answer : FetcherAnswer) :
    s.pullWaitUsedMs ≤ (s.noteOutcome fetcherId answer).pullWaitUsedMs := by
  simp only [FetchState.noteOutcome]
  split <;> omega

theorem noteOutcome_unavailable (answer : FetcherAnswer) {other : String}
    (h : other ∈ s.unavailableFetchers) :
    other ∈ (s.noteOutcome fetcherId answer).unavailableFetchers := by
  simp only [FetchState.noteOutcome]
  split
  · exact List.mem_append_left _ h
  · exact h

/-- No fetcher is run. -/
theorem Budgeted.refused (h : Budgeted s) (answer : FetcherAnswer) :
    Budgeted (s.noteOutcome fetcherId answer) where
  fits := h.fits
  remaining := h.remaining
  counted := h.counted.trans (noteOutcome_used s fetcherId answer)
  bounded := h.bounded
  noted := fun invocation hin hunavailable =>
    noteOutcome_unavailable answer (h.noted invocation hin hunavailable)
  once := h.once

theorem refusal_none (h : s.refusal fetcherId = none) :
    fetcherId ∉ s.unavailableFetchers ∧
      (isPull fetcherId = true → MIN_PULL_WAIT_MS ≤ s.remainingMs) := by
  rw [FetchState.refusal] at h
  split at h
  · cases h
  · next hknown =>
      split at h
      · cases h
      · next hbudget =>
          refine ⟨fun hmem => hknown (List.contains_iff_mem.mpr hmem), fun hpull => ?_⟩
          rw [hpull, Bool.true_and, decide_eq_true_eq] at hbudget
          omega

/-- A fetcher is run. -/
theorem Budgeted.invoked (h : Budgeted s) (hrefusal : s.refusal fetcherId = none)
    (answer : FetcherAnswer) :
    Budgeted { s.noteOutcome fetcherId answer with
      invocations := s.invocations ++
        [⟨fetcherId, s.remainingMs, s.submitLimits fetcherId, answer⟩] } := by
  obtain ⟨hknown, hremaining⟩ := refusal_none hrefusal
  have hsum : pullWait (s.invocations ++
      [⟨fetcherId, s.remainingMs, s.submitLimits fetcherId, answer⟩]) =
      pullWait s.invocations + if isPull fetcherId then answer.elapsedMs else 0 := by
    rw [pullWait_append, pullWait_singleton]
  have hcounted := h.counted
  refine ⟨?_, ?_, ?_, ?_, ?_, ?_⟩
  · intro invocation hin hpull
    rcases List.mem_append.mp hin with hold | hnew
    · exact h.fits invocation hold hpull
    · rw [List.mem_singleton] at hnew
      subst hnew
      exact submitLimits_fits hpull (hremaining hpull) answer
  · intro before invocation after hsplit
    rcases Log.split_concat hsplit with ⟨rest, hold⟩ | ⟨rfl, rfl⟩
    · exact h.remaining before invocation rest hold
    · simp only [FetchState.remainingMs]
      omega
  · simp only [hsum, FetchState.noteOutcome]
    split <;> omega
  · intro hintime
    have hbefore := h.bounded fun invocation hin => hintime invocation (List.mem_append_left _ hin)
    simp only [hsum]
    cases hpull : isPull fetcherId with
    | false => simpa using hbefore
    | true =>
        have hlast := hintime _ (List.mem_append_right _ (List.mem_singleton_self _))
        obtain ⟨limits, hlimits, -, -, hfit⟩ := submitLimits_fits hpull (hremaining hpull) answer
        have hwait := hlast limits hlimits
        simp only [FetchState.remainingMs] at hfit hwait
        simp only [if_true]
        omega
  · intro invocation hin hunavailable
    rcases List.mem_append.mp hin with hold | hnew
    · exact noteOutcome_unavailable answer (h.noted invocation hold hunavailable)
    · rw [List.mem_singleton] at hnew
      subst hnew
      simp only [FetchState.noteOutcome]
      rw [if_pos hunavailable]
      exact List.mem_append_right _ (List.mem_singleton_self _)
  · rw [List.pairwise_append]
    refine ⟨h.once, List.pairwise_singleton _ _, ?_⟩
    intro invocation hin later hlater hunavailable heq
    rw [List.mem_singleton] at hlater
    subst hlater
    have hname : fetcherId = invocation.fetcherId := heq
    exact hknown (hname ▸ h.noted invocation hin hunavailable)

theorem Budgeted.attempt (world : FetchWorld) (h : Budgeted s) :
    Budgeted (attempt world s fetcherId).2 := by
  rw [Utsuroi.attempt]
  cases hrefusal : s.refusal fetcherId with
  | some outcome => exact h.refused _
  | none => exact h.invoked hrefusal _

theorem Budgeted.executeFetcher (world : FetchWorld) (target : FetchedTarget) (h : Budgeted s) :
    Budgeted (executeFetcher world target s fetcherId).2 := by
  have hattempt : Budgeted (Utsuroi.attempt world s fetcherId).2 := h.attempt world
  rw [Utsuroi.executeFetcher]
  split
  · exact hattempt.congr rfl rfl rfl
  · exact hattempt.congr rfl rfl rfl

theorem Budgeted.replay (world : FetchWorld) (target : FetchedTarget) (h : Budgeted s)
    (fetcherIds : List String) : Budgeted (replayFetchers world target s fetcherIds) := by
  induction fetcherIds generalizing s with
  | nil => exact h
  | cons fetcherId fetcherIds ih => exact ih (h.executeFetcher world target)

theorem Budgeted.fetch (world : FetchWorld) (target : FetchedTarget) (policy : FetcherPolicy)
    (h : Budgeted s) : Budgeted (fetchTargetThroughPolicy world target policy s).2 := by
  have hstart : Budgeted { s with attemptIndex := 0, lastAttemptId := none, attempts := [] } :=
    h.congr rfl rfl rfl
  exact hstart.replay world target _

end Steps

/-! ## The numbers of the attempts -/

/-- Every call in the log was answered as the fetchers answer after the calls before it. -/
def Answered (behaviour : FetcherBehaviour) (executions : List Execution) : Prop :=
  ∀ before execution after, executions = before ++ execution :: after →
    execution.outcome = behaviour before execution.fetcherId

section Answers

variable {behaviour : FetcherBehaviour}

theorem answered_nil : Answered behaviour [] := by
  intro before execution after hsplit
  simp at hsplit

theorem Answered.execute {log : FetchLog} (h : Answered behaviour log.executions)
    (fetcherId : String) : Answered behaviour (log.execute behaviour fetcherId).2.executions := by
  intro before execution after hsplit
  rw [FetchLog.execute] at hsplit
  rcases Log.split_concat hsplit with ⟨rest, hold⟩ | ⟨rfl, rfl⟩
  · exact h before execution rest hold
  · rfl

theorem Answered.retry (opts : SequenceOpts) (fetcherId : String) (left : Nat)
    (outcome : FetchOutcome) {log : FetchLog}
    (h : Answered behaviour log.executions) :
    Answered behaviour (retryFetcher opts behaviour fetcherId left outcome log).2.executions := by
  induction left generalizing outcome log with
  | zero => exact h
  | succ left ih =>
      rw [retryFetcher]
      split
      · have hslept : Answered behaviour ({ log with sleeps := log.sleeps ++
            [opts.backoffMs * (opts.retries - left)] } : FetchLog).executions := h
        have hexecuted := hslept.execute fetcherId
        simp only
        split
        · next hrun =>
            rw [hrun] at hexecuted
            exact hexecuted
        · next hrun =>
            rw [hrun] at hexecuted
            exact ih _ hexecuted
      · exact h

theorem Answered.tryEntry (opts : SequenceOpts) (entry : FetcherPolicyEntry) {log : FetchLog}
    (h : Answered behaviour log.executions) :
    Answered behaviour (tryEntry opts behaviour entry log).2.executions := by
  have hexecuted := h.execute entry.fetcherId
  rw [Utsuroi.tryEntry]
  split
  · next hrun =>
      rw [hrun] at hexecuted
      exact hexecuted
  · next hrun =>
      rw [hrun] at hexecuted
      exact hexecuted.retry opts _ _ _

theorem Answered.tryEntries (opts : SequenceOpts) (entry : FetcherPolicyEntry)
    (rest : List FetcherPolicyEntry) {log : FetchLog} (h : Answered behaviour log.executions) :
    Answered behaviour (tryEntries opts behaviour entry rest log).2.executions := by
  induction rest generalizing entry log with
  | nil => exact h.tryEntry opts entry
  | cons next rest ih =>
      have htried := h.tryEntry opts entry
      rw [Utsuroi.tryEntries]
      split
      · next hrun =>
          rw [hrun] at htried
          exact htried
      · next hrun =>
          rw [hrun] at htried
          split
          · exact htried
          · exact ih next htried

theorem runFetchSequence_answered (opts : SequenceOpts) (behaviour : FetcherBehaviour)
    (policy : FetcherPolicy) :
    Answered behaviour (runFetchSequence opts behaviour policy).2.executions := by
  rw [runFetchSequence]
  split
  · exact answered_nil
  · exact answered_nil
  · next entry rest _ =>
      have hstart : Answered behaviour (⟨[], []⟩ : FetchLog).executions := answered_nil
      have htried := hstart.tryEntries opts entry rest
      split
      · next hrun =>
          rw [hrun] at htried
          exact htried
      · next hrun =>
          rw [hrun] at htried
          exact htried

end Answers

def attemptIndexes (s : FetchState) : List Nat := s.attempts.map CheckAttempt.attemptIndex

/-- The attempts are numbered from 0, and the next one has the next number. -/
def AttemptsAligned (s : FetchState) : Prop :=
  attemptIndexes s = List.range s.attempts.length ∧ s.attemptIndex = s.attempts.length

section Numbers

variable {world : FetchWorld} {target : FetchedTarget} {s : FetchState} {fetcherId : String}

theorem attempt_attempts : (attempt world s fetcherId).2.attempts = s.attempts := by
  rw [attempt]
  cases s.refusal fetcherId with
  | none => rfl
  | some outcome => rfl

theorem attempt_index : (attempt world s fetcherId).2.attemptIndex = s.attemptIndex + 1 := by
  rw [attempt]
  cases s.refusal fetcherId with
  | none => rfl
  | some outcome => rfl

theorem executeFetcher_recorded (target : FetchedTarget) (fetcherId : String)
    (h : world.recorded s.attemptIndex = true) :
    attemptIndexes (executeFetcher world target s fetcherId).2 =
        attemptIndexes s ++ [s.attemptIndex] ∧
      (executeFetcher world target s fetcherId).2.attemptIndex = s.attemptIndex + 1 := by
  rw [executeFetcher]
  simp only [h, if_true, attemptIndexes, attempt_attempts, attempt_index, List.map_append,
    List.map_singleton, attemptRow, and_self]

theorem executeFetcher_unrecorded (target : FetchedTarget) (fetcherId : String)
    (h : world.recorded s.attemptIndex = false) :
    (executeFetcher world target s fetcherId).1 = none ∧
      attemptIndexes (executeFetcher world target s fetcherId).2 = attemptIndexes s := by
  rw [executeFetcher]
  simp [h, attemptIndexes, attempt_attempts]

theorem attemptIndexes_length (s : FetchState) : (attemptIndexes s).length = s.attempts.length :=
  List.length_map _

theorem AttemptsAligned.executeFetcher (h : AttemptsAligned s)
    (hrecorded : world.recorded s.attemptIndex = true) :
    AttemptsAligned (executeFetcher world target s fetcherId).2 := by
  have hafter := executeFetcher_recorded target fetcherId hrecorded
  rw [h.2] at hafter
  have hlength : (Utsuroi.executeFetcher world target s fetcherId).2.attempts.length =
      s.attempts.length + 1 := by
    rw [← attemptIndexes_length, hafter.1, List.length_append, attemptIndexes_length]
    rfl
  refine ⟨?_, ?_⟩
  · rw [hafter.1, h.1, hlength, List.range_succ]
  · rw [hafter.2, hlength]

theorem replay_concat (before : List Execution) (execution : Execution) :
    replayFetchers world target s ((before ++ [execution]).map Execution.fetcherId) =
      (executeFetcher world target
        (replayFetchers world target s (before.map Execution.fetcherId))
        execution.fetcherId).2 := by
  rw [replayFetchers, List.map_append, List.foldl_append]
  rfl

theorem attemptsAligned_replay (h : AttemptsAligned s) {executions : List Execution}
    (hanswered : Answered (targetBehaviour world target s) executions)
    (hall : ∀ x ∈ executions, x.outcome ≠ none) :
    AttemptsAligned (replayFetchers world target s (executions.map Execution.fetcherId)) := by
  induction executions using List.reverseRecOn with
  | nil => exact h
  | append_singleton before x ih =>
      have hbefore : Answered (targetBehaviour world target s) before := by
        intro first execution rest hsplit
        exact hanswered first execution (rest ++ [x]) (by rw [hsplit]; simp)
      have haligned := ih hbefore fun y hy => hall y (List.mem_append_left _ hy)
      have houtcome := hanswered before x [] rfl
      rw [replay_concat]
      apply haligned.executeFetcher
      by_contra hunrecorded
      rw [targetBehaviour,
        (executeFetcher_unrecorded target x.fetcherId (eq_false_of_ne_true hunrecorded)).1] at houtcome
      exact hall x (List.mem_append_right _ (List.mem_singleton_self x)) houtcome

/-- Only the last attempt of a sequence may fail to be recorded. -/
theorem numbered_replay (h : AttemptsAligned s) {executions : List Execution}
    (hanswered : Answered (targetBehaviour world target s) executions)
    (hfailed : ∀ x ∈ executions.dropLast, ∃ failureClass, x.failure? = some failureClass) :
    attemptIndexes (replayFetchers world target s (executions.map Execution.fetcherId)) =
      List.range (replayFetchers world target s
        (executions.map Execution.fetcherId)).attempts.length := by
  rcases List.eq_nil_or_concat executions with rfl | ⟨before, x, hsplit⟩
  · exact h.1
  · rw [List.concat_eq_append] at hsplit
    subst hsplit
    have hbefore : Answered (targetBehaviour world target s) before := by
      intro first execution rest hsplit
      exact hanswered first execution (rest ++ [x]) (by rw [hsplit]; simp)
    have hall : ∀ y ∈ before, y.outcome ≠ none := by
      intro y hy hnone
      obtain ⟨failureClass, hfailure⟩ := hfailed y (by simpa using hy)
      rw [Execution.failure?, hnone] at hfailure
      cases hfailure
    have hbudget := attemptsAligned_replay h hbefore hall
    rw [replay_concat]
    cases hrecorded : world.recorded
        (replayFetchers world target s (before.map Execution.fetcherId)).attemptIndex with
    | true => exact (hbudget.executeFetcher hrecorded).1
    | false =>
        rw [← attemptIndexes_length, (executeFetcher_unrecorded target x.fetcherId hrecorded).2,
          attemptIndexes_length]
        exact hbudget.1

theorem fetchTarget_numbered (world : FetchWorld) (target : FetchedTarget)
    (policy : FetcherPolicy) (s : FetchState) :
    attemptIndexes (fetchTargetThroughPolicy world target policy s).2 =
      List.range (fetchTargetThroughPolicy world target policy s).2.attempts.length := by
  have hstart : AttemptsAligned { s with attemptIndex := 0, lastAttemptId := none, attempts := [] } :=
    ⟨rfl, rfl⟩
  apply numbered_replay hstart (runFetchSequence_answered _ _ _)
  intro x hx
  obtain ⟨failureClass, hfailure, -⟩ := (runFetchSequence_follows _ _ _).2.2.1 x hx
  exact ⟨failureClass, hfailure⟩

end Numbers

/-! ## A check -/

theorem fetchTargets_budgeted (policy : FetcherPolicy)
    (fetches : List (FetchWorld × FetchedTarget)) {s : FetchState} (h : Budgeted s) :
    ∀ after ∈ fetchTargets policy fetches s, Budgeted after ∧
      attemptIndexes after = List.range after.attempts.length := by
  induction fetches generalizing s with
  | nil =>
      intro after hafter
      cases hafter
  | cons fetch fetches ih =>
      have hfetched := h.fetch fetch.1 fetch.2 policy
      rw [fetchTargets, List.forall_mem_cons]
      exact ⟨⟨hfetched, fetchTarget_numbered fetch.1 fetch.2 policy s⟩, ih hfetched⟩

theorem fetchTargets_pullWait (policy : FetcherPolicy)
    (fetches : List (FetchWorld × FetchedTarget)) :
    ∀ s ∈ fetchTargets policy fetches .init,
      (∀ invocation ∈ s.invocations, isPull invocation.fetcherId = true → invocation.Fits) ∧
      (∀ before invocation after, s.invocations = before ++ invocation :: after →
        invocation.remainingMs ≤ PULL_WAIT_BUDGET_MS - pullWait before) ∧
      ((∀ invocation ∈ s.invocations, invocation.InTime) →
        (pullWait s.invocations : Int) ≤ PULL_WAIT_BUDGET_MS) ∧
      (s.invocations.Pairwise fun invocation later =>
        invocation.answer.outcome.isUnavailable = true →
          later.fetcherId ≠ invocation.fetcherId) ∧
      s.attempts.map CheckAttempt.attemptIndex = List.range s.attempts.length := by
  intro s hs
  obtain ⟨hbudgeted, hnumbered⟩ := fetchTargets_budgeted policy fetches budgeted_init s hs
  exact ⟨hbudgeted.fits, hbudgeted.remaining, hbudgeted.bounded, hbudgeted.once, hnumbered⟩

/-- The home runner takes 20 s or what it may take, and times out; the worker's own fetcher
answers. -/
def slowHome : FetchWorld where
  runFetcher := fun _ fetcherId limits =>
    if isPull fetcherId then
      ⟨.failure .timeout none "timed out" none, 0, some "job",
        limits.elim 0 fun limits => (min 20000 (limits.leaseWaitMs + limits.resultWaitMs)).toNat⟩
    else ⟨.success 200 false "https://a.test/" none none none (some []), 12, none, 12⟩
  idleMs := fun _ => 0
  attemptIds := fun index => toString index
  recorded := fun _ => true

def homeFirst : FetcherPolicy :=
  ⟨["home-http", "http"], [⟨"home-http", none⟩, ⟨"http", none⟩]⟩

/-- The source and three child sitemaps. -/
def slowFetches : List (FetchWorld × FetchedTarget) :=
  [(slowHome, ⟨"job", "source"⟩), (slowHome, ⟨"job", "news"⟩), (slowHome, ⟨"job", "blog"⟩),
    (slowHome, ⟨"job", "docs"⟩)]

/-- After the last fetch. -/
def afterSlowFetches : FetchState := (fetchTargets homeFirst slowFetches .init).getLastD .init

/-- The third fetch gets what is left of the budget, the last one does without the home runner. -/
theorem fetchTargets_pullWait_slowHome :
    afterSlowFetches.invocations.map
        (fun invocation => (invocation.fetcherId, invocation.answer.elapsedMs)) =
      [("home-http", 20000), ("http", 12), ("home-http", 20000), ("http", 12),
        ("home-http", 15000), ("http", 12), ("http", 12)] ∧
    (pullWait afterSlowFetches.invocations : Int) ≤ PULL_WAIT_BUDGET_MS ∧
    afterSlowFetches.attempts.map CheckAttempt.attemptIndex =
      List.range afterSlowFetches.attempts.length := by
  have hlast : afterSlowFetches ∈ fetchTargets homeFirst slowFetches .init := by
    apply List.mem_cons_of_mem
    apply List.mem_cons_of_mem
    apply List.mem_cons_of_mem
    exact List.mem_cons_self
  obtain ⟨_, _, hbounded, _, hnumbered⟩ :=
    fetchTargets_pullWait homeFirst slowFetches afterSlowFetches hlast
  exact ⟨by decide +kernel, hbounded (by decide +kernel), hnumbered⟩

end Utsuroi

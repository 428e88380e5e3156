import Mathlib.Tactic
import Utsuroi.Fetch.Policy

/-!
# Runs follow the policy
-/

namespace Utsuroi

variable {opts : SequenceOpts}

/-! ## The tries of one entry -/

/-- Executions of one fetcher, all but the last of which asked for another one of `left`. -/
inductive Tries (opts : SequenceOpts) (fetcherId : String) :
    Nat → List Execution → Option FetchOutcome → Prop
  | last (left : Nat) (answer : Option FetchOutcome) :
    Tries opts fetcherId left [⟨fetcherId, answer⟩] answer
  | retry {left : Nat} {outcome : FetchOutcome} {more : List Execution}
    {answer : Option FetchOutcome} (hretry : wantsRetry opts fetcherId outcome = true)
    (hmore : Tries opts fetcherId left more answer) :
    Tries opts fetcherId (left + 1) (⟨fetcherId, some outcome⟩ :: more) answer

section Tries

variable {fetcherId : String} {left : Nat} {executions : List Execution}
  {answer : Option FetchOutcome}

theorem wantsRetry_iff {outcome : FetchOutcome} : wantsRetry opts fetcherId outcome = true ↔
    opts.retryable fetcherId = true ∧
      (outcome.failure? = some .http5xx ∨ outcome.failure? = some .networkError) := by
  unfold wantsRetry
  cases outcome.failure? with
  | none => simp
  | some failureClass => simp [TRANSIENT_RETRY_FAILURE_CLASSES]

theorem Tries.ne_nil (h : Tries opts fetcherId left executions answer) : executions ≠ [] := by
  cases h with
  | last left answer => simp
  | retry hretry hmore => simp

theorem Tries.length_le (h : Tries opts fetcherId left executions answer) :
    executions.length ≤ 1 + left := by
  induction h with
  | last left answer => simp
  | retry hretry hmore ih =>
    rw [List.length_cons]
    omega

theorem Tries.fetcher (h : Tries opts fetcherId left executions answer) :
    ∀ x ∈ executions, x.fetcherId = fetcherId := by
  induction h with
  | last left answer => simp
  | retry hretry hmore ih => simpa using ih

theorem Tries.getLast? (h : Tries opts fetcherId left executions answer) :
    executions.getLast? = some ⟨fetcherId, answer⟩ := by
  induction h with
  | last left answer => rfl
  | retry hretry hmore ih => rw [List.getLast?_cons, ih, Option.getD_some]

theorem Tries.retried (h : Tries opts fetcherId left executions answer) :
    ∀ x ∈ executions.dropLast, opts.retryable fetcherId = true ∧
      (x.failure? = some .http5xx ∨ x.failure? = some .networkError) := by
  induction h with
  | last left answer => simp
  | retry hretry hmore ih =>
    intro x hx
    rw [List.dropLast_cons_of_ne_nil hmore.ne_nil, List.mem_cons] at hx
    rcases hx with heq | hx
    · rw [heq]
      exact wantsRetry_iff.mp hretry
    · exact ih x hx

theorem retryFetcher_tries (opts : SequenceOpts) (executeFetcher : FetcherBehaviour) (left : Nat)
    (outcome : FetchOutcome) (log : FetchLog) :
    ∃ more, Tries opts fetcherId left (⟨fetcherId, some outcome⟩ :: more)
        (retryFetcher opts executeFetcher fetcherId left outcome log).1 ∧
      (retryFetcher opts executeFetcher fetcherId left outcome log).2.executions =
        log.executions ++ more := by
  induction left generalizing outcome log with
  | zero => exact ⟨[], .last 0 _, (List.append_nil _).symm⟩
  | succ left ih =>
    unfold retryFetcher
    cases hretry : wantsRetry opts fetcherId outcome with
    | false => exact ⟨[], .last _ _, (List.append_nil _).symm⟩
    | true =>
      rw [if_pos rfl]
      dsimp only [FetchLog.execute]
      cases hanswer : executeFetcher log.executions fetcherId with
      | none => exact ⟨[⟨fetcherId, none⟩], .retry hretry (.last left none), rfl⟩
      | some outcome' =>
        obtain ⟨more, htries, hlog⟩ := ih outcome' ⟨log.executions ++ [⟨fetcherId, some outcome'⟩],
          log.sleeps ++ [opts.backoffMs * (opts.retries - left)]⟩
        refine ⟨⟨fetcherId, some outcome'⟩ :: more, .retry hretry htries, ?_⟩
        rw [hlog, List.append_assoc, List.singleton_append]

theorem tryEntry_tries (opts : SequenceOpts) (executeFetcher : FetcherBehaviour)
    (entry : FetcherPolicyEntry) (log : FetchLog) :
    ∃ executions, Tries opts entry.fetcherId opts.retries executions
        (tryEntry opts executeFetcher entry log).1 ∧
      (tryEntry opts executeFetcher entry log).2.executions = log.executions ++ executions := by
  unfold tryEntry
  dsimp only [FetchLog.execute]
  cases hanswer : executeFetcher log.executions entry.fetcherId with
  | none => exact ⟨[⟨entry.fetcherId, none⟩], .last _ none, rfl⟩
  | some outcome =>
    obtain ⟨more, htries, hlog⟩ := retryFetcher_tries opts executeFetcher opts.retries outcome
      ⟨log.executions ++ [⟨entry.fetcherId, some outcome⟩], log.sleeps⟩
    refine ⟨⟨entry.fetcherId, some outcome⟩ :: more, htries, ?_⟩
    rw [hlog, List.append_assoc, List.singleton_append]

end Tries

/-! ## The entries of the plan -/

/-- What was executed for one entry. -/
structure EntryRun where
  entry : FetcherPolicyEntry
  executions : List Execution

/-- The entries tried, all but the last of which let the next one be tried. -/
inductive Passes (opts : SequenceOpts) :
    List FetcherPolicyEntry → List EntryRun → Option FetchOutcome → Prop
  | last {entry : FetcherPolicyEntry} {rest : List FetcherPolicyEntry}
    {executions : List Execution} {answer : Option FetchOutcome}
    (htries : Tries opts entry.fetcherId opts.retries executions answer) :
    Passes opts (entry :: rest) [⟨entry, executions⟩] answer
  | next {entry : FetcherPolicyEntry} {rest : List FetcherPolicyEntry}
    {executions : List Execution} {outcome : FetchOutcome} {blocks : List EntryRun}
    {answer : Option FetchOutcome}
    (htries : Tries opts entry.fetcherId opts.retries executions (some outcome))
    (hnot : stopsAt entry outcome = false) (hrest : Passes opts rest blocks answer) :
    Passes opts (entry :: rest) (⟨entry, executions⟩ :: blocks) answer

/-- The executions are those of one entry, a retry only after a failure of the moment. -/
structure EntryRun.Legal (opts : SequenceOpts) (block : EntryRun) : Prop where
  executed : block.executions ≠ []
  bounded : block.executions.length ≤ 1 + opts.retries
  fetcher : ∀ x ∈ block.executions, x.fetcherId = block.entry.fetcherId
  retried : ∀ x ∈ block.executions.dropLast, opts.retryable block.entry.fetcherId = true ∧
    (x.failure? = some .http5xx ∨ x.failure? = some .networkError)

/-- The last execution failed in a way that lets the next entry be tried. -/
def EntryRun.Proceeds (block : EntryRun) : Prop :=
  ∃ x failureClass, block.executions.getLast? = some x ∧ x.failure? = some failureClass ∧
    failureClass ∉ NEVER_PROCEEDABLE_FAILURES ∧
    failureClass ∈ block.entry.proceedOn.getD DEFAULT_PROCEEDABLE_FAILURES

section Passes

variable {plan : List FetcherPolicyEntry} {blocks : List EntryRun} {answer : Option FetchOutcome}
  {entry : FetcherPolicyEntry} {executions : List Execution}

theorem Tries.legal (h : Tries opts entry.fetcherId opts.retries executions answer) :
    EntryRun.Legal opts ⟨entry, executions⟩ :=
  ⟨h.ne_nil, h.length_le, h.fetcher, h.retried⟩

theorem stopsAt_false_iff {outcome : FetchOutcome} : stopsAt entry outcome = false ↔
    ∃ failureClass, outcome.failure? = some failureClass ∧
      failureClass ∉ NEVER_PROCEEDABLE_FAILURES ∧
      failureClass ∈ entry.proceedOn.getD DEFAULT_PROCEEDABLE_FAILURES := by
  unfold stopsAt
  cases outcome.failure? with
  | none => simp
  | some failureClass => simp [shouldProceedToNext]

theorem Passes.ne_nil (h : Passes opts plan blocks answer) : blocks ≠ [] := by
  cases h with
  | last htries => simp
  | next htries hnot hrest => simp

theorem Passes.ordered (h : Passes opts plan blocks answer) :
    blocks.map EntryRun.entry <+: plan := by
  induction h with
  | last htries => simp
  | next htries hnot hrest ih => simpa using ih

theorem Passes.legal (h : Passes opts plan blocks answer) :
    ∀ block ∈ blocks, block.Legal opts := by
  induction h with
  | last htries => simpa using htries.legal
  | next htries hnot hrest ih => simpa using ⟨htries.legal, ih⟩

theorem Passes.proceeds (h : Passes opts plan blocks answer) :
    ∀ block ∈ blocks.dropLast, block.Proceeds := by
  induction h with
  | last htries => simp
  | next htries hnot hrest ih =>
    intro block hblock
    rw [List.dropLast_cons_of_ne_nil hrest.ne_nil, List.mem_cons] at hblock
    rcases hblock with heq | hblock
    · obtain ⟨failureClass, hfailure, hproceeds⟩ := stopsAt_false_iff.mp hnot
      rw [heq]
      exact ⟨_, failureClass, htries.getLast?, hfailure, hproceeds⟩
    · exact ih block hblock

theorem Passes.executed (h : Passes opts plan blocks answer) :
    blocks.flatMap EntryRun.executions ≠ [] := by
  cases h with
  | last htries => simpa using htries.ne_nil
  | next htries hnot hrest => simpa using fun hnil => absurd hnil htries.ne_nil

theorem Passes.answered (h : Passes opts plan blocks answer) :
    (blocks.flatMap EntryRun.executions).getLast?.map Execution.outcome = some answer := by
  induction h with
  | last htries => simp [htries.getLast?]
  | next htries hnot hrest ih =>
    rw [List.flatMap_cons, List.getLast?_append_of_ne_nil _ hrest.executed]
    exact ih

theorem Passes.length_le (h : Passes opts plan blocks answer) :
    (blocks.flatMap EntryRun.executions).length ≤ plan.length * (1 + opts.retries) := by
  induction h with
  | last htries =>
    have hle := htries.length_le
    simp only [List.flatMap_cons, List.flatMap_nil, List.append_nil, List.length_cons]
    nlinarith
  | next htries hnot hrest ih =>
    have hle := htries.length_le
    simp only [List.flatMap_cons, List.length_append, List.length_cons]
    linarith [Nat.succ_mul (List.length ‹List FetcherPolicyEntry›) (1 + opts.retries)]

theorem tryEntries_passes (opts : SequenceOpts) (executeFetcher : FetcherBehaviour)
    (entry : FetcherPolicyEntry) (rest : List FetcherPolicyEntry) (log : FetchLog) : ∃ blocks,
      Passes opts (entry :: rest) blocks (tryEntries opts executeFetcher entry rest log).1 ∧
        (tryEntries opts executeFetcher entry rest log).2.executions =
          log.executions ++ blocks.flatMap EntryRun.executions := by
  induction rest generalizing entry log with
  | nil =>
    obtain ⟨executions, htries, hlog⟩ := tryEntry_tries opts executeFetcher entry log
    exact ⟨[⟨entry, executions⟩], .last htries, by simpa [tryEntries] using hlog⟩
  | cons next rest ih =>
    obtain ⟨executions, htries, hlog⟩ := tryEntry_tries opts executeFetcher entry log
    unfold tryEntries
    generalize tryEntry opts executeFetcher entry log = tried at htries hlog
    obtain ⟨answer, log'⟩ := tried
    cases answer with
    | none => exact ⟨[⟨entry, executions⟩], .last htries, by simpa using hlog⟩
    | some outcome =>
      dsimp only
      cases hstops : stopsAt entry outcome with
      | true => exact ⟨[⟨entry, executions⟩], .last htries, by simpa using hlog⟩
      | false =>
        obtain ⟨blocks, hpasses, hrest⟩ := ih next log'
        refine ⟨⟨entry, executions⟩ :: blocks, .next htries hstops hpasses, ?_⟩
        rw [if_neg Bool.false_ne_true, hrest, List.flatMap_cons, ← List.append_assoc]
        exact congrArg (· ++ _) hlog

end Passes

/-! ## The whole run -/

/-- What the call answers tells how the executions ended. -/
def AnswersLast (executions : List Execution) : Except SequenceError FetchSequenceResult → Prop
  | .ok result => result.attempts = executions ∧
      executions.getLast?.map Execution.outcome = some (some result.outcome)
  | .error .rejected => executions.getLast?.map Execution.outcome = some none
  | .error (.policyInvalid _) => executions = []

/-- The executions follow the policy: for each entry of a prefix of the order list some tries of
its fetcher, each but the last entry left because of a failure that lets the next one be tried. -/
structure Follows (opts : SequenceOpts) (policy : FetcherPolicy) (executions : List Execution)
    (blocks : List EntryRun) : Prop where
  executed : executions = blocks.flatMap EntryRun.executions
  ordered : blocks.map EntryRun.entry <+: policy.orderList
  limited : blocks.length ≤ opts.attemptLimit
  legal : ∀ block ∈ blocks, block.Legal opts
  proceeds : ∀ block ∈ blocks.dropLast, block.Proceeds

section Run

variable {policy : FetcherPolicy} {executions : List Execution} {blocks : List EntryRun}

theorem follows_nil : Follows opts policy [] [] :=
  ⟨rfl, List.nil_prefix, Nat.zero_le _, by simp, by simp⟩

/-- What a run comes to that tried some entries of a well-formed policy. -/
theorem Passes.follows {answer : Option FetchOutcome}
    (h : Passes opts (policy.orderList.take opts.attemptLimit) blocks answer) :
    Follows opts policy (blocks.flatMap EntryRun.executions) blocks where
  executed := rfl
  ordered := h.ordered.trans (List.take_prefix _ _)
  limited := by
    have hle := h.ordered.length_le
    rw [List.length_map, List.length_take] at hle
    omega
  legal := h.legal
  proceeds := h.proceeds

/-- Fetchers are executed only as the order list has them. -/
theorem Follows.mem_orderList (h : Follows opts policy executions blocks) {x : Execution}
    (hx : x ∈ executions) : ∃ entry ∈ policy.orderList, entry.fetcherId = x.fetcherId := by
  rw [h.executed] at hx
  obtain ⟨block, hblock, hx⟩ := List.mem_flatMap.mp hx
  have hentry : block.entry ∈ policy.orderList := h.ordered.subset (List.mem_map_of_mem hblock)
  exact ⟨block.entry, hentry, ((h.legal block hblock).fetcher x hx).symm⟩

theorem Follows.length_le (h : Follows opts policy executions blocks) :
    executions.length ≤ opts.attemptLimit * (1 + opts.retries) := by
  calc executions.length
      = (blocks.map fun block => block.executions.length).sum := by
        rw [h.executed, List.length_flatMap]
    _ ≤ (blocks.map fun block => block.executions.length).length • (1 + opts.retries) := by
        apply List.sum_le_card_nsmul
        simpa using fun block hblock => (h.legal block hblock).bounded
    _ ≤ opts.attemptLimit * (1 + opts.retries) := by
        rw [List.length_map, smul_eq_mul]
        exact Nat.mul_le_mul_right _ h.limited

private theorem mem_dropLast_or_getLast? {x : Execution} (hx : x ∈ executions) :
    x ∈ executions.dropLast ∨ executions.getLast? = some x := by
  have hne : executions ≠ [] := List.ne_nil_of_mem hx
  rw [← List.dropLast_append_getLast hne, List.mem_append, List.mem_singleton] at hx
  rcases hx with hx | heq
  · exact Or.inl hx
  · exact Or.inr (heq ▸ List.getLast?_eq_some_getLast hne)

private theorem EntryRun.Legal.failed {block : EntryRun} (h : block.Legal opts) {x : Execution}
    (hx : x ∈ block.executions.dropLast) :
    ∃ failureClass, x.failure? = some failureClass ∧ failureClass ∉ NEVER_PROCEEDABLE_FAILURES := by
  rcases (h.retried x hx).2 with hfailure | hfailure
  · exact ⟨.http5xx, hfailure, by decide⟩
  · exact ⟨.networkError, hfailure, by decide⟩

/-- Nothing is executed after a success, after a fetcher that threw, or after a failure that
never lets another fetcher be tried. -/
theorem Follows.failed (h : Follows opts policy executions blocks) :
    ∀ x ∈ executions.dropLast, ∃ failureClass, x.failure? = some failureClass ∧
      failureClass ∉ NEVER_PROCEEDABLE_FAILURES := by
  rw [h.executed]
  have hlegal := h.legal
  have hproceeds := h.proceeds
  clear h
  induction blocks with
  | nil => simp
  | cons block rest ih =>
    intro x hx
    have hblock : block.Legal opts := hlegal block List.mem_cons_self
    cases rest with
    | nil =>
      rw [List.flatMap_cons, List.flatMap_nil, List.append_nil] at hx
      exact hblock.failed hx
    | cons block' rest =>
      have hnext : (block' :: rest).flatMap EntryRun.executions ≠ [] := by
        simpa using fun hnil => absurd hnil (hlegal block' (by simp)).executed
      rw [List.flatMap_cons, List.dropLast_append_of_ne_nil hnext, List.mem_append] at hx
      rcases hx with hx | hx
      · rcases mem_dropLast_or_getLast? hx with hx | hlast
        · exact hblock.failed hx
        · obtain ⟨y, failureClass, hy, hfailure, hnever, _⟩ := hproceeds block (by simp)
          obtain rfl := Option.some.inj (hlast.symm.trans hy)
          exact ⟨failureClass, hfailure, hnever⟩
      · exact ih (fun b hb => hlegal b (List.mem_cons_of_mem _ hb))
          (fun b hb => hproceeds b (by simpa using Or.inr hb)) x hx

/-- Which plan is made, if one is. -/
private theorem planAttempts_cases (policy : FetcherPolicy) (opts : SequenceOpts) :
    (∃ errors, planAttempts policy opts = .error (.policyInvalid errors) ∧
      (¬policy.WellFormed ∨ opts.attemptLimit = 0)) ∨
    planAttempts policy opts = .ok (policy.orderList.take opts.attemptLimit) ∧
      policy.WellFormed := by
  unfold planAttempts SequenceOpts.attemptLimit
  dsimp only
  cases hvalid : (validateFetcherPolicy policy).valid with
  | false =>
    have hnot : ¬policy.WellFormed := by
      rw [← validateFetcherPolicy_valid_iff, hvalid]
      exact Bool.false_ne_true
    exact Or.inl ⟨_, rfl, Or.inl hnot⟩
  | true =>
    have hwell := (validateFetcherPolicy_valid_iff policy).mp hvalid
    cases hcount : opts.attemptCount.toNat? with
    | none => exact Or.inl ⟨_, rfl, Or.inr rfl⟩
    | some maxAttempts => exact Or.inr ⟨rfl, hwell⟩

private theorem orderList_ne_nil (h : policy.WellFormed) : policy.orderList ≠ [] := by
  intro hnil
  have hperm := h.arranged
  rw [hnil, List.map_nil, List.nil_perm] at hperm
  exact h.allowed hperm

/-- The policy is refused and nothing is executed, or some entries are tried. -/
private theorem runFetchSequence_cases (policy : FetcherPolicy) (opts : SequenceOpts)
    (executeFetcher : FetcherBehaviour) :
    let run := runFetchSequence opts executeFetcher policy
    (∃ errors, run = (.error (.policyInvalid errors), ⟨[], []⟩) ∧
      (¬policy.WellFormed ∨ opts.attemptLimit = 0)) ∨
    policy.WellFormed ∧ opts.attemptLimit ≠ 0 ∧ ∃ blocks answer,
      Passes opts (policy.orderList.take opts.attemptLimit) blocks answer ∧
        run.2.executions = blocks.flatMap EntryRun.executions ∧
        run.1 = answer.elim (.error .rejected) fun outcome => .ok ⟨outcome, run.2.executions⟩ := by
  intro run
  rcases planAttempts_cases policy opts with ⟨errors, hplan, hnot⟩ | ⟨hplan, hwell⟩
  · have hrun : run = (.error (.policyInvalid errors), ⟨[], []⟩) := by
      simp only [run, runFetchSequence, hplan]
    exact Or.inl ⟨errors, hrun, hnot⟩
  · cases htake : policy.orderList.take opts.attemptLimit with
    | nil =>
      have hzero : opts.attemptLimit = 0 := by
        rcases List.take_eq_nil_iff.mp htake with hzero | hnil
        · exact hzero
        · exact absurd hnil (orderList_ne_nil hwell)
      have hrun : run = (.error (.policyInvalid
          ["no fetcher attempts available (maxAttempts is 0)"]), ⟨[], []⟩) := by
        simp only [run, runFetchSequence, hplan, htake]
      exact Or.inl ⟨_, hrun, Or.inr hzero⟩
    | cons entry rest =>
      have hlimit : opts.attemptLimit ≠ 0 := by
        intro hzero
        rw [hzero, List.take_zero] at htake
        contradiction
      obtain ⟨blocks, hpasses, hlog⟩ := tryEntries_passes opts executeFetcher entry rest ⟨[], []⟩
      apply Or.inr
      refine ⟨hwell, hlimit, blocks, _, hpasses, ?_⟩
      simp only [run, runFetchSequence, hplan, htake]
      generalize tryEntries opts executeFetcher entry rest ⟨[], []⟩ = tried at hlog
      obtain ⟨answer, log⟩ := tried
      cases answer with
      | none => exact ⟨hlog, rfl⟩
      | some outcome => exact ⟨hlog, rfl⟩

/-- For every policy, all options and every behaviour of the fetchers: the executions follow the
policy, the answer is that of the last of them, and there are none exactly when the policy is
invalid or allows no attempt. -/
theorem runFetchSequence_follows (policy : FetcherPolicy) (opts : SequenceOpts)
    (executeFetcher : FetcherBehaviour) :
    let run := runFetchSequence opts executeFetcher policy
    (∃ blocks, Follows opts policy run.2.executions blocks) ∧
      (∀ x ∈ run.2.executions, x.fetcherId ∈ policy.allowList) ∧
      (∀ x ∈ run.2.executions.dropLast, ∃ failureClass, x.failure? = some failureClass ∧
        failureClass ∉ NEVER_PROCEEDABLE_FAILURES) ∧
      run.2.executions.length ≤ opts.attemptLimit * (1 + opts.retries) ∧
      AnswersLast run.2.executions run.1 ∧
      (run.2.executions = [] ↔
        (validateFetcherPolicy policy).valid = false ∨ opts.attemptLimit = 0) := by
  intro run
  have hinvalid : (validateFetcherPolicy policy).valid = false ↔ ¬policy.WellFormed := by
    rw [← validateFetcherPolicy_valid_iff, Bool.not_eq_true]
  rw [hinvalid]
  rcases runFetchSequence_cases policy opts executeFetcher with
    ⟨errors, hrun, hnot⟩ | ⟨hwell, hlimit, blocks, answer, hpasses, hlog, hanswer⟩
  · change run = _ at hrun
    rw [hrun]
    exact ⟨⟨[], follows_nil⟩, by simp, by simp, by simp, rfl, by simpa using hnot⟩
  · change run.2.executions = _ at hlog
    have hfollows : Follows opts policy run.2.executions blocks := hlog ▸ hpasses.follows
    refine ⟨⟨blocks, hfollows⟩, fun x hx => ?_, hfollows.failed, hfollows.length_le, ?_, ?_⟩
    · obtain ⟨entry, hentry, heq⟩ := hfollows.mem_orderList hx
      exact heq ▸ hwell.arranged.mem_iff.mp (List.mem_map_of_mem hentry)
    · change run.1 = _ at hanswer
      rw [hanswer]
      have hlast := hpasses.answered
      rw [← hlog] at hlast
      cases answer with
      | none => exact hlast
      | some outcome => exact ⟨rfl, hlast⟩
    · exact iff_of_false (hlog ▸ hpasses.executed) (by simp [hwell, hlimit])

/-- Two fetchers, the first of which fails for the moment until it is given up. -/
example :
    let policy : FetcherPolicy := ⟨["http", "browser"], [⟨"http", none⟩, ⟨"browser", none⟩]⟩
    let executeFetcher : FetcherBehaviour := fun _ fetcherId =>
      if fetcherId = "http" then some (.failure .http5xx none) else some (.failure .notFound none)
    ((runFetchSequence ⟨none, none, none, none⟩ executeFetcher policy).2.executions.map
      Execution.fetcherId) = ["http", "http", "http", "browser"] := by
  decide +kernel

end Run

end Utsuroi

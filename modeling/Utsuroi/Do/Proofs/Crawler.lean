import Mathlib.Tactic
import Utsuroi.Do.CrawlerEvents

/-!
# Leases and answers of the crawler object

In every run, whatever the interleaving and however often the memory is lost: a job is handed out
once and ends once, and the submission that waits for it is settled by that end.
-/

namespace Utsuroi.Crawler

open Transition

/-! ## Runs -/

/-- What holds of the object in every run. -/
structure CrawlerInv (sha256Hex : String → String) (s : CrawlerState) : Prop where
  object : ObjectInv s
  memory : ∀ jobId, MemoryInv jobId (s.view jobId)
  leases : ∀ jobId, LeaseInv sha256Hex jobId (s.view jobId)

section Runs

variable {sha256Hex : String → String} {C : StepCond CrawlerState CrawlerEvent}
  {es : List CrawlerEvent} {s s' : CrawlerState} {e : CrawlerEvent} {jobId : JobId}

/-- A job before the first event. -/
private def JobView.blank : JobView := ⟨none, false, none, none, [], fun _ => none, 0, []⟩

private theorem view_init (h : (crawlerSystem sha256Hex).init s) :
    s.view jobId = JobView.blank := by
  obtain ⟨hjobs, _, hwaiters, hqueue, hresult, _, harmed, hcalls, hlog⟩ := h
  ext1
  · change s.jobs.find? _ = none
    rw [hjobs]
    rfl
  · exact hwaiters jobId
  · exact hqueue jobId
  · exact hresult jobId
  · change s.armed.filter _ = []
    rw [harmed]
    rfl
  · funext c
    change (s.calls c).bind _ = none
    rw [hcalls]
    rfl
  · change (s.log.flatMap Entry.leasedIds).count jobId = 0
    rw [hlog]
    rfl
  · change s.log.filter _ = []
    rw [hlog]
    rfl

private theorem memoryInv_blank : MemoryInv jobId JobView.blank := by
  constructor <;> simp [JobView.blank, AcceptedNow, lifetime, JobView.Open, JobView.At]

private theorem leaseInv_blank : LeaseInv sha256Hex jobId JobView.blank := by
  constructor <;> simp [JobView.blank, JobView.At]

private theorem logInv_blank : LogInv jobId JobView.blank := by
  constructor <;> simp [JobView.blank, AcceptedNow, lifetime, JobView.Open, JobView.At, settlements,
    acceptances, DuplicatesFollow]

theorem crawlerInv_run (h : (crawlerSystem sha256Hex).Run C es s) : CrawlerInv sha256Hex s := by
  induction h with
  | @start s hinit =>
    have hview : ∀ jobId, s.view jobId = JobView.blank := fun _ => view_init hinit
    obtain ⟨hjobs, _, _, hqueue, hresult, _, _, hcalls, hlog⟩ := hinit
    constructor
    · constructor <;> simp [hjobs, hqueue, hresult, hcalls, hlog]
    · exact fun jobId => (hview jobId).symm ▸ memoryInv_blank
    · exact fun jobId => (hview jobId).symm ▸ leaseInv_blank
  | next _ hstep _ ih =>
    obtain ⟨hallowed, rfl⟩ := hstep
    have hview : ∀ jobId, JobStep sha256Hex jobId _ _ := fun jobId => view_apply ih.object hallowed
    constructor
    · exact objectInv_apply ih.object ih.memory hallowed
    · exact fun jobId => memoryInv_step (ih.memory jobId) (hview jobId)
    · exact fun jobId => leaseInv_step (ih.memory jobId) (ih.leases jobId) (hview jobId)

theorem jobStep_of_step (h : (crawlerSystem sha256Hex).Run C es s)
    (hstep : (crawlerSystem sha256Hex).step s e s') :
    JobStep sha256Hex jobId (s.view jobId) (s'.view jobId) := by
  obtain ⟨hallowed, rfl⟩ := hstep
  exact view_apply (crawlerInv_run h).object hallowed

theorem logInv_run (hinj : Function.Injective sha256Hex)
    (h : (crawlerSystem sha256Hex).Run C es s) : LogInv jobId (s.view jobId) := by
  induction h with
  | start hinit => exact (view_init hinit).symm ▸ logInv_blank
  | next hrun hstep _ ih =>
    have hinv := crawlerInv_run hrun
    exact logInv_step (hinv.memory jobId) (hinv.leases jobId) hinj ih (jobStep_of_step hrun hstep)

end Runs

/-! ## The states of a job -/

/-- The transitions of a job. -/
inductive JobState.Next : JobState → JobState → Prop
  | leased : Next .queued .leased
  | completed : Next .leased .completed
  | expired (stage : Stage) : Next stage.fromState .expired

/-- What an event may do to the row of a job. -/
def RowStep : Option JobRow → Option JobRow → Prop
  | none, none => True
  | none, some row' => row'.state = .queued
  | some row, none => ¬row.state.Open
  | some row, some row' => row'.state = row.state ∨ row.state.Next row'.state

section States

variable {sha256Hex : String → String} {jobId : JobId} {v v' : JobView}

private theorem rowStep_same {row : Option JobRow} : RowStep row row := by
  cases row with
  | none => trivial
  | some row => exact Or.inl rfl

theorem JobStep.rowStep (h : JobStep sha256Hex jobId v v') (hmemory : MemoryInv jobId v) :
    RowStep v.row v'.row := by
  cases h with
  | quiet => exact rowStep_same
  | refused reason => exact rowStep_same
  | accepted row timer hfresh hstate _ _ _ _ =>
    have hnone := hmemory.blank hfresh
    rw [hnone, Option.none_or]
    exact hstate
  | leased c row row' timer token hfound hstate _ hstate' _ _ _ _ =>
    rw [hfound]
    exact Or.inr (by rw [hstate, hstate']; exact .leased)
  | issued c token e _ _ _ =>
    cases hrow : v.row with
    | none => trivial
    | some row => exact Or.inl rfl
  | answered token result outcome _ _ => exact rowStep_same
  | completed row token hash result now hfound hstate _ _ =>
    rw [hfound]
    exact Or.inr (by rw [hstate]; exact .completed)
  | expired row stage now armed hfound hstate _ =>
    rw [hfound]
    exact Or.inr (by rw [hstate]; exact .expired stage)
  | missed timer _ _ => exact rowStep_same
  | deleted row hfound hterminal =>
    rw [hfound]
    exact (hmemory.terminal row hfound).mp hterminal
  | reset => exact rowStep_same

/-- A job that was accepted never comes back. -/
theorem JobStep.mem_log (h : JobStep sha256Hex jobId v v') {e : Entry} (hmem : e ∈ v.log) :
    e ∈ v'.log := by
  have hsettling : ∀ {w : JobView} {e' : Entry} {outcome : SubmitOutcome}, w.log = e' :: v.log →
      e ∈ w.settling jobId outcome := by
    intro w e' outcome hlog
    unfold JobView.settling
    split <;> simp [hlog, hmem]
  cases h with
  | quiet => exact hmem
  | leased => exact hmem
  | missed => exact hmem
  | deleted => exact hmem
  | refused => exact List.mem_cons_of_mem _ hmem
  | accepted => exact List.mem_cons_of_mem _ hmem
  | issued => exact List.mem_cons_of_mem _ hmem
  | answered => exact List.mem_cons_of_mem _ hmem
  | reset => exact List.mem_cons_of_mem _ hmem
  | completed => exact hsettling rfl
  | expired => exact hsettling rfl

/-- A job that has ended stays as it is until its row is deleted. -/
theorem JobStep.ended (h : JobStep sha256Hex jobId v v') (hmemory : MemoryInv jobId v)
    (hold : .accepted jobId ∈ v.log) {state : JobState} (hclosed : ¬state.Open)
    (hrow : ∀ row, v.row = some row → row.state = state) :
    ∀ row, v'.row = some row → row.state = state := by
  intro row' hrow'
  have hstep := h.rowStep hmemory
  rw [hrow'] at hstep
  cases hfound : v.row with
  | some row =>
    rw [hfound] at hstep
    rcases hstep with hsame | hnext
    · exact hsame.trans (hrow row hfound)
    · rw [hrow row hfound] at hnext
      exfalso
      apply hclosed
      generalize row'.state = next at hnext
      cases hnext with
      | leased => exact Or.inl rfl
      | completed => exact Or.inr rfl
      | expired stage => cases stage <;> simp [Stage.fromState, JobState.Open]
  | none =>
    exfalso
    cases h with
    | accepted _ _ hfresh _ _ _ _ _ => exact hfresh hold
    | leased _ _ _ _ _ hsome _ _ _ _ _ _ _ => simp [hfound] at hsome
    | completed _ _ _ _ _ hsome _ _ _ => simp [hfound] at hsome
    | expired _ _ _ _ hsome _ _ => simp [hfound] at hsome
    | deleted _ hsome _ => simp [hfound] at hsome
    | issued => simp [hfound] at hrow'
    | _ => simp [hfound] at hrow'

end States

/-! ## Leases -/

section Leases

variable {sha256Hex : String → String} {C : StepCond CrawlerState CrawlerEvent}
  {es later : List CrawlerEvent} {s s' : CrawlerState} {e : CrawlerEvent} {jobId : JobId}

private theorem ended_steps (hrun : (crawlerSystem sha256Hex).Run C es s)
    (hsteps : (crawlerSystem sha256Hex).Steps C es s later s') {row : JobRow}
    (hrow : s.row jobId = some row) (hclosed : ¬row.state.Open) :
    .accepted jobId ∈ (s'.view jobId).log ∧
      ∀ row', s'.row jobId = some row' → row'.state = row.state := by
  induction hsteps with
  | refl =>
    constructor
    · by_contra hfresh
      have hnone := ((crawlerInv_run hrun).memory jobId).blank hfresh
      change s.row jobId = none at hnone
      rw [hrow] at hnone
      contradiction
    · intro row' hrow'
      rw [Option.some.inj (hrow.symm.trans hrow')]
  | next hsteps hstep _ ih =>
    have hreached := hrun.append hsteps
    have hjob : JobStep sha256Hex jobId _ _ := jobStep_of_step hreached hstep
    exact ⟨hjob.mem_log ih.1,
      hjob.ended ((crawlerInv_run hreached).memory jobId) ih.1 hclosed ih.2⟩

/-- In every run each job is in one lease response at most, each response keeps to its request,
rows change state along `JobState.Next` only, and an ended job stays what it is while its row
exists. -/
theorem leased_at_most_once (h : (crawlerSystem sha256Hex).Run anyStep es s) :
    (s.log.flatMap Entry.leasedIds).Nodup ∧ (∀ e ∈ s.log, e.WithinRequest) ∧
      (∀ e s', (crawlerSystem sha256Hex).step s e s' →
        ∀ jobId, RowStep (s.row jobId) (s'.row jobId)) ∧
      ∀ later s', (crawlerSystem sha256Hex).Steps anyStep es s later s' →
        ∀ jobId row row', s.row jobId = some row → ¬row.state.Open → s'.row jobId = some row' →
          row'.state = row.state := by
  have hinv := crawlerInv_run h
  refine ⟨?_, hinv.object.responses, ?_, ?_⟩
  · rw [List.nodup_iff_count_le_one]
    exact fun jobId => (hinv.leases jobId).once
  · intro e s' hstep jobId
    have hjob : JobStep sha256Hex jobId (s.view jobId) (s'.view jobId) := jobStep_of_step h hstep
    exact hjob.rowStep (hinv.memory jobId)
  · intro later s' hsteps jobId row row' hrow hclosed hrow'
    exact (ended_steps h hsteps hrow hclosed).2 row' hrow'

end Leases

def quietObject : CrawlerState where
  now := 0
  maintenance := fun _ => false
  jobs := []
  runners := []
  waiters := fun _ => false
  queueTimers := fun _ => none
  resultTimers := fun _ => none
  leaseWakers := []
  armed := []
  nextTimer := 0
  calls := fun _ => none
  log := []

theorem quietObject_init {sha256Hex : String → String} :
    (crawlerSystem sha256Hex).init quietObject :=
  ⟨rfl, rfl, fun _ => rfl, fun _ => rfl, fun _ => rfl, rfl, rfl, fun _ => rfl, rfl⟩

/-- A runner polls, a job comes in, and the runner takes it and completes it. -/
def oneJob : List CrawlerEvent :=
  [.resume 2 fun _ => "",
    .complete 2 "job" "token" (.error "timeout" ""),
    .resume 1 fun _ => "",
    .resume 1 fun _ => "token",
    .resume 0 fun _ => "",
    .submitAndWait 0 ⟨"pi", "job", "static", ⟨"https://a.example/", 100, []⟩⟩ ⟨none, none, none⟩,
    .lease 1 ⟨"pi", "runner", ["static"]⟩ 1 1000]

/-- `oneJob` with the token for its own hash. -/
def afterOneJob : CrawlerState := stateAfter (CrawlerEvent.apply id) quietObject oneJob

theorem oneJob_run : (crawlerSystem id).Run anyStep oneJob afterOneJob := by
  have hreplays : Replays (CrawlerEvent.apply id) quietObject (fun s e => e.Allowed s) anyStep
      oneJob := by decide +kernel
  exact hreplays.run quietObject_init fun _ _ hallowed => ⟨hallowed, rfl⟩

theorem leased_at_most_once_oneJob :
    (afterOneJob.log.flatMap Entry.leasedIds).Nodup ∧
      afterOneJob.log.flatMap Entry.leasedIds = ["job"] :=
  ⟨(leased_at_most_once oneJob_run).1, by decide +kernel⟩

/-! ## Answers -/

section Logs

variable {jobId : JobId} {s : CrawlerState}

private theorem mem_view_log {e : Entry} (hconcerns : e.concerns jobId = true) :
    e ∈ (s.view jobId).log ↔ e ∈ s.log :=
  List.mem_filter.trans (and_iff_left hconcerns)

private theorem concerns_expired : (Entry.expired jobId).concerns jobId = true := by
  simp [Entry.concerns]

private theorem concerns_settled (outcome : SubmitOutcome) :
    (Entry.settled jobId outcome).concerns jobId = true := by
  simp [Entry.concerns]

private theorem concerns_response (token : String) (result : RunnerResult)
    (outcome : CompleteOutcome) :
    (Entry.completeResponse jobId token result outcome).concerns jobId = true := by
  simp [Entry.concerns]

private theorem acceptedNow_view :
    AcceptedNow jobId (s.view jobId).log ↔ AcceptedNow jobId s.log := by
  change AcceptedNow jobId (s.log.filter (Entry.concerns jobId)) ↔ _
  induction s.log with
  | nil => exact Iff.rfl
  | cons e log ih =>
    cases hconcerns : e.concerns jobId with
    | true => rw [List.filter_cons_of_pos hconcerns, acceptedNow_cons, acceptedNow_cons, ih]
    | false =>
      have hreset : e ≠ .reset := by
        rintro rfl
        simp [Entry.concerns] at hconcerns
      have haccepted : e ≠ .accepted jobId := by
        rintro rfl
        simp [Entry.concerns] at hconcerns
      rw [List.filter_cons_of_neg (by simp [hconcerns]), acceptedNow_cons, ih]
      simp [hreset, haccepted]

private theorem settlements_view :
    settlements jobId (s.view jobId).log = settlements jobId s.log := by
  change List.countP _ (s.log.filter (Entry.concerns jobId)) = List.countP _ s.log
  rw [List.countP_filter]
  apply List.countP_congr
  intro e _
  cases e <;> simp [Entry.concerns]

private theorem acceptances_view :
    acceptances jobId (s.view jobId).log = acceptances jobId s.log := by
  change List.countP _ (s.log.filter (Entry.concerns jobId)) = List.countP _ s.log
  rw [List.countP_filter]
  apply List.countP_congr
  intro e _
  cases e with
  | completeResponse id token result outcome =>
    by_cases hid : id = jobId <;> simp [Entry.concerns, hid]
  | _ => simp

private theorem issued_view {token : String} (h : Issued jobId token (s.view jobId).log) :
    Issued jobId token s.log := by
  obtain ⟨max, fetchModes, jobs, hmem, hjob⟩ := h
  exact ⟨max, fetchModes, jobs, List.mem_of_mem_filter hmem, hjob⟩

private theorem duplicatesFollow_view (h : DuplicatesFollow jobId (s.view jobId).log) :
    DuplicatesFollow jobId s.log := by
  change DuplicatesFollow jobId (s.log.filter (Entry.concerns jobId)) at h
  generalize s.log = log at h ⊢
  induction log with
  | nil => trivial
  | cons e log ih =>
    cases hconcerns : e.concerns jobId with
    | true =>
      rw [List.filter_cons_of_pos hconcerns] at h
      refine ⟨ih h.1, fun token result he => ?_⟩
      obtain ⟨token', result', hmem⟩ := h.2 token result he
      exact ⟨token', result', List.mem_of_mem_filter hmem⟩
    | false =>
      rw [List.filter_cons_of_neg (by simp [hconcerns])] at h
      refine ⟨ih h, ?_⟩
      rintro token result rfl
      simp [Entry.concerns] at hconcerns

end Logs

/-- The job has a row in this state. -/
def CrawlerState.InState (s : CrawlerState) (jobId : JobId) (state : JobState) : Prop :=
  ∃ row, s.row jobId = some row ∧ row.state = state

/-- The job was submitted in this lifetime and is queued or leased. -/
def CrawlerState.Pending (s : CrawlerState) (jobId : JobId) : Prop :=
  AcceptedNow jobId s.log ∧ (s.InState jobId .queued ∨ s.InState jobId .leased)

/-- Waiters and timers agree with the table. -/
structure MemoryAgrees (s : CrawlerState) : Prop where
  waiters : ∀ jobId, s.waiters jobId = true ↔ s.Pending jobId
  queueTimers : ∀ jobId, s.queueTimers jobId ≠ none ↔ s.Pending jobId ∧ s.InState jobId .queued
  resultTimers : ∀ jobId, s.resultTimers jobId ≠ none ↔ s.Pending jobId ∧ s.InState jobId .leased
  armed : ∀ t, t ∈ s.armed ↔
    ∃ jobId, s.queueTimers jobId = some t ∨ s.resultTimers jobId = some t

/-- Every accepted submission is settled once, by the end of its job. -/
structure Settles (sha256Hex : String → String) (s : CrawlerState) : Prop where
  once : ∀ jobId, settlements jobId s.log ≤ 1
  pending : ∀ jobId, s.Pending jobId → settlements jobId s.log = 0 ∧
    ∃ t ∈ s.armed, settlements jobId ((CrawlerEvent.fire t).apply sha256Hex s).log = 1
  ended : ∀ jobId, AcceptedNow jobId s.log → ¬s.Pending jobId → settlements jobId s.log = 1
  expired : ∀ jobId row, s.row jobId = some row →
    (.expired jobId ∈ s.log ↔ row.state = .expired)
  result : ∀ jobId, AcceptedNow jobId s.log → ∀ result,
    .settled jobId (.result result) ∈ s.log ↔
      ∃ token, Issued jobId token s.log ∧
        .completeResponse jobId token result .accepted ∈ s.log
  unavailable : ∀ jobId, AcceptedNow jobId s.log →
    ((∃ reason, .settled jobId (.unavailable reason) ∈ s.log) ↔ .expired jobId ∈ s.log)

/-- What `complete` answers. -/
structure Completes (sha256Hex : String → String) (s : CrawlerState) : Prop where
  acceptedOnce : ∀ jobId, acceptances jobId s.log ≤ 1
  duplicates : ∀ jobId, DuplicatesFollow jobId s.log
  rejected : ∀ c tokens jobId token result, s.calls c = some (.presenting jobId token result) →
    s.completeOutcome sha256Hex jobId token result ≠ .accepted →
      ((CrawlerEvent.resume c tokens).apply sha256Hex s).jobs = s.jobs ∧
        ((CrawlerEvent.resume c tokens).apply sha256Hex s).waiters = s.waiters

section Agreement

variable {sha256Hex : String → String} {C : StepCond CrawlerState CrawlerEvent}
  {es : List CrawlerEvent} {s : CrawlerState} {jobId : JobId}

private theorem pending_iff : s.Pending jobId ↔
    AcceptedNow jobId (s.view jobId).log ∧ (s.view jobId).Open := by
  unfold CrawlerState.Pending
  rw [acceptedNow_view]
  apply and_congr_right
  intro _
  constructor
  · rintro (⟨row, hrow, hstate⟩ | ⟨row, hrow, hstate⟩)
    · exact ⟨row, hrow, Or.inl hstate⟩
    · exact ⟨row, hrow, Or.inr hstate⟩
  · rintro ⟨row, hrow, hstate | hstate⟩
    · exact Or.inl ⟨row, hrow, hstate⟩
    · exact Or.inr ⟨row, hrow, hstate⟩

private theorem memoryAgrees (h : CrawlerInv sha256Hex s) : MemoryAgrees s := by
  have hstage : ∀ {jobId state}, JobState.Open state →
      (AcceptedNow jobId (s.view jobId).log ∧ (s.view jobId).At state ↔
        s.Pending jobId ∧ s.InState jobId state) := by
    intro jobId state hopen
    rw [pending_iff]
    constructor
    · rintro ⟨hnow, row, hrow, rfl⟩
      exact ⟨⟨hnow, row, hrow, hopen⟩, row, hrow, rfl⟩
    · rintro ⟨⟨hnow, _⟩, hat⟩
      exact ⟨hnow, hat⟩
  constructor
  · intro jobId
    rw [pending_iff]
    exact (h.memory jobId).waits
  · exact fun jobId => (h.memory jobId).queueTimer.trans (hstage (Or.inl rfl))
  · exact fun jobId => (h.memory jobId).resultTimer.trans (hstage (Or.inr rfl))
  · intro t
    have hlist : ∀ jobId, t ∈ (s.view jobId).armed ↔
        s.queueTimers jobId = some t ∨ s.resultTimers jobId = some t := by
      intro jobId
      rw [(h.memory jobId).armed, List.mem_append, Option.mem_toList, Option.mem_toList]
      exact Iff.rfl
    constructor
    · intro ht
      exact ⟨t.jobId, (hlist t.jobId).mp (List.mem_filter.mpr ⟨ht, by simp⟩)⟩
    · rintro ⟨jobId, hor⟩
      exact List.mem_of_mem_filter ((hlist jobId).mpr hor)

/-- The timer that ends the wait for a job. -/
private theorem pending_timer (h : CrawlerInv sha256Hex s) (hpending : s.Pending jobId) :
    ∃ t ∈ s.armed, t.jobId = jobId ∧
      ∃ row, s.row jobId = some row ∧ row.state = t.stage.fromState := by
  have hmemory := h.memory jobId
  have hin : ∀ {t : Timer}, t ∈ (s.view jobId).armed → t ∈ s.armed ∧ t.jobId = jobId := by
    intro t ht
    obtain ⟨hmem, hown⟩ := List.mem_filter.mp ht
    exact ⟨hmem, of_decide_eq_true hown⟩
  obtain ⟨hnow, row, hrow, hopen⟩ := pending_iff.mp hpending
  rcases hopen with hstate | hstate
  · obtain ⟨t, ht⟩ := Option.ne_none_iff_exists'.mp
      (hmemory.queueTimer.mpr ⟨hnow, row, hrow, hstate⟩)
    have hmem : t ∈ (s.view jobId).armed := by simp [hmemory.armed, ht]
    refine ⟨t, (hin hmem).1, (hin hmem).2, row, hrow, ?_⟩
    rw [hmemory.stages.1 t ht, hstate]
    rfl
  · obtain ⟨t, ht⟩ := Option.ne_none_iff_exists'.mp
      (hmemory.resultTimer.mpr ⟨hnow, row, hrow, hstate⟩)
    have hmem : t ∈ (s.view jobId).armed := by simp [hmemory.armed, ht]
    refine ⟨t, (hin hmem).1, (hin hmem).2, row, hrow, ?_⟩
    rw [hmemory.stages.2 t ht, hstate]
    rfl

private theorem settles (hinj : Function.Injective sha256Hex)
    (h : (crawlerSystem sha256Hex).Run C es s) : Settles sha256Hex s := by
  have hinv := crawlerInv_run h
  have hlog : ∀ jobId, LogInv jobId (s.view jobId) := fun jobId => logInv_run hinj h
  constructor
  · intro jobId
    rw [← settlements_view]
    exact (hlog jobId).settledOnce
  · intro jobId hpending
    obtain ⟨hnow, hopen⟩ := pending_iff.mp hpending
    obtain ⟨t, harmed, rfl, row, hrow, hstate⟩ := pending_timer hinv hpending
    refine ⟨settlements_view ▸ (hlog t.jobId).unsettled (Or.inr hopen), t, harmed, ?_⟩
    have hfired : (crawlerSystem sha256Hex).Run anyStep (.fire t :: es)
        ((CrawlerEvent.fire t).apply sha256Hex s) := .next h.any ⟨harmed, rfl⟩ trivial
    have hsettled : .settled t.jobId (.unavailable t.stage.reason) ∈
        (((CrawlerEvent.fire t).apply sha256Hex s).view t.jobId).log := by
      have hwaits : s.waiters t.jobId = true := (hinv.memory t.jobId).waits.mpr ⟨hnow, hopen⟩
      have hview := view_expireJob_self (s := { s with armed := s.armed.erase t }) hrow hstate
      rw [CrawlerEvent.apply, hview]
      simp [JobView.settling, CrawlerState.view, hwaits]
    have hone : settlements t.jobId
        (((CrawlerEvent.fire t).apply sha256Hex s).view t.jobId).log ≤ 1 :=
      (logInv_run hinj hfired).settledOnce
    have hpos : 0 < settlements t.jobId
        (((CrawlerEvent.fire t).apply sha256Hex s).view t.jobId).log :=
      List.countP_pos_iff.mpr ⟨_, hsettled, by simp⟩
    rw [← settlements_view]
    exact le_antisymm hone hpos
  · intro jobId hnow hnot
    rw [← settlements_view]
    apply (hlog jobId).settled (acceptedNow_view.mpr hnow)
    exact fun hopen => hnot (pending_iff.mpr ⟨acceptedNow_view.mpr hnow, hopen⟩)
  · intro jobId row hrow
    rw [← mem_view_log concerns_expired]
    constructor
    · intro hmem
      by_contra hstate
      exact (hlog jobId).unexpired (Or.inr ⟨row, hrow, hstate⟩) hmem
    · exact fun hstate => (hlog jobId).expired ⟨row, hrow, hstate⟩
  · intro jobId hnow result
    have hresult := (hlog jobId).result (acceptedNow_view.mpr hnow) result
    rw [mem_view_log (concerns_settled _)] at hresult
    rw [hresult]
    constructor
    · rintro ⟨token, hmem⟩
      exact ⟨token, issued_view ((hlog jobId).issued token result hmem),
        (mem_view_log (concerns_response _ _ _)).mp hmem⟩
    · rintro ⟨token, _, hmem⟩
      exact ⟨token, (mem_view_log (concerns_response _ _ _)).mpr hmem⟩
  · intro jobId hnow
    have hunavailable := (hlog jobId).unavailable (acceptedNow_view.mpr hnow)
    simp only [mem_view_log (concerns_settled _), mem_view_log concerns_expired] at hunavailable
    exact hunavailable

private theorem completes (hinj : Function.Injective sha256Hex)
    (h : (crawlerSystem sha256Hex).Run C es s) : Completes sha256Hex s := by
  have hlog : ∀ jobId, LogInv jobId (s.view jobId) := fun jobId => logInv_run hinj h
  constructor
  · intro jobId
    rw [← acceptances_view]
    exact (hlog jobId).acceptedOnce
  · exact fun jobId => duplicatesFollow_view (hlog jobId).duplicates
  · intro c tokens jobId token result hcall hrejected
    simp only [CrawlerEvent.apply, hcall]
    have hended : (s.endCall c).completeOutcome sha256Hex jobId token result ≠ .accepted :=
      hrejected
    rw [complete_rejected hended]
    exact ⟨rfl, rfl⟩

/-- With an injective SHA-256, waiters, timers and table agree in every run, and each accepted
submission is settled once, by the end of its job. -/
theorem answers_agree (hinj : Function.Injective sha256Hex)
    (h : (crawlerSystem sha256Hex).Run anyStep es s) :
    MemoryAgrees s ∧ Settles sha256Hex s ∧ Completes sha256Hex s :=
  ⟨memoryAgrees (crawlerInv_run h), settles hinj h, completes hinj h⟩

end Agreement

theorem answers_agree_oneJob :
    MemoryAgrees afterOneJob ∧ Settles id afterOneJob ∧ Completes id afterOneJob ∧
      settlements "job" afterOneJob.log = 1 ∧ acceptances "job" afterOneJob.log = 1 := by
  obtain ⟨hmemory, hsettles, hcompletes⟩ := answers_agree Function.injective_id oneJob_run
  exact ⟨hmemory, hsettles, hcompletes, by decide +kernel, by decide +kernel⟩

end Utsuroi.Crawler

import Mathlib.Tactic
import Utsuroi.Do.CrawlerObject

/-!
# One job of the crawler

What happens in the crawler object, seen from one job: its row, the promise that waits for it,
its timers, the calls that are about to lease it, and the entries of the log that concern it.
-/

namespace Utsuroi.Crawler

/-! ## What the log says of a job -/

def Entry.leasedIds : Entry → List JobId
  | .leaseResponse _ _ jobs => jobs.map LeasedJob.jobId
  | _ => []

def Entry.concerns (jobId : JobId) : Entry → Bool
  | .refused id _ | .accepted id | .settled id _ | .expired id | .completeResponse id _ _ _ =>
    id = jobId
  | .leaseResponse _ _ jobs => jobs.any (·.jobId = jobId)
  | .reset => true

/-- The entries since the memory was lost last. -/
def lifetime (log : List Entry) : List Entry := log.takeWhile (· ≠ .reset)

/-- The job was submitted, and accepted, in this lifetime of the object. -/
def AcceptedNow (jobId : JobId) (log : List Entry) : Prop := .accepted jobId ∈ lifetime log

/-- A lease response handed out this token for the job. -/
def Issued (jobId : JobId) (leaseToken : String) (log : List Entry) : Prop :=
  ∃ max fetchModes jobs, .leaseResponse max fetchModes jobs ∈ log ∧
    ∃ job ∈ jobs, job.jobId = jobId ∧ job.leaseToken = leaseToken

def settlements (jobId : JobId) (log : List Entry) : Nat :=
  log.countP fun e =>
    match e with
    | .settled id _ => id = jobId
    | _ => false

def acceptances (jobId : JobId) (log : List Entry) : Nat :=
  log.countP fun e =>
    match e with
    | .completeResponse id _ _ outcome => id = jobId ∧ outcome = .accepted
    | _ => false

def JobState.Open (state : JobState) : Prop := state = .queued ∨ state = .leased

/-! ## The view of a job -/

@[ext]
structure JobView where
  row : Option JobRow
  waiting : Bool
  queueTimer : Option Timer
  resultTimer : Option Timer
  armed : List Timer
  /-- the token that a call is about to hand out -/
  claims : CallId → Option String
  /-- in how many lease responses the job is -/
  leases : Nat
  log : List Entry

def Call.claimOf (jobId : JobId) : Call → Option String
  | .hashing _ _ _ claimed => (claimed.find? (·.row.jobId = jobId)).map Claimed.token
  | _ => none

def CrawlerState.view (s : CrawlerState) (jobId : JobId) : JobView where
  row := s.row jobId
  waiting := s.waiters jobId
  queueTimer := s.queueTimers jobId
  resultTimer := s.resultTimers jobId
  armed := s.armed.filter (·.jobId = jobId)
  claims := fun c => (s.calls c).bind (Call.claimOf jobId)
  leases := (s.log.flatMap Entry.leasedIds).count jobId
  log := s.log.filter (Entry.concerns jobId)

/-- What `resolveWaiter` adds to the log. -/
def JobView.settling (v : JobView) (jobId : JobId) (outcome : SubmitOutcome) : List Entry :=
  if v.waiting then .settled jobId outcome :: v.log else v.log

def JobView.over (v : JobView) (row : JobRow) : JobView :=
  { v with
    row := some row
    waiting := false
    queueTimer := none
    resultTimer := none
    armed := v.armed.filter fun timer => v.queueTimer ≠ some timer ∧ v.resultTimer ≠ some timer }

/-- What an event of the object is to the job. -/
inductive JobStep (sha256Hex : String → String) (jobId : JobId) : JobView → JobView → Prop
  | quiet (v : JobView) : JobStep sha256Hex jobId v v
  | refused (v : JobView) (reason : UnavailableReason) :
      JobStep sha256Hex jobId v { v with log := .refused jobId reason :: v.log }
  | accepted (v : JobView) (row : JobRow) (timer : Timer) (fresh : .accepted jobId ∉ v.log)
      (state : row.state = .queued) (hash : row.tokenHash = none) (terminal : row.terminalAt = none)
      (own : timer.jobId = jobId) (stage : timer.stage = .lease) :
      JobStep sha256Hex jobId v
        { v with
          row := v.row.or (some row)
          waiting := true
          queueTimer := some timer
          armed := timer :: v.armed
          log := .accepted jobId :: v.log }
  | leased (v : JobView) (c : CallId) (row row' : JobRow) (timer : Timer) (token : String)
      (found : v.row = some row) (state : row.state = .queued) (waits : v.waiting = true)
      (state' : row'.state = .leased) (hash : row'.tokenHash = row.tokenHash)
      (terminal : row'.terminalAt = row.terminalAt) (own : timer.jobId = jobId)
      (stage : timer.stage = .result) :
      JobStep sha256Hex jobId v
        { v with
          row := some row'
          queueTimer := none
          resultTimer := some timer
          armed := timer :: v.armed.filter fun timer => v.queueTimer ≠ some timer
          claims := Function.update v.claims c (some token) }
  | issued (v : JobView) (c : CallId) (token : String) (e : Entry) (claim : v.claims c = some token)
      (isLease : ∃ max fetchModes jobs, e = .leaseResponse max fetchModes jobs)
      (issues : Issued jobId token [e]) :
      JobStep sha256Hex jobId v
        { v with
          row := v.row.map fun row => { row with tokenHash := some (sha256Hex token) }
          claims := Function.update v.claims c none
          leases := v.leases + 1
          log := e :: v.log }
  | answered (v : JobView) (token : String) (result : RunnerResult) (outcome : CompleteOutcome)
      (notAccepted : outcome ≠ .accepted)
      (again : outcome = .duplicate → ∃ row, v.row = some row ∧ row.state = .completed) :
      JobStep sha256Hex jobId v
        { v with log := .completeResponse jobId token result outcome :: v.log }
  | completed (v : JobView) (row : JobRow) (token hash : String) (result : RunnerResult) (now : Nat)
      (found : v.row = some row) (state : row.state = .leased)
      (stored : row.tokenHash = some hash) (matches_ : equalHex (sha256Hex token) hash = true) :
      JobStep sha256Hex jobId v
        { v.over { row with state := .completed, terminalAt := some now } with
          log := { v with log := .completeResponse jobId token result .accepted :: v.log }.settling
            jobId (.result result) }
  /-- by the alarm, or by a timer that fires and then is armed no more -/
  | expired (v : JobView) (row : JobRow) (stage : Stage) (now : Nat) (armed : List Timer)
      (found : v.row = some row) (state : row.state = stage.fromState) (left : armed ⊆ v.armed) :
      JobStep sha256Hex jobId v
        { { v with armed }.over { row with state := .expired, terminalAt := some now } with
          log := { v with log := .expired jobId :: v.log }.settling jobId
            (.unavailable stage.reason) }
  /-- a timer that fires too late -/
  | missed (v : JobView) (timer : Timer) (armed : timer ∈ v.armed)
      (late : ∀ row, v.row = some row → row.state ≠ timer.stage.fromState) :
      JobStep sha256Hex jobId v { v with armed := v.armed.erase timer }
  | deleted (v : JobView) (row : JobRow) (found : v.row = some row)
      (terminal : row.terminalAt ≠ none) :
      JobStep sha256Hex jobId v { v with row := none }
  | reset (v : JobView) :
      JobStep sha256Hex jobId v
        { v with
          waiting := false
          queueTimer := none
          resultTimer := none
          armed := []
          claims := fun _ => none
          log := .reset :: v.log }

/-! ## Logs -/

section Log

variable {jobId : JobId} {e : Entry} {log : List Entry}

theorem acceptedNow_cons : AcceptedNow jobId (e :: log) ↔
    e ≠ .reset ∧ (e = .accepted jobId ∨ AcceptedNow jobId log) := by
  unfold AcceptedNow lifetime
  by_cases he : e = .reset
  · simp [he]
  · simp [he, eq_comm]

theorem AcceptedNow.mem (h : AcceptedNow jobId log) : .accepted jobId ∈ log :=
  (List.takeWhile_sublist _).subset h

theorem Issued.cons {token : String} (h : Issued jobId token log) :
    Issued jobId token (e :: log) := by
  obtain ⟨max, fetchModes, jobs, hmem, hjob⟩ := h
  exact ⟨max, fetchModes, jobs, List.mem_cons_of_mem _ hmem, hjob⟩

theorem Issued.of_entry {token : String} (h : Issued jobId token [e]) :
    Issued jobId token (e :: log) := by
  obtain ⟨max, fetchModes, jobs, hmem, hjob⟩ := h
  exact ⟨max, fetchModes, jobs, List.mem_cons.mpr (Or.inl (List.mem_singleton.mp hmem)), hjob⟩

/-- Every `duplicate` follows an `accepted`. -/
def DuplicatesFollow (jobId : JobId) : List Entry → Prop
  | [] => True
  | e :: log =>
    DuplicatesFollow jobId log ∧
      ∀ token result, e = .completeResponse jobId token result .duplicate →
        ∃ token' result', .completeResponse jobId token' result' .accepted ∈ log

end Log

/-! ## Memory -/

/-- The row is still queued or leased. -/
def JobView.Open (v : JobView) : Prop := ∃ row, v.row = some row ∧ row.state.Open

def JobView.At (v : JobView) (state : JobState) : Prop :=
  ∃ row, v.row = some row ∧ row.state = state

/-- Waiter and timers agree with the row; the timers in the maps are those that are armed. -/
structure MemoryInv (jobId : JobId) (v : JobView) : Prop where
  blank : .accepted jobId ∉ v.log → v.row = none
  waits : v.waiting = true ↔ AcceptedNow jobId v.log ∧ v.Open
  queueTimer : v.queueTimer ≠ none ↔ AcceptedNow jobId v.log ∧ v.At .queued
  resultTimer : v.resultTimer ≠ none ↔ AcceptedNow jobId v.log ∧ v.At .leased
  armed : v.armed = v.queueTimer.toList ++ v.resultTimer.toList
  stages : (∀ t, v.queueTimer = some t → t.stage = .lease) ∧
    ∀ t, v.resultTimer = some t → t.stage = .result
  terminal : ∀ row, v.row = some row → (row.terminalAt ≠ none ↔ ¬row.state.Open)

section Memory

variable {sha256Hex : String → String} {jobId : JobId} {v v' : JobView}

private theorem open_iff : v.Open ↔ v.At .queued ∨ v.At .leased := by
  unfold JobView.Open JobView.At JobState.Open
  constructor
  · rintro ⟨row, hrow, hstate | hstate⟩
    · exact Or.inl ⟨row, hrow, hstate⟩
    · exact Or.inr ⟨row, hrow, hstate⟩
  · rintro (⟨row, hrow, hstate⟩ | ⟨row, hrow, hstate⟩)
    · exact ⟨row, hrow, Or.inl hstate⟩
    · exact ⟨row, hrow, Or.inr hstate⟩

theorem at_some {row : JobRow} {state : JobState} (h : v.row = some row) :
    v.At state ↔ row.state = state := by
  unfold JobView.At
  rw [h]
  simp

/-- A view that differs in the log and the hash only. -/
private theorem memoryInv_of_same (h : MemoryInv jobId v) (hmem : .accepted jobId ∈ v.log →
      .accepted jobId ∈ v'.log) (hnow : AcceptedNow jobId v'.log ↔ AcceptedNow jobId v.log)
    (hrow : v.row.map (fun row => (row.state, row.terminalAt)) =
      v'.row.map fun row => (row.state, row.terminalAt))
    (hwaiting : v'.waiting = v.waiting) (hqueue : v'.queueTimer = v.queueTimer)
    (hresult : v'.resultTimer = v.resultTimer) (harmed : v'.armed = v.armed) :
    MemoryInv jobId v' := by
  have hback : ∀ row', v'.row = some row' → ∃ row, v.row = some row ∧ row.state = row'.state ∧
      row.terminalAt = row'.terminalAt := by
    intro row' hrow'
    rw [hrow', Option.map_some, Option.map_eq_some_iff] at hrow
    obtain ⟨row, hfound, heq⟩ := hrow
    exact ⟨row, hfound, (Prod.mk.inj heq).1, (Prod.mk.inj heq).2⟩
  have hat : ∀ state, v'.At state ↔ v.At state := by
    intro state
    constructor
    · rintro ⟨row', hrow', hstate⟩
      obtain ⟨row, hfound, hsame, _⟩ := hback row' hrow'
      exact ⟨row, hfound, hsame.trans hstate⟩
    · rintro ⟨row, hfound, hstate⟩
      rw [hfound, Option.map_some, eq_comm, Option.map_eq_some_iff] at hrow
      obtain ⟨row', hrow', heq⟩ := hrow
      exact ⟨row', hrow', (Prod.mk.inj heq).1.trans hstate⟩
  constructor
  · intro hfresh
    have hnone := h.blank fun hold => hfresh (hmem hold)
    rw [hnone, Option.map_none, eq_comm, Option.map_eq_none_iff] at hrow
    exact hrow
  · rw [hwaiting, h.waits, hnow, open_iff, open_iff, hat, hat]
  · rw [hqueue, h.queueTimer, hnow, hat]
  · rw [hresult, h.resultTimer, hnow, hat]
  · rw [harmed, hqueue, hresult]
    exact h.armed
  · rw [hqueue, hresult]
    exact h.stages
  · intro row' hrow'
    obtain ⟨row, hfound, hstate, hterminal⟩ := hback row' hrow'
    rw [← hstate, ← hterminal]
    exact h.terminal row hfound

/-- All timers of the job are in the maps, so that the end of the job clears them. -/
private theorem MemoryInv.cleared (h : MemoryInv jobId v) {armed : List Timer}
    (hleft : armed ⊆ v.armed) :
    armed.filter (fun timer => v.queueTimer ≠ some timer ∧ v.resultTimer ≠ some timer) = [] := by
  rw [List.filter_eq_nil_iff]
  intro timer htimer
  have hmem := hleft htimer
  rw [h.armed, List.mem_append, Option.mem_toList, Option.mem_toList] at hmem
  rcases hmem with hqueue | hresult
  · simp [Option.mem_def.mp hqueue]
  · simp [Option.mem_def.mp hresult]

/-- The end of the job. -/
private theorem memoryInv_over (h : MemoryInv jobId v) {row : JobRow} {armed : List Timer}
    (hclosed : ¬row.state.Open) (hterminal : row.terminalAt ≠ none) (hfound : v.row ≠ none)
    (hleft : armed ⊆ v.armed) {log : List Entry}
    (hlog : .accepted jobId ∈ v.log → .accepted jobId ∈ log) :
    MemoryInv jobId { { v with armed }.over row with log } := by
  have hqueued : row.state ≠ .queued := fun hstate => hclosed (Or.inl hstate)
  have hleased : row.state ≠ .leased := fun hstate => hclosed (Or.inr hstate)
  constructor
  · intro hfresh
    exact absurd (h.blank fun hold => hfresh (hlog hold)) hfound
  · simp [JobView.over, open_iff, JobView.At, hqueued, hleased]
  · simp [JobView.over, JobView.At, hqueued]
  · simp [JobView.over, JobView.At, hleased]
  · exact h.cleared hleft
  · simp [JobView.over]
  · intro row' hrow'
    obtain rfl : row = row' := Option.some.inj hrow'
    exact iff_of_true hterminal hclosed

theorem memoryInv_step (h : MemoryInv jobId v) (hstep : JobStep sha256Hex jobId v v') :
    MemoryInv jobId v' := by
  cases hstep with
  | quiet => exact h
  | refused reason =>
    exact memoryInv_of_same h (List.mem_cons_of_mem _) (by simp [acceptedNow_cons]) rfl rfl rfl rfl
      rfl
  | answered token result outcome _ _ =>
    exact memoryInv_of_same h (List.mem_cons_of_mem _) (by simp [acceptedNow_cons]) rfl rfl rfl rfl
      rfl
  | issued c token e _ hlease _ =>
    obtain ⟨max, fetchModes, jobs, rfl⟩ := hlease
    refine memoryInv_of_same h (List.mem_cons_of_mem _) (by simp [acceptedNow_cons]) ?_ rfl rfl rfl
      rfl
    simp [Function.comp_def]
  | accepted row timer hfresh hstate hhash hterminal hown hstage =>
    have hnone := h.blank hfresh
    have hnow : ¬AcceptedNow jobId v.log := fun hnow => hfresh hnow.mem
    have hresult : v.resultTimer = none := by
      by_contra hne
      exact hnow (h.resultTimer.mp hne).1
    have hqueue : v.queueTimer = none := by
      by_contra hne
      exact hnow (h.queueTimer.mp hne).1
    have hrow : v.row.or (some row) = some row := by rw [hnone, Option.none_or]
    constructor
    · simp
    · simp [acceptedNow_cons, open_iff, JobView.At, hrow, hstate]
    · simp [acceptedNow_cons, JobView.At, hrow, hstate]
    · simp [hresult, JobView.At, hrow, hstate]
    · simp [h.armed, hresult, hqueue]
    · simp [hstage, hresult]
    · simp [hrow, hstate, hterminal, JobState.Open]
  | leased c row row' timer token hfound hstate hwaits hstate' hhash hterminal hown hstage =>
    have hnow := (h.waits.mp hwaits).1
    have hresult : v.resultTimer = none := by
      by_contra hne
      obtain ⟨_, hat⟩ := h.resultTimer.mp hne
      rw [at_some hfound, hstate] at hat
      contradiction
    have hfilter : v.armed.filter (fun timer => v.queueTimer ≠ some timer) = [] := by
      rw [h.armed, hresult, List.filter_eq_nil_iff]
      simp
    have hopen := h.terminal row hfound
    constructor
    · exact fun hfresh => absurd hnow.mem hfresh
    · simp [hwaits, hnow, open_iff, JobView.At, hstate']
    · simp [JobView.At, hstate']
    · simp [hnow, JobView.At, hstate']
    · simp only [hfilter]
      rfl
    · simp [hstage]
    · intro row₁ hrow₁
      obtain rfl : row' = row₁ := Option.some.inj hrow₁
      rw [hterminal, hopen, hstate, hstate']
      simp [JobState.Open]
  | completed row token hash result now hfound hstate hstored hmatches =>
    apply memoryInv_over h (by simp [JobState.Open]) (by simp) (by simp [hfound])
      (List.Subset.refl _)
    intro hmem
    unfold JobView.settling
    split <;> simp [hmem]
  | expired row stage now armed hfound hstate hleft =>
    apply memoryInv_over h (by simp [JobState.Open]) (by simp) (by simp [hfound]) hleft
    intro hmem
    unfold JobView.settling
    split <;> simp [hmem]
  | missed timer harmed hlate =>
    exfalso
    rw [h.armed, List.mem_append, Option.mem_toList, Option.mem_toList] at harmed
    rcases harmed with hqueue | hresult
    · obtain ⟨_, row, hfound, hstate⟩ := h.queueTimer.mp (by simp [Option.mem_def.mp hqueue])
      have hstage := h.stages.1 timer hqueue
      exact hlate row hfound (by rw [hstage, hstate]; rfl)
    · obtain ⟨_, row, hfound, hstate⟩ := h.resultTimer.mp (by simp [Option.mem_def.mp hresult])
      have hstage := h.stages.2 timer hresult
      exact hlate row hfound (by rw [hstage, hstate]; rfl)
  | deleted row hfound hterminal =>
    have hclosed := (h.terminal row hfound).mp hterminal
    have hnot : ∀ state, JobState.Open state → ¬v.At state := by
      intro state hopen hat
      rw [at_some hfound] at hat
      exact hclosed (hat ▸ hopen)
    have hqueue : v.queueTimer = none := by
      by_contra hne
      exact hnot .queued (Or.inl rfl) (h.queueTimer.mp hne).2
    have hresult : v.resultTimer = none := by
      by_contra hne
      exact hnot .leased (Or.inr rfl) (h.resultTimer.mp hne).2
    have hwaits : v.waiting = false := by
      rw [Bool.eq_false_iff]
      intro hwaits
      obtain ⟨_, hopen⟩ := h.waits.mp hwaits
      exact (open_iff.mp hopen).elim (hnot .queued (Or.inl rfl)) (hnot .leased (Or.inr rfl))
    constructor
    · exact fun _ => rfl
    · simp [hwaits, JobView.Open]
    · simp [hqueue, JobView.At]
    · simp [hresult, JobView.At]
    · exact h.armed
    · exact h.stages
    · simp
  | reset =>
    constructor
    · exact fun hfresh => h.blank fun hold => hfresh (List.mem_cons_of_mem _ hold)
    · simp [acceptedNow_cons]
    · simp [acceptedNow_cons]
    · simp [acceptedNow_cons]
    · rfl
    · simp
    · exact h.terminal

end Memory

/-! ## Leases -/

/-- The job is handed out at most once, after it has left the queue, and its row keeps the hash
of the token that was handed out. -/
structure LeaseInv (sha256Hex : String → String) (jobId : JobId) (v : JobView) : Prop where
  once : v.leases ≤ 1
  queued : v.At .queued → v.leases = 0 ∧ ∀ c, v.claims c = none
  claiming : ∀ c, v.claims c ≠ none → v.leases = 0 ∧ ∀ c', v.claims c' ≠ none → c' = c
  unused : .accepted jobId ∉ v.log → v.leases = 0 ∧ ∀ c, v.claims c = none
  hash : ∀ row hash, v.row = some row → row.tokenHash = some hash →
    ∃ token, Issued jobId token v.log ∧ hash = sha256Hex token

section Leases

variable {sha256Hex : String → String} {jobId : JobId} {v v' : JobView}

/-- A job that is neither claimed nor handed out, and whose hash stays. -/
private theorem leaseInv_of_same (h : LeaseInv sha256Hex jobId v) (hleases : v'.leases = v.leases)
    (hclaims : ∀ c, v'.claims c = v.claims c) (hqueued : v'.At .queued → v.At .queued)
    (hmem : .accepted jobId ∈ v.log → .accepted jobId ∈ v'.log)
    (hissued : ∀ token, Issued jobId token v.log → Issued jobId token v'.log)
    (hrow : ∀ row', v'.row = some row' → ∃ row, v.row = some row ∧ row.tokenHash = row'.tokenHash) :
    LeaseInv sha256Hex jobId v' := by
  constructor
  · rw [hleases]
    exact h.once
  · intro hat
    simp only [hleases, hclaims]
    exact h.queued (hqueued hat)
  · intro c hc
    simp only [hleases, hclaims] at hc ⊢
    exact h.claiming c hc
  · intro hfresh
    simp only [hleases, hclaims]
    exact h.unused fun hold => hfresh (hmem hold)
  · intro row' hash hrow' hhash
    obtain ⟨row, hfound, hsame⟩ := hrow row' hrow'
    obtain ⟨token, htoken, heq⟩ := h.hash row hash hfound (hsame.trans hhash)
    exact ⟨token, hissued token htoken, heq⟩

theorem issued_settling {outcome : SubmitOutcome} {token : String}
    (h : Issued jobId token v.log) : Issued jobId token (v.settling jobId outcome) := by
  unfold JobView.settling
  split
  · exact h.cons
  · exact h

theorem mem_settling {outcome : SubmitOutcome} {e : Entry} (h : e ∈ v.log) :
    e ∈ v.settling jobId outcome := by
  unfold JobView.settling
  split
  · exact List.mem_cons_of_mem _ h
  · exact h

theorem leaseInv_step (hmemory : MemoryInv jobId v) (h : LeaseInv sha256Hex jobId v)
    (hstep : JobStep sha256Hex jobId v v') : LeaseInv sha256Hex jobId v' := by
  have hsame : ∀ row', v.row = some row' → ∃ row, v.row = some row ∧
      row.tokenHash = row'.tokenHash := fun row' hrow' => ⟨row', hrow', rfl⟩
  cases hstep with
  | quiet => exact h
  | refused reason =>
    exact leaseInv_of_same h rfl (fun _ => rfl) id (List.mem_cons_of_mem _) (fun _ => .cons) hsame
  | answered token result outcome _ _ =>
    exact leaseInv_of_same h rfl (fun _ => rfl) id (List.mem_cons_of_mem _) (fun _ => .cons) hsame
  | accepted row timer hfresh hstate hhash hterminal hown hstage =>
    have hrow : v.row.or (some row) = some row := by rw [hmemory.blank hfresh, Option.none_or]
    obtain ⟨hleases, hclaims⟩ := h.unused hfresh
    constructor
    · exact h.once
    · exact fun _ => ⟨hleases, hclaims⟩
    · exact h.claiming
    · exact fun _ => ⟨hleases, hclaims⟩
    · intro row' hash hrow' hhash'
      obtain rfl := Option.some.inj (hrow.symm.trans hrow')
      rw [hhash] at hhash'
      contradiction
  | leased c row row' timer token hfound hstate hwaits hstate' hhash hterminal hown hstage =>
    obtain ⟨hleases, hclaims⟩ := h.queued ⟨row, hfound, hstate⟩
    have hnow := (hmemory.waits.mp hwaits).1
    constructor
    · exact h.once
    · rintro ⟨row₁, hrow₁, hqueued⟩
      obtain rfl : row' = row₁ := Option.some.inj hrow₁
      rw [hstate'] at hqueued
      contradiction
    · intro c₁ hc₁
      have hown : ∀ c₂, Function.update v.claims c (some token) c₂ ≠ none → c₂ = c := by
        intro c₂ hc₂
        by_contra hne
        rw [Function.update_of_ne hne] at hc₂
        exact hc₂ (hclaims c₂)
      exact ⟨hleases, fun c₂ hc₂ => (hown c₂ hc₂).trans (hown c₁ hc₁).symm⟩
    · exact fun hfresh => absurd hnow.mem hfresh
    · intro row₁ hash hrow₁ hhash₁
      obtain rfl : row' = row₁ := Option.some.inj hrow₁
      exact h.hash row hash hfound (hhash.symm.trans hhash₁)
  | issued c token e hclaim hlease hissues =>
    obtain ⟨hleases, hone⟩ := h.claiming c (by simp [hclaim])
    have hnone : ∀ c', Function.update v.claims c none c' = none := by
      intro c'
      by_contra hne
      by_cases hc : c' = c
      · rw [hc, Function.update_self] at hne
        exact hne rfl
      · rw [Function.update_of_ne hc] at hne
        exact hc (hone c' hne)
    constructor
    · simp [hleases]
    · rintro ⟨row', hrow', hqueued⟩
      obtain ⟨row, hfound, rfl⟩ := Option.map_eq_some_iff.mp hrow'
      have hidle := (h.queued ⟨row, hfound, hqueued⟩).2 c
      rw [hclaim] at hidle
      contradiction
    · exact fun c' hc' => absurd (hnone c') hc'
    · intro hfresh
      have hidle := (h.unused fun hold => hfresh (List.mem_cons_of_mem _ hold)).2 c
      rw [hclaim] at hidle
      contradiction
    · intro row' hash hrow' hhash
      obtain ⟨row, hfound, rfl⟩ := Option.map_eq_some_iff.mp hrow'
      obtain rfl := Option.some.inj hhash
      exact ⟨token, hissues.of_entry, rfl⟩
  | completed row token hash result now hfound hstate hstored hmatches =>
    refine leaseInv_of_same h rfl (fun _ => rfl) ?_ ?_ ?_ ?_
    · rintro ⟨row', hrow', hqueued⟩
      obtain rfl := Option.some.inj hrow'
      contradiction
    · exact fun hmem => mem_settling (List.mem_cons_of_mem _ hmem)
    · exact fun token htoken => issued_settling htoken.cons
    · intro row' hrow'
      obtain rfl := Option.some.inj hrow'
      exact ⟨row, hfound, rfl⟩
  | expired row stage now armed hfound hstate hleft =>
    refine leaseInv_of_same h rfl (fun _ => rfl) ?_ ?_ ?_ ?_
    · rintro ⟨row', hrow', hqueued⟩
      obtain rfl := Option.some.inj hrow'
      contradiction
    · exact fun hmem => mem_settling (List.mem_cons_of_mem _ hmem)
    · exact fun token htoken => issued_settling htoken.cons
    · intro row' hrow'
      obtain rfl := Option.some.inj hrow'
      exact ⟨row, hfound, rfl⟩
  | missed timer harmed hlate =>
    exact leaseInv_of_same h rfl (fun _ => rfl) id id (fun _ => id) hsame
  | deleted row hfound hterminal =>
    refine leaseInv_of_same h rfl (fun _ => rfl) ?_ id (fun _ => id) ?_
    · rintro ⟨row', hrow', _⟩
      contradiction
    · exact fun row' hrow' => by contradiction
  | reset =>
    constructor
    · exact h.once
    · exact fun hat => ⟨(h.queued hat).1, fun _ => rfl⟩
    · exact fun c hc => absurd rfl hc
    · exact fun hfresh =>
        ⟨(h.unused fun hold => hfresh (List.mem_cons_of_mem _ hold)).1, fun _ => rfl⟩
    · intro row hash hrow hhash
      obtain ⟨token, htoken, heq⟩ := h.hash row hash hrow hhash
      exact ⟨token, htoken.cons, heq⟩

end Leases

end Utsuroi.Crawler

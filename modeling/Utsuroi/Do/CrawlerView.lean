import Mathlib.Tactic
import Utsuroi.Do.CrawlerAnswers

/-!
# The crawler object, job by job

What the calls of the object do to one job, and that they leave the others alone.
-/

namespace Utsuroi.Crawler

open Transition

/-- A poll gets no more jobs than it asked for, of the modes it asked for. -/
def Entry.WithinRequest : Entry → Prop
  | .leaseResponse max fetchModes jobs =>
    jobs.length ≤ max ∧ ∀ job ∈ jobs, job.fetchMode ∈ fetchModes
  | _ => True

/-- The primary key, whose timers the maps hold, what a call has claimed and been answered. -/
structure ObjectInv (s : CrawlerState) : Prop where
  ids : (s.jobs.map JobRow.jobId).Nodup
  queueTimers : ∀ jobId t, s.queueTimers jobId = some t → t.jobId = jobId
  resultTimers : ∀ jobId t, s.resultTimers jobId = some t → t.jobId = jobId
  claims : ∀ c info max deadline claimed, s.calls c = some (.hashing info max deadline claimed) →
    (claimed.map fun claim => claim.row.jobId).Nodup ∧ claimed.length ≤ max ∧
      ∀ claim ∈ claimed, claim.row.fetchMode ∈ info.fetchModes
  responses : ∀ e ∈ s.log, e.WithinRequest

/-! ## Rows -/

section Rows

variable {s : CrawlerState} {jobId other : JobId} {f : JobRow → JobRow}

private theorem find_map_jobs (jobs : List JobRow) (hf : ∀ row, (f row).jobId = row.jobId) :
    (jobs.map fun row => if row.jobId = other then f row else row).find? (·.jobId = jobId) =
      (jobs.find? (·.jobId = jobId)).map fun row => if row.jobId = other then f row else row := by
  have hid : ∀ row : JobRow, (if row.jobId = other then f row else row).jobId = row.jobId := by
    intro row
    split
    · exact hf row
    · rfl
  rw [List.find?_map]
  congr 1
  apply congrArg (fun p => jobs.find? p)
  funext row
  simp [hid]

theorem row_updateJob_self (hf : ∀ row, (f row).jobId = row.jobId) :
    (s.updateJob jobId f).row jobId = (s.row jobId).map f := by
  unfold CrawlerState.row CrawlerState.updateJob
  rw [find_map_jobs s.jobs hf]
  cases hrow : s.jobs.find? (·.jobId = jobId) with
  | none => rfl
  | some row =>
    have hid : row.jobId = jobId := by simpa using List.find?_some hrow
    simp [hid]

theorem row_updateJob_other (hf : ∀ row, (f row).jobId = row.jobId) (hne : other ≠ jobId) :
    (s.updateJob jobId f).row other = s.row other := by
  unfold CrawlerState.row CrawlerState.updateJob
  rw [find_map_jobs s.jobs hf]
  cases hrow : s.jobs.find? (·.jobId = other) with
  | none => rfl
  | some row =>
    have hid : row.jobId = other := by simpa using List.find?_some hrow
    simp [hid, hne]

theorem ids_updateJob (hf : ∀ row, (f row).jobId = row.jobId) :
    (s.updateJob jobId f).jobs.map JobRow.jobId = s.jobs.map JobRow.jobId := by
  unfold CrawlerState.updateJob
  rw [List.map_map]
  apply List.map_congr_left
  intro row _
  simp only [Function.comp_apply]
  split
  · exact hf row
  · rfl

theorem row_jobId {row : JobRow} (h : s.row jobId = some row) : row.jobId = jobId := by
  simpa using List.find?_some h

/-- The primary key finds the row. -/
theorem row_of_mem (hids : (s.jobs.map JobRow.jobId).Nodup) {row : JobRow} (hmem : row ∈ s.jobs) :
    s.row row.jobId = some row := by
  unfold CrawlerState.row
  generalize s.jobs = jobs at hids hmem
  induction jobs with
  | nil => contradiction
  | cons head jobs ih =>
    rw [List.map_cons, List.nodup_cons] at hids
    rcases List.mem_cons.mp hmem with rfl | htail
    · simp
    · have hne : head.jobId ≠ row.jobId := by
        intro heq
        exact hids.1 (heq ▸ List.mem_map_of_mem htail)
      rw [List.find?_cons_of_neg (by simpa using hne)]
      exact ih hids.2 htail

end Rows

/-! ## What the steps of the source do to a job -/

section Primitives

variable {s : CrawlerState} {jobId other : JobId}

theorem view_note (e : Entry) : (s.note e).view jobId =
    { s.view jobId with
      leases := e.leasedIds.count jobId + (s.view jobId).leases
      log := if e.concerns jobId then e :: (s.view jobId).log else (s.view jobId).log } := by
  simp only [CrawlerState.view, CrawlerState.note, List.flatMap_cons, List.count_append,
    List.filter_cons]
  rfl

/-- An entry about another job. -/
theorem view_note_other {e : Entry} (hconcerns : e.concerns jobId = false)
    (hleased : e.leasedIds = []) : (s.note e).view jobId = s.view jobId := by
  rw [view_note, hconcerns, hleased]
  simp

theorem view_note_self {e : Entry} (hconcerns : e.concerns jobId = true)
    (hleased : e.leasedIds = []) :
    (s.note e).view jobId = { s.view jobId with log := e :: (s.view jobId).log } := by
  rw [view_note, hconcerns, hleased]
  simp

theorem view_updateJob_self {f : JobRow → JobRow} (hf : ∀ row, (f row).jobId = row.jobId) :
    (s.updateJob jobId f).view jobId = { s.view jobId with row := (s.row jobId).map f } := by
  unfold CrawlerState.view
  rw [row_updateJob_self hf]
  rfl

theorem view_updateJob_other {f : JobRow → JobRow} (hf : ∀ row, (f row).jobId = row.jobId)
    (hne : other ≠ jobId) : (s.updateJob jobId f).view other = s.view other := by
  unfold CrawlerState.view
  rw [row_updateJob_other hf hne]
  rfl

theorem armed_other {t : Option Timer}
    (hown : ∀ timer, t = some timer → timer.jobId = jobId) (hne : other ≠ jobId) (armed : List Timer) :
    (armed.filter fun timer => t ≠ some timer).filter (·.jobId = other) =
      armed.filter (·.jobId = other) := by
  rw [List.filter_filter]
  apply List.filter_congr
  intro timer _
  by_cases hid : timer.jobId = other
  · have hnot : t ≠ some timer := fun ht => hne (hid.symm.trans (hown timer ht))
    simp [hid, hnot]
  · simp [hid]

theorem armed_self {t : Option Timer} (armed : List Timer) :
    (armed.filter fun timer => t ≠ some timer).filter (·.jobId = jobId) =
      (armed.filter (·.jobId = jobId)).filter fun timer => t ≠ some timer := by
  rw [List.filter_filter, List.filter_filter]
  apply List.filter_congr
  intro timer _
  exact Bool.and_comm _ _

private theorem armed_clearTimers : (s.clearTimers jobId).armed =
    (s.armed.filter fun timer => s.queueTimers jobId ≠ some timer).filter
      fun timer => s.resultTimers jobId ≠ some timer := rfl

theorem view_clearTimers_self : (s.clearTimers jobId).view jobId =
    { s.view jobId with
      queueTimer := none
      resultTimer := none
      armed := (s.view jobId).armed.filter fun timer =>
        (s.view jobId).queueTimer ≠ some timer ∧ (s.view jobId).resultTimer ≠ some timer } := by
  ext1
  · rfl
  · rfl
  · exact Function.update_self _ _ _
  · exact Function.update_self _ _ _
  · change (s.clearTimers jobId).armed.filter (·.jobId = jobId) =
      (s.armed.filter (·.jobId = jobId)).filter fun timer =>
        s.queueTimers jobId ≠ some timer ∧ s.resultTimers jobId ≠ some timer
    rw [armed_clearTimers, armed_self, armed_self, List.filter_filter]
    apply List.filter_congr
    intro timer _
    simp [Bool.and_comm]
  · rfl
  · rfl
  · rfl

theorem view_clearTimers_other (hinv : ObjectInv s) (hne : other ≠ jobId) :
    (s.clearTimers jobId).view other = s.view other := by
  ext1
  · rfl
  · rfl
  · exact Function.update_of_ne hne _ _
  · exact Function.update_of_ne hne _ _
  · change (s.clearTimers jobId).armed.filter (·.jobId = other) = s.armed.filter (·.jobId = other)
    rw [armed_clearTimers, armed_other (hinv.resultTimers jobId) hne,
      armed_other (hinv.queueTimers jobId) hne]
  · rfl
  · rfl
  · rfl

theorem view_resolveWaiter_self (outcome : SubmitOutcome) :
    (s.resolveWaiter jobId outcome).view jobId =
      { s.view jobId with
        waiting := false
        log := (s.view jobId).settling jobId outcome } := by
  unfold CrawlerState.resolveWaiter JobView.settling
  have hwaiting : (s.view jobId).waiting = s.waiters jobId := rfl
  cases hwaits : s.waiters jobId with
  | false =>
    rw [hwaiting, hwaits, if_neg Bool.false_ne_true, if_neg Bool.false_ne_true]
    ext1 <;> first | rfl | exact hwaits
  | true =>
    rw [hwaiting, hwaits, if_pos rfl, if_pos rfl, view_note_self (by simp [Entry.concerns]) rfl]
    ext1 <;> first | rfl | exact Function.update_self _ _ _

theorem view_resolveWaiter_other (outcome : SubmitOutcome) (hne : other ≠ jobId) :
    (s.resolveWaiter jobId outcome).view other = s.view other := by
  unfold CrawlerState.resolveWaiter
  split
  · rw [view_note_other (by simp [Entry.concerns, Ne.symm hne]) rfl]
    ext1 <;> first | rfl | exact Function.update_of_ne hne _ _
  · rfl

end Primitives

/-! ## The end of a job -/

section Ends

variable {sha256Hex : String → String} {s s' : CrawlerState} {jobId other : JobId}

theorem objectInv_of (h : ObjectInv s)
    (hids : s'.jobs.map JobRow.jobId = s.jobs.map JobRow.jobId)
    (hqueue : ∀ jobId t, s'.queueTimers jobId = some t → s.queueTimers jobId = some t)
    (hresult : ∀ jobId t, s'.resultTimers jobId = some t → s.resultTimers jobId = some t)
    (hcalls : s'.calls = s.calls) (hlog : s'.log = s.log) : ObjectInv s' := by
  constructor
  · rw [hids]
    exact h.ids
  · exact fun jobId t ht => h.queueTimers jobId t (hqueue jobId t ht)
  · exact fun jobId t ht => h.resultTimers jobId t (hresult jobId t ht)
  · rw [hcalls]
    exact h.claims
  · rw [hlog]
    exact h.responses

theorem update_none_some {timers : JobId → Option Timer} {id : JobId} {t : Timer}
    (h : Function.update timers jobId none id = some t) : timers id = some t := by
  by_cases hid : id = jobId
  · rw [hid, Function.update_self] at h
    contradiction
  · rwa [Function.update_of_ne hid] at h

/-- A row that ends, its timers and its waiter. -/
def finish (s : CrawlerState) (jobId : JobId) (f : JobRow → JobRow) (e : Entry)
    (outcome : SubmitOutcome) : CrawlerState :=
  (((s.note e).updateJob jobId f).clearTimers jobId).resolveWaiter jobId outcome

theorem objectInv_note (h : ObjectInv s) {e : Entry} (he : e.WithinRequest) :
    ObjectInv (s.note e) :=
  ⟨h.ids, h.queueTimers, h.resultTimers, h.claims, List.forall_mem_cons.mpr ⟨he, h.responses⟩⟩

private theorem objectInv_resolveWaiter (h : ObjectInv s) (outcome : SubmitOutcome) :
    ObjectInv (s.resolveWaiter jobId outcome) := by
  have hwaiters : ObjectInv { s with waiters := Function.update s.waiters jobId false } :=
    objectInv_of h rfl (fun _ _ ht => ht) (fun _ _ ht => ht) rfl rfl
  unfold CrawlerState.resolveWaiter
  split
  · exact objectInv_note hwaiters trivial
  · exact h


theorem objectInv_updateJob (h : ObjectInv s) {f : JobRow → JobRow}
    (hf : ∀ row, (f row).jobId = row.jobId) : ObjectInv (s.updateJob jobId f) :=
  objectInv_of h (ids_updateJob hf) (fun _ _ ht => ht) (fun _ _ ht => ht) rfl rfl

private theorem objectInv_clearTimers (h : ObjectInv s) : ObjectInv (s.clearTimers jobId) :=
  objectInv_of h rfl (fun _ _ => update_none_some) (fun _ _ => update_none_some) rfl rfl

section Finish

variable {f : JobRow → JobRow} {e : Entry} {outcome : SubmitOutcome}

private theorem objectInv_finish (h : ObjectInv s) (hf : ∀ row, (f row).jobId = row.jobId)
    (he : e.WithinRequest) : ObjectInv (finish s jobId f e outcome) :=
  objectInv_resolveWaiter (objectInv_clearTimers (objectInv_updateJob (objectInv_note h he) hf))
    outcome

private theorem view_finish_other (h : ObjectInv s) (hf : ∀ row, (f row).jobId = row.jobId)
    (he : e.WithinRequest) (hconcerns : ∀ id, e.concerns id = true ↔ id = jobId)
    (hleased : e.leasedIds = []) (hne : other ≠ jobId) : (finish s jobId f e outcome).view other = s.view other := by
  have hnot : e.concerns other = false :=
    Bool.eq_false_iff.mpr fun h => hne ((hconcerns other).mp h)
  unfold finish
  rw [view_resolveWaiter_other outcome hne,
    view_clearTimers_other (objectInv_updateJob (objectInv_note h he) hf) hne,
    view_updateJob_other hf hne, view_note_other hnot hleased]

private theorem view_finish_self (hf : ∀ row, (f row).jobId = row.jobId)
    (hconcerns : e.concerns jobId = true) (hleased : e.leasedIds = []) {row : JobRow}
    (hrow : s.row jobId = some row) : (finish s jobId f e outcome).view jobId =
      { (s.view jobId).over (f row) with
        log := { s.view jobId with log := e :: (s.view jobId).log }.settling jobId outcome } := by
  have hnote : (s.note e).row jobId = some row := hrow
  unfold finish
  rw [view_resolveWaiter_self, view_clearTimers_self, view_updateJob_self hf,
    view_note_self hconcerns hleased, hnote]
  rfl

end Finish

def JobRow.ended (row : JobRow) (state : JobState) (now : Nat) : JobRow :=
  { row with state, terminalAt := some now }

private theorem ended_jobId (state : JobState) (now : Nat) (row : JobRow) :
    (row.ended state now).jobId = row.jobId := rfl

theorem expireJob_eq {stage : Stage} : s.expireJob jobId stage =
    match (s.row jobId).filter fun row => row.state = stage.fromState with
    | none => s
    | some row =>
      let s' := if stage = .result then s.markOffline row.runnerId else s
      finish s' jobId (fun row => row.ended .expired s.now) (.expired jobId)
        (.unavailable stage.reason) := by
  unfold CrawlerState.expireJob finish
  cases (s.row jobId).filter fun row => row.state = stage.fromState with
  | none => rfl
  | some row =>
    dsimp only
    split <;> rfl

private theorem view_markOffline (runnerId : Option String) :
    (s.markOffline runnerId).view jobId = s.view jobId := rfl

private theorem objectInv_markOffline (h : ObjectInv s) {runnerId : Option String} :
    ObjectInv (s.markOffline runnerId) :=
  objectInv_of h rfl (fun _ _ ht => ht) (fun _ _ ht => ht) rfl rfl

theorem objectInv_expireJob (h : ObjectInv s) (stage : Stage) :
    ObjectInv (s.expireJob jobId stage) := by
  rw [expireJob_eq]
  split
  · exact h
  · dsimp only
    split
    · exact objectInv_finish (objectInv_markOffline h) (ended_jobId _ _) trivial
    · exact objectInv_finish h (ended_jobId _ _) trivial

theorem view_expireJob_other (h : ObjectInv s) (stage : Stage) (hne : other ≠ jobId) :
    (s.expireJob jobId stage).view other = s.view other := by
  have hconcerns : ∀ id, (Entry.expired jobId).concerns id = true ↔ id = jobId := by
    intro id
    simp [Entry.concerns, eq_comm]
  have hwithin : (Entry.expired jobId).WithinRequest := trivial
  rw [expireJob_eq]
  split
  · rfl
  · dsimp only
    split
    · rw [view_finish_other (objectInv_markOffline h) (ended_jobId _ _) hwithin hconcerns rfl hne,
        view_markOffline]
    · exact view_finish_other h (ended_jobId _ _) hwithin hconcerns rfl hne

theorem view_expireJob_self {stage : Stage} {row : JobRow} (hrow : s.row jobId = some row)
    (hstate : row.state = stage.fromState) : (s.expireJob jobId stage).view jobId =
      { (s.view jobId).over { row with state := .expired, terminalAt := some s.now } with
        log := { s.view jobId with log := .expired jobId :: (s.view jobId).log }.settling jobId
          (.unavailable stage.reason) } := by
  have hconcerns : (Entry.expired jobId).concerns jobId = true := by simp [Entry.concerns]
  have hfound : ((s.row jobId).filter fun row => row.state = stage.fromState) = some row := by
    rw [hrow, Option.filter_some, if_pos (decide_eq_true hstate)]
  rw [expireJob_eq, hfound]
  dsimp only
  split
  · have hoffline : (s.markOffline row.runnerId).row jobId = some row := hrow
    rw [view_finish_self (ended_jobId _ _) hconcerns rfl hoffline, view_markOffline]
    rfl
  · rw [view_finish_self (ended_jobId _ _) hconcerns rfl hrow]
    rfl

theorem expireJob_late {stage : Stage}
    (hlate : ∀ row, s.row jobId = some row → row.state ≠ stage.fromState) :
    s.expireJob jobId stage = s := by
  rw [expireJob_eq]
  cases hrow : s.row jobId with
  | none => rfl
  | some row =>
    rw [Option.filter_some, if_neg (by simpa using hlate row hrow)]

end Ends

/-! ## Several jobs in a row -/

section Several

variable {α : Type} {op : CrawlerState → α → CrawlerState} {key : α → JobId} {s : CrawlerState}
  {items : List α}

/-- An operation on the job of an item that leaves the other jobs alone. -/
structure OneJob (op : CrawlerState → α → CrawlerState) (key : α → JobId) : Prop where
  inv : ∀ {s a}, ObjectInv s → ObjectInv (op s a)
  other : ∀ {s a other}, ObjectInv s → other ≠ key a → (op s a).view other = s.view other
  now : ∀ {s a}, (op s a).now = s.now

theorem OneJob.foldl_inv (hop : OneJob op key) (h : ObjectInv s) :
    ObjectInv (items.foldl op s) := by
  induction items generalizing s with
  | nil => exact h
  | cons a items ih => exact ih (hop.inv h)

theorem OneJob.foldl_other (hop : OneJob op key) (h : ObjectInv s) {other : JobId}
    (hnot : other ∉ items.map key) : (items.foldl op s).view other = s.view other := by
  induction items generalizing s with
  | nil => rfl
  | cons a items ih =>
    rw [List.map_cons, List.mem_cons, not_or] at hnot
    rw [List.foldl_cons, ih (hop.inv h) hnot.2, hop.other h hnot.1]

theorem OneJob.foldl_now (hop : OneJob op key) : (items.foldl op s).now = s.now := by
  induction items generalizing s with
  | nil => rfl
  | cons a items ih => exact ih.trans hop.now

/-- The other items leave the job of an item alone. -/
theorem OneJob.foldl_self (hop : OneJob op key) (h : ObjectInv s) (hkeys : (items.map key).Nodup)
    {a : α} (ha : a ∈ items) :
    ∃ s₁, s₁.view (key a) = s.view (key a) ∧ s₁.now = s.now ∧
      (items.foldl op s).view (key a) = (op s₁ a).view (key a) := by
  induction items generalizing s with
  | nil => contradiction
  | cons b items ih =>
    rw [List.map_cons, List.nodup_cons] at hkeys
    rcases List.mem_cons.mp ha with rfl | htail
    · exact ⟨s, rfl, rfl, hop.foldl_other (hop.inv h) hkeys.1⟩
    · have hne : key a ≠ key b := fun heq => hkeys.1 (heq ▸ List.mem_map_of_mem htail)
      obtain ⟨s₁, hview, hsame, hfold⟩ := ih (hop.inv h) hkeys.2 htail
      exact ⟨s₁, hview.trans (hop.other h hne), hsame.trans hop.now, hfold⟩

end Several

/-! ## Calls -/

section Calls

variable {s : CrawlerState} {jobId : JobId} {c : CallId}

theorem view_calls {call : Option Call} :
    ({ s with calls := Function.update s.calls c call } : CrawlerState).view jobId =
      { s.view jobId with
        claims := Function.update (s.view jobId).claims c (call.bind (Call.claimOf jobId)) } := by
  ext1 <;> try rfl
  funext other
  change (Function.update s.calls c call other).bind (Call.claimOf jobId) =
    Function.update (s.view jobId).claims c (call.bind (Call.claimOf jobId)) other
  by_cases hc : other = c
  · rw [hc, Function.update_self, Function.update_self]
  · rw [Function.update_of_ne hc, Function.update_of_ne hc]
    rfl

/-- A call that claims nothing goes on to one that claims nothing. -/
theorem view_calls_idle {call : Option Call}
    (hbefore : (s.calls c).bind (Call.claimOf jobId) = none)
    (hafter : call.bind (Call.claimOf jobId) = none) :
    ({ s with calls := Function.update s.calls c call } : CrawlerState).view jobId =
      s.view jobId := by
  have hclaims : (s.view jobId).claims c = none := hbefore
  rw [view_calls, hafter, ← hclaims, Function.update_eq_self]

theorem objectInv_calls (h : ObjectInv s) {call : Option Call}
    (hcall : ∀ info max deadline claimed, call = some (.hashing info max deadline claimed) →
      (claimed.map fun claim => claim.row.jobId).Nodup ∧ claimed.length ≤ max ∧
        ∀ claim ∈ claimed, claim.row.fetchMode ∈ info.fetchModes) :
    ObjectInv { s with calls := Function.update s.calls c call } := by
  refine ⟨h.ids, h.queueTimers, h.resultTimers, ?_, h.responses⟩
  intro other info max deadline claimed hother
  change Function.update s.calls c call other = _ at hother
  by_cases hc : other = c
  · subst hc
    rw [Function.update_self] at hother
    exact hcall info max deadline claimed hother
  · rw [Function.update_of_ne hc] at hother
    exact h.claims other info max deadline claimed hother

end Calls

/-! ## `complete` -/

section Complete

variable {sha256Hex : String → String} {s : CrawlerState} {jobId other : JobId} {token : String}
  {result : RunnerResult}

theorem completeOutcome_accepted
    (h : s.completeOutcome sha256Hex jobId token result = .accepted) :
    ∃ row hash, s.row jobId = some row ∧ row.state = .leased ∧ row.tokenHash = some hash ∧
      equalHex (sha256Hex token) hash = true := by
  unfold CrawlerState.completeOutcome at h
  cases hrow : s.row jobId with
  | none =>
    rw [hrow] at h
    contradiction
  | some row =>
    rw [hrow] at h
    dsimp only at h
    cases hhash : row.tokenHash with
    | none => simp [hhash] at h
    | some hash =>
      cases hmatches : equalHex (sha256Hex token) hash with
      | false => simp [hhash, hmatches] at h
      | true =>
        by_cases hstate : row.state = .leased
        · exact ⟨row, hash, rfl, hstate, hhash, hmatches⟩
        · by_cases hcompleted : row.state = .completed <;>
            simp [hhash, hmatches, hstate, hcompleted] at h

theorem completeOutcome_duplicate
    (h : s.completeOutcome sha256Hex jobId token result = .duplicate) :
    ∃ row, s.row jobId = some row ∧ row.state = .completed := by
  unfold CrawlerState.completeOutcome at h
  cases hrow : s.row jobId with
  | none =>
    rw [hrow] at h
    contradiction
  | some row =>
    rw [hrow] at h
    dsimp only at h
    by_cases hcompleted : row.state = .completed
    · exact ⟨row, rfl, hcompleted⟩
    · rw [if_neg hcompleted] at h
      split at h
      · contradiction
      · split at h
        · contradiction
        · split at h
          · split at h <;> contradiction
          · contradiction

theorem complete_accepted (h : s.completeOutcome sha256Hex jobId token result = .accepted) :
    s.complete sha256Hex jobId token result =
      finish s jobId (fun row => row.ended .completed s.now)
        (.completeResponse jobId token result .accepted) (.result result) := by
  unfold CrawlerState.complete
  rw [h]
  rfl

theorem complete_rejected
    (h : s.completeOutcome sha256Hex jobId token result ≠ .accepted) :
    s.complete sha256Hex jobId token result =
      s.note (.completeResponse jobId token result
        (s.completeOutcome sha256Hex jobId token result)) := by
  unfold CrawlerState.complete
  exact if_neg h

theorem objectInv_complete (h : ObjectInv s) :
    ObjectInv (s.complete sha256Hex jobId token result) := by
  by_cases haccepted : s.completeOutcome sha256Hex jobId token result = .accepted
  · rw [complete_accepted haccepted]
    exact objectInv_finish h (ended_jobId _ _) trivial
  · rw [complete_rejected haccepted]
    exact objectInv_note h trivial

theorem view_complete (h : ObjectInv s) :
    JobStep sha256Hex other (s.view other)
      ((s.complete sha256Hex jobId token result).view other) := by
  have hconcerns : ∀ outcome id,
      (Entry.completeResponse jobId token result outcome).concerns id = true ↔ id = jobId := by
    intro outcome id
    simp [Entry.concerns, eq_comm]
  by_cases haccepted : s.completeOutcome sha256Hex jobId token result = .accepted
  · rw [complete_accepted haccepted]
    by_cases hid : other = jobId
    · subst hid
      obtain ⟨row, hash, hrow, hstate, hstored, hmatches⟩ := completeOutcome_accepted haccepted
      rw [view_finish_self (ended_jobId _ _) ((hconcerns _ _).mpr rfl) rfl hrow]
      exact .completed _ row token hash result s.now hrow hstate hstored hmatches
    · have hwithin : (Entry.completeResponse jobId token result .accepted).WithinRequest := trivial
      rw [view_finish_other h (ended_jobId _ _) hwithin (hconcerns _) rfl hid]
      exact .quiet _
  · rw [complete_rejected haccepted]
    by_cases hid : other = jobId
    · subst hid
      rw [view_note_self ((hconcerns _ _).mpr rfl) rfl]
      exact .answered _ token result _ haccepted completeOutcome_duplicate
    · rw [view_note_other (Bool.eq_false_iff.mpr fun hc => hid ((hconcerns _ _).mp hc)) rfl]
      exact .quiet _

end Complete

/-! ## `submitAndWait` -/

section Submit

variable {sha256Hex : String → String} {s : CrawlerState} {input : CrawlerJobInput}
  {limits : SubmitLimits} {other : JobId}

private theorem claims_wakeLeasers (jobId : JobId) (c : CallId) :
    (s.wakeLeasers.calls c).bind (Call.claimOf jobId) =
      (s.calls c).bind (Call.claimOf jobId) := by
  unfold CrawlerState.wakeLeasers
  dsimp only
  split
  · next hcall =>
    rw [hcall]
    split <;> rfl
  · rfl

private theorem view_wakeLeasers (jobId : JobId) : s.wakeLeasers.view jobId = s.view jobId := by
  ext1 <;> try rfl
  funext c
  exact claims_wakeLeasers jobId c

private theorem hashing_wakeLeasers {c : CallId} {info : RunnerInfo} {max deadline : Nat}
    {claimed : List Claimed}
    (h : s.wakeLeasers.calls c = some (.hashing info max deadline claimed)) :
    s.calls c = some (.hashing info max deadline claimed) := by
  unfold CrawlerState.wakeLeasers at h
  dsimp only at h
  split at h
  · split at h <;> cases h
  · exact h

private theorem objectInv_wakeLeasers (h : ObjectInv s) : ObjectInv s.wakeLeasers :=
  ⟨h.ids, h.queueTimers, h.resultTimers,
    fun c _ _ _ _ hc => h.claims c _ _ _ _ (hashing_wakeLeasers hc), h.responses⟩

theorem update_some_some {timers : JobId → Option Timer} {jobId id : JobId}
    {t timer : Timer} (h : Function.update timers jobId (some timer) id = some t) (hown : timer.jobId = jobId)
    (hold : timers id = some t → t.jobId = id) : t.jobId = id := by
  by_cases hid : id = jobId
  · rw [hid, Function.update_self] at h
    rw [← Option.some.inj h, hid, hown]
  · rw [Function.update_of_ne hid] at h
    exact hold h

theorem objectInv_enqueue (h : ObjectInv s) (hfresh : s.row input.jobId = none) :
    ObjectInv (s.enqueue input limits) := by
  apply objectInv_wakeLeasers
  refine objectInv_note ?_ trivial
  constructor
  · change ((s.jobs ++ [_]).map JobRow.jobId).Nodup
    rw [List.map_append, List.nodup_append]
    refine ⟨h.ids, by simp, ?_⟩
    intro id hid id' hid'
    obtain rfl : id' = input.jobId := by simpa using hid'
    obtain ⟨row, hrow, rfl⟩ := List.mem_map.mp hid
    rintro heq
    rw [← heq, row_of_mem h.ids hrow] at hfresh
    contradiction
  · exact fun id t ht => update_some_some ht rfl (h.queueTimers id t)
  · exact h.resultTimers
  · exact h.claims
  · exact h.responses

theorem view_enqueue_other (hne : other ≠ input.jobId) :
    (s.enqueue input limits).view other = s.view other := by
  unfold CrawlerState.enqueue
  rw [view_wakeLeasers, view_note_other (by simp [Entry.concerns, Ne.symm hne]) rfl]
  ext1 <;> try rfl
  · change (s.jobs ++ [_]).find? (·.jobId = other) = s.jobs.find? (·.jobId = other)
    rw [List.find?_append]
    simp [Ne.symm hne]
  · exact Function.update_of_ne hne _ _
  · exact Function.update_of_ne hne _ _
  · change (s.newTimer input.jobId .lease :: s.armed).filter (·.jobId = other) = _
    rw [List.filter_cons_of_neg (by simp [CrawlerState.newTimer, Ne.symm hne])]
    rfl

theorem view_enqueue_self (hfresh : .accepted input.jobId ∉ s.log) :
    JobStep sha256Hex input.jobId (s.view input.jobId)
      ((s.enqueue input limits).view input.jobId) := by
  have hlog : .accepted input.jobId ∉ (s.view input.jobId).log :=
    fun hmem => hfresh (List.mem_of_mem_filter hmem)
  have hconcerns : (Entry.accepted input.jobId).concerns input.jobId = true := by
    simp [Entry.concerns]
  let row : JobRow := ⟨input.jobId, input.fetchMode, input.request, .queued, none, none, s.now,
    s.now + limits.leaseWaitMs.getD LEASE_WAIT_MS, limits.resultWaitMs.getD RESULT_WAIT_MS, none,
    none⟩
  have hview : (s.enqueue input limits).view input.jobId =
      { s.view input.jobId with
        row := (s.view input.jobId).row.or (some row)
        waiting := true
        queueTimer := some (s.newTimer input.jobId .lease)
        armed := s.newTimer input.jobId .lease :: (s.view input.jobId).armed
        log := .accepted input.jobId :: (s.view input.jobId).log } := by
    unfold CrawlerState.enqueue
    rw [view_wakeLeasers, view_note_self hconcerns rfl]
    ext1 <;> try rfl
    · change (s.jobs ++ [row]).find? (·.jobId = input.jobId) =
        (s.jobs.find? (·.jobId = input.jobId)).or (some row)
      rw [List.find?_append]
      simp [row]
    · exact Function.update_self _ _ _
    · exact Function.update_self _ _ _
    · change (s.newTimer input.jobId .lease :: s.armed).filter (·.jobId = input.jobId) = _
      rw [List.filter_cons_of_pos (by simp [CrawlerState.newTimer])]
      rfl
  rw [hview]
  exact .accepted _ row _ hlog rfl rfl rfl rfl rfl

theorem objectInv_submit (h : ObjectInv s) (hfresh : s.row input.jobId = none) :
    ObjectInv (s.submit input limits) := by
  unfold CrawlerState.submit
  split
  · exact objectInv_note h trivial
  · dsimp only
    split
    · exact objectInv_note h trivial
    · exact objectInv_enqueue h hfresh

private theorem view_refused (reason : UnavailableReason) :
    JobStep sha256Hex other (s.view other) ((s.note (.refused input.jobId reason)).view other) := by
  by_cases hid : other = input.jobId
  · rw [hid, view_note_self (by simp [Entry.concerns]) rfl]
    exact .refused _ reason
  · rw [view_note_other (by simp [Entry.concerns, Ne.symm hid]) rfl]
    exact .quiet _

theorem view_submit (hfresh : .accepted input.jobId ∉ s.log) :
    JobStep sha256Hex other (s.view other) ((s.submit input limits).view other) := by
  unfold CrawlerState.submit
  split
  · exact view_refused _
  · dsimp only
    split
    · exact view_refused _
    · by_cases hid : other = input.jobId
      · rw [hid]
        exact view_enqueue_self hfresh
      · rw [view_enqueue_other hid]
        exact .quiet _

end Submit

end Utsuroi.Crawler

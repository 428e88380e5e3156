import Utsuroi.Do.CrawlerView

/-!
# The events of the crawler object, job by job

Leases, timers and the alarm go over many jobs at once; for each of them they are steps a job may
take, and so is every event.
-/

namespace Utsuroi.Crawler

open Transition

/-! ## `lease` -/

section Lease

variable {sha256Hex : String → String} {s : CrawlerState} {info : RunnerInfo} {row : JobRow}
  {max deadline now : Nat} {fetchModes : List String} {c : CallId} {tokens : JobId → String}
  {other : JobId}

theorem candidates_length : (s.candidates max fetchModes).length ≤ max := by
  unfold CrawlerState.candidates
  split
  · exact Nat.zero_le _
  · exact List.length_take_le _ _

theorem mem_candidates (h : row ∈ s.candidates max fetchModes) :
    row ∈ s.jobs ∧ row.state = .queued ∧ row.fetchMode ∈ fetchModes ∧
      s.waiters row.jobId = true := by
  unfold CrawlerState.candidates at h
  split at h
  · contradiction
  · have hmem := List.mem_of_mem_take h
    simp only [List.mem_filter, List.mem_mergeSort, decide_eq_true_eq] at hmem
    exact ⟨hmem.1.1, hmem.1.2.1, hmem.1.2.2, hmem.2⟩

theorem candidates_nodup (h : (s.jobs.map JobRow.jobId).Nodup) :
    ((s.candidates max fetchModes).map JobRow.jobId).Nodup := by
  unfold CrawlerState.candidates
  split
  · exact List.nodup_nil
  · apply List.Nodup.sublist (((List.take_sublist _ _).trans List.filter_sublist).map _)
    have hperm := List.mergeSort_perm
      (s.jobs.filter fun row => row.state = .queued ∧ row.fetchMode ∈ fetchModes)
      fun a b => decide (a.createdAt ≤ b.createdAt)
    rw [(hperm.map JobRow.jobId).nodup_iff]
    exact h.sublist (List.filter_sublist.map _)

/-- The row after `UPDATE jobs SET state = 'leased' …`. -/
private def JobRow.leasedBy (info : RunnerInfo) (deadline : Nat) (row : JobRow) : JobRow :=
  if row.state = .queued then
    { row with
      state := .leased
      runnerId := some info.runnerId
      leaseDeadline := some deadline }
  else row

private theorem leasedBy_jobId (row : JobRow) :
    (row.leasedBy info deadline).jobId = row.jobId := by
  unfold JobRow.leasedBy
  split <;> rfl

theorem objectInv_leaseJob (h : ObjectInv s) : ObjectInv (s.leaseJob info now row) := by
  constructor
  · exact (congrArg List.Nodup (ids_updateJob leasedBy_jobId)).mpr h.ids
  · exact fun id t ht => h.queueTimers id t (update_none_some ht)
  · exact fun id t ht => update_some_some ht rfl (h.resultTimers id t)
  · exact h.claims
  · exact h.responses

private theorem armed_leaseJob : (s.leaseJob info now row).armed =
    s.newTimer row.jobId .result ::
      s.armed.filter fun timer => s.queueTimers row.jobId ≠ some timer := rfl

theorem view_leaseJob_other (h : ObjectInv s) (hne : other ≠ row.jobId) :
    (s.leaseJob info now row).view other = s.view other := by
  ext1 <;> try rfl
  · exact row_updateJob_other leasedBy_jobId hne
  · exact Function.update_of_ne hne _ _
  · exact Function.update_of_ne hne _ _
  · change (s.leaseJob info now row).armed.filter (·.jobId = other) =
      s.armed.filter (·.jobId = other)
    rw [armed_leaseJob, List.filter_cons_of_neg (by simp [CrawlerState.newTimer, Ne.symm hne]),
      armed_other (h.queueTimers row.jobId) hne]

theorem view_leaseJob_self : (s.leaseJob info now row).view row.jobId =
    { s.view row.jobId with
      row := (s.row row.jobId).map (JobRow.leasedBy info (now + row.resultWaitMs))
      queueTimer := none
      resultTimer := some (s.newTimer row.jobId .result)
      armed := s.newTimer row.jobId .result :: (s.view row.jobId).armed.filter fun timer =>
        (s.view row.jobId).queueTimer ≠ some timer } := by
  ext1 <;> try rfl
  · exact row_updateJob_self leasedBy_jobId
  · exact Function.update_self _ _ _
  · exact Function.update_self _ _ _
  · change (s.leaseJob info now row).armed.filter (·.jobId = row.jobId) = _
    rw [armed_leaseJob, List.filter_cons_of_pos (by simp [CrawlerState.newTimer]), armed_self]
    rfl

theorem leaseJob_oneJob :
    OneJob (fun s row => s.leaseJob info now row) JobRow.jobId where
  inv := objectInv_leaseJob
  other := view_leaseJob_other
  now := rfl

/-- What a call claims of a job. -/
private theorem claimOf_hashing {claimed : List Claimed} {claim : Claimed}
    (hids : (claimed.map fun claim => claim.row.jobId).Nodup) (hmem : claim ∈ claimed) :
    (Call.hashing info max deadline claimed).claimOf claim.row.jobId = some claim.token := by
  have hfound : claimed.find? (·.row.jobId = claim.row.jobId) = some claim := by
    induction claimed with
    | nil => contradiction
    | cons head claimed ih =>
      rw [List.map_cons, List.nodup_cons] at hids
      rcases List.mem_cons.mp hmem with rfl | htail
      · simp
      · have hne : head.row.jobId ≠ claim.row.jobId := by
          intro heq
          exact hids.1 (List.mem_map.mpr ⟨claim, htail, heq.symm⟩)
        rw [List.find?_cons_of_neg (by simpa using hne)]
        exact ih hids.2 htail
  simp [Call.claimOf, hfound]

private theorem claimOf_hashing_none {claimed : List Claimed}
    (hnot : other ∉ claimed.map fun claim => claim.row.jobId) :
    (Call.hashing info max deadline claimed).claimOf other = none := by
  have hnone : claimed.find? (·.row.jobId = other) = none := by
    rw [List.find?_eq_none]
    intro claim hmem
    simp only [decide_eq_true_eq]
    exact fun heq => hnot (List.mem_map.mpr ⟨claim, hmem, heq⟩)
  simp [Call.claimOf, hnone]

/-- What `claim` waits with: its candidates and a token for each. -/
def claimsOf (s : CrawlerState) (rows : List JobRow) (tokens : JobId → String) :
    List Claimed :=
  rows.map fun row => ⟨row, tokens row.jobId, s.now + row.resultWaitMs⟩

theorem claimsOf_ids (rows : List JobRow) :
    (claimsOf s rows tokens).map (fun claim => claim.row.jobId) = rows.map JobRow.jobId := by
  unfold claimsOf
  rw [List.map_map]
  rfl

theorem claim_eq : s.claim c info max deadline tokens =
    ((s.candidates max info.fetchModes).foldl (fun s' row => s'.leaseJob info s.now row) s).await c
      (.hashing info max deadline (claimsOf s (s.candidates max info.fetchModes) tokens)) := rfl

theorem objectInv_claim (h : ObjectInv s) : ObjectInv (s.claim c info max deadline tokens) := by
  rw [claim_eq]
  apply objectInv_calls (leaseJob_oneJob.foldl_inv h)
  intro info' max' deadline' claimed heq
  obtain ⟨rfl, rfl, rfl, rfl⟩ := Call.hashing.inj (Option.some.inj heq)
  rw [claimsOf_ids]
  refine ⟨candidates_nodup h.ids, ?_, ?_⟩
  · rw [claimsOf, List.length_map]
    exact candidates_length
  · intro claim hclaim
    obtain ⟨row, hrow, rfl⟩ := List.mem_map.mp hclaim
    exact (mem_candidates hrow).2.2.1

theorem view_claim (h : ObjectInv s) (hidle : (s.calls c).bind (Call.claimOf other) = none) :
    JobStep sha256Hex other (s.view other)
      ((s.claim c info max deadline tokens).view other) := by
  have hkeys : ((s.candidates max info.fetchModes).map JobRow.jobId).Nodup :=
    candidates_nodup h.ids
  rw [claim_eq]
  unfold CrawlerState.await
  rw [view_calls]
  by_cases hmem : other ∈ (s.candidates max info.fetchModes).map JobRow.jobId
  · obtain ⟨row, hrow, rfl⟩ := List.mem_map.mp hmem
    obtain ⟨hjob, hstate, _, hwaits⟩ := mem_candidates hrow
    have hfound : (s.view row.jobId).row = some row := row_of_mem h.ids hjob
    obtain ⟨s₁, hview, _, hfold⟩ := leaseJob_oneJob.foldl_self h hkeys hrow
    have hclaim : (Call.hashing info max deadline
        (claimsOf s (s.candidates max info.fetchModes) tokens)).claimOf row.jobId =
          some (tokens row.jobId) :=
      claimOf_hashing ((claimsOf_ids _).symm ▸ hkeys)
        (List.mem_map.mpr ⟨row, hrow, rfl⟩)
    have hrow₁ : s₁.row row.jobId = some row := (congrArg JobView.row hview).trans hfound
    rw [hfold, view_leaseJob_self, hview, hrow₁, Option.bind_some, hclaim]
    exact .leased _ c row _ _ _ hfound hstate hwaits (by simp [JobRow.leasedBy, hstate])
      (by simp [JobRow.leasedBy, hstate]) (by simp [JobRow.leasedBy, hstate]) rfl rfl
  · have hclaim : (Call.hashing info max deadline
        (claimsOf s (s.candidates max info.fetchModes) tokens)).claimOf other = none := by
      apply claimOf_hashing_none
      rw [claimsOf_ids]
      exact hmem
    have hidle' : (s.view other).claims c = none := hidle
    rw [leaseJob_oneJob.foldl_other h hmem, Option.bind_some, hclaim, ← hidle',
      Function.update_eq_self]
    exact .quiet _

theorem objectInv_enter (h : ObjectInv s) {waitMs : Nat} :
    ObjectInv (s.enter c info max waitMs tokens) := by
  unfold CrawlerState.enter
  split
  · apply objectInv_note (objectInv_calls h (fun _ _ _ _ heq => by contradiction))
    simp [Entry.WithinRequest]
  · exact objectInv_claim h

/-- A poll that comes back without a job. -/
private theorem view_emptyHanded (hidle : (s.calls c).bind (Call.claimOf other) = none) :
    ((s.endCall c).note (.leaseResponse max fetchModes [])).view other = s.view other := by
  rw [view_note_other (by simp [Entry.concerns]) rfl]
  exact view_calls_idle hidle rfl

theorem view_enter (h : ObjectInv s) {waitMs : Nat}
    (hidle : (s.calls c).bind (Call.claimOf other) = none) :
    JobStep sha256Hex other (s.view other) ((s.enter c info max waitMs tokens).view other) := by
  unfold CrawlerState.enter
  split
  · rw [view_emptyHanded hidle]
    exact .quiet _
  · exact view_claim h hidle

theorem storeHash_oneJob : OneJob (fun s claim => s.storeHash sha256Hex claim)
    fun claim : Claimed => claim.row.jobId where
  inv h := objectInv_updateJob h fun _ => rfl
  other _ hne := view_updateJob_other (fun _ => rfl) hne
  now := rfl

private theorem view_storeHash_self {claim : Claimed} :
    (s.storeHash sha256Hex claim).view claim.row.jobId =
      { s.view claim.row.jobId with
        row := (s.view claim.row.jobId).row.map fun row =>
          { row with tokenHash := some (sha256Hex claim.token) } } :=
  view_updateJob_self fun _ => rfl

theorem objectInv_claimed (h : ObjectInv s) {claimed : List Claimed}
    (hcall : s.calls c = some (.hashing info max deadline claimed)) :
    ObjectInv (s.claimed sha256Hex c info max deadline claimed) := by
  have hstored : ObjectInv (claimed.foldl (fun s' claim => s'.storeHash sha256Hex claim) s) :=
    storeHash_oneJob.foldl_inv h
  unfold CrawlerState.claimed
  dsimp only
  have hended : ObjectInv
      ((claimed.foldl (fun s' claim => s'.storeHash sha256Hex claim) s).endCall c) :=
    objectInv_calls hstored fun _ _ _ _ heq => by contradiction
  split
  · apply objectInv_note hended
    obtain ⟨_, hlength, hmodes⟩ := h.claims c info max deadline claimed hcall
    refine ⟨by rwa [List.length_map], ?_⟩
    intro job hjob
    obtain ⟨claim, hclaim, rfl⟩ := List.mem_map.mp hjob
    exact hmodes claim hclaim
  · split
    · exact objectInv_note hended (by simp [Entry.WithinRequest])
    · exact objectInv_of (objectInv_calls hstored fun _ _ _ _ heq => by cases heq) rfl
        (fun _ _ ht => ht) (fun _ _ ht => ht) rfl rfl

private theorem count_jobIds {claimed : List Claimed}
    (hids : (claimed.map fun claim => claim.row.jobId).Nodup) {claim : Claimed}
    (hmem : claim ∈ claimed) :
    ((claimed.map Claimed.job).map LeasedJob.jobId).count claim.row.jobId = 1 := by
  rw [List.map_map]
  exact List.count_eq_one_of_mem hids (List.mem_map.mpr ⟨claim, hmem, rfl⟩)

theorem view_claimed (h : ObjectInv s) {claimed : List Claimed}
    (hcall : s.calls c = some (.hashing info max deadline claimed)) :
    JobStep sha256Hex other (s.view other)
      ((s.claimed sha256Hex c info max deadline claimed).view other) := by
  obtain ⟨hids, _, _⟩ := h.claims c info max deadline claimed hcall
  by_cases hempty : claimed = []
  · subst hempty
    have hidle : (s.calls c).bind (Call.claimOf other) = none := by
      rw [hcall]
      rfl
    have hquiet : (s.claimed sha256Hex c info max deadline []).view other = s.view other := by
      unfold CrawlerState.claimed
      dsimp only [List.foldl_nil]
      rw [if_neg (by simp)]
      split
      · exact view_emptyHanded hidle
      · exact view_calls_idle hidle rfl
    rw [hquiet]
    exact .quiet _
  · have heq : s.claimed sha256Hex c info max deadline claimed =
        ((claimed.foldl (fun s' claim => s'.storeHash sha256Hex claim) s).endCall c).note
          (.leaseResponse max info.fetchModes (claimed.map Claimed.job)) := by
      unfold CrawlerState.claimed
      exact if_pos hempty
    rw [heq, view_note]
    unfold CrawlerState.endCall
    rw [view_calls]
    by_cases hmem : other ∈ claimed.map fun claim => claim.row.jobId
    · obtain ⟨claim, hclaim, rfl⟩ := List.mem_map.mp hmem
      obtain ⟨s₁, hview, _, hfold⟩ := storeHash_oneJob.foldl_self h hids hclaim
      have hconcerns : (Entry.leaseResponse max info.fetchModes (claimed.map Claimed.job)).concerns
          claim.row.jobId = true := by
        simp only [Entry.concerns, List.any_map, List.any_eq_true]
        exact ⟨claim, hclaim, by simp [Claimed.job]⟩
      have htoken : (s.view claim.row.jobId).claims c = some claim.token := by
        simp only [CrawlerState.view, hcall, Option.bind_some]
        exact claimOf_hashing hids hclaim
      have hissued : Issued claim.row.jobId claim.token
          [.leaseResponse max info.fetchModes (claimed.map Claimed.job)] :=
        ⟨max, info.fetchModes, _, List.mem_singleton_self _, claim.job,
          List.mem_map_of_mem hclaim, rfl, rfl⟩
      have hcount := count_jobIds hids hclaim
      rw [hfold, view_storeHash_self, hview, hconcerns, if_pos rfl]
      convert JobStep.issued (s.view claim.row.jobId) c claim.token _ htoken ⟨_, _, _, rfl⟩ hissued
        using 1
      ext1 <;> try rfl
      change ((claimed.map Claimed.job).map LeasedJob.jobId).count claim.row.jobId +
        (s.view claim.row.jobId).leases = _
      rw [hcount, Nat.add_comm]
    · have hconcerns : (Entry.leaseResponse max info.fetchModes
          (claimed.map Claimed.job)).concerns other = false := by
        simp only [Entry.concerns, List.any_map, List.any_eq_false]
        intro claim hclaim
        have hne : claim.row.jobId ≠ other := fun heq =>
          hmem (List.mem_map.mpr ⟨claim, hclaim, heq⟩)
        simp [Claimed.job, hne]
      have hcount : ((claimed.map Claimed.job).map LeasedJob.jobId).count other = 0 := by
        rw [List.count_eq_zero, List.map_map]
        exact hmem
      have hidle : (s.view other).claims c = none := by
        simp only [CrawlerState.view, hcall, Option.bind_some]
        exact claimOf_hashing_none hmem
      rw [storeHash_oneJob.foldl_other h hmem, hconcerns, if_neg Bool.false_ne_true]
      convert JobStep.quiet (s.view other) using 1
      ext1 <;> try rfl
      · change Function.update (s.view other).claims c none = _
        rw [← hidle, Function.update_eq_self]
      · change ((claimed.map Claimed.job).map LeasedJob.jobId).count other +
          (s.view other).leases = _
        rw [hcount, Nat.zero_add]

end Lease

/-! ## Timers and the alarm -/

section Late

variable {sha256Hex : String → String} {s : CrawlerState} {stage : Stage} {ids : List JobId}
  {other : JobId}

theorem expireJob_oneJob : OneJob (fun s jobId => s.expireJob jobId stage) id where
  inv h := objectInv_expireJob h stage
  other h hne := view_expireJob_other h stage hne
  now {s jobId} := by
    rw [expireJob_eq]
    split
    · rfl
    · dsimp only
      unfold finish CrawlerState.resolveWaiter
      split <;> split <;> rfl

theorem objectInv_expireAll (h : ObjectInv s) : ObjectInv (s.expireAll stage ids) :=
  expireJob_oneJob.foldl_inv h

/-- What the expiry of a job makes of its view. -/
private def JobView.expiredAt (v : JobView) (jobId : JobId) (row : JobRow) (stage : Stage)
    (now : Nat) : JobView :=
  { v.over { row with state := .expired, terminalAt := some now } with
    log := { v with log := .expired jobId :: v.log }.settling jobId (.unavailable stage.reason) }

theorem view_expireAll (h : ObjectInv s) (hids : ids.Nodup) :
    (s.expireAll stage ids).view other = s.view other ∨
      ∃ row, s.row other = some row ∧ row.state = stage.fromState ∧
        (s.expireAll stage ids).view other = (s.view other).expiredAt other row stage s.now := by
  unfold CrawlerState.expireAll
  by_cases hmem : other ∈ ids.map id
  · obtain ⟨other, hother, rfl⟩ := List.mem_map.mp hmem
    obtain ⟨s₁, hview, hnow, hfold⟩ :=
      expireJob_oneJob.foldl_self h (by rwa [List.map_id]) hother
    have hrow₁ : s₁.row other = s.row other := congrArg JobView.row hview
    by_cases hdue : ∃ row, s.row other = some row ∧ row.state = stage.fromState
    · obtain ⟨row, hrow, hstate⟩ := hdue
      apply Or.inr
      refine ⟨row, hrow, hstate, ?_⟩
      exact hfold.trans ((view_expireJob_self (hrow₁.trans hrow) hstate).trans
        (by rw [hnow]; exact congrArg (JobView.expiredAt · other row stage s.now) hview))
    · have hlate : ∀ row, s₁.row other = some row → row.state ≠ stage.fromState :=
        fun row hrow hstate => hdue ⟨row, hrow₁.symm.trans hrow, hstate⟩
      apply Or.inl
      rw [hfold, expireJob_late hlate]
      exact hview
  · exact Or.inl (expireJob_oneJob.foldl_other h hmem)

private theorem lateQueued_nodup (h : ObjectInv s) : s.lateQueued.Nodup :=
  h.ids.sublist (List.filter_sublist.map _)

private theorem lateLeased_nodup (h : ObjectInv s) : s.lateLeased.Nodup :=
  h.ids.sublist (List.filter_sublist.map _)

/-- With a primary key, a deletion takes the row or leaves it. -/
private theorem find_filter_jobs {jobs : List JobRow} {p : JobRow → Bool}
    (hids : (jobs.map JobRow.jobId).Nodup) :
    (jobs.filter p).find? (·.jobId = other) = (jobs.find? (·.jobId = other)).filter p := by
  induction jobs with
  | nil => rfl
  | cons row jobs ih =>
    rw [List.map_cons, List.nodup_cons] at hids
    have hrest := ih hids.2
    by_cases hid : row.jobId = other
    · have hnone : jobs.find? (·.jobId = other) = none := by
        rw [List.find?_eq_none]
        intro row' hrow'
        simp only [decide_eq_true_eq]
        exact fun heq => hids.1 (hid.trans heq.symm ▸ List.mem_map_of_mem hrow')
      rw [List.find?_cons_of_pos (by simpa using hid), Option.filter_some]
      cases hp : p row with
      | true =>
        rw [List.filter_cons_of_pos hp, List.find?_cons_of_pos (by simpa using hid), if_pos rfl]
      | false =>
        rw [List.filter_cons_of_neg (by simp [hp]), hrest, hnone, if_neg Bool.false_ne_true]
        rfl
    · rw [List.find?_cons_of_neg (by simpa using hid)]
      cases hp : p row with
      | true => rw [List.filter_cons_of_pos hp, List.find?_cons_of_neg (by simpa using hid), hrest]
      | false => rw [List.filter_cons_of_neg (by simp [hp]), hrest]

section Retain

variable {keep : JobRow → Bool} {keepRunner : RunnerRow → Bool}

private def retain (keep : JobRow → Bool) (keepRunner : RunnerRow → Bool) (s : CrawlerState) :
    CrawlerState :=
  { s with jobs := s.jobs.filter keep, runners := s.runners.filter keepRunner }

private theorem objectInv_retain (h : ObjectInv s) : ObjectInv (retain keep keepRunner s) :=
  ⟨h.ids.sublist (List.filter_sublist.map _), h.queueTimers, h.resultTimers, h.claims, h.responses⟩

private theorem view_retain (h : ObjectInv s) :
    (retain keep keepRunner s).view other =
      { s.view other with row := (s.view other).row.filter keep } := by
  ext1 <;> try rfl
  exact find_filter_jobs h.ids

private theorem view_retain_kept (h : ObjectInv s)
    (hkept : ∀ row, s.row other = some row → keep row = true) :
    (retain keep keepRunner s).view other = s.view other := by
  have hrow : (s.view other).row.filter keep = (s.view other).row := by
    change (s.row other).filter keep = s.row other
    cases hfound : s.row other with
    | none => rfl
    | some row => rw [Option.filter_some, if_pos (hkept row hfound)]
  rw [view_retain h, hrow]

private theorem view_retain_step (h : ObjectInv s)
    (hkeep : ∀ row, keep row = false → row.terminalAt ≠ none) :
    JobStep sha256Hex other (s.view other) ((retain keep keepRunner s).view other) := by
  by_cases hkept : ∀ row, s.row other = some row → keep row = true
  · rw [view_retain_kept h hkept]
    exact .quiet _
  · push Not at hkept
    obtain ⟨row, hrow, hdrop⟩ := hkept
    have hnone : (s.view other).row.filter keep = none := by
      change (s.row other).filter keep = none
      rw [hrow, Option.filter_some, if_neg hdrop]
    rw [view_retain h, hnone]
    exact .deleted _ row hrow (hkeep row (Bool.eq_false_iff.mpr hdrop))

end Retain

/-- The rows that the alarm keeps. -/
private def fresh (now : Nat) (row : JobRow) : Bool :=
  !row.terminalAt.any (· + TERMINAL_RETENTION_MS ≤ now)

private theorem fresh_false {now : Nat} {row : JobRow} (h : fresh now row = false) :
    row.terminalAt ≠ none := by
  intro hterminal
  simp [fresh, hterminal] at h

private theorem fresh_now {now : Nat} {row : JobRow} (h : row.terminalAt = some now) :
    fresh now row = true := by
  unfold fresh
  rw [h, Option.any_some, Bool.not_eq_true', decide_eq_false_iff_not]
  exact Nat.not_le.mpr (Nat.lt_add_of_pos_right (by decide))

private theorem alarm_eq : s.alarm =
    retain (fresh s.now) (fun r => !(r.lastSeen + RUNNER_RETENTION_MS ≤ s.now))
      ((s.expireAll .lease s.lateQueued).expireAll .result
        (s.expireAll .lease s.lateQueued).lateLeased) := rfl

theorem now_expireAll : (s.expireAll stage ids).now = s.now := expireJob_oneJob.foldl_now

theorem objectInv_alarm (h : ObjectInv s) : ObjectInv s.alarm :=
  objectInv_retain (objectInv_expireAll (objectInv_expireAll h))

theorem view_alarm (h : ObjectInv s) :
    JobStep sha256Hex other (s.view other) (s.alarm.view other) := by
  have hinv₁ : ObjectInv (s.expireAll .lease s.lateQueued) := objectInv_expireAll h
  have hinv₂ : ObjectInv ((s.expireAll .lease s.lateQueued).expireAll .result
      (s.expireAll .lease s.lateQueued).lateLeased) := objectInv_expireAll hinv₁
  have hqueued : (s.expireAll .lease s.lateQueued).view other = s.view other ∨ _ :=
    view_expireAll h (lateQueued_nodup h)
  have hleased : ((s.expireAll .lease s.lateQueued).expireAll .result
      (s.expireAll .lease s.lateQueued).lateLeased).view other =
        (s.expireAll .lease s.lateQueued).view other ∨ _ :=
    view_expireAll hinv₁ (lateLeased_nodup hinv₁)
  rw [now_expireAll] at hleased
  rw [alarm_eq]
  have hkept : ∀ {s₂ : CrawlerState} {v : JobView} {row : JobRow} {stage : Stage}, ObjectInv s₂ →
      s₂.view other = v.expiredAt other row stage s.now →
        (retain (fresh s.now) (fun r => !(r.lastSeen + RUNNER_RETENTION_MS ≤ s.now))
          s₂).view other = v.expiredAt other row stage s.now := by
    intro s₂ v row stage hinv hview
    rw [view_retain_kept hinv, hview]
    intro row' hrow'
    obtain rfl := Option.some.inj ((congrArg JobView.row hview).symm.trans hrow')
    exact fresh_now rfl
  rcases hqueued with hsame | ⟨row, hrow, hstate, hexpired⟩
  · rcases hleased with hsame' | ⟨row, hrow, hstate, hexpired⟩
    · rw [← hsame, ← hsame']
      exact view_retain_step hinv₂ fun row => fresh_false
    · have hfound : (s.view other).row = some row := (congrArg JobView.row hsame).symm.trans hrow
      rw [hkept hinv₂ hexpired, hsame]
      exact .expired _ row .result s.now _ hfound hstate (List.Subset.refl _)
  · have hsame' : ((s.expireAll .lease s.lateQueued).expireAll .result
        (s.expireAll .lease s.lateQueued).lateLeased).view other =
          (s.expireAll .lease s.lateQueued).view other := by
      rcases hleased with hsame' | ⟨row', hrow', hstate', _⟩
      · exact hsame'
      · have hrow₁ := (congrArg JobView.row hexpired).symm.trans hrow'
        obtain rfl := Option.some.inj hrow₁
        contradiction
    rw [hkept hinv₂ (hsame'.trans hexpired)]
    exact .expired _ row .lease s.now _ hrow hstate (List.Subset.refl _)

private theorem objectInv_erase (h : ObjectInv s) (t : Timer) :
    ObjectInv { s with armed := s.armed.erase t } :=
  ⟨h.ids, h.queueTimers, h.resultTimers, h.claims, h.responses⟩

theorem objectInv_fire (h : ObjectInv s) (t : Timer) :
    ObjectInv ({ s with armed := s.armed.erase t }.expireJob t.jobId t.stage) :=
  objectInv_expireJob (objectInv_erase h t) _

theorem view_fire (h : ObjectInv s) {t : Timer} (harmed : t ∈ s.armed) :
    JobStep sha256Hex other (s.view other)
      (({ s with armed := s.armed.erase t }.expireJob t.jobId t.stage).view other) := by
  have hinv := objectInv_erase h t
  have hview : ({ s with armed := s.armed.erase t } : CrawlerState).view other =
      { s.view other with armed := (s.view other).armed.erase t } := by
    ext1 <;> try rfl
    exact List.erase_filter.symm
  by_cases hid : other = t.jobId
  · subst hid
    have hmem : t ∈ (s.view t.jobId).armed := List.mem_filter.mpr ⟨harmed, by simp⟩
    by_cases hdue : ∃ row, s.row t.jobId = some row ∧ row.state = t.stage.fromState
    · obtain ⟨row, hrow, hstate⟩ := hdue
      rw [view_expireJob_self (s := { s with armed := s.armed.erase t }) hrow hstate, hview]
      exact .expired _ row t.stage s.now _ hrow hstate List.erase_subset
    · have hlate : ∀ row, s.row t.jobId = some row → row.state ≠ t.stage.fromState :=
        fun row hrow hstate => hdue ⟨row, hrow, hstate⟩
      rw [expireJob_late (s := { s with armed := s.armed.erase t }) hlate, hview]
      exact .missed _ t hmem hlate
  · rw [view_expireJob_other hinv t.stage hid, hview, List.erase_of_not_mem]
    · exact .quiet _
    · intro hmem
      exact hid (of_decide_eq_true (List.mem_filter.mp hmem).2).symm

end Late

/-! ## The events -/

section Events

variable {sha256Hex : String → String} {s : CrawlerState} {e : CrawlerEvent} {jobId : JobId}
  {c : CallId} {call : Option Call}

/-- A call that is not about to answer a lease. -/
private def Call.Idle : Option Call → Prop
  | some (.hashing _ _ _ _) => False
  | _ => True

private theorem Call.Idle.claimOf (h : Call.Idle call) (jobId : JobId) :
    call.bind (Call.claimOf jobId) = none := by
  cases call with
  | none => rfl
  | some call =>
    cases call with
    | hashing _ _ _ _ => exact h.elim
    | _ => rfl

private theorem view_idle (hbefore : Call.Idle (s.calls c)) (hafter : Call.Idle call) :
    ({ s with calls := Function.update s.calls c call } : CrawlerState).view jobId =
      s.view jobId :=
  view_calls_idle (hbefore.claimOf jobId) (hafter.claimOf jobId)

private theorem objectInv_idle (h : ObjectInv s) (hafter : Call.Idle call) :
    ObjectInv { s with calls := Function.update s.calls c call } := by
  apply objectInv_calls h
  rintro info max deadline claimed rfl
  exact hafter.elim

private theorem blank_row (hmemory : ∀ jobId, MemoryInv jobId (s.view jobId))
    (hfresh : .accepted jobId ∉ s.log) : s.row jobId = none :=
  (hmemory jobId).blank fun hmem => hfresh (List.mem_of_mem_filter hmem)

theorem objectInv_apply (h : ObjectInv s) (hmemory : ∀ jobId, MemoryInv jobId (s.view jobId))
    (hallowed : e.Allowed s) : ObjectInv (e.apply sha256Hex s) := by
  cases e with
  | submitAndWait c input limits => exact objectInv_idle h trivial
  | lease c info max waitMs =>
    have htouched : ObjectInv (s.touchRunner info) :=
      objectInv_of h rfl (fun _ _ ht => ht) (fun _ _ ht => ht) rfl rfl
    exact objectInv_idle htouched trivial
  | complete c jobId leaseToken result => exact objectInv_idle h trivial
  | heartbeat info => exact objectInv_of h rfl (fun _ _ ht => ht) (fun _ _ ht => ht) rfl rfl
  | resume c tokens =>
    cases hcall : s.calls c with
    | none => simp [CrawlerEvent.Allowed, hcall] at hallowed
    | some call =>
      cases call with
      | submitting input limits =>
        simp only [CrawlerEvent.Allowed, hcall] at hallowed
        have hrow : s.row input.jobId = none := blank_row hmemory hallowed
        simp only [CrawlerEvent.apply, hcall]
        exact objectInv_submit (objectInv_idle h trivial) hrow
      | entering info max waitMs =>
        simp only [CrawlerEvent.apply, hcall]
        exact objectInv_enter h
      | hashing info max deadline claimed =>
        simp only [CrawlerEvent.apply, hcall]
        exact objectInv_claimed h hcall
      | parked info max deadline => simp [CrawlerEvent.Allowed, hcall] at hallowed
      | woken info max deadline =>
        simp only [CrawlerEvent.apply, hcall]
        exact objectInv_claim h
      | presenting jobId leaseToken result =>
        simp only [CrawlerEvent.apply, hcall]
        exact objectInv_complete (objectInv_idle h trivial)
  | abort c => exact objectInv_idle h trivial
  | timeout c =>
    simp only [CrawlerEvent.apply]
    split
    · next info max deadline _ =>
      have hwoken : ObjectInv (s.await c (.woken info max deadline)) := objectInv_idle h trivial
      exact objectInv_of hwoken rfl (fun _ _ ht => ht) (fun _ _ ht => ht) rfl rfl
    · exact h
  | fire t => exact objectInv_fire h t
  | alarm => exact objectInv_alarm h
  | reset => exact ⟨h.ids, fun _ _ ht => by contradiction, fun _ _ ht => by contradiction,
      fun _ _ _ _ _ hc => by contradiction, List.forall_mem_cons.mpr ⟨trivial, h.responses⟩⟩
  | world now maintenance => exact ⟨h.ids, h.queueTimers, h.resultTimers, h.claims, h.responses⟩

/-- Every event of the object is a step of every job. -/
theorem view_apply (h : ObjectInv s) (hallowed : e.Allowed s) :
    JobStep sha256Hex jobId (s.view jobId) ((e.apply sha256Hex s).view jobId) := by
  cases e with
  | submitAndWait c input limits =>
    have hview : (s.await c (.submitting input limits)).view jobId = s.view jobId :=
      view_idle (hallowed ▸ trivial) trivial
    exact hview ▸ .quiet _
  | lease c info max waitMs =>
    have hview : ((s.touchRunner info).await c (.entering info max waitMs)).view jobId =
        (s.touchRunner info).view jobId := view_idle (hallowed ▸ trivial) trivial
    exact hview ▸ .quiet _
  | complete c id leaseToken result =>
    have hview : (s.await c (.presenting id leaseToken result)).view jobId = s.view jobId :=
      view_idle (hallowed ▸ trivial) trivial
    exact hview ▸ .quiet _
  | heartbeat info => exact .quiet _
  | resume c tokens =>
    cases hcall : s.calls c with
    | none => simp [CrawlerEvent.Allowed, hcall] at hallowed
    | some call =>
      cases call with
      | submitting input limits =>
        simp only [CrawlerEvent.Allowed, hcall] at hallowed
        have hview : (s.endCall c).view jobId = s.view jobId :=
          view_idle (hcall ▸ trivial) trivial
        simp only [CrawlerEvent.apply, hcall]
        rw [← hview]
        exact view_submit hallowed
      | entering info max waitMs =>
        simp only [CrawlerEvent.apply, hcall]
        exact view_enter h (by rw [hcall]; rfl)
      | hashing info max deadline claimed =>
        simp only [CrawlerEvent.apply, hcall]
        exact view_claimed h hcall
      | parked info max deadline => simp [CrawlerEvent.Allowed, hcall] at hallowed
      | woken info max deadline =>
        simp only [CrawlerEvent.apply, hcall]
        exact view_claim h (by rw [hcall]; rfl)
      | presenting id leaseToken result =>
        have hview : (s.endCall c).view jobId = s.view jobId :=
          view_idle (hcall ▸ trivial) trivial
        simp only [CrawlerEvent.apply, hcall]
        rw [← hview]
        exact view_complete (objectInv_idle h trivial)
  | abort c =>
    have hidle : Call.Idle (s.calls c) := by
      simp only [CrawlerEvent.Allowed] at hallowed
      split at hallowed
      · next hcall => exact hcall ▸ trivial
      · next hcall => exact hcall ▸ trivial
      · contradiction
    have hview : (s.endCall c).view jobId = s.view jobId := view_idle hidle trivial
    exact hview ▸ .quiet _
  | timeout c =>
    simp only [CrawlerEvent.apply]
    split
    · next info max deadline hcall =>
      have hview : (s.await c (.woken info max deadline)).view jobId = s.view jobId :=
        view_idle (hcall ▸ trivial) trivial
      exact hview ▸ .quiet _
    · exact .quiet _
  | fire t => exact view_fire h hallowed
  | alarm => exact view_alarm h
  | reset => exact .reset _
  | world now maintenance => exact .quiet _

end Events

end Utsuroi.Crawler

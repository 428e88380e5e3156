import Utsuroi.Do.CrawlerJob

/-!
# The answers of the crawler

A job is answered once, with what completed it or with the reason it ended.
-/

namespace Utsuroi.Crawler

/-! ## Answers -/

section Counts

variable {jobId : JobId} {e : Entry} {log : List Entry}

private theorem settlements_eq_zero : settlements jobId log = 0 ↔
    ∀ outcome, .settled jobId outcome ∉ log := by
  unfold settlements
  rw [List.countP_eq_zero]
  constructor
  · intro h outcome hmem
    exact h _ hmem (by simp)
  · intro h e hmem
    cases e with
    | settled id outcome =>
      simp only [decide_eq_true_eq]
      rintro rfl
      exact h outcome hmem
    | _ => simp

private theorem acceptances_eq_zero : acceptances jobId log = 0 ↔
    ∀ token result, .completeResponse jobId token result .accepted ∉ log := by
  unfold acceptances
  rw [List.countP_eq_zero]
  constructor
  · intro h token result hmem
    exact h _ hmem (by simp)
  · intro h e hmem
    cases e with
    | completeResponse id token result outcome =>
      simp only [decide_eq_true_eq]
      rintro ⟨rfl, rfl⟩
      exact h token result hmem
    | _ => simp

private theorem settlements_settling {v : JobView} {outcome : SubmitOutcome} :
    settlements jobId (v.settling jobId outcome) =
      settlements jobId v.log + if v.waiting then 1 else 0 := by
  unfold JobView.settling settlements
  cases v.waiting <;> simp

private theorem acceptances_settling {v : JobView} {outcome : SubmitOutcome} :
    acceptances jobId (v.settling jobId outcome) = acceptances jobId v.log := by
  unfold JobView.settling acceptances
  cases v.waiting <;> simp

private theorem settlements_complete {token : String} {result : RunnerResult}
    {outcome : CompleteOutcome} :
    settlements jobId (.completeResponse jobId token result outcome :: log) =
      settlements jobId log := by
  simp [settlements]

private theorem acceptances_complete {token : String} {result : RunnerResult} :
    acceptances jobId (.completeResponse jobId token result .accepted :: log) =
      acceptances jobId log + 1 := by
  simp only [acceptances, List.countP_cons, decide_true, and_self, if_true]

private theorem settlements_expired :
    settlements jobId (.expired jobId :: log) = settlements jobId log := by
  simp [settlements]

private theorem acceptances_expired :
    acceptances jobId (.expired jobId :: log) = acceptances jobId log := by
  simp [acceptances]

/-- Nothing that tells of the job's fate. -/
def Entry.Inert : Entry → Prop
  | .refused _ _ | .leaseResponse _ _ _ => True
  | .completeResponse _ _ _ outcome => outcome ≠ .accepted
  | .accepted _ | .settled _ _ | .expired _ | .reset => False

private theorem settlements_inert (h : e.Inert) :
    settlements jobId (e :: log) = settlements jobId log := by
  cases e <;> simp_all [Entry.Inert, settlements]

private theorem acceptances_inert (h : e.Inert) :
    acceptances jobId (e :: log) = acceptances jobId log := by
  cases e <;> simp_all [Entry.Inert, acceptances]

end Counts

/-- An accepted submission is settled once, when its job ends: with the result that was accepted,
or as unavailable when the job expired. -/
structure LogInv (jobId : JobId) (v : JobView) : Prop where
  settledOnce : settlements jobId v.log ≤ 1
  unsettled : .accepted jobId ∉ v.log ∨ v.Open → settlements jobId v.log = 0
  settled : AcceptedNow jobId v.log → ¬v.Open → settlements jobId v.log = 1
  acceptedOnce : acceptances jobId v.log ≤ 1
  unaccepted : (.accepted jobId ∉ v.log ∨ ∃ row, v.row = some row ∧ row.state ≠ .completed) →
    acceptances jobId v.log = 0
  completed : v.At .completed → acceptances jobId v.log = 1
  unexpired : (.accepted jobId ∉ v.log ∨ ∃ row, v.row = some row ∧ row.state ≠ .expired) →
    .expired jobId ∉ v.log
  expired : v.At .expired → .expired jobId ∈ v.log
  result : AcceptedNow jobId v.log → ∀ result, .settled jobId (.result result) ∈ v.log ↔
    ∃ token, .completeResponse jobId token result .accepted ∈ v.log
  unavailable : AcceptedNow jobId v.log →
    ((∃ reason, .settled jobId (.unavailable reason) ∈ v.log) ↔ .expired jobId ∈ v.log)
  issued : ∀ token result, .completeResponse jobId token result .accepted ∈ v.log →
    Issued jobId token v.log
  duplicates : DuplicatesFollow jobId v.log

section Answers

variable {sha256Hex : String → String} {jobId : JobId} {v v' : JobView}

/-- The same entries, and a row that tells the same. -/
private theorem logInv_of_row (h : LogInv jobId v) (hlog : v'.log = v.log)
    (hopen : v'.Open → v.Open) (hclosed : AcceptedNow jobId v.log → ¬v'.Open → ¬v.Open)
    (hrow : ∀ row', v'.row = some row' → ∃ row, v.row = some row ∧
      (row.state = .completed ↔ row'.state = .completed) ∧
        (row.state = .expired ↔ row'.state = .expired)) : LogInv jobId v' := by
  constructor <;> try rw [hlog]
  · exact h.settledOnce
  · exact fun hor => h.unsettled (hor.imp_right hopen)
  · exact fun hnow hnot => h.settled hnow (hclosed hnow hnot)
  · exact h.acceptedOnce
  · rintro (hfresh | ⟨row', hrow', hstate⟩)
    · exact h.unaccepted (Or.inl hfresh)
    · obtain ⟨row, hfound, hcompleted, _⟩ := hrow row' hrow'
      exact h.unaccepted (Or.inr ⟨row, hfound, fun hc => hstate (hcompleted.mp hc)⟩)
  · rintro ⟨row', hrow', hstate⟩
    obtain ⟨row, hfound, hcompleted, _⟩ := hrow row' hrow'
    exact h.completed ⟨row, hfound, hcompleted.mpr hstate⟩
  · rintro (hfresh | ⟨row', hrow', hstate⟩)
    · exact h.unexpired (Or.inl hfresh)
    · obtain ⟨row, hfound, _, hexpired⟩ := hrow row' hrow'
      exact h.unexpired (Or.inr ⟨row, hfound, fun hc => hstate (hexpired.mp hc)⟩)
  · rintro ⟨row', hrow', hstate⟩
    obtain ⟨row, hfound, _, hexpired⟩ := hrow row' hrow'
    exact h.expired ⟨row, hfound, hexpired.mpr hstate⟩
  · exact h.result
  · exact h.unavailable
  · exact h.issued
  · exact h.duplicates

/-- One more entry that does not tell of the job's fate. -/
private theorem logInv_inert (h : LogInv jobId v) {e : Entry} (hinert : e.Inert)
    (hagain : ∀ token result, e = .completeResponse jobId token result .duplicate →
      v.At .completed) : LogInv jobId { v with log := e :: v.log } := by
  have hmem : ∀ {e'}, ¬e'.Inert → (e' ∈ e :: v.log ↔ e' ∈ v.log) := by
    intro e' hnot
    rw [List.mem_cons, or_iff_right]
    rintro rfl
    exact hnot hinert
  have hnow : AcceptedNow jobId (e :: v.log) ↔ AcceptedNow jobId v.log := by
    rw [acceptedNow_cons]
    constructor
    · rintro ⟨_, rfl | hold⟩
      · exact hinert.elim
      · exact hold
    · exact fun hold => ⟨fun he => by rw [he] at hinert; exact hinert, Or.inr hold⟩
  have hacceptedMem : .accepted jobId ∈ e :: v.log ↔ .accepted jobId ∈ v.log := hmem id
  have hexpiredMem : .expired jobId ∈ e :: v.log ↔ .expired jobId ∈ v.log := hmem id
  have hsettledMem : ∀ outcome, .settled jobId outcome ∈ e :: v.log ↔
      .settled jobId outcome ∈ v.log := fun _ => hmem id
  have hresponseMem : ∀ token result, .completeResponse jobId token result .accepted ∈ e :: v.log ↔
      .completeResponse jobId token result .accepted ∈ v.log := fun _ _ => hmem fun hne => hne rfl
  constructor
  · exact (settlements_inert hinert).le.trans h.settledOnce
  · intro hor
    exact (settlements_inert hinert).trans
      (h.unsettled (hor.imp_left fun hfresh hold => hfresh (hacceptedMem.mpr hold)))
  · exact fun hnow' hnot => (settlements_inert hinert).trans (h.settled (hnow.mp hnow') hnot)
  · exact (acceptances_inert hinert).le.trans h.acceptedOnce
  · intro hor
    exact (acceptances_inert hinert).trans
      (h.unaccepted (hor.imp_left fun hfresh hold => hfresh (hacceptedMem.mpr hold)))
  · exact fun hat => (acceptances_inert hinert).trans (h.completed hat)
  · intro hor hmem'
    exact h.unexpired (hor.imp_left fun hfresh hold => hfresh (hacceptedMem.mpr hold))
      (hexpiredMem.mp hmem')
  · exact fun hat => hexpiredMem.mpr (h.expired hat)
  · simpa only [hnow, hsettledMem, hresponseMem] using h.result
  · simpa only [hnow, hsettledMem, hexpiredMem] using h.unavailable
  · intro token result hresponse
    exact (h.issued token result ((hresponseMem token result).mp hresponse)).cons
  · refine ⟨h.duplicates, fun token result he => ?_⟩
    have hone := h.completed (hagain token result he)
    by_contra hnone
    have hzero : acceptances jobId v.log = 0 :=
      acceptances_eq_zero.mpr fun token' result' hmem => hnone ⟨token', result', hmem⟩
    omega

/-- The entries of a job that has not ended yet. -/
private structure Unended (jobId : JobId) (v : JobView) : Prop where
  old : .accepted jobId ∈ v.log
  now : v.waiting = true ↔ AcceptedNow jobId v.log
  unsettled : ∀ outcome, .settled jobId outcome ∉ v.log
  unaccepted : ∀ token result, .completeResponse jobId token result .accepted ∉ v.log
  unexpired : .expired jobId ∉ v.log

private theorem unended (hmemory : MemoryInv jobId v) (h : LogInv jobId v) (hopen : v.Open) :
    Unended jobId v := by
  obtain ⟨row, hfound, hstate⟩ := hopen
  constructor
  · by_contra hfresh
    rw [hmemory.blank hfresh] at hfound
    contradiction
  · rw [hmemory.waits]
    exact and_iff_left ⟨row, hfound, hstate⟩
  · exact settlements_eq_zero.mp (h.unsettled (Or.inr ⟨row, hfound, hstate⟩))
  · apply acceptances_eq_zero.mp
    apply h.unaccepted (Or.inr ⟨row, hfound, ?_⟩)
    rcases hstate with hstate | hstate <;> simp [hstate]
  · apply h.unexpired (Or.inr ⟨row, hfound, ?_⟩)
    rcases hstate with hstate | hstate <;> simp [hstate]

/-- What the entry that ends the job adds. -/
private structure Ending (jobId : JobId) (e : Entry) (outcome : SubmitOutcome) (state : JobState) :
    Prop where
  entry : (∃ token result, e = .completeResponse jobId token result .accepted ∧
      outcome = .result result ∧ state = .completed) ∨
    e = .expired jobId ∧ (∃ reason, outcome = .unavailable reason) ∧ state = .expired

private theorem logInv_ended (h : LogInv jobId v) (hu : Unended jobId v) {e : Entry}
    {outcome : SubmitOutcome} {row : JobRow} (hending : Ending jobId e outcome row.state)
    (hissued : ∀ token result, e = .completeResponse jobId token result .accepted →
      Issued jobId token v.log) (hrow : v'.row = some row)
    (hlog : v'.log = { v with log := e :: v.log }.settling jobId outcome) : LogInv jobId v' := by
  have hclosed : ¬v'.Open := by
    rintro ⟨row', hrow', hopen⟩
    obtain rfl := Option.some.inj (hrow.symm.trans hrow')
    rcases hending.entry with ⟨_, _, _, _, hstate⟩ | ⟨_, _, hstate⟩ <;>
      simp [hstate, JobState.Open] at hopen
  have hat : ∀ state, v'.At state ↔ row.state = state := fun state => at_some hrow
  have hother : ∀ state, (∃ row', v'.row = some row' ∧ row'.state ≠ state) ↔ row.state ≠ state := by
    intro state
    rw [hrow]
    simp
  have hold : .accepted jobId ∈ v'.log := by
    rw [hlog]
    exact mem_settling (List.mem_cons_of_mem _ hu.old)
  have hsettlements := settlements_eq_zero.mpr hu.unsettled
  have hacceptances := acceptances_eq_zero.mpr hu.unaccepted
  have hnow : AcceptedNow jobId v'.log ↔ v.waiting = true := by
    rw [hu.now, hlog]
    unfold JobView.settling
    rcases hending.entry with ⟨_, _, rfl, _, _⟩ | ⟨rfl, _, _⟩ <;> split <;> simp [acceptedNow_cons]
  have hfollow : DuplicatesFollow jobId v'.log := by
    rw [hlog]
    unfold JobView.settling
    rcases hending.entry with ⟨_, _, rfl, _, _⟩ | ⟨rfl, _, _⟩ <;> split <;>
      simp [DuplicatesFollow, h.duplicates]
  have hsettled : settlements jobId v'.log = if v.waiting then 1 else 0 := by
    rw [hlog, settlements_settling]
    rcases hending.entry with ⟨_, _, rfl, _, _⟩ | ⟨rfl, _, _⟩
    · rw [settlements_complete, hsettlements, Nat.zero_add]
    · rw [settlements_expired, hsettlements, Nat.zero_add]
  rcases hending.entry with ⟨token, result, rfl, rfl, hstate⟩ | ⟨rfl, ⟨reason, rfl⟩, hstate⟩
  · have haccepted : acceptances jobId v'.log = 1 := by
      rw [hlog, acceptances_settling, acceptances_complete, hacceptances]
    constructor
    · rw [hsettled]
      split <;> simp
    · exact fun hor => absurd hold (hor.resolve_right hclosed)
    · intro hnow' _
      rw [hsettled, hnow.mp hnow', if_pos rfl]
    · exact haccepted.le
    · rw [hother]
      exact fun hor => absurd hold (hor.resolve_right fun hne => hne hstate)
    · exact fun _ => haccepted
    · intro _
      rw [hlog]
      unfold JobView.settling
      split <;> simp [hu.unexpired]
    · rw [hat, hstate]
      exact fun he => by contradiction
    · intro hnow' result'
      rw [hlog]
      simp [JobView.settling, hnow.mp hnow', hu.unsettled, hu.unaccepted, eq_comm]
    · intro hnow'
      rw [hlog]
      simp [JobView.settling, hnow.mp hnow', hu.unsettled, hu.unexpired]
    · intro token' result' hmem
      rw [hlog] at hmem ⊢
      have heq : token' = token := by
        unfold JobView.settling at hmem
        split at hmem <;> simp [hu.unaccepted] at hmem <;> exact hmem.1
      rw [heq]
      exact issued_settling (hissued token result rfl).cons
    · exact hfollow
  · have haccepted : acceptances jobId v'.log = 0 := by
      rw [hlog, acceptances_settling, acceptances_expired, hacceptances]
    constructor
    · rw [hsettled]
      split <;> simp
    · exact fun hor => absurd hold (hor.resolve_right hclosed)
    · intro hnow' _
      rw [hsettled, hnow.mp hnow', if_pos rfl]
    · exact haccepted.le.trans (Nat.zero_le 1)
    · exact fun _ => haccepted
    · rw [hat, hstate]
      exact fun he => by contradiction
    · rw [hother]
      exact fun hor => absurd hold (hor.resolve_right fun hne => hne hstate)
    · intro _
      rw [hlog]
      exact mem_settling List.mem_cons_self
    · intro hnow' result'
      rw [hlog]
      simp [JobView.settling, hnow.mp hnow', hu.unsettled, hu.unaccepted]
    · intro hnow'
      rw [hlog]
      simp [JobView.settling, hnow.mp hnow']
    · intro token' result' hmem
      rw [hlog] at hmem
      unfold JobView.settling at hmem
      split at hmem <;> simp [hu.unaccepted] at hmem
    · exact hfollow

theorem logInv_step (hmemory : MemoryInv jobId v) (hleases : LeaseInv sha256Hex jobId v)
    (hinj : Function.Injective sha256Hex) (h : LogInv jobId v)
    (hstep : JobStep sha256Hex jobId v v') : LogInv jobId v' := by
  cases hstep with
  | quiet => exact h
  | refused reason => exact logInv_inert h trivial fun token result he => by contradiction
  | answered token result outcome hnot hagain =>
    have hinert : Entry.Inert (.completeResponse jobId token result outcome) := hnot
    apply logInv_inert h hinert
    intro token' result' he
    obtain ⟨-, -, -, rfl⟩ := Entry.completeResponse.inj he
    exact hagain rfl
  | issued c token e hclaim hlease hissues =>
    obtain ⟨max, fetchModes, jobs, rfl⟩ := hlease
    have hinert := logInv_inert h (e := .leaseResponse max fetchModes jobs) trivial
      fun token result he => by contradiction
    refine logInv_of_row hinert (by rfl) ?_ ?_ ?_
    · rintro ⟨row', hrow', hopen⟩
      obtain ⟨row, hfound, rfl⟩ := Option.map_eq_some_iff.mp hrow'
      exact ⟨row, hfound, hopen⟩
    · rintro _ hnot ⟨row, hfound, hopen⟩
      exact hnot ⟨{ row with tokenHash := some (sha256Hex token) },
        Option.map_eq_some_iff.mpr ⟨row, hfound, rfl⟩, hopen⟩
    · intro row' hrow'
      obtain ⟨row, hfound, rfl⟩ := Option.map_eq_some_iff.mp hrow'
      exact ⟨row, hfound, Iff.rfl, Iff.rfl⟩
  | accepted row timer hfresh hstate hhash hterminal hown hstage =>
    have hrow : v.row.or (some row) = some row := by rw [hmemory.blank hfresh, Option.none_or]
    have hsettlements := h.unsettled (Or.inl hfresh)
    have hacceptances := h.unaccepted (Or.inl hfresh)
    have hexpired := h.unexpired (Or.inl hfresh)
    have hunsettled := settlements_eq_zero.mp hsettlements
    have hunaccepted := acceptances_eq_zero.mp hacceptances
    have hopen : JobView.Open ⟨v.row.or (some row), true, some timer, v.resultTimer,
        timer :: v.armed, v.claims, v.leases, .accepted jobId :: v.log⟩ :=
      ⟨row, hrow, Or.inl hstate⟩
    have hsettled' : settlements jobId (.accepted jobId :: v.log) = 0 := by
      rw [settlements_eq_zero]
      simpa using hunsettled
    have haccepted' : acceptances jobId (.accepted jobId :: v.log) = 0 := by
      rw [acceptances_eq_zero]
      simpa using hunaccepted
    constructor
    · exact hsettled'.le.trans (Nat.zero_le 1)
    · exact fun _ => hsettled'
    · exact fun _ hnot => absurd hopen hnot
    · exact haccepted'.le.trans (Nat.zero_le 1)
    · exact fun _ => haccepted'
    · rintro ⟨row', hrow', hcompleted⟩
      obtain rfl := Option.some.inj (hrow.symm.trans hrow')
      rw [hstate] at hcompleted
      contradiction
    · intro _
      simpa using hexpired
    · rintro ⟨row', hrow', hat⟩
      obtain rfl := Option.some.inj (hrow.symm.trans hrow')
      rw [hstate] at hat
      contradiction
    · intro _ result
      simp [hunsettled, hunaccepted]
    · simp [hunsettled, hexpired]
    · intro token result hmem
      simp [hunaccepted] at hmem
    · exact ⟨h.duplicates, fun _ _ he => by contradiction⟩
  | leased c row row' timer token hfound hstate hwaits hstate' hhash hterminal hown hstage =>
    refine logInv_of_row h (by rfl) ?_ ?_ ?_
    · exact fun _ => ⟨row, hfound, Or.inl hstate⟩
    · exact fun _ hnot => absurd ⟨row', rfl, Or.inr hstate'⟩ hnot
    · intro row₁ hrow₁
      obtain rfl : row' = row₁ := Option.some.inj hrow₁
      exact ⟨row, hfound, by simp [hstate, hstate'], by simp [hstate, hstate']⟩
  | completed row token hash result now hfound hstate hstored hmatches =>
    obtain ⟨issuedToken, hissued, hhash⟩ := hleases.hash row hash hfound hstored
    have htoken : Issued jobId token v.log := by
      have heq := (equalHex_iff.mp hmatches).trans hhash
      rw [hinj heq]
      exact hissued
    have hu := unended hmemory h ⟨row, hfound, Or.inr hstate⟩
    refine logInv_ended h hu ⟨Or.inl ⟨token, result, rfl, rfl, rfl⟩⟩ ?_ rfl rfl
    intro token' result' he
    obtain ⟨-, rfl, -, -⟩ := Entry.completeResponse.inj he
    exact htoken
  | expired row stage now armed hfound hstate hleft =>
    have hopen : row.state.Open := by
      cases stage with
      | lease => exact Or.inl hstate
      | result => exact Or.inr hstate
    have hu := unended hmemory h ⟨row, hfound, hopen⟩
    exact logInv_ended h hu ⟨Or.inr ⟨rfl, ⟨stage.reason, rfl⟩, rfl⟩⟩
      (fun _ _ he => by contradiction) rfl rfl
  | missed timer harmed hlate =>
    exact logInv_of_row h rfl (fun hopen => hopen) (fun _ hnot => hnot)
      fun row' hrow' => ⟨row', hrow', Iff.rfl, Iff.rfl⟩
  | deleted row hfound hterminal =>
    have hclosed := (hmemory.terminal row hfound).mp hterminal
    refine logInv_of_row h (by rfl) ?_ ?_ ?_
    · rintro ⟨row', hrow', _⟩
      contradiction
    · rintro _ _ ⟨row', hrow', hopen⟩
      obtain rfl := Option.some.inj (hfound.symm.trans hrow')
      exact hclosed hopen
    · exact fun row' hrow' => by contradiction
  | reset =>
    have hnow : ¬AcceptedNow jobId (.reset :: v.log) := by simp [acceptedNow_cons]
    have hsettlements : settlements jobId (.reset :: v.log) = settlements jobId v.log := by
      simp [settlements]
    have hacceptances : acceptances jobId (.reset :: v.log) = acceptances jobId v.log := by
      simp [acceptances]
    have hmem : ∀ {e}, e ≠ .reset → (e ∈ Entry.reset :: v.log ↔ e ∈ v.log) := by
      intro e hne
      rw [List.mem_cons, or_iff_right hne]
    have hfresh : .accepted jobId ∉ Entry.reset :: v.log → .accepted jobId ∉ v.log :=
      fun hnot hold => hnot (List.mem_cons_of_mem _ hold)
    constructor
    · exact hsettlements.le.trans h.settledOnce
    · exact fun hor => hsettlements.trans (h.unsettled (hor.imp_left hfresh))
    · exact fun hnow' => absurd hnow' hnow
    · exact hacceptances.le.trans h.acceptedOnce
    · exact fun hor => hacceptances.trans (h.unaccepted (hor.imp_left hfresh))
    · exact fun hat => hacceptances.trans (h.completed hat)
    · exact fun hor hexpired =>
        h.unexpired (hor.imp_left hfresh) ((hmem (by simp)).mp hexpired)
    · exact fun hat => (hmem (by simp)).mpr (h.expired hat)
    · exact fun hnow' => absurd hnow' hnow
    · exact fun hnow' => absurd hnow' hnow
    · intro token result hresponse
      exact (h.issued token result ((hmem (by simp)).mp hresponse)).cons
    · exact ⟨h.duplicates, fun _ _ he => by contradiction⟩

end Answers

end Utsuroi.Crawler

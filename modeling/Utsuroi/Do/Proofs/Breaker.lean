import Utsuroi.Do.Proofs.RateLimit

/-!
# The circuit breaker and Retry-After

Granting a probe clears `circuitOpenUntil`, and only an elapsed `circuitOpenUntil` makes the
next call look at `halfOpenProbeLeaseId`: an outstanding probe keeps others out only as long
as the limits of a closed breaker do.  A later failure overwrites `nextAllowedAt`, and the
half-open grant does not read it: a Retry-After holds only as long as neither happens.
-/

namespace Utsuroi

open Transition

/-! ## The half-open probe -/

def HostEvent.Releases (leaseId : LeaseId) : HostEvent → Prop
  | .acquire _ _ _ _ => False
  | .release _ released _ => released = leaseId

/-- A probe is outstanding at `now`: granted out of the open state, not released since and
younger than `LEASE_TTL_MS`. -/
def OutstandingProbe (es : List HostEvent) (now : Nat) : Prop :=
  ∃ newer older t leaseId result, es = newer ++ .acquire t leaseId true result :: older ∧
    result.granted = true ∧ (∀ e ∈ newer, ¬e.Releases leaseId) ∧ now - t < LEASE_TTL_MS

/-- No call is granted a lease while a probe is outstanding. -/
def ProbeExclusive (es : List HostEvent) : Prop :=
  ∀ newer now leaseId fromOpen result older,
    es = newer ++ .acquire now leaseId fromOpen result :: older →
      OutstandingProbe older now → result.granted = false

/-- An acquire made while a probe is outstanding meets a breaker that is open again or
limits of the closed breaker that deny it. -/
def probeGuarded : StepCond HostClock HostEvent
  | past, c, .acquire now _ _ _ => OutstandingProbe past now → ¬ClosedFree now c.host
  | _, _, .release _ _ _ => True

/-- The state remembers every outstanding probe, with the time it was granted at. -/
def ProbeHeld (es : List HostEvent) (c : HostClock) : Prop :=
  ∀ newer older t leaseId result, es = newer ++ .acquire t leaseId true result :: older →
    result.granted = true → (∀ e ∈ newer, ¬e.Releases leaseId) → c.clock - t < LEASE_TTL_MS →
    c.host.halfOpenProbeLeaseId = some leaseId ∧
      ∀ lease ∈ c.host.activeLeases, lease.1 = leaseId → lease.2 = t

/-- Expiry leaves a slot whose lease is not expired. -/
private theorem expireStaleLeases_keeps_probe {s : HostState} {now t : Nat} {leaseId : LeaseId}
    (hprobe : s.halfOpenProbeLeaseId = some leaseId)
    (hlease : ∀ lease ∈ s.activeLeases, lease.1 = leaseId → lease.2 = t)
    (hyoung : now - t < LEASE_TTL_MS) :
    (expireStaleLeases s now).halfOpenProbeLeaseId = some leaseId := by
  have hnone : (s.activeLeases.any fun lease =>
      leaseExpired now lease && decide (s.halfOpenProbeLeaseId = some lease.1)) = false := by
    rw [List.any_eq_false]
    intro lease hmem h
    simp only [Bool.and_eq_true, decide_eq_true_eq, leaseExpired, hprobe, Option.some.injEq] at h
    have := hlease lease hmem h.2.symm
    omega
  simp only [expireStaleLeases, hnone]
  exact hprobe

/-- An outstanding probe stands in the way of the half-open grant. -/
private theorem ProbeHeld.not_halfOpenFree {es : List HostEvent} {c : HostClock} {now : Nat}
    (hheld : ProbeHeld es c) (hclock : c.clock ≤ now) (hout : OutstandingProbe es now) :
    ¬HalfOpenFree now c.host := by
  obtain ⟨newer, older, t, leaseId, result, hes, hgranted, hunreleased, hyoung⟩ := hout
  obtain ⟨hprobe, hlease⟩ := hheld newer older t leaseId result hes hgranted hunreleased (by omega)
  intro hfree
  have := expireStaleLeases_keeps_probe hprobe hlease hyoung
  rw [hfree.noProbe] at this
  contradiction

/-- What an older event of `e :: es` was is what it was in `es`. -/
private theorem cons_split {e f : HostEvent} {es newer older : List HostEvent}
    (h : e :: es = newer ++ f :: older) :
    (newer = [] ∧ e = f ∧ es = older) ∨
      ∃ newer', newer = e :: newer' ∧ es = newer' ++ f :: older := by
  cases newer with
  | nil =>
    obtain ⟨rfl, rfl⟩ := List.cons_eq_cons.mp h
    exact Or.inl ⟨rfl, rfl, rfl⟩
  | cons g newer =>
    obtain ⟨rfl, htail⟩ := List.cons_eq_cons.mp h
    exact Or.inr ⟨newer, rfl, htail⟩

/-- A call that grants nothing and drops no slot keeps the memory of the probes. -/
private theorem probeHeld_kept {es : List HostEvent} {c : HostClock} {e : HostEvent}
    {host : HostState} (hheld : ProbeHeld es c) (hclock : c.clock ≤ e.time)
    (hdenied : ∀ t leaseId result, e = .acquire t leaseId true result → result.granted = false)
    (hslot : ∀ leaseId t, c.host.halfOpenProbeLeaseId = some leaseId → ¬e.Releases leaseId →
      (∀ lease ∈ c.host.activeLeases, lease.1 = leaseId → lease.2 = t) →
      e.time - t < LEASE_TTL_MS → host.halfOpenProbeLeaseId = some leaseId)
    (hleases : host.activeLeases.Sublist c.host.activeLeases) :
    ProbeHeld (e :: es) ⟨e.time, host⟩ := by
  intro newer older t leaseId result hes hgranted hunreleased hyoung
  have hyoung' : e.time - t < LEASE_TTL_MS := hyoung
  rcases cons_split hes with ⟨rfl, he, _⟩ | ⟨newer', rfl, hes'⟩
  · rw [hdenied t leaseId result he] at hgranted
    contradiction
  · obtain ⟨hprobe, hlease⟩ := hheld newer' older t leaseId result hes' hgranted
      (fun f hf => hunreleased f (List.mem_cons_of_mem _ hf)) (by omega)
    refine ⟨hslot leaseId t hprobe (hunreleased e (by simp)) hlease hyoung', ?_⟩
    exact fun lease hmem => hlease lease (hleases.mem hmem)

private theorem probeHeld_step {es : List HostEvent} {c c' : HostClock} {e : HostEvent}
    (hheld : ProbeHeld es c) (hstep : hostSystem.step c e c') (hguard : probeGuarded es c e) :
    ProbeHeld (e :: es) c' := by
  obtain ⟨hclock, hrec, rfl⟩ := hstep
  cases e with
  | acquire now leaseId fromOpen result =>
    obtain ⟨hopen, hresult⟩ := hrec
    have hclock' : c.clock ≤ now := hclock
    simp only [HostEvent.apply]
    rcases acquireLease_cases now leaseId c.host with
      ⟨wait, _, _, _, hacq⟩ | ⟨hfree, hacq⟩ | ⟨hfree, hacq⟩
    · have hdenied : result.granted = false := by
        rcases hacq with hacq | hacq <;> rw [hresult, hacq] <;> rfl
      have hno : ∀ t id r, HostEvent.acquire now leaseId fromOpen result = .acquire t id true r →
          r.granted = false := by
        intro t id r h
        injection h with _ _ _ hr
        exact hr ▸ hdenied
      rcases hacq with hacq | hacq
      · rw [hacq]
        exact probeHeld_kept hheld hclock hno (fun _ _ hp _ _ _ => hp) (List.Sublist.refl _)
      · rw [hacq]
        exact probeHeld_kept hheld hclock hno
          (fun _ _ hp _ hl hy => expireStaleLeases_keeps_probe hp hl hy) (unexpired_sublist _ _)
    · -- the new probe is the only outstanding one: an older one would have denied it
      rw [hacq]
      intro newer older t id r hes hgranted hunreleased hyoung
      rcases cons_split hes with ⟨rfl, he, _⟩ | ⟨newer', rfl, hes'⟩
      · injection he with ht hid _ _
        subst ht hid
        refine ⟨rfl, ?_⟩
        intro lease hmem heq
        rcases List.mem_append.mp hmem with hmem | hmem
        · have hne := (List.mem_filter.mp hmem).2
          simp only [ne_eq, decide_eq_true_eq] at hne
          exact absurd heq hne
        · simp only [List.mem_singleton] at hmem
          rw [hmem]
      · exact absurd hfree (hheld.not_halfOpenFree hclock' ⟨newer', older, t, id, r, hes', hgranted,
          fun f hf => hunreleased f (List.mem_cons_of_mem _ hf), hyoung⟩)
    · rw [hacq]
      intro newer older t id r hes hgranted hunreleased hyoung
      rcases cons_split hes with ⟨rfl, he, _⟩ | ⟨newer', rfl, hes'⟩
      · injection he with _ _ hfo _
        rw [hfree.closed, hfo] at hopen
        contradiction
      · exact absurd hfree (hguard ⟨newer', older, t, id, r, hes', hgranted,
          fun f hf => hunreleased f (List.mem_cons_of_mem _ hf), hyoung⟩)
  | release now leaseId outcome =>
    have hno : ∀ t id r, HostEvent.release now leaseId outcome = .acquire t id true r →
        r.granted = false := by
      intro t id r h
      contradiction
    have hslot : ∀ id (t : Nat), c.host.halfOpenProbeLeaseId = some id →
        ¬(HostEvent.release now leaseId outcome).Releases id →
        (∀ lease ∈ c.host.activeLeases, lease.1 = id → lease.2 = t) → now - t < LEASE_TTL_MS →
        (droppedLease leaseId c.host).halfOpenProbeLeaseId = some id := by
      intro id t hp hne _ _
      have hne' : id ≠ leaseId := fun h => hne h.symm
      simp [droppedLease, hp, hne']
    have hleases := deleteLease_sublist c.host.activeLeases leaseId
    simp only [HostEvent.apply]
    rcases releaseLease_cases now leaseId outcome c.host with
      ⟨_, hrel⟩ | ⟨_, hrel⟩ | ⟨_, circuit, _, hrel⟩ <;> rw [hrel]
    · exact probeHeld_kept hheld hclock hno hslot hleases
    · exact probeHeld_kept hheld hclock hno hslot hleases
    · exact probeHeld_kept hheld hclock hno hslot hleases

private theorem probeHeld_run {es : List HostEvent} {c : HostClock}
    (h : hostSystem.Run probeGuarded es c) : ProbeHeld es c := by
  refine h.invariant ?_ fun _ _ _ _ _ hheld hstep hguard => probeHeld_step hheld hstep hguard
  intro s _ newer older t leaseId result hes
  simp at hes

private theorem granted_of_closedFree {now : Nat} {leaseId : LeaseId} {s : HostState}
    (hfree : ClosedFree now s) : (acquireLease now leaseId s).1.granted = true := by
  rcases acquireLease_cases now leaseId s with
    ⟨wait, _, _, hclosed, _⟩ | ⟨_, hacq⟩ | ⟨_, hacq⟩
  · exact absurd hfree hclosed
  · rw [hacq]; rfl
  · rw [hacq]; rfl

/-- Exactly when a half-open probe keeps every other lease out: the run grants nothing
beside an outstanding probe if and only if each acquire made beside one finds the breaker
open again or is denied by the limits of the closed breaker. -/
theorem probeExclusive_iff {es : List HostEvent} {c : HostClock}
    (h : hostSystem.Run anyStep es c) :
    ProbeExclusive es ↔ hostSystem.Run probeGuarded es c := by
  constructor
  · intro hexcl
    induction h with
    | start hinit => exact .start hinit
    | @next es c c' e hrun hstep _ ih =>
      have hpast : ProbeExclusive es := by
        intro newer now leaseId fromOpen result older hes
        exact hexcl (e :: newer) now leaseId fromOpen result older (by rw [hes]; rfl)
      refine .next (ih hpast) hstep ?_
      cases e with
      | acquire now leaseId fromOpen result =>
        intro hout hfree
        have hdenied := hexcl [] now leaseId fromOpen result es rfl hout
        rw [hstep.2.1.2, granted_of_closedFree hfree] at hdenied
        contradiction
      | release now leaseId outcome => trivial
  · intro hguarded newer now leaseId fromOpen result older hes hout
    subst hes
    obtain ⟨before, _, hrun, hstep, hguard⟩ := hguarded.split
    have hheld := probeHeld_run hrun
    rw [hstep.2.1.2]
    exact denied_of_not_free (hheld.not_halfOpenFree hstep.1 hout) (hguard hout)

/-- An acquire made beside an outstanding probe comes before `MIN_ACCESS_INTERVAL_MS` have passed
since some grant, such as the probe's own. -/
def probeSoon : StepCond HostClock HostEvent
  | past, _, .acquire now _ _ _ =>
    OutstandingProbe past now → ∃ t ∈ grantTimes past, now < t + MIN_ACCESS_INTERVAL_MS
  | _, _, .release _ _ _ => True

private theorem not_closedFree_of_soon {es : List HostEvent} {c : HostClock} {now t : Nat}
    (hinv : HostInv es c) (hmem : t ∈ grantTimes es) (hsoon : now < t + MIN_ACCESS_INTERVAL_MS) :
    ¬ClosedFree now c.host := by
  obtain ⟨last, hlast, hle⟩ := hinv.grantBound t hmem
  intro hfree
  have hinterval := hfree.interval
  simp only [earliestNext, hlast, Option.elim_some] at hinterval
  omega

/-- The interval between grants keeps every other lease out while it lasts. -/
theorem probeExclusive_of_soon {es : List HostEvent} {c : HostClock}
    (h : hostSystem.Run probeSoon es c) : ProbeExclusive es := by
  intro newer now leaseId fromOpen result older hes hout
  subst hes
  have hguarded : hostSystem.Run probeGuarded
      (newer ++ .acquire now leaseId fromOpen result :: older) c := by
    clear hout
    generalize newer ++ .acquire now leaseId fromOpen result :: older = es at h
    induction h with
    | start hinit => exact .start hinit
    | @next es c c' e hrun hstep hsoon ih =>
      refine .next ih hstep ?_
      cases e with
      | acquire now leaseId fromOpen result =>
        intro hout
        obtain ⟨t, hmem, hearly⟩ := hsoon hout
        exact not_closedFree_of_soon (hostInv_run hrun) hmem hearly
      | release now leaseId outcome => trivial
  obtain ⟨before, _, hrun, hstep, hguard⟩ := hguarded.split
  rw [hstep.2.1.2]
  exact denied_of_not_free ((probeHeld_run hrun).not_halfOpenFree hstep.1 hout) (hguard hout)

/-- Five failing checks, and a probe once the breaker's window is over. -/
def probeCalls : List HostCall :=
  [.acquire 0 1, .release 1000 1 ⟨some .http5xx, none⟩,
    .acquire 11000 2, .release 12000 2 ⟨some .http5xx, none⟩,
    .acquire 32000 3, .release 33000 3 ⟨some .http5xx, none⟩,
    .acquire 73000 4, .release 74000 4 ⟨some .http5xx, none⟩,
    .acquire 154000 5, .release 155000 5 ⟨some .http5xx, none⟩,
    .acquire 455000 6]

private def probeRun : List HostEvent × HostClock := replay probeCalls [] ⟨0, emptyState⟩

private theorem probeRun_run : hostSystem.Run anyStep probeRun.1 probeRun.2 :=
  replay_run probeCalls hostSystem_start (by decide)

private theorem probeRun_outstanding : OutstandingProbe probeRun.1 465000 :=
  ⟨[], probeRun.1.tail, 455000, 6, leaseGranted 6, by decide, by decide, by simp, by decide⟩

/-- The acquire made at 465000, beside the probe of 455000, is granted. -/
theorem probeExclusive_violated :
    ¬∀ es c, hostSystem.Run anyStep es c → ProbeExclusive es := by
  intro hexcl
  have hrun := replay_run [.acquire 465000 7] probeRun_run (by decide)
  have hdenied := hexcl _ _ hrun [] 465000 7 false (leaseGranted 7) probeRun.1 (by decide)
    probeRun_outstanding
  contradiction

/-- An acquire 1 s after the probe. -/
private def besideRun : List HostEvent × HostClock :=
  replay [.acquire 456000 7] probeRun.1 probeRun.2

private theorem besideRun_run : hostSystem.Run anyStep besideRun.1 besideRun.2 :=
  replay_run [.acquire 456000 7] probeRun_run (by decide)

private theorem besideRun_exclusive : ProbeExclusive besideRun.1 := by
  have hlast : besideRun.1 = .acquire 456000 7 false (leaseDenied 9000) :: probeRun.1 := by decide
  have hfirst : (probeRun.1.tail.all fun
      | .acquire _ _ fromOpen _ => !fromOpen
      | .release _ _ _ => true) = true := by decide
  rintro newer now leaseId fromOpen result older hes ⟨after, before, t, id, r, hprobe, -, -, -⟩
  rw [hlast] at hes
  rcases cons_split hes with ⟨-, he, -⟩ | ⟨newer', -, hes'⟩
  · injection he with _ _ _ hresult
    exact hresult ▸ rfl
  · have hmem : HostEvent.acquire t id true r ∈ probeRun.1.tail := by
      rw [hes', hprobe]
      cases newer' <;> simp
    have := List.all_eq_true.mp hfirst _ hmem
    contradiction

/-- The acquire beside the probe is denied. -/
theorem probeExclusive_iff_besideProbe :
    OutstandingProbe probeRun.1 456000 ∧ ProbeExclusive besideRun.1 ∧
      hostSystem.Run probeGuarded besideRun.1 besideRun.2 :=
  ⟨⟨[], probeRun.1.tail, 455000, 6, leaseGranted 6, by decide, by decide, by simp, by decide⟩,
    besideRun_exclusive, (probeExclusive_iff besideRun_run).mp besideRun_exclusive⟩

/-! ## Retry-After -/

def HostEvent.Succeeds : HostEvent → Prop
  | .acquire _ _ _ _ => False
  | .release _ _ outcome => outcome.failureClass = none

/-- A 429 asked for no access before `deadline`, and no success was reported since. -/
def RetryAfterPending (es : List HostEvent) (deadline : Nat) : Prop :=
  ∃ newer older t leaseId retryAfterSeconds,
    es = newer ++ .release t leaseId ⟨some .http429, some retryAfterSeconds⟩ :: older ∧
      (∀ e ∈ newer, ¬e.Succeeds) ∧ deadline = t + 1000 * retryAfterSeconds

/-- No call is granted a lease before a pending deadline. -/
def RetryAfterHonoured (es : List HostEvent) : Prop :=
  ∀ newer now leaseId fromOpen result older deadline,
    es = newer ++ .acquire now leaseId fromOpen result :: older →
      RetryAfterPending older deadline → now < deadline → result.granted = false

/-- Before a pending deadline no acquire finds the breaker half-open, and no failure is
reported whose own wait ends before the deadline. -/
def retryAfterGuarded : StepCond HostClock HostEvent
  | past, c, .acquire now _ _ _ =>
    ∀ deadline, RetryAfterPending past deadline → now < deadline → ¬HalfOpenFree now c.host
  | past, c, .release now _ outcome =>
    ∀ deadline, RetryAfterPending past deadline → outcome.Fails →
      deadline ≤ now + releaseWaitMs (c.host.failureStreak + 1) outcome

/-- `nextAllowedAt` covers every pending deadline. -/
def RetryAfterHeld (es : List HostEvent) (c : HostClock) : Prop :=
  ∀ deadline, RetryAfterPending es deadline →
    ∃ next, c.host.nextAllowedAt = some next ∧ deadline ≤ next

private theorem releaseWaitMs_retryAfter (failureStreak retryAfterSeconds : Nat) :
    1000 * retryAfterSeconds ≤
      releaseWaitMs failureStreak ⟨some .http429, some retryAfterSeconds⟩ := by
  simp only [releaseWaitMs]
  omega

private theorem acquireLease_nextAllowedAt (now : Nat) (leaseId : LeaseId) (s : HostState) :
    (acquireLease now leaseId s).2.nextAllowedAt = s.nextAllowedAt := by
  rcases acquireLease_cases now leaseId s with
    ⟨wait, _, _, _, hacq | hacq⟩ | ⟨_, hacq⟩ | ⟨_, hacq⟩ <;> rw [hacq] <;> rfl

/-- Before a deadline that `nextAllowedAt` covers, a closed breaker grants nothing. -/
private theorem RetryAfterHeld.not_closedFree {es : List HostEvent} {c : HostClock}
    {now deadline : Nat} (hheld : RetryAfterHeld es c) (hpending : RetryAfterPending es deadline)
    (hearly : now < deadline) : ¬ClosedFree now c.host := by
  obtain ⟨next, hnext, hle⟩ := hheld deadline hpending
  intro hfree
  have hinterval := hfree.interval
  simp only [earliestNext, hnext, Option.getD_some] at hinterval
  omega

private theorem retryAfterHeld_step {es : List HostEvent} {c c' : HostClock} {e : HostEvent}
    (hheld : RetryAfterHeld es c) (hstep : hostSystem.step c e c')
    (hguard : retryAfterGuarded es c e) : RetryAfterHeld (e :: es) c' := by
  obtain ⟨_, _, rfl⟩ := hstep
  rintro deadline ⟨newer, older, t, id, seconds, hes, hnosuccess, rfl⟩
  rcases cons_split hes with ⟨rfl, rfl, rfl⟩ | ⟨newer', rfl, hes'⟩
  · -- the 429 itself
    simp only [HostEvent.apply]
    rcases releaseLease_cases t id ⟨some .http429, some seconds⟩ c.host with
      ⟨h, _⟩ | ⟨h, _⟩ | ⟨_, circuit, _, hrel⟩
    · simp at h
    · simp at h
    · rw [hrel]
      refine ⟨_, rfl, ?_⟩
      have := releaseWaitMs_retryAfter (c.host.failureStreak + 1) seconds
      omega
  · have hpending : RetryAfterPending es (t + 1000 * seconds) :=
      ⟨newer', older, t, id, seconds, hes', fun f hf => hnosuccess f (by simp [hf]), rfl⟩
    obtain ⟨next, hnext, hle⟩ := hheld _ hpending
    cases e with
    | acquire now leaseId fromOpen result =>
      refine ⟨next, ?_, hle⟩
      simp only [HostEvent.apply, acquireLease_nextAllowedAt]
      exact hnext
    | release now leaseId outcome =>
      simp only [HostEvent.apply]
      rcases releaseLease_cases now leaseId outcome c.host with
        ⟨_, hrel⟩ | ⟨hsuccess, _⟩ | ⟨hfails, circuit, _, hrel⟩
      · rw [hrel]
        exact ⟨next, hnext, hle⟩
      · exact absurd hsuccess (hnosuccess (.release now leaseId outcome) (by simp))
      · rw [hrel]
        exact ⟨_, rfl, hguard _ hpending hfails⟩

private theorem retryAfterHeld_run {es : List HostEvent} {c : HostClock}
    (h : hostSystem.Run retryAfterGuarded es c) : RetryAfterHeld es c := by
  refine h.invariant ?_ fun _ _ _ _ _ hheld hstep hguard =>
    retryAfterHeld_step hheld hstep hguard
  rintro s _ deadline ⟨newer, older, t, leaseId, seconds, hes, _, _⟩
  simp at hes

/-- Retry-After is honoured in every run in which, while one is pending, no acquire finds
the breaker half-open and no later failure asks for less. -/
theorem retryAfterHonoured_of_guarded {es : List HostEvent} {c : HostClock}
    (h : hostSystem.Run retryAfterGuarded es c) : RetryAfterHonoured es := by
  intro newer now leaseId fromOpen result older deadline hes hpending hearly
  subst hes
  obtain ⟨before, _, hrun, hstep, hguard⟩ := h.split
  have hheld := retryAfterHeld_run hrun
  rw [hstep.2.1.2]
  exact denied_of_not_free (hguard deadline hpending hearly)
    (hheld.not_closedFree hpending hearly)

/-- Two overlapping leases: the first is told to wait 120 s, the second then fails to connect. -/
def overwriteCalls : List HostCall :=
  [.acquire 0 1, .acquire 10000 2, .release 11000 1 ⟨some .http429, some 120⟩,
    .release 12000 2 ⟨some .networkError, none⟩]

private def overwriteRun : List HostEvent × HostClock :=
  replay overwriteCalls [] ⟨0, emptyState⟩

private theorem overwriteRun_pending : RetryAfterPending overwriteRun.1 131000 :=
  ⟨[.release 12000 2 ⟨some .networkError, none⟩], overwriteRun.1.drop 2, 11000, 1, 120,
    by decide, by simp [HostEvent.Succeeds], rfl⟩

/-- The acquire made at 32000 is granted 99 s before the end of the Retry-After. -/
theorem retryAfterHonoured_violated :
    ¬∀ es c, hostSystem.Run anyStep es c → RetryAfterHonoured es := by
  intro hhonoured
  have hrun := replay_run overwriteCalls hostSystem_start (by decide)
  have hnext := replay_run [.acquire 32000 3] hrun (by decide)
  have hdenied := hhonoured _ _ hnext [] 32000 3 false (leaseGranted 3) overwriteRun.1 131000
    (by decide) overwriteRun_pending (by decide)
  contradiction

/-- A 429, and an acquire that comes too early. -/
def earlyCalls : List HostCall :=
  [.acquire 0 1, .release 1000 1 ⟨some .http429, some 120⟩, .acquire 61000 2]

theorem retryAfterHonoured_earlyCalls :
    RetryAfterHonoured (replay earlyCalls [] ⟨0, emptyState⟩).1 := by
  have hmeets : ReplayMeets retryAfterGuarded earlyCalls [] ⟨0, emptyState⟩ := by
    refine ⟨?_, ?_, ?_, trivial⟩
    · rintro deadline ⟨newer, older, t, leaseId, seconds, hes, _⟩
      simp at hes
    · rintro deadline ⟨newer, older, t, leaseId, seconds, hes, _⟩
      rcases cons_split hes with ⟨_, h, _⟩ | ⟨_, _, h⟩
      · contradiction
      · simp at h
    · intro _ _ _ hfree
      obtain ⟨openUntil, hopen, _⟩ := hfree.elapsed
      contradiction
  exact retryAfterHonoured_of_guarded
    (replay_run_of_meets earlyCalls (.start rfl) (by decide) hmeets)

end Utsuroi

import Mathlib.Tactic
import Utsuroi.Do.HostObject

/-!
# The host's rate limit

What one call may do to the object is said once, in `acquireLease_cases` and
`releaseLease_cases`.  The half-open grant skips the interval and the concurrency check;
it is safe because an elapsed breaker is at least `CIRCUIT_OPEN_MS` younger than the last
grant, so that every lease it could collide with has expired.
-/

namespace Utsuroi

open Transition

/-! ## One call -/

/-- The leases of `leases` that are not expired at `now`. -/
def unexpired (leases : List (LeaseId × Nat)) (now : Nat) : List (LeaseId × Nat) :=
  leases.filter fun lease => !leaseExpired now lease

/-- Out of a half-open breaker one probe is granted. -/
def probeState (now : Nat) (leaseId : LeaseId) (s : HostState) : HostState :=
  { expireStaleLeases s now with
    activeLeases := putLease (unexpired s.activeLeases now) leaseId now
    lastAcquireAt := some now
    halfOpenProbeLeaseId := some leaseId
    circuitOpenUntil := none }

/-- The grant of a closed breaker. -/
def closedState (now : Nat) (leaseId : LeaseId) (s : HostState) : HostState :=
  { expireStaleLeases s now with
    activeLeases := putLease (unexpired s.activeLeases now) leaseId now
    lastAcquireAt := some now }

/-- The limits of a closed breaker allow a grant at `now`. -/
structure ClosedFree (now : Nat) (s : HostState) : Prop where
  closed : s.circuitOpenUntil = none
  capacity : (unexpired s.activeLeases now).length < MAX_CONCURRENT_LEASES
  interval : earliestNext s ≤ now

/-- The breaker's window is over and no probe is out. -/
structure HalfOpenFree (now : Nat) (s : HostState) : Prop where
  elapsed : ∃ openUntil, s.circuitOpenUntil = some openUntil ∧ openUntil ≤ now
  noProbe : (expireStaleLeases s now).halfOpenProbeLeaseId = none

theorem earliestNext_expireStaleLeases (s : HostState) (now : Nat) :
    earliestNext (expireStaleLeases s now) = earliestNext s := rfl

/-- Everything an acquire can do: deny with a positive wait, leaving the stored state or
its expiry, or grant out of a half-open or a closed breaker. -/
theorem acquireLease_cases (now : Nat) (leaseId : LeaseId) (s : HostState) :
    (∃ wait, 0 < wait ∧ ¬HalfOpenFree now s ∧ ¬ClosedFree now s ∧
      (acquireLease now leaseId s = (leaseDenied wait, s) ∨
        acquireLease now leaseId s = (leaseDenied wait, expireStaleLeases s now))) ∨
    (HalfOpenFree now s ∧
      acquireLease now leaseId s = (leaseGranted leaseId, probeState now leaseId s)) ∨
    (ClosedFree now s ∧
      acquireLease now leaseId s = (leaseGranted leaseId, closedState now leaseId s)) := by
  cases hopen : s.circuitOpenUntil with
  | some openUntil =>
    have hst : (expireStaleLeases s now).circuitOpenUntil = some openUntil := hopen
    have hclosed : ¬ClosedFree now s := by
      intro h
      simp [h.closed] at hopen
    by_cases hlt : now < openUntil
    · left
      refine ⟨openUntil - now, by omega, ?_, hclosed, ?_⟩
      · rintro ⟨⟨u, hu, hle⟩, _⟩
        rw [hopen] at hu
        injection hu with hu
        omega
      · left
        simp [acquireLease, hst, hlt]
    · by_cases hprobe : (expireStaleLeases s now).halfOpenProbeLeaseId = none
      · right; left
        refine ⟨⟨⟨openUntil, hopen, by omega⟩, hprobe⟩, ?_⟩
        simp only [acquireLease, hst, hlt, hprobe, ne_eq, not_true_eq_false, if_false]
        rfl
      · left
        refine ⟨MIN_ACCESS_INTERVAL_MS, by decide, ?_, hclosed, ?_⟩
        · exact fun h => hprobe h.noProbe
        · right
          simp [acquireLease, hst, hlt, hprobe]
  | none =>
    have hst : (expireStaleLeases s now).circuitOpenUntil = none := hopen
    have hhalf : ¬HalfOpenFree now s := by
      rintro ⟨⟨u, hu, _⟩, _⟩
      simp [hopen] at hu
    by_cases hcap : MAX_CONCURRENT_LEASES ≤ (unexpired s.activeLeases now).length
    · left
      refine ⟨MIN_ACCESS_INTERVAL_MS, by decide, hhalf, ?_, ?_⟩
      · intro h
        have := h.capacity
        omega
      · right
        have hcap' : MAX_CONCURRENT_LEASES ≤ (expireStaleLeases s now).activeLeases.length := hcap
        simp [acquireLease, hst, hcap']
    · have hcap' : ¬MAX_CONCURRENT_LEASES ≤ (expireStaleLeases s now).activeLeases.length := hcap
      by_cases hnext : now < earliestNext s
      · left
        refine ⟨earliestNext s - now, by omega, hhalf, ?_, ?_⟩
        · intro h
          have := h.interval
          omega
        · right
          simp [acquireLease, hst, hcap', hnext, earliestNext_expireStaleLeases]
      · right; right
        refine ⟨⟨hopen, by omega, by omega⟩, ?_⟩
        simp only [acquireLease, hst, hcap', hnext, earliestNext_expireStaleLeases, if_false,
          closedState]
        rfl

/-- What an acquire is answered when neither breaker state has a free slot. -/
theorem denied_of_not_free {now : Nat} {leaseId : LeaseId} {s : HostState}
    (hhalf : ¬HalfOpenFree now s) (hclosed : ¬ClosedFree now s) :
    (acquireLease now leaseId s).1.granted = false := by
  rcases acquireLease_cases now leaseId s with
    ⟨wait, _, _, _, hacq | hacq⟩ | ⟨hfree, _⟩ | ⟨hfree, _⟩
  · rw [hacq]; rfl
  · rw [hacq]; rfl
  · exact absurd hfree hhalf
  · exact absurd hfree hclosed

/-- A release without its report: the lease and, if it was the probe, the half-open slot go. -/
def droppedLease (leaseId : LeaseId) (s : HostState) : HostState :=
  { s with
    activeLeases := deleteLease s.activeLeases leaseId
    halfOpenProbeLeaseId :=
      if s.halfOpenProbeLeaseId = some leaseId then none else s.halfOpenProbeLeaseId }

/-- A report that counts against the host. -/
def ReleaseOutcome.Fails (outcome : ReleaseOutcome) : Prop :=
  outcome.failureClass ≠ none ∧ outcome.failureClass ≠ some .executorUnavailable

/-- Everything a release can do beyond dropping the lease: nothing, clear the limits, or
count a failure. -/
theorem releaseLease_cases (now : Nat) (leaseId : LeaseId) (outcome : ReleaseOutcome)
    (s : HostState) :
    (outcome.failureClass = some .executorUnavailable ∧
      releaseLease now leaseId outcome s = droppedLease leaseId s) ∨
    (outcome.failureClass = none ∧
      releaseLease now leaseId outcome s =
        { droppedLease leaseId s with
          failureStreak := 0, circuitOpenUntil := none, nextAllowedAt := none }) ∨
    (outcome.Fails ∧
      ∃ circuit, (circuit = s.circuitOpenUntil ∨ circuit = some (now + CIRCUIT_OPEN_MS)) ∧
        releaseLease now leaseId outcome s =
          { droppedLease leaseId s with
            failureStreak := s.failureStreak + 1
            nextAllowedAt := some (now + releaseWaitMs (s.failureStreak + 1) outcome)
            circuitOpenUntil := circuit }) := by
  rcases outcome with ⟨failureClass, retryAfterSeconds⟩
  cases failureClass with
  | none => right; left; exact ⟨rfl, rfl⟩
  | some failureClass =>
    by_cases hunavailable : failureClass = .executorUnavailable
    · left
      subst hunavailable
      exact ⟨rfl, rfl⟩
    · right; right
      refine ⟨⟨by simp, by simpa using hunavailable⟩, ?_⟩
      refine ⟨if CIRCUIT_BREAKER_THRESHOLD ≤ s.failureStreak + 1 then some (now + CIRCUIT_OPEN_MS)
        else s.circuitOpenUntil, ?_, ?_⟩
      · split
        · exact Or.inr rfl
        · exact Or.inl rfl
      · cases failureClass <;> first | contradiction | rfl

/-! ## The leases that count -/

theorem leaseExpired_mono {now later : Nat} (hle : now ≤ later) (lease : LeaseId × Nat)
    (h : leaseExpired now lease = true) : leaseExpired later lease = true := by
  simp only [leaseExpired, decide_eq_true_eq] at h ⊢
  omega

theorem unexpired_length_le {now later : Nat} (leases : List (LeaseId × Nat))
    (hle : now ≤ later) : (unexpired leases later).length ≤ (unexpired leases now).length := by
  unfold unexpired
  rw [← List.countP_eq_length_filter, ← List.countP_eq_length_filter]
  apply List.countP_mono_left
  intro lease _ h
  by_contra hexp
  have hexp' : leaseExpired now lease = true := by simpa using hexp
  rw [leaseExpired_mono hle lease hexp'] at h
  exact absurd h (by simp)

theorem unexpired_sublist_length (now : Nat) {some all : List (LeaseId × Nat)}
    (h : some.Sublist all) : (unexpired some now).length ≤ (unexpired all now).length :=
  (h.filter _).length_le

theorem deleteLease_sublist (leases : List (LeaseId × Nat)) (leaseId : LeaseId) :
    (deleteLease leases leaseId).Sublist leases := List.filter_sublist

theorem unexpired_sublist (leases : List (LeaseId × Nat)) (now : Nat) :
    (unexpired leases now).Sublist leases := List.filter_sublist

theorem putLease_length_le (leases : List (LeaseId × Nat)) (leaseId : LeaseId) (now : Nat) :
    (putLease leases leaseId now).length ≤ leases.length + 1 := by
  have h := (deleteLease_sublist leases leaseId).length_le
  simp only [putLease, List.length_append, List.length_singleton]
  omega

theorem mem_putLease {leases : List (LeaseId × Nat)} {leaseId : LeaseId} {now : Nat}
    {lease : LeaseId × Nat} (h : lease ∈ putLease leases leaseId now) :
    lease ∈ leases ∨ lease = (leaseId, now) := by
  rcases List.mem_append.mp h with h | h
  · exact Or.inl ((deleteLease_sublist leases leaseId).mem h)
  · exact Or.inr (by simpa using h)

/-! ## The invariant of a run -/

/-- The times of the grants among `es`, newest first. -/
def grantTimes : List HostEvent → List Nat
  | [] => []
  | .acquire now _ _ result :: es => if result.granted then now :: grantTimes es else grantTimes es
  | .release _ _ _ :: es => grantTimes es

/-- Grants are at least the minimum interval apart. -/
def GrantsSpaced (es : List HostEvent) : Prop :=
  (grantTimes es).Pairwise fun later earlier => earlier + MIN_ACCESS_INTERVAL_MS ≤ later

/-- Every denial tells a positive wait. -/
def DenialsWait (es : List HostEvent) : Prop :=
  ∀ now leaseId fromOpen result, HostEvent.acquire now leaseId fromOpen result ∈ es →
    result.granted = false → ∃ wait, result.retryAfterMs = some wait ∧ 0 < wait

/-- What the object keeps about its grants: nothing of it is later than the clock, the last
grant is the latest, and a breaker that is set was set after the last grant. -/
structure HostInv (es : List HostEvent) (c : HostClock) : Prop where
  lastBound : ∀ last, c.host.lastAcquireAt = some last → last ≤ c.clock
  grantBound : ∀ t ∈ grantTimes es, ∃ last, c.host.lastAcquireAt = some last ∧ t ≤ last
  leaseBound : ∀ lease ∈ c.host.activeLeases,
    ∃ last, c.host.lastAcquireAt = some last ∧ lease.2 ≤ last
  breakerBound : ∀ openUntil, c.host.circuitOpenUntil = some openUntil →
    ∀ last, c.host.lastAcquireAt = some last → last + CIRCUIT_OPEN_MS ≤ openUntil
  capacity : (unexpired c.host.activeLeases c.clock).length ≤ MAX_CONCURRENT_LEASES
  spaced : GrantsSpaced es
  denials : DenialsWait es

private theorem hostInv_init {c : HostClock} (h : hostSystem.init c) : HostInv [] c := by
  have hhost : c.host = emptyState := h
  constructor
  all_goals simp [hhost, emptyState, grantTimes, unexpired, GrantsSpaced, DenialsWait]

/-- A half-open breaker has outlived every lease. -/
theorem HostInv.unexpired_of_halfOpen {es : List HostEvent} {c : HostClock} {now : Nat}
    (hinv : HostInv es c) (hfree : HalfOpenFree now c.host) :
    unexpired c.host.activeLeases now = [] := by
  obtain ⟨openUntil, hopen, hle⟩ := hfree.elapsed
  apply List.filter_eq_nil_iff.mpr
  intro lease hmem
  obtain ⟨last, hlast, hgrant⟩ := hinv.leaseBound lease hmem
  have hbound := hinv.breakerBound openUntil hopen last hlast
  have hage : LEASE_TTL_MS ≤ now - lease.2 := by
    simp only [LEASE_TTL_MS, CIRCUIT_OPEN_MS] at hbound ⊢
    omega
  simp [leaseExpired, hage]

/-- An allowed grant comes a full interval after the last one. -/
theorem HostInv.interval_of_grant {es : List HostEvent} {c : HostClock} {now : Nat}
    (hinv : HostInv es c) (hfree : HalfOpenFree now c.host ∨ ClosedFree now c.host)
    {last : Nat} (hlast : c.host.lastAcquireAt = some last) :
    last + MIN_ACCESS_INTERVAL_MS ≤ now := by
  rcases hfree with hfree | hfree
  · obtain ⟨openUntil, hopen, hle⟩ := hfree.elapsed
    have hbound := hinv.breakerBound openUntil hopen last hlast
    simp only [MIN_ACCESS_INTERVAL_MS, CIRCUIT_OPEN_MS] at hbound ⊢
    omega
  · have hnext := hfree.interval
    simp only [earliestNext, hlast, Option.elim_some] at hnext
    omega

/-- The grant of `leaseId` at `now` keeps the invariant, out of either breaker state. -/
private theorem hostInv_grant {es : List HostEvent} {c : HostClock} {now : Nat}
    {leaseId : LeaseId} {fromOpen : Bool} {host : HostState} (hinv : HostInv es c)
    (hclock : c.clock ≤ now)
    (hfree : HalfOpenFree now c.host ∨ ClosedFree now c.host)
    (hleases : host.activeLeases = putLease (unexpired c.host.activeLeases now) leaseId now)
    (hlast : host.lastAcquireAt = some now) (hclosed : host.circuitOpenUntil = none) :
    HostInv (.acquire now leaseId fromOpen (leaseGranted leaseId) :: es) ⟨now, host⟩ := by
  constructor
  · intro last h
    rw [hlast] at h
    injection h with h
    exact h.symm.le
  · intro t ht
    refine ⟨now, hlast, ?_⟩
    simp only [grantTimes, leaseGranted, if_true, List.mem_cons] at ht
    rcases ht with rfl | ht
    · exact le_rfl
    · obtain ⟨last, hl, htl⟩ := hinv.grantBound t ht
      exact htl.trans ((hinv.lastBound last hl).trans hclock)
  · intro lease hmem
    refine ⟨now, hlast, ?_⟩
    rw [hleases] at hmem
    rcases mem_putLease hmem with hmem | rfl
    · obtain ⟨last, hl, hle⟩ := hinv.leaseBound lease ((unexpired_sublist _ _).mem hmem)
      exact hle.trans ((hinv.lastBound last hl).trans hclock)
    · exact le_rfl
  · intro openUntil h
    rw [hclosed] at h
    contradiction
  · show (unexpired host.activeLeases now).length ≤ MAX_CONCURRENT_LEASES
    have hput := putLease_length_le (unexpired c.host.activeLeases now) leaseId now
    have hsub := (unexpired_sublist host.activeLeases now).length_le
    rw [hleases] at hsub ⊢
    rcases hfree with hfree | hfree
    · rw [hinv.unexpired_of_halfOpen hfree] at hput hsub ⊢
      simp only [List.length_nil] at hput
      exact hsub.trans (hput.trans (by decide))
    · have hcap := hfree.capacity
      omega
  · simp only [GrantsSpaced, grantTimes, leaseGranted, if_true, List.pairwise_cons]
    refine ⟨?_, hinv.spaced⟩
    intro t ht
    obtain ⟨last, hl, htl⟩ := hinv.grantBound t ht
    have := hinv.interval_of_grant hfree hl
    omega
  · intro t id fo result hmem hdenied
    rcases List.mem_cons.mp hmem with heq | hmem
    · injection heq with _ _ _ hres
      simp [hres, leaseGranted] at hdenied
    · exact hinv.denials t id fo result hmem hdenied

/-- A call that grants nothing keeps the invariant when it only drops leases and sets the
breaker, if it does, past the clock. -/
private theorem hostInv_shrink {es : List HostEvent} {c : HostClock} {e : HostEvent}
    {host : HostState} (hinv : HostInv es c) (hclock : c.clock ≤ e.time)
    (hgrants : grantTimes (e :: es) = grantTimes es) (hdenials : DenialsWait (e :: es))
    (hleases : host.activeLeases.Sublist c.host.activeLeases)
    (hlast : host.lastAcquireAt = c.host.lastAcquireAt)
    (hbreaker : host.circuitOpenUntil = c.host.circuitOpenUntil ∨ host.circuitOpenUntil = none ∨
      host.circuitOpenUntil = some (e.time + CIRCUIT_OPEN_MS)) :
    HostInv (e :: es) ⟨e.time, host⟩ := by
  constructor
  · intro last h
    exact (hinv.lastBound last (hlast ▸ h)).trans hclock
  · intro t ht
    rw [hgrants] at ht
    obtain ⟨last, hl, htl⟩ := hinv.grantBound t ht
    exact ⟨last, hlast.trans hl, htl⟩
  · intro lease hmem
    obtain ⟨last, hl, hle⟩ := hinv.leaseBound lease (hleases.mem hmem)
    exact ⟨last, hlast.trans hl, hle⟩
  · intro openUntil hopen last hl
    have hl' : c.host.lastAcquireAt = some last := hlast ▸ hl
    have hopen' : host.circuitOpenUntil = some openUntil := hopen
    rcases hbreaker with hb | hb | hb
    · exact hinv.breakerBound openUntil (hb ▸ hopen') last hl'
    · rw [hb] at hopen'
      contradiction
    · rw [hb] at hopen'
      injection hopen' with hopen'
      have := hinv.lastBound last hl'
      omega
  · exact (unexpired_sublist_length e.time hleases).trans
      ((unexpired_length_le c.host.activeLeases hclock).trans hinv.capacity)
  · unfold GrantsSpaced
    rw [hgrants]
    exact hinv.spaced
  · exact hdenials

private theorem hostInv_step {es : List HostEvent} {c c' : HostClock} {e : HostEvent}
    (hinv : HostInv es c) (hstep : hostSystem.step c e c') : HostInv (e :: es) c' := by
  obtain ⟨hclock, hrec, rfl⟩ := hstep
  cases e with
  | acquire now leaseId fromOpen result =>
    obtain ⟨_, hresult⟩ := hrec
    simp only [HostEvent.apply]
    rcases acquireLease_cases now leaseId c.host with
      ⟨wait, hwait, _, _, hacq⟩ | ⟨hfree, hacq⟩ | ⟨hfree, hacq⟩
    · have hres : result = leaseDenied wait := by
        rcases hacq with hacq | hacq <;> rw [hresult, hacq]
      have hgrants : grantTimes (.acquire now leaseId fromOpen result :: es) = grantTimes es := by
        simp [grantTimes, hres, leaseDenied]
      have hdenials : DenialsWait (.acquire now leaseId fromOpen result :: es) := by
        intro t id fo r hmem hdenied
        rcases List.mem_cons.mp hmem with heq | hmem
        · injection heq with _ _ _ hr
          exact ⟨wait, by rw [hr, hres]; rfl, hwait⟩
        · exact hinv.denials t id fo r hmem hdenied
      rcases hacq with hacq | hacq
      · rw [hacq]
        exact hostInv_shrink hinv hclock hgrants hdenials (List.Sublist.refl _) rfl (Or.inl rfl)
      · rw [hacq]
        exact hostInv_shrink hinv hclock hgrants hdenials (unexpired_sublist _ _) rfl (Or.inl rfl)
    · rw [hacq] at hresult ⊢
      subst hresult
      exact hostInv_grant hinv hclock (Or.inl hfree) rfl rfl rfl
    · rw [hacq] at hresult ⊢
      subst hresult
      exact hostInv_grant hinv hclock (Or.inr hfree) rfl rfl hfree.closed
  | release now leaseId outcome =>
    have hdenials : DenialsWait (.release now leaseId outcome :: es) := by
      intro t id fo r hmem hdenied
      rcases List.mem_cons.mp hmem with heq | hmem
      · contradiction
      · exact hinv.denials t id fo r hmem hdenied
    have hleases := deleteLease_sublist c.host.activeLeases leaseId
    simp only [HostEvent.apply]
    rcases releaseLease_cases now leaseId outcome c.host with
      ⟨_, hrel⟩ | ⟨_, hrel⟩ | ⟨_, circuit, hcircuit, hrel⟩
    · rw [hrel]
      exact hostInv_shrink hinv hclock rfl hdenials hleases rfl (Or.inl rfl)
    · rw [hrel]
      exact hostInv_shrink hinv hclock rfl hdenials hleases rfl (Or.inr (Or.inl rfl))
    · rw [hrel]
      refine hostInv_shrink hinv hclock rfl hdenials hleases rfl ?_
      rcases hcircuit with rfl | rfl
      · exact Or.inl rfl
      · exact Or.inr (Or.inr rfl)

/-- Every run of the object keeps the invariant. -/
theorem hostInv_run {C : StepCond HostClock HostEvent} {es : List HostEvent} {c : HostClock}
    (h : hostSystem.Run C es c) : HostInv es c :=
  h.invariant (fun _ => hostInv_init) fun _ _ _ _ _ hinv hstep _ => hostInv_step hinv hstep

/-- The host's rate limit, in every run and after every call: at most
`MAX_CONCURRENT_LEASES` unexpired leases, grants at least `MIN_ACCESS_INTERVAL_MS` apart and a
positive wait in every denial. -/
theorem hostObject_rateLimit {es : List HostEvent} {c : HostClock}
    (h : hostSystem.Run anyStep es c) :
    (unexpired c.host.activeLeases c.clock).length ≤ MAX_CONCURRENT_LEASES ∧
      GrantsSpaced es ∧ DenialsWait es :=
  have hinv := hostInv_run h
  ⟨hinv.capacity, hinv.spaced, hinv.denials⟩

/-- Two overlapping checks and a third that finds the host full. -/
def overlappingCalls : List HostCall :=
  [.acquire 0 1, .acquire 10000 2, .acquire 20000 3, .release 21000 1 ⟨none, none⟩]

theorem hostObject_rateLimit_overlapping :
    let run := replay overlappingCalls [] ⟨0, emptyState⟩
    (unexpired run.2.host.activeLeases run.2.clock).length ≤ MAX_CONCURRENT_LEASES ∧
      GrantsSpaced run.1 ∧ DenialsWait run.1 :=
  hostObject_rateLimit (replay_run overlappingCalls hostSystem_start (by decide))

end Utsuroi

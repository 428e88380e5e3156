import Utsuroi.Do.HostAccess
import Utsuroi.Do.Proofs.RateLimit

/-!
# The bound on parallel access

The object bounds its leases, not the executions behind them: a lease expires
`LEASE_TTL_MS` after its grant, whether or not its execution still works.  As long as the
lease is younger the object still counts it.
-/

namespace Utsuroi

open Transition

/-- An acquire that comes while the host is full, one execution having outlived its lease,
finds neither breaker state free. -/
def accessGuarded : StepCond HostAccess AccessEvent
  | _, s, .object (.acquire now _ _ _) =>
    MAX_CONCURRENT_LEASES ≤ s.holding.length →
      (∃ lease ∈ s.holding, leaseExpired now lease = true) →
        ¬HalfOpenFree now s.object.host ∧ ¬ClosedFree now s.object.host
  | _, _, .object (.release _ _ _) => True
  | _, _, .callRelease _ _ => True
  | _, _, .kill _ => True

/-- What links the executions to the object: each holds a lease of its own, which the
object counts until it expires. -/
structure AccessInv (s : HostAccess) : Prop where
  counted : ∀ lease ∈ s.holding, leaseExpired s.object.clock lease = false →
    lease ∈ s.object.host.activeLeases
  distinct : (s.holding.map Prod.fst).Nodup
  holdingMinted : ∀ lease ∈ s.holding, lease.1 ∈ s.minted
  releasingMinted : ∀ call ∈ s.releasing, call.1 ∈ s.minted
  notReleasing : ∀ lease ∈ s.holding, ∀ call ∈ s.releasing, lease.1 ≠ call.1

private theorem leaseExpired_earlier {now later : Nat} (hle : now ≤ later) {lease : LeaseId × Nat}
    (h : leaseExpired later lease = false) : leaseExpired now lease = false := by
  cases hexp : leaseExpired now lease with
  | false => rfl
  | true =>
    rw [leaseExpired_mono hle lease hexp] at h
    contradiction

private theorem mem_unexpired {leases : List (LeaseId × Nat)} {now : Nat} {lease : LeaseId × Nat}
    (hmem : lease ∈ leases) (hyoung : leaseExpired now lease = false) :
    lease ∈ unexpired leases now := by
  simp [unexpired, hmem, hyoung]

private theorem mem_deleteLease {leases : List (LeaseId × Nat)} {leaseId : LeaseId}
    {lease : LeaseId × Nat} (hmem : lease ∈ leases) (hne : lease.1 ≠ leaseId) :
    lease ∈ deleteLease leases leaseId := by
  simp [deleteLease, hmem, hne]

private theorem deleteLease_ids (leases : List (LeaseId × Nat)) (leaseId : LeaseId)
    {lease : LeaseId × Nat} (hmem : lease ∈ deleteLease leases leaseId) :
    lease ∈ leases ∧ lease.1 ≠ leaseId := by
  simpa [deleteLease] using hmem

/-- What an acquire leaves of a lease it does not expire: its own new lease apart, the
object keeps it. -/
private theorem acquireLease_keeps {now : Nat} {leaseId : LeaseId} {s : HostState}
    {lease : LeaseId × Nat} (hmem : lease ∈ s.activeLeases)
    (hyoung : leaseExpired now lease = false) (hne : lease.1 ≠ leaseId) :
    lease ∈ (acquireLease now leaseId s).2.activeLeases := by
  have hkept := mem_unexpired hmem hyoung
  rcases acquireLease_cases now leaseId s with
    ⟨_, _, _, _, hacq | hacq⟩ | ⟨_, hacq⟩ | ⟨_, hacq⟩ <;> rw [hacq]
  · exact hmem
  · exact hkept
  · exact List.mem_append_left _ (mem_deleteLease hkept hne)
  · exact List.mem_append_left _ (mem_deleteLease hkept hne)

/-- A granted lease is among the object's. -/
private theorem acquireLease_grants {now : Nat} {leaseId : LeaseId} {s : HostState}
    (hgranted : (acquireLease now leaseId s).1.granted = true) :
    (leaseId, now) ∈ (acquireLease now leaseId s).2.activeLeases := by
  rcases acquireLease_cases now leaseId s with
    ⟨_, _, _, _, hacq | hacq⟩ | ⟨_, hacq⟩ | ⟨_, hacq⟩ <;> rw [hacq] at hgranted ⊢
  · simp [leaseDenied] at hgranted
  · simp [leaseDenied] at hgranted
  · exact List.mem_append_right _ (by simp)
  · exact List.mem_append_right _ (by simp)

private theorem releaseLease_activeLeases (now : Nat) (leaseId : LeaseId)
    (outcome : ReleaseOutcome) (s : HostState) :
    (releaseLease now leaseId outcome s).activeLeases = deleteLease s.activeLeases leaseId := by
  rcases releaseLease_cases now leaseId outcome s with
    ⟨_, hrel⟩ | ⟨_, hrel⟩ | ⟨_, _, _, hrel⟩ <;> rw [hrel] <;> rfl

private theorem accessInv_init {s : HostAccess} (h : accessSystem.init s) : AccessInv s := by
  obtain ⟨_, hholding, hreleasing, _⟩ := h
  constructor
  all_goals simp [hholding, hreleasing]

/-- An execution that stops holding its lease keeps the invariant. -/
private theorem accessInv_drop {s : HostAccess} (hinv : AccessInv s) (leaseId : LeaseId) :
    AccessInv { s with holding := deleteLease s.holding leaseId } := by
  constructor
  · intro lease hmem hyoung
    exact hinv.counted lease (deleteLease_ids _ _ hmem).1 hyoung
  · exact ((deleteLease_sublist s.holding leaseId).map Prod.fst).nodup hinv.distinct
  · intro lease hmem
    exact hinv.holdingMinted lease (deleteLease_ids _ _ hmem).1
  · exact hinv.releasingMinted
  · intro lease hmem
    exact hinv.notReleasing lease (deleteLease_ids _ _ hmem).1

private theorem accessInv_acquire {s : HostAccess} {now : Nat} {leaseId : LeaseId}
    {fromOpen : Bool} {result : HostLeaseResult} (hinv : AccessInv s)
    (hclock : s.object.clock ≤ now) (hresult : result = (acquireLease now leaseId s.object.host).1)
    (hfresh : leaseId ∉ s.minted) :
    AccessInv (AccessEvent.apply s (.object (.acquire now leaseId fromOpen result))) := by
  have hold : ∀ lease ∈ s.holding, leaseExpired now lease = false →
      lease ∈ (acquireLease now leaseId s.object.host).2.activeLeases := by
    intro lease hmem hyoung
    have hcounted := hinv.counted lease hmem (leaseExpired_earlier hclock hyoung)
    refine acquireLease_keeps hcounted hyoung ?_
    exact fun h => hfresh (h ▸ hinv.holdingMinted lease hmem)
  cases hgranted : result.granted with
  | false =>
    simp only [AccessEvent.apply, HostEvent.apply, HostEvent.time, hgranted]
    constructor
    · exact hold
    · exact hinv.distinct
    · exact fun lease hmem => List.mem_cons_of_mem _ (hinv.holdingMinted lease hmem)
    · exact fun call hmem => List.mem_cons_of_mem _ (hinv.releasingMinted call hmem)
    · exact hinv.notReleasing
  | true =>
    simp only [AccessEvent.apply, HostEvent.apply, HostEvent.time, hgranted, if_true]
    constructor
    · intro lease hmem hyoung
      rcases List.mem_cons.mp hmem with rfl | hmem
      · exact acquireLease_grants (hresult ▸ hgranted)
      · exact hold lease hmem hyoung
    · simp only [List.map_cons, List.nodup_cons]
      refine ⟨?_, hinv.distinct⟩
      intro hmem
      obtain ⟨lease, hlease, heq⟩ := List.mem_map.mp hmem
      exact hfresh (heq ▸ hinv.holdingMinted lease hlease)
    · intro lease hmem
      rcases List.mem_cons.mp hmem with rfl | hmem
      · exact List.mem_cons_self
      · exact List.mem_cons_of_mem _ (hinv.holdingMinted lease hmem)
    · exact fun call hmem => List.mem_cons_of_mem _ (hinv.releasingMinted call hmem)
    · intro lease hmem call hcall
      rcases List.mem_cons.mp hmem with rfl | hmem
      · have hminted := hinv.releasingMinted call hcall
        exact fun h : leaseId = call.1 => hfresh (h ▸ hminted)
      · exact hinv.notReleasing lease hmem call hcall

private theorem accessInv_step {s s' : HostAccess} {e : AccessEvent} (hinv : AccessInv s)
    (hstep : accessSystem.step s e s') : AccessInv s' := by
  obtain ⟨hallowed, rfl⟩ := hstep
  cases e with
  | object e =>
    cases e with
    | acquire now leaseId fromOpen result =>
      obtain ⟨hclock, ⟨_, hresult⟩, hfresh⟩ := hallowed
      exact accessInv_acquire hinv hclock hresult hfresh
    | release now leaseId outcome =>
      obtain ⟨hclock, _, hcalled⟩ := hallowed
      refine ⟨?_, hinv.distinct, hinv.holdingMinted, hinv.releasingMinted, hinv.notReleasing⟩
      intro lease hmem hyoung
      simp only [AccessEvent.apply, HostEvent.apply, releaseLease_activeLeases]
      have hcounted := hinv.counted lease hmem (leaseExpired_earlier hclock hyoung)
      exact mem_deleteLease hcounted (hinv.notReleasing lease hmem _ hcalled)
  | callRelease leaseId outcome =>
    obtain ⟨held, hheld, rfl⟩ := List.mem_map.mp hallowed
    have hdropped := accessInv_drop hinv held.1
    refine ⟨hdropped.counted, hdropped.distinct, hdropped.holdingMinted, ?_, ?_⟩
    · intro call hcall
      rcases List.mem_cons.mp hcall with rfl | hcall
      · exact hinv.holdingMinted held hheld
      · exact hinv.releasingMinted call hcall
    · intro lease hmem call hcall
      rcases List.mem_cons.mp hcall with rfl | hcall
      · exact (deleteLease_ids _ _ hmem).2
      · exact hdropped.notReleasing lease hmem call hcall
  | kill leaseId => exact accessInv_drop hinv leaseId

private theorem accessInv_run {C : StepCond HostAccess AccessEvent} {es : List AccessEvent}
    {s : HostAccess} (h : accessSystem.Run C es s) : AccessInv s :=
  h.invariant (I := fun _ s => AccessInv s) (fun _ => accessInv_init)
    fun _ _ _ _ _ hinv hstep _ => accessInv_step hinv hstep

/-- The leases that executions hold and that are not expired fit into the object's. -/
private theorem AccessInv.holding_le {s : HostAccess} {now : Nat} (hinv : AccessInv s)
    (hclock : s.object.clock ≤ now)
    (hyoung : ∀ lease ∈ s.holding, leaseExpired now lease = false) :
    s.holding.length ≤ (unexpired s.object.host.activeLeases now).length := by
  have hnodup : s.holding.Nodup := hinv.distinct.of_map _
  apply List.Subperm.length_le
  apply hnodup.subperm
  intro lease hmem
  have hlive := hyoung lease hmem
  exact mem_unexpired (hinv.counted lease hmem (leaseExpired_earlier hclock hlive)) hlive

/-- An acquire that finds the host full grants nothing, given the guard. -/
private theorem denied_of_full {es : List AccessEvent} {s : HostAccess} {now : Nat}
    (leaseId : LeaseId) {fromOpen : Bool} {result : HostLeaseResult}
    (hhost : HostInv (objectEvents es) s.object) (hinv : AccessInv s)
    (hclock : s.object.clock ≤ now)
    (hguard : accessGuarded es s (.object (.acquire now leaseId fromOpen result)))
    (hfull : MAX_CONCURRENT_LEASES ≤ s.holding.length) :
    (acquireLease now leaseId s.object.host).1.granted = false := by
  by_cases hexpired : ∃ lease ∈ s.holding, leaseExpired now lease = true
  · obtain ⟨hhalf, hclosed⟩ := hguard hfull hexpired
    exact denied_of_not_free hhalf hclosed
  · have hyoung : ∀ lease ∈ s.holding, leaseExpired now lease = false := by
      intro lease hmem
      cases hlease : leaseExpired now lease with
      | false => rfl
      | true => exact absurd ⟨lease, hmem, hlease⟩ hexpired
    have hle := hinv.holding_le hclock hyoung
    refine denied_of_not_free ?_ ?_
    · intro hfree
      rw [hhost.unexpired_of_halfOpen hfree] at hle
      have hpos : 0 < MAX_CONCURRENT_LEASES := by decide
      simp only [List.length_nil] at hle
      omega
    · intro hfree
      have := hfree.capacity
      omega

/-- The bound on parallel access: in every run in which no acquire slips in beside an
execution that has outlived its lease, at most `MAX_CONCURRENT_LEASES` executions hold a
lease of the host. -/
theorem hostAccess_bounded {es : List AccessEvent} {s : HostAccess}
    (h : accessSystem.Run accessGuarded es s) : s.holding.length ≤ MAX_CONCURRENT_LEASES := by
  refine h.invariant (I := fun _ s => s.holding.length ≤ MAX_CONCURRENT_LEASES) ?_ ?_
  · intro s hinit
    simp [hinit.2.1]
  · intro past s e s' hrun hbound hstep hguard
    obtain ⟨hallowed, rfl⟩ := hstep
    cases e with
    | object e =>
      cases e with
      | acquire now leaseId fromOpen result =>
        obtain ⟨hclock, ⟨_, hresult⟩, _⟩ := hallowed
        simp only [AccessEvent.apply]
        by_cases hfull : MAX_CONCURRENT_LEASES ≤ s.holding.length
        · have hdenied : result.granted = false := by
            rw [hresult]
            exact denied_of_full leaseId (hostInv_run (accessSystem_object hrun))
              (accessInv_run hrun) hclock hguard hfull
          rw [if_neg (by simp [hdenied])]
          exact hbound
        · split
          · simp only [List.length_cons]
            omega
          · exact hbound
      | release now leaseId outcome => exact hbound
    | callRelease leaseId outcome =>
      exact ((deleteLease_sublist s.holding leaseId).length_le).trans hbound
    | kill leaseId => exact ((deleteLease_sublist s.holding leaseId).length_le).trans hbound

/-- Executions that call release within `LEASE_TTL_MS` of their grant meet the guard. -/
def withinLease : StepCond HostAccess AccessEvent
  | _, s, .object (.acquire now _ _ _) => ∀ lease ∈ s.holding, leaseExpired now lease = false
  | _, _, .object (.release _ _ _) => True
  | _, _, .callRelease _ _ => True
  | _, _, .kill _ => True

theorem withinLease_guarded {past : List AccessEvent} {s : HostAccess} {e : AccessEvent}
    (h : withinLease past s e) : accessGuarded past s e := by
  cases e with
  | object e =>
    cases e with
    | acquire now leaseId fromOpen result =>
      rintro _ ⟨lease, hmem, hexp⟩
      rw [h lease hmem] at hexp
      contradiction
    | release now leaseId outcome => trivial
  | callRelease leaseId outcome => trivial
  | kill leaseId => trivial

theorem hostAccess_bounded_of_withinLease {es : List AccessEvent} {s : HostAccess}
    (h : accessSystem.Run withinLease es s) : s.holding.length ≤ MAX_CONCURRENT_LEASES :=
  hostAccess_bounded (h.weaken fun _ _ _ => withinLease_guarded)

private def idleHost : HostAccess := ⟨⟨0, emptyState⟩, [], [], []⟩

/-- Three checks of one host that take longer than `LEASE_TTL_MS`. -/
def slowChecks : List AccessEvent :=
  [.object (.acquire 60000 3 false (leaseGranted 3)),
    .object (.acquire 10000 2 false (leaseGranted 2)),
    .object (.acquire 0 1 false (leaseGranted 1))]

private theorem slowChecks_run :
    accessSystem.Run anyStep slowChecks (slowChecks.foldr (fun e s => e.apply s) idleHost) := by
  refine .next (.next (.next (.start ?_) ⟨?_, rfl⟩ trivial) ⟨?_, rfl⟩ trivial) ⟨?_, rfl⟩ trivial
  · exact ⟨rfl, rfl, rfl, rfl⟩
  all_goals
    refine ⟨by decide, ?_, by decide⟩
    exact ⟨by decide, by decide⟩

/-- The third check is granted a lease while two others still hold theirs. -/
theorem hostAccess_exceeded :
    ¬∀ es s, accessSystem.Run anyStep es s → s.holding.length ≤ MAX_CONCURRENT_LEASES := by
  intro hbounded
  have := hbounded _ _ slowChecks_run
  contradiction

/-- A third check that comes while two hold their leases. -/
def fullHost : List AccessEvent :=
  .object (.acquire 20000 3 false (leaseDenied MIN_ACCESS_INTERVAL_MS)) :: slowChecks.tail

private theorem fullHost_run :
    accessSystem.Run accessGuarded fullHost
      (fullHost.foldr (fun e s => e.apply s) idleHost) := by
  refine .next (.next (.next (.start ⟨rfl, rfl, rfl, rfl⟩) ⟨?_, rfl⟩ ?_) ⟨?_, rfl⟩ ?_) ⟨?_, rfl⟩ ?_
  · exact ⟨by decide, ⟨by decide, by decide⟩, by decide⟩
  · intro hfull
    contradiction
  · exact ⟨by decide, ⟨by decide, by decide⟩, by decide⟩
  · intro hfull
    contradiction
  · exact ⟨by decide, ⟨by decide, by decide⟩, by decide⟩
  · exact withinLease_guarded (by decide :
      ∀ lease ∈ (slowChecks.tail.foldr (fun e s => e.apply s) idleHost).holding,
        leaseExpired 20000 lease = false)

/-- The third check is denied, and two executions go on. -/
theorem hostAccess_bounded_fullHost :
    (fullHost.foldr (fun e s => e.apply s) idleHost).holding = [(2, 10000), (1, 0)] ∧
      (fullHost.foldr (fun e s => e.apply s) idleHost).holding.length ≤ MAX_CONCURRENT_LEASES :=
  ⟨by decide, hostAccess_bounded fullHost_run⟩

end Utsuroi

import Utsuroi.Framework.Guard
import Utsuroi.Pipeline.RunCheck

/-!
# The host's lease is given back

The limiter is at hand to `runMonitorCheck` itself, not to the parts that fetch and process under
its try.
-/

namespace Utsuroi

open Async Prog

/-! ## What the calls tell of the lease -/

/-- `limiter.acquire` -/
def RunSite.acquires (site : RunSite) : Bool := site = ⟨.unguarded, .acquire⟩

/-- The lookup awaited between the grant and the try. -/
def RunSite.looksUp (site : RunSite) : Bool := site = ⟨.unguarded, .getLatestSnapshot⟩

/-- The lease that the call gives back, where it is `limiter.release`. -/
def RunSite.released : RunSite → Option (Option Nat)
  | ⟨.loading, .release leaseId⟩ => some leaseId
  | _ => none

/-- The call has nothing to do with the lease. -/
def RunSite.Aside (site : RunSite) : Prop :=
  site.acquires = false ∧ site.looksUp = false ∧ site.released = none

abbrev LeaseLog := List (Call RunSite Store)

/-- `limiter.acquire` has returned. -/
def Acquired (log : LeaseLog) : Prop := ∃ call ∈ log, call.site.acquires = true ∧ call.fault = .none

/-- The lookup after the grant has thrown. -/
def LookupThrown (log : LeaseLog) : Prop := ∃ call ∈ log, call.site.looksUp = true ∧ call.fault ≠ .none

instance : DecidablePred Acquired := fun log => inferInstanceAs (Decidable (∃ call ∈ log, _))

instance : DecidablePred LookupThrown := fun log => inferInstanceAs (Decidable (∃ call ∈ log, _))

/-- The leases given back, in the order of the log. -/
def releasesOf (log : LeaseLog) : List (Option Nat) := log.filterMap fun call => call.site.released

/-- The state of the lease in a log. -/
structure LeaseIs (acquired lookupThrown : Prop) (releases : List (Option Nat)) (log : LeaseLog) :
    Prop where
  acquired : Acquired log ↔ acquired
  lookupThrown : LookupThrown log ↔ lookupThrown
  releases : releasesOf log = releases

section Log

variable {acquired lookupThrown : Prop} {releases : List (Option Nat)} {log : LeaseLog}
  {call : Call RunSite Store}

private theorem acquired_cons :
    Acquired (call :: log) ↔ call.site.acquires = true ∧ call.fault = .none ∨ Acquired log := by
  simp [Acquired]

private theorem lookupThrown_cons :
    LookupThrown (call :: log) ↔
      call.site.looksUp = true ∧ call.fault ≠ .none ∨ LookupThrown log := by
  simp [LookupThrown]

theorem leaseIs_nil : LeaseIs False False [] [] :=
  ⟨by simp [Acquired], by simp [LookupThrown], rfl⟩

theorem LeaseIs.aside (h : LeaseIs acquired lookupThrown releases log) (hcall : call.site.Aside) :
    LeaseIs acquired lookupThrown releases (call :: log) where
  acquired := by simp [acquired_cons, hcall.1, h.acquired]
  lookupThrown := by simp [lookupThrown_cons, hcall.2.1, h.lookupThrown]
  releases := by
    have hcons : releasesOf (call :: log) = releasesOf log := List.filterMap_cons_none hcall.2.2
    exact hcons.trans h.releases

theorem LeaseIs.acquire (h : LeaseIs False lookupThrown releases log) (store : Store) (fault : Fault) :
    LeaseIs (fault = .none) lookupThrown releases (⟨⟨.unguarded, .acquire⟩, store, fault⟩ :: log) where
  acquired := by simp [acquired_cons, RunSite.acquires, h.acquired]
  lookupThrown := by simp [lookupThrown_cons, RunSite.looksUp, h.lookupThrown]
  releases := h.releases

theorem LeaseIs.lookup (h : LeaseIs acquired False releases log) (store : Store) (fault : Fault) :
    LeaseIs acquired (fault ≠ .none) releases
      (⟨⟨.unguarded, .getLatestSnapshot⟩, store, fault⟩ :: log) where
  acquired := by simp [acquired_cons, RunSite.acquires, h.acquired]
  lookupThrown := by simp [lookupThrown_cons, RunSite.looksUp, h.lookupThrown]
  releases := h.releases

theorem LeaseIs.release (h : LeaseIs acquired lookupThrown releases log) (leaseId : Option Nat)
    (store : Store) (fault : Fault) :
    LeaseIs acquired lookupThrown (leaseId :: releases)
      (⟨⟨.loading, .release leaseId⟩, store, fault⟩ :: log) where
  acquired := by simp [acquired_cons, RunSite.acquires, h.acquired]
  lookupThrown := by simp [lookupThrown_cons, RunSite.looksUp, h.lookupThrown]
  releases := congrArg (leaseId :: ·) h.releases

/-- A part of a run that has nothing to do with the lease. -/
abbrev LeaseAside {α : Type} (p : RunProg α) : Prop := p.Calls RunSite.Aside

theorem LeaseAside.wp {α : Type} {p : RunProg α} (hp : LeaseAside p)
    (hlog : LeaseIs acquired lookupThrown releases log) (store : Store) :
    p.wp anyCall ⟨fun _ log _ => LeaseIs acquired lookupThrown releases log,
      fun log _ => LeaseIs acquired lookupThrown releases log, fun _ _ => True⟩ log store :=
  Calls.wp hp (fun _ _ hcall h => h.aside hcall) hlog store

end Log

/-! ## The parts of a run -/

section Parts

variable {world : CheckWorld}

/-- Under the try the limiter is not at hand. -/
private theorem guarded_aside {α : Type} (p : Prog Site Store α) : LeaseAside (inRegion .guarded p) := by
  induction p with
  | ret a => trivial
  | fail => trivial
  | sync eff next ih => exact fun s => ih s
  | await site eff next caught ih ihc =>
    exact ⟨⟨rfl, rfl, rfl⟩, fun s => ih s, ihc⟩

/-- The sites that are not of the lease in any region. -/
private def Site.aside : Site → Bool
  | .acquire | .getLatestSnapshot | .release _ => false
  | _ => true

private theorem aside_of_site {region : Region} {site : Site} (h : site.aside = true) :
    RunSite.Aside ⟨region, site⟩ := by
  cases site with
  | acquire => cases h
  | getLatestSnapshot => cases h
  | release => cases h
  | _ => cases region <;> exact ⟨rfl, rfl, rfl⟩

private theorem inRegion_aside {α : Type} {p : Prog Site Store α}
    (h : p.Calls fun site => site.aside = true) (region : Region) : LeaseAside (inRegion region p) :=
  calls_relabel (h.mono fun _ hsite => aside_of_site hsite)

private theorem call_aside {α : Type} {region : Region} {site : Site} {eff : Store → Store}
    {answer : Store → α} (h : site.aside = true) : LeaseAside (inRegion region (.call site eff answer)) :=
  inRegion_aside (calls_call h) region

private theorem finishJob_aside (monitor : MonitorRow) (job : CheckJobId) (status : FinishStatus)
    (changeIds : List ChangeId) : LeaseAside (finishJob world monitor job status changeIds) := by
  refine calls_bind (call_aside rfl) fun _ => ?_
  refine calls_bind (call_aside rfl) fun _ => ?_
  exact calls_bind (call_aside rfl) fun _ => trivial

private theorem upsertTarget_aside (input : CreateTargetInput) :
    (upsertTarget input).Calls fun site => site.aside = true := by
  unfold upsertTarget
  refine calls_bind (calls_call rfl) fun inserted => ?_
  cases inserted with
  | true => trivial
  | false =>
    simp only [Bool.false_eq_true, if_false]
    cases input.lastKnownUpdatedAt with
    | none =>
      refine calls_bind (calls_query rfl) fun existing => ?_
      cases existing <;> trivial
    | some lastKnownUpdatedAt =>
      refine calls_bind (calls_call rfl) fun _ => calls_bind (calls_query rfl) fun existing => ?_
      cases existing <;> trivial

private theorem createCheckJobIfNew_aside (id : CheckJobId) (trigger : Trigger) :
    (createCheckJobIfNew id trigger).Calls fun site => site.aside = true := by
  refine calls_bind (calls_call rfl) fun inserted => ?_
  cases inserted with
  | true => trivial
  | false =>
    refine calls_bind (calls_query rfl) fun existing => ?_
    cases existing <;> trivial

private theorem consecutiveUnavailable_aside (decision : RobotsDecision) :
    LeaseAside (consecutiveUnavailable world decision) := by
  unfold consecutiveUnavailable
  split
  · exact call_aside rfl
  · trivial

/-- What is shown of a run: once a lease is granted, it is given back once exactly where the lookup
did not throw. -/
def GivesBack (world : CheckWorld) (log : LeaseLog) : Prop :=
  world.lease.granted = true → Acquired log →
    (releasesOf log = [world.lease.leaseId] ↔ ¬LookupThrown log)

abbrev leasePost (world : CheckWorld) : Post RunSite Store CheckRunResult :=
  ⟨fun _ log _ => GivesBack world log, fun log _ => GivesBack world log, fun _ _ => True⟩

variable {log : LeaseLog} {store : Store}

private theorem givesBack_of_not_acquired {lookupThrown : Prop} {releases : List (Option Nat)}
    (h : LeaseIs False lookupThrown releases log) : GivesBack world log := by
  intro _ hacquired
  exact absurd hacquired h.acquired.mp

/-- A run is where it was of the lease after a part aside of it. -/
private theorem aside_seq {α : Type} {p : RunProg α} {f : α → RunProg CheckRunResult}
    (hp : LeaseAside p) (hlog : LeaseIs False False [] log)
    (hf : ∀ a log store, LeaseIs False False [] log → (f a).wp anyCall (leasePost world) log store) :
    (p >>= f).wp anyCall (leasePost world) log store := by
  refine wp_seq (M := fun _ log _ => LeaseIs False False [] log) ?_ hf
  refine wp_mono (hp.wp hlog store) (fun _ _ _ h => h) ?_ (fun _ _ _ => trivial)
  intro log _ h
  exact givesBack_of_not_acquired h

/-- A run that ends without a lease. -/
private theorem aside_end {p : RunProg CheckRunResult} (hp : LeaseAside p)
    (hlog : LeaseIs False False [] log) : p.wp anyCall (leasePost world) log store := by
  refine wp_mono (hp.wp hlog store) ?_ ?_ (fun _ _ _ => trivial)
  · intro _ log _ h
    exact givesBack_of_not_acquired h
  · intro log _ h
    exact givesBack_of_not_acquired h

private theorem givesBack_of_release {acquired : Prop}
    (h : LeaseIs acquired False [world.lease.leaseId] log) : GivesBack world log := by
  intro _ _
  rw [h.releases, h.lookupThrown]
  simp

/-- Whatever happens under the try, the lease is given back once. -/
private theorem checkUnderLease_leases (ctx : CheckContext) (job : CheckJobId) (target : TargetRow)
    (latestSnapshot : Option SnapshotRow) {acquired : Prop} (hlog : LeaseIs acquired False [] log) :
    (checkUnderLease world ctx job target latestSnapshot).wp anyCall (leasePost world) log store := by
  have hbody : LeaseAside (do
      let outcome ← Prog.tryCatch
        (inRegion .guarded (fetchAndProcess world ctx target latestSnapshot))
        (do
          let _ ← finishJob world ctx.monitor job .failed []
          .fail)
      finishJob world ctx.monitor job outcome.status outcome.changeIds) := by
    refine calls_bind (calls_tryCatch (guarded_aside _) ?_) fun outcome => finishJob_aside _ _ _ _
    exact calls_bind (finishJob_aside _ _ _ _) fun _ => trivial
  have hrelease : ∀ {log : LeaseLog} (store : Store) (fault : Fault),
      LeaseIs acquired False [] log →
        GivesBack world (⟨⟨.loading, .release world.lease.leaseId⟩, store, fault⟩ :: log) :=
    fun store fault h => givesBack_of_release (h.release world.lease.leaseId store fault)
  rw [checkUnderLease, wp_tryFinally]
  refine wp_mono (hbody.wp hlog store) ?_ ?_ (fun _ _ _ => trivial)
  · intro _ log store h
    exact ⟨fun _ => hrelease store _ h, fun _ => hrelease store _ h, fun _ => hrelease store _ h,
      fun _ => trivial, fun _ => trivial⟩
  · intro log store h
    exact ⟨fun _ => hrelease store _ h, fun _ => hrelease store _ h, fun _ => hrelease store _ h,
      fun _ => trivial, fun _ => trivial⟩

/-- The lookup throws outside of the try. -/
private theorem givesBack_of_lookup {acquired : Prop} {fault : Fault} (hfault : fault ≠ .none)
    (h : LeaseIs acquired (fault ≠ .none) [] log) : GivesBack world log := by
  intro _ _
  rw [h.releases, h.lookupThrown]
  simp [hfault]

/-- A call that is awaited in the open: it is answered, or the run throws. -/
private theorem query_seq {α : Type} {region : Region} {site : Site} {answer : Store → α}
    {f : α → RunProg CheckRunResult}
    (hret : (f (answer store)).wp anyCall (leasePost world)
      (⟨⟨region, site⟩, store, .none⟩ :: log) store)
    (hthrown : ∀ fault, fault ≠ .none → GivesBack world (⟨⟨region, site⟩, store, fault⟩ :: log)) :
    (inRegion region (.query site answer) >>= f).wp anyCall (leasePost world) log store :=
  ⟨fun _ => hret, fun _ => hthrown _ (by decide), fun _ => hthrown _ (by decide), fun _ => trivial,
    fun _ => trivial⟩

private theorem acquireAndCheck_leases (ctx : CheckContext) (job : CheckJobId) (target : TargetRow)
    (hlog : LeaseIs False False [] log) :
    (acquireAndCheck world ctx job target).wp anyCall (leasePost world) log store := by
  refine query_seq ?_ fun fault hfault _ hacquired =>
    absurd ((hlog.acquire store fault).acquired.mp hacquired) hfault
  have hacquired := hlog.acquire store .none
  cases hgranted : world.lease.granted with
  | false =>
    have hdefer : ∀ log, GivesBack world log :=
      fun log h => absurd (hgranted.symm.trans h) Bool.false_ne_true
    exact ⟨fun _ => hdefer _, fun _ => hdefer _, fun _ => hdefer _, fun _ => trivial, fun _ => trivial⟩
  | true =>
    refine query_seq ?_ fun fault hfault => givesBack_of_lookup hfault (hacquired.lookup store fault)
    have hfound := hacquired.lookup store .none
    rw [ne_self_iff_false] at hfound
    exact checkUnderLease_leases ctx job target _ hfound

private theorem checkRobotsAndHost_leases (ctx : CheckContext) (job : CheckJobId) (target : TargetRow)
    (hlog : LeaseIs False False [] log) :
    (checkRobotsAndHost world ctx job target).wp anyCall (leasePost world) log store := by
  unfold checkRobotsAndHost
  refine aside_seq (call_aside rfl) hlog fun robotsMode log store hlog => ?_
  refine aside_seq (call_aside rfl) hlog fun decision log store hlog => ?_
  refine aside_seq (call_aside rfl) hlog fun evaluationId log store hlog => ?_
  split
  · refine aside_end ?_ hlog
    refine calls_bind (consecutiveUnavailable_aside decision) fun count => ?_
    refine calls_bind (call_aside rfl) fun _ => ?_
    split
    · exact finishJob_aside _ _ _ _
    · exact calls_bind (call_aside rfl) fun _ => calls_bind (call_aside rfl) fun _ => trivial
  · exact acquireAndCheck_leases ctx job target hlog

private theorem checkSource_leases (ctx : CheckContext) (job : CheckJobId)
    (hlog : LeaseIs False False [] log) :
    (checkSource world ctx job).wp anyCall (leasePost world) log store := by
  have hallowed : LeaseAside (ssrfAllowed world ctx.source.url) := by
    unfold ssrfAllowed
    split
    · exact call_aside rfl
    · trivial
  unfold checkSource
  refine aside_seq (inRegion_aside (upsertTarget_aside _) _) hlog fun target log store hlog => ?_
  refine aside_seq hallowed hlog fun allowed log store hlog => ?_
  split
  · exact aside_end (calls_bind (call_aside rfl) fun _ => finishJob_aside _ _ _ _) hlog
  · exact checkRobotsAndHost_leases ctx job target hlog

private theorem orThrow_aside {α : Type} (answer : Option α) : LeaseAside (orThrow answer) := by
  cases answer <;> trivial

theorem runMonitorCheck_givesBack (world : CheckWorld) (monitorId : MonitorId) (store : Store) :
    (runMonitorCheck world monitorId).wp anyCall (leasePost world) [] store := by
  unfold runMonitorCheck
  refine aside_seq (call_aside rfl) leaseIs_nil fun monitor log store hlog => ?_
  refine aside_seq (orThrow_aside monitor) hlog fun monitor log store hlog => ?_
  split
  · exact givesBack_of_not_acquired hlog
  refine aside_seq (call_aside rfl) hlog fun source log store hlog => ?_
  refine aside_seq (orThrow_aside source) hlog fun source log store hlog => ?_
  refine aside_seq (call_aside rfl) hlog fun site log store hlog => ?_
  refine aside_seq (orThrow_aside site) hlog fun site log store hlog => ?_
  refine aside_seq (call_aside rfl) hlog fun policy log store hlog => ?_
  refine aside_seq (orThrow_aside policy) hlog fun _ log store hlog => ?_
  refine aside_seq (inRegion_aside (createCheckJobIfNew_aside _ _) _) hlog
    fun jobResult log store hlog => ?_
  split
  · exact givesBack_of_not_acquired hlog
  refine aside_seq (call_aside rfl) hlog fun _ log store hlog => ?_
  exact checkSource_leases _ _ hlog

end Parts

/-- A run that was granted the lease and is not killed gives it back exactly once, whatever is
thrown, where the lookup of the latest snapshot does not throw, and not otherwise. -/
theorem lease_released_iff (world : CheckWorld) (monitorId : MonitorId) (faults : List Fault)
    (store : Store) (hgranted : world.lease.granted = true)
    (hacquired : Acquired ((runMonitorCheck world monitorId).exec faults [] store).log)
    (halive : ((runMonitorCheck world monitorId).exec faults [] store).exit ≠ .killed) :
    releasesOf ((runMonitorCheck world monitorId).exec faults [] store).log = [world.lease.leaseId] ↔
      ¬LookupThrown ((runMonitorCheck world monitorId).exec faults [] store).log := by
  have hholds := wp_exec_any faults (runMonitorCheck_givesBack world monitorId store)
  unfold Post.Holds at hholds
  cases hexit : ((runMonitorCheck world monitorId).exec faults [] store).exit with
  | ok result =>
    rw [hexit] at hholds
    exact hholds hgranted hacquired
  | thrown =>
    rw [hexit] at hholds
    exact hholds hgranted hacquired
  | killed => exact absurd hexit halive

/-! ## A run under a lease -/

private def leasedWorld : CheckWorld where
  trigger := .scheduled
  now := 0
  source := some ⟨1, .rss, "https://example.com/feed", none⟩
  site := some ⟨1, none⟩
  policy := some ()
  staticSsrfAllowed := true
  resolvedAllowed := true
  origin := "https://example.com"
  robotsMode := .enforce
  robots := ⟨true, none, false, 0, "none"⟩
  lease := ⟨true, some 7, none⟩
  fetchTarget _ _ := ⟨.fail, trivial⟩
  processor _ _ := ⟨.ret [], trivial⟩
  checkedNow := 0
  finishNow := 0
  random := 0
  appliedNow := 0

private def leasedStore : Store :=
  { emptyStore with monitors := fun id => some ⟨id, 1, .active, 3600, some 0, none, none, none⟩ }

/-- The fetch throws, and the lease is given back. -/
theorem lease_released_iff_thrown :
    releasesOf ((runMonitorCheck leasedWorld 1).exec [] [] leasedStore).log = [some 7] ↔
      ¬LookupThrown ((runMonitorCheck leasedWorld 1).exec [] [] leasedStore).log :=
  lease_released_iff leasedWorld 1 [] leasedStore rfl (by decide +kernel) (by decide +kernel)

/-- The lookup of the latest snapshot throws right after the grant, and the lease is kept. -/
theorem lease_leaked :
    let outcome := (runMonitorCheck leasedWorld 1).exec
      (List.replicate 12 .none ++ [.throwBefore]) [] leasedStore
    leasedWorld.lease.granted = true ∧ Acquired outcome.log ∧ outcome.exit = .thrown ∧
      releasesOf outcome.log = [] := by
  decide +kernel

end Utsuroi

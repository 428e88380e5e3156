import Utsuroi.Pipeline.Proofs.DocumentPasses

/-!
# Recovery of pages and Sitemap Direct

The snapshot is stored before the change it gives rise to.  A run stopped before the
snapshot is made up for by the next check; one stopped after it is not, since the next check
compares its document with that snapshot, or is answered 304 by its validators.
-/

namespace Utsuroi

open Async Prog

/-! ## The next check -/

/-- How the server answers the next check. -/
inductive NextAnswer
  | modified (outcome : FetchSuccess)
  /-- 304 against the validators of the latest snapshot -/
  | notModified
  deriving DecidableEq, Repr

section Next

variable (tools : ContentTools) (mode : ContentMode) (target : TargetRow) (body : List UInt8)
  (headerCharset : Option String)

/-- A check that finds the store as it is. -/
def checkContent (ctx : CheckContext) (outcome : FetchSuccess) (s : Store) :
    Prog Site Store (List ChangeId) :=
  contentProcessor tools mode ctx target (latestSnapshotForTarget target.id s) outcome body

/-- The next check; a 304 ends it before its document is processed. -/
def nextCheck (ctx : CheckContext) (answer : NextAnswer) (s : Store) :
    Prog Site Store (List ChangeId) :=
  match answer with
  | .modified outcome => checkContent tools mode target body ctx outcome s
  | .notModified => return []

/-- The change an undisturbed check of the body reports. -/
def dueChange (ctx : CheckContext) (s : Store) : Option ChangeId :=
  (contentPlan tools mode target.id body headerCharset).bind fun plan =>
    (plan.due ctx (latestSnapshotForTarget target.id s) s).map fun report => report.1.id

/-- The content is the same: its charset is, and the server answers 304 only when the latest
snapshot was taken of it. -/
structure AnswerFits (answer : NextAnswer) (s : Store) : Prop where
  charset : ∀ outcome, answer = .modified outcome → outcome.headerCharset = headerCharset
  snapshot : answer = .notModified →
    ∀ plan, contentPlan tools mode target.id body headerCharset = some plan →
      ∃ id now outcome, latestSnapshotForTarget target.id s =
        some { plan.snapshot now outcome with id := id }

/-- Two checks of one monitor, the second after the first. -/
structure NextContext (ctx ctx' : CheckContext) : Prop where
  monitor : ctx'.monitor.id = ctx.monitor.id
  site : ctx'.site.id = ctx.site.id
  checked : ctx.monitor.lastCheckedAt ≠ none → ctx'.monitor.lastCheckedAt ≠ none

/-- Between two checks the content tables are left alone. -/
structure SameContentTables (s s' : Store) : Prop where
  reports : SameReports s s'
  same : SameSubscriptions s s'
  snapshots : s'.snapshots = s.snapshots
  normalized : s'.normalized = s.normalized

/-- A stop is made up for: with its snapshot stored, only when what was due had been
reported; without it, when the next check has nothing due that the stopped one had not. -/
structure Recoverable (ctx ctx' : CheckContext) (answer : NextAnswer) (s stopped : Store) :
    Prop where
  afterSnapshot : stopped.snapshots ≠ s.snapshots →
    ∀ id, dueChange tools mode target body headerCharset ctx s = some id → Reported ctx id stopped
  beforeSnapshot : stopped.snapshots = s.snapshots → ∀ outcome, answer = .modified outcome →
    ∀ id, dueChange tools mode target body headerCharset ctx' s = some id →
      dueChange tools mode target body headerCharset ctx s = some id ∨ Reported ctx' id s

variable {tools mode target body headerCharset} {ctx ctx' : CheckContext} {plan : DocumentPlan}

private theorem asked_next (hctx : NextContext ctx ctx') (row : ChangeRow) (s : Store) :
    s.asked ctx' row = s.asked ctx row := by
  simp [Store.asked, fanoutMatch, hctx.monitor, hctx.site]

private theorem compares_next (hctx : NextContext ctx ctx') {previous : SnapshotRow}
    (h : plan.compares ctx previous = true) : plan.compares ctx' previous = true := by
  have hchecked : ctx.monitor.lastCheckedAt.isSome → ctx'.monitor.lastCheckedAt.isSome := by
    have hset := hctx.checked
    simpa [Option.isSome_iff_ne_none] using hset
  unfold DocumentPlan.compares at h ⊢
  simp only [Bool.and_eq_true, Bool.or_eq_true] at h ⊢
  exact ⟨h.1.imp id hchecked, h.2⟩

/-- What was due is due in the next check, as long as its snapshot is not stored. -/
private theorem due_next (hctx : NextContext ctx ctx') {previousSnapshot : Option SnapshotRow}
    {s next : Store} (hsnapshots : next.snapshots = s.snapshots)
    (htext : insertIfNew next.normalized plan.textHash plan.text =
      insertIfNew s.normalized plan.textHash plan.text) {report : ChangeRow × String}
    (hdue : plan.due ctx previousSnapshot s = some report) :
    plan.due ctx' previousSnapshot next = some report := by
  cases previousSnapshot with
  | none => simp [DocumentPlan.due] at hdue
  | some previous =>
    have hprevious : plan.previousText previous next = plan.previousText previous s := by
      simp only [DocumentPlan.previousText, htext]
    cases hcompares : plan.compares ctx previous with
    | false => simp [DocumentPlan.due, hcompares] at hdue
    | true =>
      simp only [DocumentPlan.due, Option.bind_some, hcompares, compares_next hctx hcompares,
        if_true] at hdue ⊢
      rw [hprevious, hsnapshots, hctx.monitor]
      exact hdue

/-- Nothing is due against a snapshot of the same body. -/
private theorem due_own (now : Nat) (outcome : FetchSuccess) (id : SnapshotId) (s : Store) :
    plan.due ctx (some { plan.snapshot now outcome with id := id }) s = none := by
  simp [DocumentPlan.due, DocumentPlan.compares, plan.differs_own]

/-- The snapshot that was stored last is the one the next check finds. -/
private theorem latest_stored {outcome : FetchSuccess} {s next : Store}
    (hpast : ∀ old ∈ s.snapshots, old.targetId = plan.targetId → old.fetchedAt ≤ ctx.now)
    (hsnapshots : next.snapshots = (s.addSnapshot (plan.snapshot ctx.now outcome)).snapshots) :
    latestSnapshotForTarget plan.targetId next =
      some { plan.snapshot ctx.now outcome with id := s.snapshots.length } := by
  have htarget := plan.snapshot_targetId ctx.now outcome
  have hfetched := plan.snapshot_fetchedAt ctx.now outcome
  have hlatest : latestSnapshotForTarget (plan.snapshot ctx.now outcome).targetId
      (s.addSnapshot (plan.snapshot ctx.now outcome)) =
        some { plan.snapshot ctx.now outcome with id := s.snapshots.length } := by
    apply latest_addSnapshot
    rw [htarget, hfetched]
    exact hpast
  rw [htarget] at hlatest
  unfold latestSnapshotForTarget at hlatest ⊢
  rw [hsnapshots]
  exact hlatest

/-- An undisturbed run of a plan, and how its reports compare with others. -/
private theorem plan_returns (plan : DocumentPlan) (ctx : CheckContext)
    (previousSnapshot : Option SnapshotRow) (outcome : FetchSuccess) (s other : Store) :
    ∃ s', ((plan.process ctx previousSnapshot outcome).run s).2 = s' ∧
      FullyDone ctx (plan.due ctx previousSnapshot s) s s' ∧
      ((plan.process ctx previousSnapshot outcome).Returns s (fun _ s' => SameReports other s') ↔
        SameReports other s') := by
  obtain ⟨ids, s', hrun, hdone⟩ := returns_iff.mp (process_returns plan ctx previousSnapshot
    outcome s)
  refine ⟨s', by rw [hrun], hdone, ?_⟩
  unfold Returns
  rw [hrun]

private theorem checkContent_eq
    (hplan : contentPlan tools mode target.id body headerCharset = some plan)
    (ctx : CheckContext) {outcome : FetchSuccess} (hcharset : outcome.headerCharset = headerCharset)
    (s : Store) :
    checkContent tools mode target body ctx outcome s =
      plan.process ctx (latestSnapshotForTarget target.id s) outcome := by
  unfold checkContent
  rw [contentProcessor_eq, hcharset, hplan]

/-- With the snapshot stored, the next check changes nothing that is reported. -/
private theorem next_afterSnapshot {outcome : FetchSuccess} {answer : NextAnswer}
    {s next other : Store}
    (hplan : contentPlan tools mode target.id body headerCharset = some plan)
    (hanswer : AnswerFits tools mode target body headerCharset answer next)
    (htarget : plan.targetId = target.id)
    (hpast : ∀ old ∈ s.snapshots, old.targetId = plan.targetId → old.fetchedAt ≤ ctx.now)
    (hsnapshots : next.snapshots = (s.addSnapshot (plan.snapshot ctx.now outcome)).snapshots) :
    (nextCheck tools mode target body ctx' answer next).Returns next
        (fun _ s' => SameReports other s') ↔ SameReports other next := by
  cases answer with
  | notModified => exact Iff.rfl
  | modified outcome' =>
    have hlatest := latest_stored hpast hsnapshots
    rw [htarget] at hlatest
    obtain ⟨s', _, hdone, hreturns⟩ := plan_returns plan ctx'
      (some { plan.snapshot ctx.now outcome with id := s.snapshots.length }) outcome' next other
    rw [due_own] at hdone
    have hsame : SameReports next s' := hdone
    change (checkContent tools mode target body ctx' outcome' next).Returns next _ ↔ _
    rw [checkContent_eq hplan ctx' (hanswer.charset outcome' rfl), hlatest, hreturns]
    exact ⟨fun h => h.trans hsame.symm, fun h => h.trans hsame⟩

private theorem contentPlan_targetId
    (hplan : contentPlan tools mode target.id body headerCharset = some plan) :
    plan.targetId = target.id := by
  cases mode with
  | page =>
    cases hplan
    rfl
  | sitemapDirect =>
    obtain ⟨items, _, rfl⟩ := Option.map_eq_some_iff.mp hplan
    rfl

private theorem changeAs_same {s s' : Store} (h : SameReports s s') (row : ChangeRow) :
    s'.changeAs row = s.changeAs row := by
  unfold Store.changeAs
  rw [h.changes]

private theorem reported_congr {s s' : Store} (hreports : SameReports s s')
    (hsame : SameSubscriptions s s') (id : ChangeId) : Reported ctx id s' ↔ Reported ctx id s := by
  unfold Reported
  simp only [hreports.changes, hreports.delivered, asked_same hsame]

/-- The whole report of one change, made in two stores that agree. -/
private theorem fully_same (hctx : NextContext ctx ctx') {row : ChangeRow} {s s' t t' : Store}
    (hreports : SameReports s t) (hsame : SameSubscriptions s t) (hs : FullyReported ctx row s s')
    (ht : FullyReported ctx' row t t') : SameReports s' t' := by
  refine ⟨?_, fun id => ?_⟩
  · rw [ht.changes, hs.changes, hreports.changes]
  · rw [ht.delivered, hs.delivered, hreports.delivered, asked_next hctx, asked_same hsame,
      changeAs_same hreports]

private theorem partly_refl (row : ChangeRow) (s : Store) : PartlyReported ctx row s s :=
  ⟨⟨rfl, rfl⟩, fun _ h => h, Or.inl ⟨rfl, fun _ h => h⟩⟩

/-- Two whole reports, what is due to the first due to the second too, end alike exactly when what is
due to the second alone had been reported. -/
private theorem whole_same_iff (hctx : NextContext ctx ctx') {s whole next s' : Store}
    (hreports : SameReports s next) (hsame : SameSubscriptions s next)
    {due due' : Option (ChangeRow × String)} (hdue : ∀ report, due = some report → due' = some report)
    (hdone : FullyDone ctx due s whole) (hlast : FullyDone ctx' due' next s') :
    SameReports whole s' ↔ ∀ id, due'.map (fun report => report.1.id) = some id →
      due.map (fun report => report.1.id) = some id ∨ Reported ctx' id s := by
  cases due with
  | some report =>
    obtain rfl := hdue report rfl
    have hboth : SameReports whole s' := fully_same hctx hreports hsame hdone hlast
    simp [hboth]
  | none =>
    have hunreported : SameReports s whole := hdone
    have hwhole : SameReports whole next := hunreported.symm.trans hreports
    have hfrom : SameReports whole s' ↔ SameReports next s' :=
      ⟨hwhole.symm.trans, hwhole.trans⟩
    rw [hfrom]
    cases due' with
    | none =>
      have hnothing : SameReports next s' := hlast
      simp [hnothing]
    | some report =>
      rw [partly_iff (partly_refl report.1 next) hlast, reported_congr hreports hsame]
      simp

private theorem due_same {previousSnapshot : Option SnapshotRow} {s next : Store}
    (hsnapshots : next.snapshots = s.snapshots)
    (htext : insertIfNew next.normalized plan.textHash plan.text =
      insertIfNew s.normalized plan.textHash plan.text) :
    plan.due ctx previousSnapshot next = plan.due ctx previousSnapshot s := by
  unfold DocumentPlan.due DocumentPlan.previousText
  rw [hsnapshots, htext]

section Stopped

variable {answer : NextAnswer} {s stopped next whole : Store}
  (hplan : contentPlan tools mode target.id body headerCharset = some plan)
  (hctx : NextContext ctx ctx')
  (hnext : SameContentTables stopped next)
  (hanswer : AnswerFits tools mode target body headerCharset answer next)
  (hdone : FullyDone ctx (plan.due ctx (latestSnapshotForTarget target.id s) s) s whole)

include hplan in
private theorem dueChange_eq (ctx : CheckContext) (s : Store) :
    dueChange tools mode target body headerCharset ctx s =
      (plan.due ctx (latestSnapshotForTarget target.id s) s).map fun report => report.1.id := by
  simp [dueChange, hplan]

include hplan hnext hanswer hdone in
/-- A stop after the snapshot. -/
private theorem recovers_afterSnapshot {outcome : FetchSuccess}
    (hpast : ∀ old ∈ s.snapshots, old.targetId = target.id → old.fetchedAt ≤ ctx.now)
    (hsnapshots : stopped.snapshots = (s.addSnapshot (plan.snapshot ctx.now outcome)).snapshots)
    (hpartly : PartlyDone ctx (plan.due ctx (latestSnapshotForTarget target.id s) s) s stopped) :
    (nextCheck tools mode target body ctx' answer next).Returns next
        (fun _ s' => SameReports whole s') ↔
      Recoverable tools mode target body headerCharset ctx ctx' answer s stopped := by
  have htarget := contentPlan_targetId hplan
  rw [← htarget] at hpast
  rw [next_afterSnapshot hplan hanswer htarget hpast (hnext.snapshots.trans hsnapshots)]
  have hne : stopped.snapshots ≠ s.snapshots := by
    rw [hsnapshots]
    exact List.cons_ne_self _ _
  have hrecoverable : Recoverable tools mode target body headerCharset ctx ctx' answer s stopped ↔
      ∀ id, dueChange tools mode target body headerCharset ctx s = some id →
        Reported ctx id stopped :=
    ⟨fun h => h.afterSnapshot hne, fun h => ⟨fun _ => h, fun heq => absurd heq hne⟩⟩
  have hstopped : SameReports whole next ↔ SameReports stopped whole :=
    ⟨fun h => (h.trans hnext.reports.symm).symm, fun h => h.symm.trans hnext.reports⟩
  rw [hstopped, hrecoverable, dueChange_eq hplan]
  cases hdue : plan.due ctx (latestSnapshotForTarget target.id s) s with
  | none =>
    rw [hdue] at hpartly hdone
    have hsame : SameReports stopped whole := hpartly.2.symm.trans hdone
    simp [hsame]
  | some report =>
    rw [hdue] at hpartly hdone
    have hiff := partly_iff hpartly hdone
    simpa using hiff

include hplan hctx hnext hanswer hdone in
/-- A stop before the snapshot. -/
private theorem recovers_beforeSnapshot (hunstored : Unstored plan s stopped) :
    (nextCheck tools mode target body ctx' answer next).Returns next
        (fun _ s' => SameReports whole s') ↔
      Recoverable tools mode target body headerCharset ctx ctx' answer s stopped := by
  have hsnapshots := hnext.snapshots.trans hunstored.snapshots
  have hlatest : latestSnapshotForTarget target.id next = latestSnapshotForTarget target.id s := by
    unfold latestSnapshotForTarget
    rw [hsnapshots]
  have htext : insertIfNew next.normalized plan.textHash plan.text =
      insertIfNew s.normalized plan.textHash plan.text := by
    rw [hnext.normalized, hunstored.text]
  have hstopped : SameReports s stopped :=
    ⟨hunstored.changes, fun id => by rw [hunstored.deliveries]⟩
  have hreports : SameReports s next := hstopped.trans hnext.reports
  have hsame : SameSubscriptions s next :=
    ⟨hnext.same.subscriptions.trans hunstored.same.subscriptions,
      hnext.same.destinations.trans hunstored.same.destinations⟩
  cases answer with
  | notModified =>
    obtain ⟨id, now, outcome, hown⟩ := hanswer.snapshot rfl plan hplan
    rw [hlatest] at hown
    rw [hown, due_own] at hdone
    have hwhole : SameReports s whole := hdone
    constructor
    · intro _
      exact ⟨fun hne => absurd hunstored.snapshots hne, fun _ _ h => by contradiction⟩
    · intro _
      exact hwhole.symm.trans hreports
  | modified outcome =>
    have hrecoverable :
        Recoverable tools mode target body headerCharset ctx ctx' (.modified outcome) s stopped ↔
          ∀ id, dueChange tools mode target body headerCharset ctx' s = some id →
            dueChange tools mode target body headerCharset ctx s = some id ∨
              Reported ctx' id s :=
      ⟨fun h => h.beforeSnapshot hunstored.snapshots outcome rfl,
        fun h => ⟨fun hne => absurd hunstored.snapshots hne, fun _ _ _ => h⟩⟩
    obtain ⟨s', _, hlast, hreturns⟩ := plan_returns plan ctx'
      (latestSnapshotForTarget target.id s) outcome next whole
    change (checkContent tools mode target body ctx' outcome next).Returns next _ ↔ _
    rw [checkContent_eq hplan ctx' (hanswer.charset outcome rfl), hlatest, hreturns, hrecoverable,
      dueChange_eq hplan, dueChange_eq hplan]
    rw [due_same hsnapshots htext] at hlast
    exact whole_same_iff hctx hreports hsame (fun _ => due_next hctx rfl rfl) hdone hlast

end Stopped

/-- A check was stopped, or not, and the next one of the same content is completed: the
changes and the deliveries are those of one uninterrupted check exactly when the stop was
before the snapshot, or nothing was left to report. -/
theorem contentRecovery_iff {outcome : FetchSuccess} {answer : NextAnswer} {faults : List Fault}
    {s stopped next : Store}
    (hstopped : stopped =
      ((checkContent tools mode target body ctx outcome s).exec faults [] s).state)
    (hpast : ∀ old ∈ s.snapshots, old.targetId = target.id → old.fetchedAt ≤ ctx.now)
    (hctx : NextContext ctx ctx') (hnext : SameContentTables stopped next)
    (hanswer : AnswerFits tools mode target body outcome.headerCharset answer next) :
    (nextCheck tools mode target body ctx' answer next).Returns next (fun _ s' =>
        SameReports ((checkContent tools mode target body ctx outcome s).run s).2 s') ↔
      Recoverable tools mode target body outcome.headerCharset ctx ctx' answer s stopped := by
  cases hplan : contentPlan tools mode target.id body outcome.headerCharset with
  | none =>
    have hnothing : ∀ ctx outcome' s, outcome'.headerCharset = outcome.headerCharset →
        checkContent tools mode target body ctx outcome' s = .ret [] := by
      intro ctx outcome' s hcharset
      unfold checkContent
      rw [contentProcessor_eq, hcharset, hplan]
    have hreturns : (nextCheck tools mode target body ctx' answer next).Returns next (fun _ s' =>
        SameReports s s') := by
      rw [hnothing ctx outcome s rfl] at hstopped
      have hsame : SameReports s next := by
        have hreports := hnext.reports
        rw [hstopped] at hreports
        exact hreports
      cases answer with
      | notModified => exact hsame
      | modified outcome' =>
        change (checkContent tools mode target body ctx' outcome' next).Returns next _
        rw [hnothing ctx' outcome' next (hanswer.charset outcome' rfl)]
        exact hsame
    have hdue : ∀ ctx s, dueChange tools mode target body outcome.headerCharset ctx s = none := by
      intro ctx s
      simp [dueChange, hplan]
    rw [hnothing ctx outcome s rfl]
    constructor
    · intro _
      exact ⟨fun _ id h => by simp [hdue] at h, fun _ _ _ id h => by simp [hdue] at h⟩
    · exact fun _ => hreturns
  | some plan =>
    have htarget := contentPlan_targetId hplan
    rw [checkContent_eq hplan ctx rfl] at hstopped ⊢
    obtain ⟨whole, hwhole, hdone, _⟩ := plan_returns plan ctx (latestSnapshotForTarget target.id s)
      outcome s s
    rw [hwhole]
    have hpasses := exec_passes (process_unhandled plan ctx (latestSnapshotForTarget target.id s)
      outcome) faults [] s
    rw [← hstopped] at hpasses
    rcases process_passes plan ctx hpasses with hunstored | ⟨hsnapshots, hpartly⟩
    · exact recovers_beforeSnapshot hplan hctx hnext hanswer hdone hunstored
    · exact recovers_afterSnapshot hplan hnext hanswer hdone hpast hsnapshots hpartly

end Next

/-! ## A page that changed once -/

private def pageContext (now : Nat) (lastCheckedAt : Option Nat) : CheckContext where
  monitor := ⟨1, 1, .active, 3600, none, lastCheckedAt, none, none⟩
  source := pageWatch.source
  site := pageWatch.site
  now := now

/-- The page was checked when it was A. -/
private def storeOfA : Store := ((pageCheck pageWatch (pageAt 0 bodyA)).run uncheckedStore).2

/-- The check that finds B. -/
private def checkOfB (now : Nat) (s : Store) : Prog Site Store (List ChangeId) :=
  checkContent pageTools .page pageWatch.target bodyB (pageContext now (some 0)) ⟨none, none, none⟩ s

private def killedAfterSnapshot : Store :=
  ((checkOfB 3600 storeOfA).exec [.none, .none, .none, .none, .killAfter] [] storeOfA).state

private def killedBeforeSnapshot : Store :=
  ((checkOfB 3600 storeOfA).exec [.none, .none, .none, .none, .killBefore] [] storeOfA).state

private theorem storeOfA_past : ∀ old ∈ storeOfA.snapshots,
    old.targetId = pageWatch.target.id → old.fetchedAt ≤ (pageContext 3600 (some 0)).now := by
  intro old hold _
  have hall : storeOfA.snapshots.all (fun row => decide (row.fetchedAt ≤ 3600)) = true := by decide
  have hle := List.all_eq_true.mp hall old hold
  exact of_decide_eq_true hle

/-- Killed once the snapshot of B is stored: the next check finds nothing new. -/
theorem contentRecovery_violated :
    ¬∀ (tools : ContentTools) (mode : ContentMode) (target : TargetRow) (body : List UInt8)
      (ctx ctx' : CheckContext) (outcome : FetchSuccess) (answer : NextAnswer)
      (faults : List Fault) (s stopped next : Store),
      stopped = ((checkContent tools mode target body ctx outcome s).exec faults [] s).state →
      (∀ old ∈ s.snapshots, old.targetId = target.id → old.fetchedAt ≤ ctx.now) →
      NextContext ctx ctx' → SameContentTables stopped next →
      AnswerFits tools mode target body outcome.headerCharset answer next →
      (nextCheck tools mode target body ctx' answer next).Returns next fun _ s' =>
        SameReports ((checkContent tools mode target body ctx outcome s).run s).2 s' := by
  intro hall
  have hreturns := hall pageTools .page pageWatch.target bodyB (pageContext 3600 (some 0))
    (pageContext 7200 (some 0)) ⟨none, none, none⟩ (.modified ⟨none, none, none⟩)
    [.none, .none, .none, .none, .killAfter] storeOfA killedAfterSnapshot killedAfterSnapshot rfl
    storeOfA_past ⟨rfl, rfl, fun h => h⟩
    ⟨⟨rfl, fun _ => Iff.rfl⟩, ⟨rfl, rfl⟩, rfl, rfl⟩
    ⟨fun _ heq => NextAnswer.modified.inj heq ▸ rfl, fun h => by contradiction⟩
  obtain ⟨ids, s', hrun, hsame⟩ := returns_iff.mp hreturns
  have hstate : s' = ((checkOfB 7200 killedAfterSnapshot).run killedAfterSnapshot).2 := by
    change (checkOfB 7200 killedAfterSnapshot).run killedAfterSnapshot = _ at hrun
    rw [hrun]
  have hchanges := congrArg (fun changes => (changes ⟨1, pageTools.sha256Text "B"⟩).isSome)
    hsame.changes
  rw [hstate] at hchanges
  exact absurd hchanges (by decide)

/-- Killed before the snapshot of B is stored: the next check makes up for it. -/
theorem contentRecovery_iff_killedBefore :
    (nextCheck pageTools .page pageWatch.target bodyB (pageContext 7200 (some 0))
      (.modified ⟨none, none, none⟩) killedBeforeSnapshot).Returns killedBeforeSnapshot fun _ s' =>
        SameReports ((checkOfB 3600 storeOfA).run storeOfA).2 s' := by
  have hnext : SameContentTables killedBeforeSnapshot killedBeforeSnapshot :=
    ⟨⟨rfl, fun _ => Iff.rfl⟩, ⟨rfl, rfl⟩, rfl, rfl⟩
  have hsnapshots : killedBeforeSnapshot.snapshots = storeOfA.snapshots := by decide
  have hctx : NextContext (pageContext 3600 (some 0)) (pageContext 7200 (some 0)) :=
    ⟨rfl, rfl, fun h => h⟩
  have hanswer : AnswerFits pageTools .page pageWatch.target bodyB none
      (.modified ⟨none, none, none⟩) killedBeforeSnapshot :=
    ⟨fun _ heq => NextAnswer.modified.inj heq ▸ rfl, fun h => by contradiction⟩
  apply (contentRecovery_iff rfl storeOfA_past hctx hnext hanswer).mpr
  exact ⟨fun hne => absurd hsnapshots hne, fun _ _ _ id hdue => Or.inl hdue⟩

end Utsuroi

import Mathlib.Tactic
import Utsuroi.Framework.Run
import Utsuroi.Pipeline.ContentProcessor

/-!
# The baseline check

The first check of a monitor that processes a body records targets only.  Which check that
is, the monitor's `last_checked_at` decides, and a check that fails writes it, too.
-/

namespace Utsuroi

open Async Prog Transition

/-! ## What a run leaves alone outside its processor -/

section RunFrames

variable {γ : Type} {P : RunSite → Prop} {view : Store → γ} {world : CheckWorld}

structure RunFrames (P : RunSite → Prop) (view : Store → γ) : Prop where
  insertCheckJob : ∀ id trigger s, view (Store.insertCheckJob id trigger s) = view s
  updateCheckJob : ∀ id status s, view (Store.updateCheckJob id status s) = view s
  robotsEvaluation : ∀ row s,
    view { s with robotsEvaluations := row :: s.robotsEvaluations } = view s
  insertTarget : ∀ input s, view (Store.insertTarget input s) = view s
  updateTarget : ∀ id f s, view (Store.updateTarget id f s) = view s
  nextRun : ∀ id nextRunAt s,
    view (Store.updateMonitor id (fun row => { row with nextRunAt }) s) = view s
  policyStop : ∀ id stopReason robotsEvaluationId s,
    view (Store.updateMonitor id (fun row =>
      { row with
        status := .blockedByRobots
        stopReason := some stopReason
        robotsEvaluationId := some robotsEvaluationId
        nextRunAt := none }) s) = view s
  lastChecked : P ⟨.closed, .setMonitorLastChecked⟩ ∨ ∀ id now s,
    view (Store.updateMonitor id (fun row => { row with lastCheckedAt := some now }) s) = view s

variable (h : RunFrames P view)
include h

private theorem finishJob_framesBut (monitor : MonitorRow) (job : CheckJobId)
    (status : FinishStatus) (changeIds : List ChangeId) :
    (finishJob world monitor job status changeIds).FramesBut P view := by
  apply framesBut_bind (framesBut_call (Or.inr (h.updateCheckJob _ _)))
  intro _
  apply framesBut_bind (framesBut_call (h.lastChecked.imp id fun hview => hview _ _))
  intro _
  exact framesBut_bind (framesBut_call (Or.inr (h.nextRun _ _))) fun _ => trivial

variable {ctx : CheckContext}
  (hfetch : ∀ etag lastModified, (world.fetchTarget etag lastModified).prog.Frames view)
  (hprocessor : ∀ input, (world.processor ctx input).prog.Frames view)
include hfetch hprocessor

private theorem checkUnderLease_framesBut (job : CheckJobId) (target : TargetRow)
    (latestSnapshot : Option SnapshotRow) :
    (checkUnderLease world ctx job target latestSnapshot).FramesBut P view := by
  have hprocess : (fetchAndProcess world ctx target latestSnapshot).Frames view := by
    apply frames_bind (hfetch _ _)
    intro outcome
    cases outcome with
    | failure failureClass retryAfterSeconds => trivial
    | success result notModified body =>
      apply frames_bind (frames_call.mpr (h.updateTarget _ _))
      intro _
      split
      · exact frames_bind (hprocessor _) fun _ => trivial
      · trivial
  apply framesBut_tryFinally
  · refine framesBut_bind ?_ fun outcome => finishJob_framesBut h _ _ _ _
    apply framesBut_tryCatch (framesBut_relabel hprocess)
    exact framesBut_bind (finishJob_framesBut h _ _ _ _) fun _ => trivial
  · exact framesBut_call (Or.inr fun _ => rfl)

private theorem checkRobotsAndHost_framesBut (job : CheckJobId) (target : TargetRow) :
    (checkRobotsAndHost world ctx job target).FramesBut P view := by
  have hhost : (acquireAndCheck world ctx job target).FramesBut P view := by
    apply framesBut_bind (framesBut_call (Or.inr fun _ => rfl))
    intro lease
    split
    · exact framesBut_bind (framesBut_call (Or.inr (h.updateCheckJob _ _))) fun _ => trivial
    · apply framesBut_bind (framesBut_call (Or.inr fun _ => rfl))
      intro latestSnapshot
      exact checkUnderLease_framesBut h hfetch hprocessor _ _ _
  apply framesBut_bind (framesBut_call (Or.inr fun _ => rfl))
  intro robotsMode
  apply framesBut_bind (framesBut_call (Or.inr fun _ => rfl))
  intro decision
  apply framesBut_bind (framesBut_call (Or.inr (h.robotsEvaluation _)))
  intro evaluationId
  split
  · have hcount : (consecutiveUnavailable world decision).FramesBut P view := by
      unfold consecutiveUnavailable
      split
      · exact framesBut_call (Or.inr fun _ => rfl)
      · trivial
    apply framesBut_bind hcount
    intro count
    apply framesBut_bind (framesBut_call (Or.inr fun _ => rfl))
    intro _
    split
    · exact finishJob_framesBut h _ _ _ _
    · apply framesBut_bind (framesBut_call (Or.inr (h.updateCheckJob _ _)))
      intro _
      exact framesBut_bind (framesBut_call (Or.inr (h.policyStop _ _ _))) fun _ => trivial
  · exact hhost

private theorem checkSource_framesBut (job : CheckJobId) :
    (checkSource world ctx job).FramesBut P view := by
  apply framesBut_bind (framesBut_relabel (upsertTarget_frames h.insertTarget h.updateTarget _))
  intro target
  have hssrf : (ssrfAllowed world ctx.source.url).FramesBut P view := by
    unfold ssrfAllowed
    split
    · exact framesBut_call (Or.inr fun _ => rfl)
    · trivial
  apply framesBut_bind hssrf
  intro allowed
  split
  · apply framesBut_bind (framesBut_call (Or.inr fun _ => rfl))
    intro _
    exact finishJob_framesBut h _ _ _ _
  · exact checkRobotsAndHost_framesBut h hfetch hprocessor _ _

omit hprocessor in
/-- A run leaves the view alone if the processor does for the monitor it finds. -/
private theorem runMonitorCheck_untouched (id : MonitorId) (s : Store)
    (hprocessor : ∀ monitor source site, s.monitors id = some monitor →
      world.source = some source → ∀ input,
        (world.processor ⟨monitor, source, site, world.now⟩ input).prog.Frames view) :
    (runMonitorCheck world id).wp anyCall
      (.orStop (fun _ log s' => view s' = view s ∨ Touched P log)
        fun log s' => view s' = view s ∨ Touched P log) [] s := by
  refine wp_bind.mpr (wp_call_orStop ?_ (fun _ _ _ => Or.inl rfl) fun _ _ _ => Or.inl rfl)
  intro _
  cases hmonitor : s.monitors id with
  | none => exact Or.inl rfl
  | some monitor =>
    refine wp_of_framesBut (v := view s) (P := P) ?_ (Or.inl rfl) (fun _ _ _ h => h)
      (fun _ _ h => h) fun _ _ h => h
    change FramesBut P view (if _ then _ else _)
    split
    · trivial
    have hsource : (inRegion .loading (.query .getSource fun _ => world.source)).Answers
        fun source => source = world.source := ⟨fun _ => rfl, trivial⟩
    refine framesBut_bind_of_answers (framesBut_call (Or.inr fun _ => rfl)) hsource ?_
    rintro source rfl
    cases hsome : world.source with
    | none => trivial
    | some source =>
      simp only [orThrow, pure_eq, ret_bind]
      refine framesBut_bind (framesBut_call (Or.inr fun _ => rfl)) fun site => ?_
      cases site with
      | none => trivial
      | some site =>
        simp only [ret_bind]
        refine framesBut_bind (framesBut_call (Or.inr fun _ => rfl)) fun policy => ?_
        cases policy with
        | none => trivial
        | some policy =>
          simp only [ret_bind]
          have hjob : ∀ slot, (createCheckJobIfNew slot world.trigger).Frames view := by
            intro slot
            apply frames_bind (frames_call.mpr (h.insertCheckJob _ _))
            intro inserted
            cases inserted with
            | true => trivial
            | false =>
              apply frames_bind (frames_query.mpr trivial)
              intro existing
              cases existing <;> trivial
          refine framesBut_bind (framesBut_relabel (hjob _)) fun jobResult => ?_
          split
          · trivial
          · refine framesBut_bind (framesBut_call (Or.inr (h.updateCheckJob _ _))) fun _ => ?_
            exact checkSource_framesBut h hfetch
              (hprocessor monitor source site hmonitor hsome) _

end RunFrames

/-! ## The histories of a monitor of items -/

/-- What checks of a monitor have made known of its items. -/
structure ItemOutput where
  changes : String → Option ChangeRow
  deliveries : String → DestinationId → Option DeliveryRow
  sent : List DeliveryId

def Store.itemOutput (id : MonitorId) (s : Store) : ItemOutput where
  changes := fun key => s.changes ⟨id, key⟩
  deliveries := fun key d => s.deliveries ⟨⟨id, key⟩, d⟩
  sent := s.queue.filter fun delivery => delivery.changeId.monitorId = id

/-- No change of the monitor, no delivery and no message. -/
def Store.NoItemOutput (id : MonitorId) (s : Store) : Prop :=
  s.itemOutput id = ⟨fun _ => none, fun _ _ => none, []⟩

def Store.lastChecked (id : MonitorId) (s : Store) : Option Nat :=
  (s.monitors id).bind MonitorRow.lastCheckedAt

/-- A world whose source is a feed, a traversed sitemap or an extracted page. -/
structure ItemWorld (id : MonitorId) (world : CheckWorld) : Prop where
  processor : ∃ items tools, world.processor = resolveContentProcessor items tools
  source : ∀ source, world.source = some source →
    resolveRecipeKey source ∈ [.feed, .sitemapTraverse, .pageExtract]
  /-- the fetch of the document records attempts only -/
  fetch : ∀ etag lastModified,
    (world.fetchTarget etag lastModified).prog.Frames (Store.itemOutput id)

inductive HistoryEvent
  /-- a check, completed or not -/
  | check (log : List (Call RunSite Store)) (exit : Exit CheckRunResult)
  /-- whatever else happens to the store -/
  | others

/-- The checks of one monitor from its creation on. -/
def historySystem (id : MonitorId) : System Store HistoryEvent where
  init s := s.NoItemOutput id ∧ s.lastChecked id = none
  step s e s' :=
    match e with
    | .check log exit =>
      ∃ world faults, ItemWorld id world ∧
        (runMonitorCheck world id).exec faults [] s = ⟨log, exit, s'⟩
    | .others => s'.itemOutput id = s.itemOutput id ∧ s'.lastChecked id = s.lastChecked id

/-- The check wrote the snapshot of a body it parsed and closed its job as succeeded. -/
def ProcessedBody : HistoryEvent → Prop
  | .check log _ =>
    (∃ call ∈ log, call.site.site = .createSnapshot ∧ call.fault = .none) ∧
      ∃ call ∈ log, ∃ job, call.site = ⟨.closing, .updateCheckJobStatus job .succeeded⟩
  | .others => False

/-- The check got to the write of `last_checked_at`. -/
def WroteLastChecked : HistoryEvent → Prop
  | .check log _ => Touched (fun place => place = ⟨.closed, .setMonitorLastChecked⟩) log
  | .others => False

/-- Until a body is processed, no check writes `last_checked_at` without processing one. -/
def baselineGuarded : StepCond Store HistoryEvent :=
  fun past _ e => (∀ e' ∈ past, ¬ProcessedBody e') → WroteLastChecked e → ProcessedBody e

/-! ## What one check does -/

section Check

variable {id : MonitorId} {world : CheckWorld} {s : Store}

private theorem runFrames_itemOutput : RunFrames (fun _ => False) (Store.itemOutput id) :=
  ⟨fun _ _ _ => rfl, fun _ _ _ => rfl, fun _ _ => rfl, fun _ _ => rfl, fun _ _ _ => rfl,
    fun _ _ _ => rfl, fun _ _ _ _ => rfl, Or.inr fun _ _ _ => rfl⟩

private theorem documentFrames_itemOutput : DocumentFrames (Store.itemOutput id) :=
  ⟨fun _ _ => rfl, fun _ _ _ => rfl, fun _ _ _ => rfl, fun _ _ => rfl⟩

private theorem lastChecked_updateMonitor {f : MonitorRow → MonitorRow}
    (hf : ∀ row, (f row).lastCheckedAt = row.lastCheckedAt) (other : MonitorId) (s : Store) :
    (s.updateMonitor other f).lastChecked id = s.lastChecked id := by
  unfold Store.lastChecked Store.updateMonitor
  by_cases h : id = other
  · subst h
    cases s.monitors id <;> simp [hf]
  · simp [Function.update_of_ne h]

private theorem runFrames_lastChecked :
    RunFrames (fun place => place = ⟨.closed, .setMonitorLastChecked⟩) (Store.lastChecked id) := by
  refine ⟨fun _ _ _ => rfl, fun _ _ _ => rfl, fun _ _ => rfl, fun _ _ => rfl, fun _ _ _ => rfl,
    ?_, ?_, Or.inl rfl⟩
  · intro other nextRunAt s
    apply lastChecked_updateMonitor
    exact fun _ => rfl
  · intro other stopReason robotsEvaluationId s
    apply lastChecked_updateMonitor
    exact fun _ => rfl

/-- The first check of a monitor sends its items through without a change. -/
private theorem processor_frames_baseline (hworld : ItemWorld id world) {monitor : MonitorRow}
    {source : SourceRow} {site : SiteRow} (hsource : world.source = some source)
    (hbaseline : monitor.lastCheckedAt = none) (input : ContentInput) :
    (world.processor ⟨monitor, source, site, world.now⟩ input).prog.Frames
      (Store.itemOutput id) := by
  obtain ⟨items, tools, hprocessor⟩ := hworld.processor
  have hitems : ∀ progress list summaryAsDiffPreview,
      (processFeedItems items ⟨monitor, source, site, world.now⟩ progress list
        MAX_FEED_ITEMS_PER_CHECK summaryAsDiffPreview).Frames (Store.itemOutput id) :=
    fun progress list _ => processFeedItems_frames_baseline items
      ⟨monitor, source, site, world.now⟩ hbaseline (fun _ _ => rfl) (fun _ _ _ => rfl)
      progress list _ _
  have hanswer : ∀ {p : Prog Site Store CheckProgress}, p.Frames (Store.itemOutput id) →
      (changeIdsOf p).Frames (Store.itemOutput id) := fun hp => frames_bind hp fun _ => trivial
  rw [hprocessor]
  unfold resolveContentProcessor
  have hkey := hworld.source source hsource
  simp only [List.mem_cons, List.not_mem_nil, or_false] at hkey
  rcases hkey with hkey | hkey | hkey
  · rw [hkey]
    exact hanswer (processFeedContent_frames hitems documentFrames_itemOutput _ _ _)
  · rw [hkey]
    exact hanswer (processSitemapTraversal_frames hitems documentFrames_itemOutput _ _ _ _)
  · rw [hkey]
    exact hanswer (processPageItems_frames hitems documentFrames_itemOutput _ _ _)

/-- A check that finds the monitor never checked makes nothing known of its items. -/
private theorem itemOutput_of_check {faults : List Fault} {log : List (Call RunSite Store)}
    {exit : Exit CheckRunResult} {s' : Store} (hworld : ItemWorld id world)
    (hbaseline : s.lastChecked id = none)
    (hexec : (runMonitorCheck world id).exec faults [] s = ⟨log, exit, s'⟩) :
    s'.itemOutput id = s.itemOutput id := by
  have hpost := wp_exec_any faults (runMonitorCheck_untouched
    (@runFrames_itemOutput id) hworld.fetch id s fun monitor source site hmonitor hsource input => by
      refine processor_frames_baseline hworld hsource ?_ input
      simpa [Store.lastChecked, hmonitor] using hbaseline)
  rw [hexec] at hpost
  have hsame : s'.itemOutput id = s.itemOutput id ∨ Touched (fun _ => False) log := by
    cases exit <;> exact hpost
  rcases hsame with h | ⟨_, _, h, _⟩
  · exact h
  · exact h.elim

/-- A check leaves the monitor never checked unless it gets to the write. -/
private theorem lastChecked_of_check {faults : List Fault} {log : List (Call RunSite Store)}
    {exit : Exit CheckRunResult} {s' : Store}
    (hexec : (runMonitorCheck world id).exec faults [] s = ⟨log, exit, s'⟩) :
    s'.lastChecked id = s.lastChecked id ∨ WroteLastChecked (.check log exit) := by
  have hview : Store.lastChecked id = (fun schedule => (schedule.1 id).bind MonitorRow.lastCheckedAt)
      ∘ Store.schedule := rfl
  have hpost := wp_exec_any faults (runMonitorCheck_untouched
    (@runFrames_lastChecked id) (fun etag lastModified => by
      rw [hview]
      exact (world.fetchTarget etag lastModified).frames.comp _) id s
    fun monitor source site _ _ input => by
      rw [hview]
      exact (world.processor _ input).frames.comp _)
  rw [hexec] at hpost
  cases exit <;> exact hpost

end Check

/-- Until a body is processed, the monitor is never checked and nothing is known of its items. -/
private def BaselineInv (id : MonitorId) (past : List HistoryEvent) (s : Store) : Prop :=
  (∀ e ∈ past, ¬ProcessedBody e) → s.NoItemOutput id ∧ s.lastChecked id = none

private theorem baselineInv_step {id : MonitorId} {past : List HistoryEvent} {s s' : Store}
    {e : HistoryEvent} (hinv : BaselineInv id past s) (hstep : (historySystem id).step s e s')
    (hguard : baselineGuarded past s e) : BaselineInv id (e :: past) s' := by
  intro hpast
  have holder : ∀ e' ∈ past, ¬ProcessedBody e' := fun e' he' => hpast e' (List.mem_cons_of_mem _ he')
  obtain ⟨houtput, hnever⟩ := hinv holder
  cases e with
  | check log exit =>
    obtain ⟨world, faults, hworld, hexec⟩ := hstep
    have hsame := itemOutput_of_check hworld hnever hexec
    refine ⟨hsame.trans houtput, ?_⟩
    rcases lastChecked_of_check hexec with h | hwrote
    · exact h.trans hnever
    · exact absurd (hguard holder hwrote) (hpast _ List.mem_cons_self)
  | others =>
    obtain ⟨hsame, hchecked⟩ := hstep
    exact ⟨hsame.trans houtput, hchecked.trans hnever⟩

/-- In every history whose checks write `last_checked_at` no earlier than the first body is
processed, everything up to and including the check that processes it leaves the monitor
without changes, deliveries and messages. -/
theorem baseline_createsNoChange {id : MonitorId} {e : HistoryEvent} {past : List HistoryEvent}
    {s : Store} (hrun : (historySystem id).Run baselineGuarded (e :: past) s)
    (hfirst : ∀ e' ∈ past, ¬ProcessedBody e') : s.NoItemOutput id := by
  obtain ⟨before, hbefore, hstep, _⟩ := System.Run.last hrun
  have hinv : BaselineInv id past before := by
    refine hbefore.invariant ?_ ?_
    · exact fun s hinit _ => hinit
    · exact fun past s e s' _ hinv hstep hguard => baselineInv_step hinv hstep hguard
  obtain ⟨houtput, hnever⟩ := hinv hfirst
  cases e with
  | check log exit =>
    obtain ⟨world, faults, hworld, hexec⟩ := hstep
    exact (itemOutput_of_check hworld hnever hexec).trans houtput
  | others => exact hstep.1.trans houtput

/-! ## A failed check before the first good one -/

private def oneItemTools : ItemTools where
  ssrfAllowed := fun _ => true
  resolvedAllowed := fun _ => true
  origin := fun _ => none
  robotsMode := fun _ => .enforce
  robots := fun _ _ => ⟨true, none, false, 0, "none"⟩
  fetchPage := fun _ => none
  fetchTarget := fun _ _ _ _ => .failure .networkError none
  pathname := fun _ => none
  extractHtmlTitle := fun _ _ => none
  regExp := fun _ _ => none
  parseSource := fun _ _ _ _ => some ⟨.rss, [⟨"k", some "u", some "t", none, none, []⟩]⟩
  extractItems := fun _ _ _ => []
  sha256Bytes := fun _ => ""

private def noContentTools : ContentTools where
  includedHtml := fun _ _ => ""
  collapseHtmlWhitespace := id
  extractText := id
  parseSource := fun _ _ => none
  diffText := fun _ _ => ⟨false, "", 0, 0⟩
  sha256Bytes := fun _ => ""
  sha256Text := fun _ => ""

private def feedWorld (now : Nat) (outcome : FetchOutcome) : CheckWorld where
  trigger := .scheduled
  now := now
  source := some ⟨1, .rss, "https://example.com/feed", none⟩
  site := some ⟨1, none⟩
  policy := some ()
  staticSsrfAllowed := true
  resolvedAllowed := true
  origin := "https://example.com"
  robotsMode := .enforce
  robots := ⟨true, none, false, now, "none"⟩
  lease := ⟨true, some 1, none⟩
  fetchTarget _ _ := ⟨.ret outcome, trivial⟩
  processor := resolveContentProcessor oneItemTools noContentTools
  checkedNow := now
  finishNow := now
  random := 0
  appliedNow := now

private theorem feedWorld_itemWorld (now : Nat) (outcome : FetchOutcome) :
    ItemWorld 1 (feedWorld now outcome) := by
  refine ⟨⟨oneItemTools, noContentTools, rfl⟩, ?_, fun _ _ => trivial⟩
  intro source hsource
  cases hsource
  decide

/-- The host is busy. -/
private def busyWorld (now : Nat) : CheckWorld :=
  { feedWorld now (.failure .networkError none) with lease := ⟨false, none, some 30000⟩ }

private def manualWorld (now : Nat) : CheckWorld :=
  { feedWorld now (.success ⟨none, none, none⟩ false (some [])) with trigger := .manual }

private theorem busyWorld_itemWorld (now : Nat) : ItemWorld 1 (busyWorld now) := by
  obtain ⟨hprocessor, hsource, hfetch⟩ := feedWorld_itemWorld now (.failure .networkError none)
  exact ⟨hprocessor, hsource, hfetch⟩

private theorem manualWorld_itemWorld (now : Nat) : ItemWorld 1 (manualWorld now) := by
  obtain ⟨hprocessor, hsource, hfetch⟩ :=
    feedWorld_itemWorld now (.success ⟨none, none, none⟩ false (some []))
  exact ⟨hprocessor, hsource, hfetch⟩

private def Site.closesJob : Site → Bool
  | .updateCheckJobStatus _ status => status == .succeeded
  | _ => false

private theorem unclosed {log : List (Call RunSite Store)} {exit : Exit CheckRunResult}
    (hopen : log.all (fun call => !call.site.site.closesJob) = true) :
    ¬ProcessedBody (.check log exit) := by
  rintro ⟨_, call, hcall, job, hsite⟩
  have hother := List.all_eq_true.mp hopen call hcall
  rw [hsite] at hother
  contradiction

private theorem unwritten {log : List (Call RunSite Store)} {exit : Exit CheckRunResult}
    (hquiet : log.all (fun call => call.site.site != .setMonitorLastChecked) = true) :
    ¬WroteLastChecked (.check log exit) := by
  rintro ⟨call, hcall, hsite, _⟩
  have hother := List.all_eq_true.mp hquiet call hcall
  rw [hsite] at hother
  contradiction

private def freshMonitor : MonitorRow := ⟨1, 1, .active, 3600, some 1000, none, none, none⟩

private def freshStore : Store :=
  { emptyStore with monitors := fun id => if id = 1 then some freshMonitor else none }

private theorem freshStore_init : (historySystem 1).init freshStore := ⟨rfl, rfl⟩

private def checkOf (world : CheckWorld) (s : Store) : Outcome RunSite Store CheckRunResult :=
  (runMonitorCheck world 1).exec [] [] s

private def failedCheck : Outcome RunSite Store CheckRunResult :=
  checkOf (feedWorld 1000 (.failure .networkError none)) freshStore

private def goodCheck (now : Nat) (s : Store) : Outcome RunSite Store CheckRunResult :=
  checkOf (feedWorld now (.success ⟨none, none, none⟩ false (some []))) s

/-- The first fetch fails; the second check, the first that processes a body, makes a change
of what was there when the monitor began. -/
theorem baseline_createsNoChange_violated :
    ¬∀ (id : MonitorId) (e : HistoryEvent) (past : List HistoryEvent) (s : Store),
      (historySystem id).Run anyStep (e :: past) s → (∀ e' ∈ past, ¬ProcessedBody e') →
        s.NoItemOutput id := by
  intro hall
  have hrun : (historySystem 1).Run anyStep
      [.check (goodCheck 9000000 failedCheck.state).log (goodCheck 9000000 failedCheck.state).exit,
        .check failedCheck.log failedCheck.exit] (goodCheck 9000000 failedCheck.state).state :=
    .next (.next (.start freshStore_init) ⟨_, [], feedWorld_itemWorld 1000 _, rfl⟩ trivial)
      ⟨_, [], feedWorld_itemWorld 9000000 _, rfl⟩ trivial
  have hnone := hall 1 _ _ _ hrun (by
    intro e' he'
    have heq : e' = .check failedCheck.log failedCheck.exit := by simpa using he'
    exact heq ▸ unclosed (by decide))
  have hchange := congrArg (fun output => (output.changes "k").isSome) hnone
  exact absurd hchange (by decide)

private def deferredCheck : Outcome RunSite Store CheckRunResult :=
  checkOf (busyWorld 1000) freshStore

private def killedFaults : List Fault := List.replicate 17 .none ++ [.killBefore]

/-- A check that is killed once the snapshot of its body is stored. -/
private def killedCheck : Outcome RunSite Store CheckRunResult :=
  (runMonitorCheck (feedWorld 40000 (.success ⟨none, none, none⟩ false (some []))) 1).exec
    killedFaults [] deferredCheck.state

private def manualCheck : Outcome RunSite Store CheckRunResult :=
  checkOf (manualWorld 9000000) killedCheck.state

private def laterHistory : List HistoryEvent :=
  [.check manualCheck.log manualCheck.exit, .check killedCheck.log killedCheck.exit,
    .check deferredCheck.log deferredCheck.exit]

private theorem manualCheck_processed :
    ProcessedBody (.check manualCheck.log manualCheck.exit) := by
  have hsnapshot : manualCheck.log.any (fun call =>
      call.site.site == .createSnapshot && call.fault == .none) = true := by decide
  have hclosed : manualCheck.log.any (fun call =>
      call.site == ⟨.closing, .updateCheckJobStatus ⟨1, 9000000⟩ .succeeded⟩) = true := by decide
  obtain ⟨call, hcall, hstored⟩ := List.any_eq_true.mp hsnapshot
  obtain ⟨closing, hclosing, hplace⟩ := List.any_eq_true.mp hclosed
  obtain ⟨hsite, hfault⟩ := Bool.and_eq_true_iff.mp hstored
  exact ⟨⟨call, hcall, eq_of_beq hsite, eq_of_beq hfault⟩,
    closing, hclosing, ⟨1, 9000000⟩, eq_of_beq hplace⟩

private theorem laterHistory_run : (historySystem 1).Run baselineGuarded laterHistory
    manualCheck.state :=
  .next (.next (.next (.start freshStore_init) ⟨_, [], busyWorld_itemWorld 1000, rfl⟩
      fun _ hwrote => absurd hwrote (unwritten (by decide)))
      ⟨feedWorld 40000 (.success ⟨none, none, none⟩ false (some [])), killedFaults,
        feedWorld_itemWorld 40000 _, rfl⟩
      fun _ hwrote => absurd hwrote (unwritten (by decide)))
    ⟨_, [], manualWorld_itemWorld 9000000, rfl⟩ fun _ _ => manualCheck_processed

/-- A check is deferred and another one killed before the first one that goes well. -/
theorem baseline_createsNoChange_thirdCheck :
    manualCheck.state.NoItemOutput 1 ∧ killedCheck.exit = .killed ∧
      ProcessedBody (.check manualCheck.log manualCheck.exit) := by
  refine ⟨baseline_createsNoChange laterHistory_run fun e he => ?_, rfl, manualCheck_processed⟩
  simp only [List.mem_cons, List.not_mem_nil, or_false] at he
  rcases he with rfl | rfl
  · exact unclosed (by decide)
  · exact unclosed (by decide)

end Utsuroi

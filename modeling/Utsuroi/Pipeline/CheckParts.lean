import Utsuroi.Framework.Closed
import Utsuroi.Pipeline.Gatekeeping

/-!
# What holds of the parts of a check

A judgement that the constructs of programs keep holds of a check when it holds of the parts that
write targets, changes or deliveries: the rest of a check leaves these alone.
-/

namespace Utsuroi

open Async Prog

/-- What a check writes of what it found. -/
def Store.findings (store : Store) :
    (TargetId → Option TargetRow) × (ChangeId → Option ChangeRow) × List SubscriptionRow ×
      (DeliveryId → Option DeliveryRow) :=
  (store.targets, store.changes, store.subscriptions, store.deliveries)

/-- The judgement holds of the parts that write findings and of all calls that do not. -/
structure CheckParts (items : ItemTools) (J : ∀ α : Type, Prog Site Store α → Prop) : Prop where
  closed : Closed J
  quiet : ∀ {α : Type} (site : Site) (eff : Store → Store) (answer : Store → α),
    (∀ store, (eff store).findings = store.findings) → J α (.call site eff answer)
  upsertTarget : ∀ input, J TargetRow (upsertTarget input)
  setTargetLastChecked : ∀ id lastCheckedAt, J Unit (setTargetLastChecked id lastCheckedAt)
  setTargetLastKnownUpdatedAt : ∀ id lastKnownUpdatedAt,
    J Unit (setTargetLastKnownUpdatedAt id lastKnownUpdatedAt)
  processFeedItems : ∀ ctx progress list maxItems summaryAsDiffPreview, J ProcessFeedItemsResult
    (processFeedItems items ctx progress list maxItems summaryAsDiffPreview)
  recordChange : ∀ ctx row unifiedDiff, row.tags = none →
    J (List ChangeId) (recordChange ctx row unifiedDiff)

namespace CheckParts

section Documents

variable {items : ItemTools} {J : ∀ α : Type, Prog Site Store α → Prop} (h : CheckParts items J)

include h

/-- A query that a part begins with. -/
private theorem ask {α β : Type} {site : Site} {answer : Store → α} {f : α → Prog Site Store β}
    (hf : ∀ a, J β (f a)) : J β (Prog.query site answer >>= f) :=
  h.closed.bind (h.quiet site id answer fun _ => rfl) hf

private theorem putIfAbsent {present : Store → Bool} {put : Store → Store}
    (hput : ∀ store, (put store).findings = store.findings) :
    J Unit (Utsuroi.putIfAbsent present put) := by
  refine h.ask fun existing => ?_
  cases existing with
  | false => exact h.quiet _ put _ hput
  | true => exact h.closed.ret ()

private theorem createSnapshot (row : SnapshotRow) : J SnapshotId (Utsuroi.createSnapshot row) :=
  h.quiet _ _ _ fun _ => rfl

private theorem storeDocument (rawHash : Hash) (body : List UInt8) (textHash : Hash)
    (text : String) (row : SnapshotRow) :
    J SnapshotId (Utsuroi.storeDocument rawHash body textHash text row) := by
  refine h.closed.bind (h.putIfAbsent fun _ => rfl) fun _ => ?_
  refine h.closed.bind (h.putIfAbsent fun _ => rfl) fun _ => ?_
  exact h.createSnapshot row

private theorem getNormalized (hash : Option Hash) : J String (Utsuroi.getNormalized hash) := by
  cases hash with
  | none => exact h.closed.ret ""
  | some hash => exact h.quiet _ id _ fun _ => rfl

/-! ## Traversals -/

section Traversal

variable {ctx : CheckContext} (cutoffIso : String) {nested : Nested}

private theorem advanceChild (id : TargetId) (lastmod : String) (st : TraversalState) :
    J TraversalState (Utsuroi.advanceChild id lastmod st) :=
  h.closed.bind (h.setTargetLastKnownUpdatedAt id lastmod) fun _ => h.closed.ret st

private theorem expandUrlset (id : TargetId) (lastmod : String) (list : List FeedItem)
    (st : TraversalState) : J TraversalState (expandUrlset items ctx cutoffIso id lastmod list st) := by
  unfold Utsuroi.expandUrlset
  dsimp only
  split
  · exact h.advanceChild id lastmod _
  refine h.closed.bind (h.processFeedItems ctx _ _ _ _) fun result => ?_
  split
  · exact h.closed.ret _
  · exact h.advanceChild id lastmod _

variable (hnested : ∀ traverse, nested = some traverse → ∀ parsed st,
  J TraversalState (traverse parsed st))

include hnested

private theorem expandIndex (id : TargetId) (lastmod : String) (parsed : AdapterParseResult)
    (st : TraversalState) : J TraversalState (Utsuroi.expandIndex nested id lastmod parsed st) := by
  unfold Utsuroi.expandIndex
  cases hcase : nested with
  | none => exact h.closed.ret _
  | some traverse =>
    refine h.closed.bind (hnested traverse hcase parsed st) fun st' => ?_
    split
    · exact h.closed.ret st'
    · exact h.advanceChild id lastmod st'

private theorem processChildBody (id : TargetId) (child : SelectedChildEntry)
    (outcome : FetchOutcome) (st : TraversalState) :
    J TraversalState (processChildBody items ctx cutoffIso nested id child outcome st) := by
  unfold Utsuroi.processChildBody
  split
  · exact h.closed.ret st
  refine h.closed.bind (h.setTargetLastChecked id ctx.now) fun _ => ?_
  split
  · split
    · exact h.closed.ret st
    · unfold expandChild
      split
      · exact h.expandUrlset cutoffIso id child.lastmod _ st
      · exact h.expandIndex hnested id child.lastmod _ st
  · exact h.closed.ret st

private theorem visitChild (maxFetchesPerCheck : Nat) (id : TargetId) (child : SelectedChildEntry)
    (st : TraversalState) :
    J TraversalState (visitChild items ctx cutoffIso maxFetchesPerCheck nested id child st) := by
  have hfetch : ∀ st, J TraversalState
      (fetchChild items ctx cutoffIso maxFetchesPerCheck nested id child st) := by
    intro st
    unfold fetchChild
    split
    · exact h.closed.ret _
    refine h.ask fun latest => ?_
    refine h.ask fun outcome => ?_
    exact h.processChildBody cutoffIso hnested id child outcome _
  unfold Utsuroi.visitChild
  split
  · exact h.closed.ret st
  refine h.ask fun resolved => ?_
  split
  · exact h.closed.ret st
  split
  · exact h.closed.ret st
  refine h.ask fun robotsMode => ?_
  refine h.ask fun decision => ?_
  split
  · exact h.closed.ret st
  · exact hfetch st

private theorem traverseChildren (maxFetchesPerCheck : Nat) (parsed : AdapterParseResult)
    (st : TraversalState) :
    J TraversalState (traverseChildren items ctx cutoffIso maxFetchesPerCheck nested parsed st) := by
  refine h.closed.foldlM fun st child => ?_
  unfold traverseChild
  split
  · exact h.closed.ret _
  refine h.ask fun previous => ?_
  refine h.closed.bind (h.upsertTarget _) fun target => ?_
  split
  · exact h.closed.bind (h.setTargetLastChecked _ _) fun _ => h.closed.ret st
  · exact h.visitChild cutoffIso hnested maxFetchesPerCheck _ child st

omit hnested

private theorem traverseSitemapIndex (maxFetchesPerCheck levels : Nat) (parsed : AdapterParseResult)
    (st : TraversalState) :
    J TraversalState
      (traverseSitemapIndex items ctx cutoffIso maxFetchesPerCheck levels parsed st) := by
  induction levels generalizing parsed st with
  | zero => exact h.traverseChildren cutoffIso (fun _ hnone => by cases hnone) _ parsed st
  | succ levels ih =>
    refine h.traverseChildren cutoffIso ?_ _ parsed st
    intro traverse htraverse
    cases htraverse
    exact ih

private theorem traverseSource (maxFetchesPerCheck : Nat) (parsed : AdapterParseResult) :
    J TraversalState (traverseSource items ctx maxFetchesPerCheck parsed) := by
  unfold Utsuroi.traverseSource
  dsimp only
  split
  · split
    · exact h.closed.ret _
    · exact h.closed.bind (h.processFeedItems ctx _ _ _ _) fun result => h.closed.ret _
  · exact h.traverseSitemapIndex _ _ _ parsed _

end Traversal

/-! ## The processors -/

section Processors

variable (tools : ContentTools) (ctx : CheckContext) (input : ContentInput)

private theorem processPageContent : J (List ChangeId)
    (processPageContent tools ctx input.target input.previousSnapshot input.outcome input.body) := by
  refine h.closed.bind (h.storeDocument _ _ _ _ _) fun snapshotId => ?_
  cases input.previousSnapshot with
  | none => exact h.closed.ret []
  | some previousSnapshot =>
    dsimp only
    split
    · exact h.closed.ret []
    · exact h.closed.bind (h.getNormalized _) fun _ => h.recordChange ctx _ _ rfl

private theorem processSitemapDirect : J (List ChangeId)
    (processSitemapDirect tools ctx input.target input.previousSnapshot input.outcome
      input.body) := by
  unfold Utsuroi.processSitemapDirect
  cases tools.parseSource input.body input.outcome.headerCharset with
  | none => exact h.closed.ret []
  | some list =>
    refine h.closed.bind (h.storeDocument _ _ _ _ _) fun snapshotId => ?_
    cases input.previousSnapshot with
    | none => exact h.closed.ret []
    | some previousSnapshot =>
      dsimp only
      split
      · exact h.closed.ret []
      split
      · exact h.closed.ret []
      refine h.closed.bind (h.getNormalized _) fun _ => ?_
      split
      · exact h.closed.ret []
      · exact h.recordChange ctx _ _ rfl

private theorem changeIdsOf {p : Prog Site Store CheckProgress} (hp : J CheckProgress p) :
    J (List ChangeId) (Utsuroi.changeIdsOf p) :=
  h.closed.bind hp fun _ => h.closed.ret _

private theorem processFeedContent : J CheckProgress
    (processFeedContent items ctx input.target input.outcome input.body) := by
  refine h.closed.bind (h.putIfAbsent fun _ => rfl) fun _ => ?_
  split
  · exact h.closed.ret _
  refine h.closed.bind (h.createSnapshot _) fun _ => ?_
  exact h.closed.bind (h.processFeedItems ctx _ _ _ _) fun _ => h.closed.ret _

private theorem processPageItems : J CheckProgress
    (processPageItems items ctx input.target input.outcome input.body) := by
  unfold Utsuroi.processPageItems
  split
  · exact h.closed.ret _
  refine h.ask fun extracted => ?_
  refine h.closed.bind (h.processFeedItems ctx _ _ _ _) fun result => ?_
  exact h.closed.bind (h.createSnapshot _) fun _ => h.closed.ret _

private theorem processSitemapTraversal : J CheckProgress
    (processSitemapTraversal items ctx MAX_TRAVERSAL_FETCHES_PER_CHECK input.target input.outcome
      input.body) := by
  refine h.closed.bind (h.putIfAbsent fun _ => rfl) fun _ => ?_
  split
  · exact h.closed.ret _
  refine h.closed.bind (h.createSnapshot _) fun _ => ?_
  refine h.closed.bind (h.traverseSource _ _) fun st => ?_
  refine h.closed.bind ?_ fun _ => h.closed.ret _
  unfold recordTruncationIfAny
  split
  · exact h.closed.ret _
  · exact h.quiet _ id _ fun _ => rfl

theorem processor :
    J (List ChangeId) (resolveContentProcessor items tools ctx input).prog := by
  unfold resolveContentProcessor
  cases resolveRecipeKey ctx.source with
  | pageExtract => exact h.changeIdsOf (h.processPageItems ctx input)
  | pageContent => exact h.processPageContent tools ctx input
  | sitemapTraverse => exact h.changeIdsOf (h.processSitemapTraversal ctx input)
  | sitemapDirect => exact h.processSitemapDirect tools ctx input
  | feed => exact h.changeIdsOf (h.processFeedContent ctx input)

end Processors

end Documents

/-! ## The check -/

/-- `J'` judges the parts of a check in their regions as `J` does. -/
structure JudgesRegions (J : ∀ α : Type, Prog Site Store α → Prop)
    (J' : ∀ α : Type, RunProg α → Prop) : Prop where
  closed : Closed J'
  region : ∀ {α : Type} (region : Region) {p : Prog Site Store α}, J α p → J' α (inRegion region p)

section Check

variable {items : ItemTools} {J : ∀ α : Type, Prog Site Store α → Prop}
  {J' : ∀ α : Type, RunProg α → Prop} (h : CheckParts items J) (hJ : JudgesRegions J J')
  (tools : ContentTools) (source : SourceRow) (world : CheckWorld)

include h hJ

/-- A call of a check that writes no findings, and what follows it. -/
private theorem aside {α β : Type} {region : Region} {site : Site} {eff : Store → Store}
    {answer : Store → α} {f : α → RunProg β}
    (heff : ∀ store, (eff store).findings = store.findings) (hf : ∀ a, J' β (f a)) :
    J' β (inRegion region (.call site eff answer) >>= f) :=
  hJ.closed.bind (hJ.region region (h.quiet site eff answer heff)) hf

private theorem finishJob (monitor : MonitorRow) (job : CheckJobId) (status : FinishStatus)
    (changeIds : List ChangeId) :
    J' CheckRunResult (finishJob world monitor job status changeIds) := by
  refine h.aside hJ (fun _ => rfl) fun _ => ?_
  refine h.aside hJ (fun _ => rfl) fun _ => ?_
  exact h.aside hJ (fun _ => rfl) fun _ => hJ.closed.ret _

omit hJ in
private theorem fetchAndProcess (ctx : CheckContext) (target : TargetRow)
    (latestSnapshot : Option SnapshotRow) :
    J CheckOutcome (fetchAndProcess (siteWorld items tools source world) ctx target latestSnapshot) := by
  refine h.ask fun outcome => ?_
  split
  · exact h.closed.ret _
  refine h.closed.bind (h.setTargetLastChecked _ _) fun _ => ?_
  split
  · exact h.closed.bind (h.processor tools ctx _) fun changeIds => h.closed.ret _
  · exact h.closed.ret _

private theorem checkUnderLease (ctx : CheckContext) (job : CheckJobId) (target : TargetRow)
    (latestSnapshot : Option SnapshotRow) :
    J' CheckRunResult
      (checkUnderLease (siteWorld items tools source world) ctx job target latestSnapshot) := by
  refine hJ.closed.tryFinally ?_ (hJ.region _ (h.quiet _ id _ fun _ => rfl))
  refine hJ.closed.bind (hJ.closed.tryCatch ?_ ?_) fun outcome => h.finishJob hJ _ _ _ _ _
  · exact hJ.region _ (h.fetchAndProcess tools source world ctx target latestSnapshot)
  · exact hJ.closed.bind (h.finishJob hJ _ _ _ _ _) fun _ => hJ.closed.fail

private theorem acquireAndCheck (ctx : CheckContext) (job : CheckJobId) (target : TargetRow) :
    J' CheckRunResult (acquireAndCheck (siteWorld items tools source world) ctx job target) := by
  refine h.aside hJ (fun _ => rfl) fun lease => ?_
  split
  · exact h.aside hJ (fun _ => rfl) fun _ => hJ.closed.ret _
  · exact h.aside hJ (fun _ => rfl) fun latestSnapshot =>
      h.checkUnderLease hJ tools source world ctx job target latestSnapshot

private theorem checkRobotsAndHost (ctx : CheckContext) (job : CheckJobId) (target : TargetRow) :
    J' CheckRunResult (checkRobotsAndHost (siteWorld items tools source world) ctx job target) := by
  refine h.aside hJ (fun _ => rfl) fun robotsMode => ?_
  refine h.aside hJ (fun _ => rfl) fun decision => ?_
  refine h.aside hJ (fun _ => rfl) fun evaluationId => ?_
  split
  · refine hJ.closed.bind ?_ fun count => ?_
    · unfold consecutiveUnavailable
      split
      · exact hJ.region _ (h.quiet _ id _ fun _ => rfl)
      · exact hJ.closed.ret 0
    refine h.aside hJ (fun _ => rfl) fun _ => ?_
    split
    · exact h.finishJob hJ _ _ _ _ _
    · refine h.aside hJ (fun _ => rfl) fun _ => ?_
      exact h.aside hJ (fun _ => rfl) fun _ => hJ.closed.ret _
  · exact h.acquireAndCheck hJ tools source world ctx job target

private theorem checkSource (ctx : CheckContext) (job : CheckJobId) :
    J' CheckRunResult (checkSource (siteWorld items tools source world) ctx job) := by
  refine hJ.closed.bind (hJ.region _ (h.upsertTarget _)) fun target => ?_
  refine hJ.closed.bind ?_ fun allowed => ?_
  · unfold ssrfAllowed
    split
    · exact hJ.region _ (h.quiet _ id _ fun _ => rfl)
    · exact hJ.closed.ret false
  split
  · exact h.aside hJ (fun _ => rfl) fun _ => h.finishJob hJ _ _ _ _ _
  · exact h.checkRobotsAndHost hJ tools source world ctx job target

omit hJ in
private theorem createCheckJobIfNew (id : CheckJobId) (trigger : Trigger) :
    J (InsertResult CheckJobRow) (createCheckJobIfNew id trigger) := by
  refine h.closed.bind (h.quiet _ _ _ fun _ => rfl) fun inserted => ?_
  cases inserted with
  | true => exact h.closed.ret _
  | false =>
    refine h.ask fun existing => ?_
    cases existing with
    | none => exact h.closed.fail
    | some row => exact h.closed.ret _

/-- The judgement holds of the whole check. -/
theorem check (monitorId : MonitorId) :
    J' CheckRunResult (runMonitorCheck (siteWorld items tools source world) monitorId) := by
  have horThrow : ∀ {α : Type} (answer : Option α), J' α (orThrow answer) := by
    intro α answer
    cases answer with
    | none => exact hJ.closed.fail
    | some a => exact hJ.closed.ret a
  refine h.aside hJ (fun _ => rfl) fun monitor => ?_
  refine hJ.closed.bind (horThrow monitor) fun monitor => ?_
  split
  · exact hJ.closed.ret _
  refine h.aside hJ (fun _ => rfl) fun source' => ?_
  refine hJ.closed.bind (horThrow source') fun source' => ?_
  refine h.aside hJ (fun _ => rfl) fun site => ?_
  refine hJ.closed.bind (horThrow site) fun site => ?_
  refine h.aside hJ (fun _ => rfl) fun policy => ?_
  refine hJ.closed.bind (horThrow policy) fun _ => ?_
  refine hJ.closed.bind (hJ.region _ (h.createCheckJobIfNew _ _)) fun jobResult => ?_
  split
  · exact hJ.closed.ret _
  refine h.aside hJ (fun _ => rfl) fun _ => ?_
  exact h.checkSource hJ tools source world _ _

end Check

end CheckParts

end Utsuroi

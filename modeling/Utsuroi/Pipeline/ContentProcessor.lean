import Utsuroi.Pipeline.Content
import Utsuroi.Pipeline.Frames
import Utsuroi.Pipeline.RunCheck

/-!
# The content processors of a run

What `runMonitorCheck` hands a fetched document to.  No processor writes the monitor or its
jobs.
-/

namespace Utsuroi

open Async Prog

section Frames

private theorem putIfAbsent_frames {present : Store → Bool} {put : Store → Store}
    (hput : ∀ s, (put s).control = s.control) :
    (putIfAbsent present put).Frames Store.control := by
  refine frames_bind (frames_query.mpr trivial) fun existing => ?_
  cases existing with
  | false => exact frames_call.mpr hput
  | true => trivial

private theorem storeDocument_frames (rawHash : Hash) (body : List UInt8) (textHash : Hash)
    (text : String) (row : SnapshotRow) :
    (storeDocument rawHash body textHash text row).Frames Store.control := by
  refine frames_bind (putIfAbsent_frames fun _ => rfl) fun _ => ?_
  refine frames_bind (putIfAbsent_frames fun _ => rfl) fun _ => ?_
  exact frames_call.mpr fun _ => rfl

private theorem stageFrames_control : StageFrames Store.control :=
  ⟨fun _ _ _ => rfl, fun _ _ => rfl, fun _ _ => rfl, fun _ _ _ => rfl⟩

private theorem detectFrames_control : DetectFrames Store.control :=
  ⟨fun _ _ => rfl, fun _ _ _ => rfl, fun _ _ => rfl⟩

private theorem recordChange_frames (ctx : CheckContext) (row : ChangeRow) (unifiedDiff : String) :
    (recordChange ctx row unifiedDiff).Frames Store.control := by
  refine frames_bind (insertChangeIfNew_frames (fun _ _ => rfl) row) fun inserted => ?_
  split
  · refine frames_bind (frames_call.mpr fun _ => rfl) fun _ => ?_
    exact notifyDetectedChanges_frames stageFrames_control ctx [] _
  · exact notifyDetectedChanges_frames stageFrames_control ctx [] _

private theorem getNormalized_frames (hash : Option Hash) :
    (getNormalized hash).Frames Store.control := by
  cases hash with
  | none => trivial
  | some hash => exact frames_query.mpr trivial

end Frames

section Processors

variable (items : ItemTools) (tools : ContentTools) (ctx : CheckContext) (input : ContentInput)

theorem processPageContent_frames :
    (processPageContent tools ctx input.target input.previousSnapshot input.outcome
      input.body).Frames Store.control := by
  refine frames_bind (storeDocument_frames _ _ _ _ _) fun snapshotId => ?_
  cases input.previousSnapshot with
  | none => trivial
  | some previousSnapshot =>
    dsimp only
    split
    · trivial
    · exact frames_bind (getNormalized_frames _) fun _ => recordChange_frames _ _ _

theorem processSitemapDirect_frames :
    (processSitemapDirect tools ctx input.target input.previousSnapshot input.outcome
      input.body).Frames Store.control := by
  unfold processSitemapDirect
  cases tools.parseSource input.body input.outcome.headerCharset with
  | none => trivial
  | some items =>
    refine frames_bind (storeDocument_frames _ _ _ _ _) fun snapshotId => ?_
    cases input.previousSnapshot with
    | none => trivial
    | some previousSnapshot =>
      dsimp only
      split
      · trivial
      split
      · trivial
      refine frames_bind (getNormalized_frames _) fun _ => ?_
      split
      · trivial
      · exact recordChange_frames _ _ _

private theorem items_frames (progress : CheckProgress) (list : List FeedItem)
    (summaryAsDiffPreview : Bool) :
    (processFeedItems items ctx progress list MAX_FEED_ITEMS_PER_CHECK
      summaryAsDiffPreview).Frames Store.control :=
  processFeedItems_frames items detectFrames_control stageFrames_control ctx progress list _ _

private theorem documentFrames_control : DocumentFrames Store.control :=
  ⟨fun _ _ => rfl, fun _ _ _ => rfl, fun _ _ _ => rfl, fun _ _ => rfl⟩

def pageContentProcessor : ContentProg (List ChangeId) :=
  ⟨_, (processPageContent_frames tools ctx input).comp Prod.fst⟩

def sitemapDirectProcessor : ContentProg (List ChangeId) :=
  ⟨_, (processSitemapDirect_frames tools ctx input).comp Prod.fst⟩

/-- The answer of item processing is `ctx.changeIds`. -/
def changeIdsOf (p : Prog Site Store CheckProgress) : Prog Site Store (List ChangeId) := do
  let progress ← p
  return progress.changeIds

private theorem changeIdsOf_frames {p : Prog Site Store CheckProgress}
    (h : p.Frames Store.control) : (changeIdsOf p).Frames Store.control :=
  frames_bind h fun _ => trivial

private theorem feed_frames : (changeIdsOf (processFeedContent items ctx input.target
    input.outcome input.body)).Frames Store.control :=
  changeIdsOf_frames (processFeedContent_frames (items_frames items ctx) documentFrames_control
    _ _ _)

private theorem pageItems_frames : (changeIdsOf (processPageItems items ctx input.target
    input.outcome input.body)).Frames Store.control :=
  changeIdsOf_frames (processPageItems_frames (items_frames items ctx) documentFrames_control
    _ _ _)

private theorem sitemapTraversal_frames : (changeIdsOf (processSitemapTraversal items ctx
    MAX_TRAVERSAL_FETCHES_PER_CHECK input.target input.outcome input.body)).Frames
      Store.control :=
  changeIdsOf_frames (processSitemapTraversal_frames (items_frames items ctx)
    documentFrames_control _ _ _ _)

def feedContentProcessor : ContentProg (List ChangeId) :=
  ⟨changeIdsOf (processFeedContent items ctx input.target input.outcome input.body),
    (feed_frames items ctx input).comp Prod.fst⟩

def pageItemsProcessor : ContentProg (List ChangeId) :=
  ⟨changeIdsOf (processPageItems items ctx input.target input.outcome input.body),
    (pageItems_frames items ctx input).comp Prod.fst⟩

def sitemapTraversalProcessor : ContentProg (List ChangeId) :=
  ⟨changeIdsOf (processSitemapTraversal items ctx MAX_TRAVERSAL_FETCHES_PER_CHECK input.target
      input.outcome input.body),
    (sitemapTraversal_frames items ctx input).comp Prod.fst⟩

inductive RecipeKey
  | pageExtract
  | pageContent
  | sitemapTraverse
  | sitemapDirect
  | feed
  deriving DecidableEq, Repr

def resolveRecipeKey (source : SourceRow) : RecipeKey :=
  match source.type with
  | .page =>
    if source.config.bind SourceConfig.pageMode = some .extract then .pageExtract else .pageContent
  | .sitemap | .sitemapIndex =>
    if source.config.bind SourceConfig.sitemapMode = some .traverse then .sitemapTraverse
    else .sitemapDirect
  | .rss | .atom => .feed

/-- The processor of the run's own source. -/
def resolveContentProcessor : ContentProg (List ChangeId) :=
  match resolveRecipeKey ctx.source with
  | .pageExtract => pageItemsProcessor items ctx input
  | .pageContent => pageContentProcessor tools ctx input
  | .sitemapTraverse => sitemapTraversalProcessor items ctx input
  | .sitemapDirect => sitemapDirectProcessor tools ctx input
  | .feed => feedContentProcessor items ctx input

end Processors

end Utsuroi

import Utsuroi.Framework.Frame
import Utsuroi.Pipeline.SitemapTraversal

/-!
# What item processing leaves alone

A view of the store that none of the writes of a stage touches is the same after the stage,
wherever it stops.
-/

namespace Utsuroi

open Async Prog

section Stages

variable {γ : Type} {view : Store → γ}

theorem insertChangeIfNew_frames (hinsert : ∀ row s, view (Store.insertChange row s) = view s)
    (row : ChangeRow) : (insertChangeIfNew row).Frames view := by
  apply frames_bind (frames_call.mpr (hinsert row))
  intro inserted
  cases inserted with
  | true => trivial
  | false =>
    apply frames_bind (frames_query.mpr trivial)
    intro existing
    cases existing <;> trivial

private theorem createDeliveryIfNew_frames
    (hinsert : ∀ id s, view (Store.insertDelivery id s) = view s) (changeId : ChangeId)
    (destinationId : DestinationId) :
    (createDeliveryIfNew changeId destinationId).Frames view := by
  apply frames_bind (frames_call.mpr (hinsert _))
  intro inserted
  cases inserted with
  | true => trivial
  | false =>
    apply frames_bind (frames_query.mpr trivial)
    intro existing
    cases existing <;> trivial

theorem fanoutChange_frames (hinsert : ∀ id s, view (Store.insertDelivery id s) = view s)
    (hsend : ∀ id s, view (Store.send id s) = view s) (ctx : CheckContext) (change : ChangeRow) :
    (fanoutChange ctx change).Frames view := by
  apply frames_bind (frames_query.mpr trivial)
  intro subs
  apply frames_forM
  intro sub
  apply frames_bind (createDeliveryIfNew_frames hinsert _ _)
  intro delivery
  split
  · exact frames_call.mpr (hsend _)
  · trivial

/-- The writes of the stages after Detect. -/
structure StageFrames (view : Store → γ) : Prop where
  updateChange : ∀ id f s, view (Store.updateChange id f s) = view s
  insertDelivery : ∀ id s, view (Store.insertDelivery id s) = view s
  send : ∀ id s, view (Store.send id s) = view s
  advance : ∀ id updatedAt s, view (Store.updateTarget id (advanceWatermark updatedAt) s) = view s

theorem notifyDetectedChanges_frames (h : StageFrames view) (ctx : CheckContext)
    (changeIds : List ChangeId) (detected : List DetectedChange) :
    (notifyDetectedChanges ctx changeIds detected).Frames view := by
  apply frames_foldlM
  intro changeIds d
  apply frames_bind (fanoutChange_frames h.insertDelivery h.send ctx d.row)
  intro _
  cases d.watermarkAdvance with
  | none => trivial
  | some advance => exact frames_bind (frames_call.mpr (h.advance _ _)) fun _ => trivial

variable (tools : ItemTools)

theorem fetchTitleForUrl_frames (url : Url) :
    (fetchTitleForUrl tools url).Frames view := by
  have htitle : ∀ page, (titleOf tools page).Frames view := by
    intro page
    unfold titleOf
    cases page.body with
    | none => trivial
    | some body =>
      dsimp only
      split
      · trivial
      · exact frames_query.mpr trivial
  have hfetch : (fetchTitle tools url).Frames view := by
    apply frames_bind (frames_query.mpr trivial)
    intro page
    cases page with
    | none => trivial
    | some page => exact htitle page
  unfold fetchTitleForUrl
  split
  · trivial
  apply frames_bind (frames_query.mpr trivial)
  intro resolved
  split
  · trivial
  split
  · trivial
  apply frames_bind (frames_query.mpr trivial)
  intro robotsMode
  apply frames_bind (frames_query.mpr trivial)
  intro decision
  split
  · trivial
  · exact hfetch

theorem enrichDetectedChanges_frames
    (hchange : ∀ id f s, view (Store.updateChange id f s) = view s) (used : Nat)
    (detected : List DetectedChange) :
    (enrichDetectedChanges tools used detected).Frames view := by
  have hrow : ∀ row, (enrichRow tools row).Frames view := by
    intro row
    apply frames_bind (fetchTitleForUrl_frames tools _)
    intro title
    cases title with
    | none => trivial
    | some title => exact frames_bind (frames_call.mpr (hchange _ _)) fun _ => trivial
  apply frames_foldlM
  intro st d
  unfold enrichDetectedChange
  split
  · trivial
  · exact frames_bind (frames_tryCatch (hrow _) trivial) fun _ => trivial

theorem classifyDetectedChanges_frames
    (hchange : ∀ id f s, view (Store.updateChange id f s) = view s) (ctx : CheckContext)
    (detected : List DetectedChange) :
    (classifyDetectedChanges tools ctx detected).Frames view := by
  have hset : ∀ id tags, (setChangeTagsIfNull id tags).Frames view := by
    intro id tags
    apply frames_bind (frames_call.mpr (hchange _ _))
    intro written
    cases written with
    | true => trivial
    | false => exact frames_query.mpr trivial
  unfold classifyDetectedChanges
  cases ctx.source.config.bind SourceConfig.classify with
  | none => trivial
  | some classify =>
    apply frames_foldlM
    intro done d
    unfold classifyDetectedChange
    split
    · trivial
    · exact frames_bind (frames_tryCatch (hset _ _) trivial) fun _ => trivial

theorem processDetected_frames (h : StageFrames view) (ctx : CheckContext)
    (progress : CheckProgress) (detected : List DetectedChange) :
    (processDetected tools ctx progress detected).Frames view := by
  apply frames_bind (enrichDetectedChanges_frames tools h.updateChange _ _)
  intro enriched
  apply frames_bind (classifyDetectedChanges_frames tools h.updateChange _ _)
  intro classified
  exact frames_bind (notifyDetectedChanges_frames h _ _ _) fun _ => trivial

/-- The writes of the Detect stage. -/
structure DetectFrames (view : Store → γ) : Prop where
  insertTarget : ∀ input s, view (Store.insertTarget input s) = view s
  updateTarget : ∀ id f s, view (Store.updateTarget id f s) = view s
  insertChange : ∀ row s, view (Store.insertChange row s) = view s

theorem upsertTarget_frames (hinsert : ∀ input s, view (Store.insertTarget input s) = view s)
    (hupdate : ∀ id f s, view (Store.updateTarget id f s) = view s) (input : CreateTargetInput) :
    (upsertTarget input).Frames view := by
  unfold upsertTarget
  apply frames_bind (frames_call.mpr (hinsert input))
  intro inserted
  cases inserted with
  | true => trivial
  | false =>
    simp only [Bool.false_eq_true, if_false]
    cases input.lastKnownUpdatedAt with
    | none =>
      apply frames_bind (frames_query.mpr trivial)
      intro existing
      cases existing <;> trivial
    | some lastKnownUpdatedAt =>
      apply frames_bind (frames_call.mpr (hupdate _ _))
      intro _
      apply frames_bind (frames_query.mpr trivial)
      intro existing
      cases existing <;> trivial

theorem detectFeedChanges_frames (h : DetectFrames view) (ctx : CheckContext)
    (summaryAsDiffPreview : Bool) (maxItems : Nat) (items : List FeedItem) :
    (detectFeedChanges tools ctx summaryAsDiffPreview maxItems items).Frames view := by
  have htarget : ∀ previous target item,
      (detectOnTarget ctx summaryAsDiffPreview previous target item).Frames view := by
    intro previous target item
    unfold detectOnTarget
    split
    · trivial
    split
    · exact frames_bind (insertChangeIfNew_frames h.insertChange _) fun _ => trivial
    split
    · trivial
    · exact frames_bind (insertChangeIfNew_frames h.insertChange _) fun _ => trivial
  apply frames_foldlM
  intro detected item
  unfold detectFeedChange
  cases targetUrl tools item with
  | none => trivial
  | some url =>
    refine frames_bind ?_ fun _ => trivial
    apply frames_bind (frames_query.mpr trivial)
    intro previous
    apply frames_bind (upsertTarget_frames h.insertTarget h.updateTarget _)
    intro target
    apply frames_bind (frames_call.mpr (h.updateTarget _ _))
    intro _
    exact htarget _ _ _

theorem processFeedItems_frames (hdetect : DetectFrames view) (hstage : StageFrames view)
    (ctx : CheckContext) (progress : CheckProgress) (items : List FeedItem) (maxItems : Nat)
    (summaryAsDiffPreview : Bool) :
    (processFeedItems tools ctx progress items maxItems summaryAsDiffPreview).Frames view := by
  apply frames_bind (detectFeedChanges_frames tools hdetect ctx _ _ _)
  intro detected
  exact frames_bind (processDetected_frames tools hstage ctx _ _) fun _ => trivial

/-! ## Documents -/

theorem putBody_frames
    (hput : ∀ hash body s, view { s with bodies := Function.update s.bodies hash body } = view s)
    (hash : Hash) (body : List UInt8) : (putBody hash body).Frames view := by
  apply frames_bind (frames_query.mpr trivial)
  intro existing
  cases existing with
  | false => exact frames_call.mpr fun _ => hput _ _ _
  | true => trivial

/-- The writes around the processing of items. -/
structure DocumentFrames (view : Store → γ) : Prop where
  insertTarget : ∀ input s, view (Store.insertTarget input s) = view s
  updateTarget : ∀ id f s, view (Store.updateTarget id f s) = view s
  putBody : ∀ hash body s, view { s with bodies := Function.update s.bodies hash body } = view s
  addSnapshot : ∀ row s, view (Store.addSnapshot row s) = view s

section Traversal

variable {tools} {ctx : CheckContext}
  (hitems : ∀ progress items summaryAsDiffPreview, (processFeedItems tools ctx progress items
    MAX_FEED_ITEMS_PER_CHECK summaryAsDiffPreview).Frames view)
  (h : DocumentFrames view)
include hitems h

private theorem expandChild_frames (cutoffIso : String) (nested : Nested)
    (hnested : ∀ traverse, nested = some traverse → ∀ parsed st, (traverse parsed st).Frames view)
    (id : TargetId) (lastmod : String) (parsed : AdapterParseResult) (st : TraversalState) :
    (expandChild tools ctx cutoffIso nested id lastmod parsed st).Frames view := by
  have hadvance : ∀ st, (advanceChild id lastmod st).Frames view := fun st =>
    frames_bind (frames_call.mpr (h.updateTarget _ _)) fun _ => trivial
  unfold expandChild
  split
  · unfold expandUrlset
    dsimp only
    split
    · exact hadvance _
    · apply frames_bind (hitems _ _ _)
      intro result
      split
      · trivial
      · exact hadvance _
  · unfold expandIndex
    cases hcase : nested with
    | none => trivial
    | some traverse =>
      apply frames_bind (hnested traverse hcase _ _)
      intro st'
      split
      · trivial
      · exact hadvance _

private theorem visitChild_frames (cutoffIso : String) (maxFetchesPerCheck : Nat) (nested : Nested)
    (hnested : ∀ traverse, nested = some traverse → ∀ parsed st, (traverse parsed st).Frames view)
    (id : TargetId) (child : SelectedChildEntry) (st : TraversalState) :
    (visitChild tools ctx cutoffIso maxFetchesPerCheck nested id child st).Frames view := by
  have hbody : ∀ outcome st,
      (processChildBody tools ctx cutoffIso nested id child outcome st).Frames view := by
    intro outcome st
    unfold processChildBody
    split
    · trivial
    apply frames_bind (frames_call.mpr (h.updateTarget _ _))
    intro _
    split
    · split
      · trivial
      · exact expandChild_frames hitems h _ _ hnested _ _ _ _
    · trivial
  have hfetch : ∀ st,
      (fetchChild tools ctx cutoffIso maxFetchesPerCheck nested id child st).Frames view := by
    intro st
    unfold fetchChild
    split
    · trivial
    apply frames_bind (frames_query.mpr trivial)
    intro latest
    apply frames_bind (frames_query.mpr trivial)
    intro outcome
    exact hbody _ _
  unfold visitChild
  split
  · trivial
  apply frames_bind (frames_query.mpr trivial)
  intro resolved
  split
  · trivial
  split
  · trivial
  apply frames_bind (frames_query.mpr trivial)
  intro robotsMode
  apply frames_bind (frames_query.mpr trivial)
  intro decision
  split
  · trivial
  · exact hfetch _

private theorem traverseChildren_frames (cutoffIso : String) (maxFetchesPerCheck : Nat)
    (nested : Nested)
    (hnested : ∀ traverse, nested = some traverse → ∀ parsed st, (traverse parsed st).Frames view)
    (parsed : AdapterParseResult) (st : TraversalState) :
    (traverseChildren tools ctx cutoffIso maxFetchesPerCheck nested parsed st).Frames view := by
  apply frames_foldlM
  intro st child
  unfold traverseChild
  split
  · trivial
  apply frames_bind (frames_query.mpr trivial)
  intro previous
  apply frames_bind (upsertTarget_frames h.insertTarget h.updateTarget _)
  intro target
  split
  · exact frames_bind (frames_call.mpr (h.updateTarget _ _)) fun _ => trivial
  · exact visitChild_frames hitems h _ _ _ hnested _ _ _

theorem traverseSitemapIndex_frames (cutoffIso : String) (maxFetchesPerCheck levels : Nat)
    (parsed : AdapterParseResult) (st : TraversalState) :
    (traverseSitemapIndex tools ctx cutoffIso maxFetchesPerCheck levels parsed st).Frames view := by
  induction levels generalizing parsed st with
  | zero => exact traverseChildren_frames hitems h _ _ none (fun _ h => by cases h) _ _
  | succ levels ih =>
    refine traverseChildren_frames hitems h _ _ _ ?_ _ _
    intro traverse htraverse
    cases htraverse
    exact ih

theorem processSitemapTraversal_frames (maxFetchesPerCheck : Nat) (target : TargetRow)
    (outcome : FetchSuccess) (body : List UInt8) :
    (processSitemapTraversal tools ctx maxFetchesPerCheck target outcome body).Frames view := by
  have hsource : ∀ parsed, (traverseSource tools ctx maxFetchesPerCheck parsed).Frames view := by
    intro parsed
    unfold traverseSource
    dsimp only
    split
    · split
      · trivial
      · exact frames_bind (hitems _ _ _) fun _ => trivial
    · exact traverseSitemapIndex_frames hitems h _ _ _ _ _
  apply frames_bind (putBody_frames h.putBody _ _)
  intro _
  split
  · trivial
  apply frames_bind (frames_call.mpr (h.addSnapshot _))
  intro _
  apply frames_bind (hsource _)
  intro st
  refine frames_bind ?_ fun _ => trivial
  unfold recordTruncationIfAny
  split
  · trivial
  · exact frames_query.mpr trivial

theorem processFeedContent_frames (target : TargetRow) (outcome : FetchSuccess)
    (body : List UInt8) : (processFeedContent tools ctx target outcome body).Frames view := by
  apply frames_bind (putBody_frames h.putBody _ _)
  intro _
  split
  · trivial
  apply frames_bind (frames_call.mpr (h.addSnapshot _))
  intro _
  exact frames_bind (hitems _ _ _) fun _ => trivial

theorem processPageItems_frames (target : TargetRow) (outcome : FetchSuccess)
    (body : List UInt8) : (processPageItems tools ctx target outcome body).Frames view := by
  unfold processPageItems
  split
  · trivial
  apply frames_bind (frames_query.mpr trivial)
  intro extracted
  apply frames_bind (hitems _ _ _)
  intro result
  exact frames_bind (frames_call.mpr (h.addSnapshot _)) fun _ => trivial

end Traversal

/-! ## The baseline -/

/-- The first check of a monitor inserts no change, sends nothing and delivers nothing. -/
theorem processFeedItems_frames_baseline (ctx : CheckContext)
    (hbaseline : ctx.monitor.lastCheckedAt = none)
    (hinsert : ∀ input s, view (Store.insertTarget input s) = view s)
    (hupdate : ∀ id f s, view (Store.updateTarget id f s) = view s) (progress : CheckProgress)
    (items : List FeedItem) (maxItems : Nat) (summaryAsDiffPreview : Bool) :
    (processFeedItems tools ctx progress items maxItems summaryAsDiffPreview).Frames view := by
  have htarget : ∀ previous target item,
      detectOnTarget ctx summaryAsDiffPreview previous target item = pure none := by
    intro previous target item
    simp [detectOnTarget, hbaseline]
  have hitem : ∀ url item, (detectItem ctx summaryAsDiffPreview url item).Frames view := by
    intro url item
    apply frames_bind (frames_query.mpr trivial)
    intro previous
    apply frames_bind (upsertTarget_frames hinsert hupdate _)
    intro target
    apply frames_bind (frames_call.mpr (hupdate _ _))
    intro _
    rw [htarget]
    trivial
  have hnone : ∀ url item,
      (detectItem ctx summaryAsDiffPreview url item).Answers fun d => d = none := by
    intro url item
    apply answers_bind
    intro previous
    apply answers_bind
    intro target
    apply answers_bind
    intro _
    rw [htarget]
    exact rfl
  have hdetect : (detectFeedChanges tools ctx summaryAsDiffPreview maxItems items).Frames view := by
    apply frames_foldlM
    intro detected item
    unfold detectFeedChange
    split
    · trivial
    · exact frames_bind (hitem _ _) fun _ => trivial
  have hempty : (detectFeedChanges tools ctx summaryAsDiffPreview maxItems items).Answers
      fun detected => detected = [] := by
    refine answers_foldlM rfl ?_
    rintro detected item rfl
    unfold detectFeedChange
    split
    · exact rfl
    · refine answers_bind_of_answers (hnone _ _) ?_
      rintro d rfl
      exact rfl
  refine frames_bind_of_answers hdetect hempty ?_
  rintro detected rfl
  refine frames_bind ?_ fun _ => trivial
  unfold processDetected classifyDetectedChanges
  cases ctx.source.config.bind SourceConfig.classify <;> trivial

end Stages

end Utsuroi

import Utsuroi.Framework.Passing
import Utsuroi.Pipeline.ContentHistory
import Utsuroi.Pipeline.Undisturbed

/-!
# What the content processors have in common

A page and a Sitemap Direct document are stored in the same way, and both report at most one
change, that of the snapshot the check found.
-/

namespace Utsuroi

open Async Prog

/-! ## Plans -/

/-- What a body is made into before the store is looked at. -/
structure DocumentPlan where
  targetId : TargetId
  rawHash : Hash
  body : List UInt8
  textHash : Hash
  text : String
  snapshot : Nat → FetchSuccess → SnapshotRow
  /-- a monitor that was never checked reports nothing -/
  skipsBaseline : Bool
  /-- whether the text of a previous snapshot is looked at -/
  differs : SnapshotRow → Bool
  /-- the change and its diff, given the previous snapshot, the new one and the previous text -/
  report : MonitorId → SnapshotRow → SnapshotId → String → Option (ChangeRow × String)
  snapshot_targetId : ∀ now outcome, (snapshot now outcome).targetId = targetId
  snapshot_fetchedAt : ∀ now outcome, (snapshot now outcome).fetchedAt = now
  /-- a snapshot of the same body does not differ -/
  differs_own : ∀ now outcome id, differs { snapshot now outcome with id := id } = false

namespace DocumentPlan

variable (plan : DocumentPlan) (ctx : CheckContext)

def compares (previous : SnapshotRow) : Bool :=
  (!plan.skipsBaseline || ctx.monitor.lastCheckedAt.isSome) && plan.differs previous

def reportOn (previous : SnapshotRow) (snapshotId : SnapshotId) : Prog Site Store (List ChangeId) :=
  do
    let previousText ← getNormalized previous.normalizedR2Key
    match plan.report ctx.monitor.id previous snapshotId previousText with
    | none => return []
    | some (row, unifiedDiff) => recordChange ctx row unifiedDiff

def process (previousSnapshot : Option SnapshotRow) (outcome : FetchSuccess) :
    Prog Site Store (List ChangeId) := do
  let snapshotId ← storeDocument plan.rawHash plan.body plan.textHash plan.text
    (plan.snapshot ctx.now outcome)
  match previousSnapshot with
  | none => return []
  | some previous =>
    if plan.compares ctx previous then plan.reportOn ctx previous snapshotId else return []

end DocumentPlan

def pageReport (tools : ContentTools) (targetId : TargetId) (normalized : NormalizedContent)
    (monitorId : MonitorId) (previous : SnapshotRow) (snapshotId : SnapshotId)
    (previousText : String) : ChangeRow × String :=
  let cmp := compareSnapshots (previousContent previous normalized) normalized
  let diff := tools.diffText previousText normalized.extractedText
  let id : ChangeId :=
    ⟨monitorId,
      if cmp.level = some .textHash then normalized.textHash else normalized.normalizedHash⟩
  ({ id := id
     targetId := some targetId
     targetUrl := targetId.url
     kind := .updated
     diffLevel := cmp.level
     previousSnapshotId := some previous.id
     snapshotId := some snapshotId
     diffR2Key := if diff.unifiedDiff != "" then some id else none
     diffPreview :=
       if diff.unifiedDiff != "" then
         some (truncateDiffPreview diff.unifiedDiff DIFF_PREVIEW_MAX_CHARS)
       else none
     title := none
     tags := none }, diff.unifiedDiff)

def pagePlan (tools : ContentTools) (targetId : TargetId) (body : List UInt8)
    (headerCharset : Option String) : DocumentPlan where
  targetId := targetId
  rawHash := (tools.normalizeHtml body headerCharset).rawHash
  body := body
  textHash := (tools.normalizeHtml body headerCharset).textHash
  text := (tools.normalizeHtml body headerCharset).extractedText
  snapshot now outcome := pageSnapshot targetId now outcome (tools.normalizeHtml body headerCharset)
  skipsBaseline := false
  differs previous :=
    (compareSnapshots (previousContent previous (tools.normalizeHtml body headerCharset))
      (tools.normalizeHtml body headerCharset)).changed
  report monitorId previous snapshotId previousText :=
    some (pageReport tools targetId (tools.normalizeHtml body headerCharset) monitorId previous snapshotId
      previousText)
  snapshot_targetId _ _ := rfl
  snapshot_fetchedAt _ _ := rfl
  differs_own _ _ _ := by simp [compareSnapshots, previousContent, pageSnapshot]

def sitemapReport (tools : ContentTools) (targetId : TargetId) (document : String)
    (monitorId : MonitorId) (previous : SnapshotRow) (snapshotId : SnapshotId)
    (previousDocument : String) : Option (ChangeRow × String) :=
  let diff := tools.diffText previousDocument document
  if !diff.changed then none
  else
    let id : ChangeId := ⟨monitorId, tools.sha256Text document⟩
    let summary := sitemapSummary diff
    some
      ({ id := id
         targetId := some targetId
         targetUrl := targetId.url
         kind := .updated
         diffLevel := some .textHash
         previousSnapshotId := some previous.id
         snapshotId := some snapshotId
         diffR2Key := if diff.unifiedDiff != "" then some id else none
         diffPreview :=
           if diff.unifiedDiff != "" then
             some (summary ++ "\n" ++
               truncateDiffPreview diff.unifiedDiff DIFF_PREVIEW_MAX_CHARS)
           else some summary
         title := some summary
         tags := none }, diff.unifiedDiff)

def sitemapPlan (tools : ContentTools) (targetId : TargetId) (body : List UInt8)
    (items : List FeedItem) : DocumentPlan where
  targetId := targetId
  rawHash := tools.sha256Bytes body
  body := body
  textHash := tools.sha256Text (buildSitemapDocument items)
  text := buildSitemapDocument items
  snapshot now outcome := sitemapSnapshot targetId now outcome (tools.sha256Bytes body)
    (tools.sha256Text (buildSitemapDocument items))
  skipsBaseline := true
  differs previous :=
    decide (previous.textHash ≠ some (tools.sha256Text (buildSitemapDocument items)))
  report := sitemapReport tools targetId (buildSitemapDocument items)
  snapshot_targetId _ _ := rfl
  snapshot_fetchedAt _ _ := rfl
  differs_own _ _ _ := by simp [sitemapSnapshot]

inductive ContentMode
  | page
  | sitemapDirect
  deriving DecidableEq, Repr

def contentProcessor (tools : ContentTools) : ContentMode → ContentProcessor
  | .page => processPageContent tools
  | .sitemapDirect => processSitemapDirect tools

/-- `none` for a sitemap that does not parse. -/
def contentPlan (tools : ContentTools) (mode : ContentMode) (targetId : TargetId)
    (body : List UInt8) (headerCharset : Option String) : Option DocumentPlan :=
  match mode with
  | .page => some (pagePlan tools targetId body headerCharset)
  | .sitemapDirect => (tools.parseSource body headerCharset).map (sitemapPlan tools targetId body)

section Processors

variable (tools : ContentTools) (ctx : CheckContext) (target : TargetRow)
  (previousSnapshot : Option SnapshotRow) (outcome : FetchSuccess) (body : List UInt8)

theorem processPageContent_eq :
    processPageContent tools ctx target previousSnapshot outcome body =
      (pagePlan tools target.id body outcome.headerCharset).process ctx previousSnapshot outcome := by
  unfold processPageContent DocumentPlan.process
  dsimp only
  congr 1
  funext snapshotId
  cases previousSnapshot with
  | none => rfl
  | some previous =>
    cases hchanged : (pagePlan tools target.id body outcome.headerCharset).differs previous with
    | false =>
      have hcmp : (compareSnapshots (previousContent previous (tools.normalizeHtml body outcome.headerCharset))
          (tools.normalizeHtml body outcome.headerCharset)).changed = false := hchanged
      simp [DocumentPlan.compares, hchanged, hcmp]
    | true =>
      have hcmp : (compareSnapshots (previousContent previous (tools.normalizeHtml body outcome.headerCharset))
          (tools.normalizeHtml body outcome.headerCharset)).changed = true := hchanged
      simp only [DocumentPlan.compares, hchanged, hcmp, Bool.and_true, Bool.not_true,
        Bool.false_eq_true, if_false]
      rfl

theorem processSitemapDirect_eq {items : List FeedItem} (hitems : tools.parseSource body outcome.headerCharset = some items) :
    processSitemapDirect tools ctx target previousSnapshot outcome body =
      (sitemapPlan tools target.id body items).process ctx previousSnapshot outcome := by
  unfold processSitemapDirect DocumentPlan.process
  simp only [hitems]
  congr 1
  funext snapshotId
  cases previousSnapshot with
  | none => rfl
  | some previous =>
    cases hlast : ctx.monitor.lastCheckedAt with
    | none => simp [DocumentPlan.compares, hlast, sitemapPlan]
    | some lastCheckedAt =>
      by_cases hhash : previous.textHash = some (tools.sha256Text (buildSitemapDocument items))
      · simp [DocumentPlan.compares, hlast, sitemapPlan, hhash]
      · simp only [DocumentPlan.compares, hlast, sitemapPlan, hhash, reduceCtorEq, if_false,
          Option.isSome_some, Bool.or_true, Bool.true_and, ne_eq, not_false_eq_true, decide_true,
          if_true, DocumentPlan.reportOn]
        congr 1
        funext previousDocument
        simp only [sitemapReport]
        cases (tools.diffText previousDocument (buildSitemapDocument items)).changed <;> rfl

/-- Both processors carry out the plan of their document. -/
theorem contentProcessor_eq (mode : ContentMode) :
    contentProcessor tools mode ctx target previousSnapshot outcome body =
      match contentPlan tools mode target.id body outcome.headerCharset with
      | none => .ret []
      | some plan => plan.process ctx previousSnapshot outcome := by
  cases mode with
  | page => exact processPageContent_eq tools ctx target previousSnapshot outcome body
  | sitemapDirect =>
    cases hitems : tools.parseSource body outcome.headerCharset with
    | none => simp [contentProcessor, contentPlan, processSitemapDirect, hitems]
    | some items =>
      simp only [contentProcessor, contentPlan, hitems, Option.map_some]
      exact processSitemapDirect_eq tools ctx target previousSnapshot outcome body hitems

end Processors

end Utsuroi

import Utsuroi.Pipeline.Feed

/-!
# Item processing when nothing disturbs it

Each stage as a function of the store.  The theorems say that a program whose calls all
succeed comes to that function.
-/

namespace Utsuroi

open Async Prog

/-! ## Detect -/

/-- Rows are stored under their own keys. -/
def Store.Keyed (s : Store) : Prop :=
  (∀ id row, s.targets id = some row → row.id = id) ∧
    ∀ id row, s.changes id = some row → row.id = id

section Detect

variable (tools : ItemTools) (ctx : CheckContext) (summaryAsDiffPreview : Bool)

/-- The target of an item is there and has been checked. -/
def Store.recordItem (url : Url) (item : FeedItem) (s : Store) : Store :=
  Store.updateTarget ⟨ctx.monitor.id, url⟩ (fun row => { row with lastCheckedAt := some ctx.now })
    (Store.insertTarget ⟨⟨ctx.monitor.id, url⟩, some item.stableKey, some item.updatedAt⟩ s)

/-- A change asked for, and what it will advance. -/
structure ChangeRequest where
  row : ChangeRow
  watermarkAdvance : Option (TargetId × String)

/-- The change of an item, named by its target alone. -/
def requestOf (id : TargetId) (item : FeedItem) (kind : ChangeKind) (dedupeKey : String) :
    ChangeRow :=
  itemChange ctx summaryAsDiffPreview (newTarget ⟨id, none, none⟩) item kind dedupeKey

/-- What an item asks for, given the watermark its target was found with. -/
def changeRequest (url : Url) (item : FeedItem) (previous : ExistingTargetWatermark) :
    Option ChangeRequest :=
  let id : TargetId := ⟨ctx.monitor.id, url⟩
  if ctx.monitor.lastCheckedAt.isNone then none
  else if !previous.present then
    some ⟨requestOf ctx summaryAsDiffPreview id item .new item.stableKey, none⟩
  else
    (updateOf item previous).map fun updatedAt =>
      ⟨requestOf ctx summaryAsDiffPreview id item .updated (updatedKey item updatedAt),
        some (id, updatedAt)⟩

def existingTarget (id : TargetId) (s : Store) : ExistingTargetWatermark :=
  match s.targets id with
  | some row => ⟨true, row.lastKnownUpdatedAt⟩
  | none => ⟨false, none⟩

/-- How a change asked for is found or made. -/
def detectedAs (s : Store) (item : FeedItem) (request : ChangeRequest) : DetectedChange :=
  match s.changes request.row.id with
  | none => ⟨request.row, true, request.watermarkAdvance, some item⟩
  | some old => ⟨old, false, request.watermarkAdvance, some item⟩

def Store.insertRequest (request : Option ChangeRequest) (s : Store) : Store :=
  match request with
  | none => s
  | some request => s.insertChange request.row

/-- Detect for one item: what it finds and what it leaves. -/
def Store.detect (url : Url) (item : FeedItem) (s : Store) : Option DetectedChange × Store :=
  let request := changeRequest ctx summaryAsDiffPreview url item
    (existingTarget ⟨ctx.monitor.id, url⟩ s)
  (request.map (detectedAs s item), (s.recordItem ctx url item).insertRequest request)

def Store.detectNext (st : List DetectedChange × Store) (item : FeedItem) :
    List DetectedChange × Store :=
  match targetUrl tools item with
  | none => st
  | some url =>
    let (d, s) := st.2.detect ctx summaryAsDiffPreview url item
    (st.1 ++ d.toList, s)

/-- Detect for a list of items. -/
def Store.detectAll (items : List FeedItem) (s : Store) : List DetectedChange × Store :=
  items.foldl (Store.detectNext tools ctx summaryAsDiffPreview) ([], s)

end Detect

/-! ### The programs come to these functions -/

theorem run_upsertTarget_none {input : CreateTargetInput} {s : Store}
    (h : s.targets input.id = none) :
    (upsertTarget input).run s = (some (newTarget input), s.insertTarget input) := by
  simp [upsertTarget, run_bind, h]

theorem run_upsertTarget_some {input : CreateTargetInput} {row : TargetRow} {s : Store}
    (h : s.targets input.id = some row) (hkeep : input.lastKnownUpdatedAt = none) :
    (upsertTarget input).run s = (some row, s) := by
  have hsame : s.insertTarget input = s := by
    unfold Store.insertTarget
    rw [insertIfNew_of_some h]
  simp [upsertTarget, run_bind, h, hkeep, hsame]

theorem run_insertChangeIfNew (row : ChangeRow) (s : Store) :
    (insertChangeIfNew row).run s =
      (some (match s.changes row.id with
        | none => ⟨true, row⟩
        | some old => ⟨false, old⟩), s.insertChange row) := by
  cases h : s.changes row.id with
  | none => simp [insertChangeIfNew, run_bind, h]
  | some old =>
    have hkept : (s.insertChange row).changes row.id = some old := insertIfNew_keeps h
    simp [insertChangeIfNew, run_bind, h, hkept]

section Runs

variable (tools : ItemTools) (ctx : CheckContext) (summaryAsDiffPreview : Bool)

theorem run_detectOnTarget (previous : ExistingTargetWatermark) (target : TargetRow)
    (item : FeedItem) (url : Url) (htarget : target.id = ⟨ctx.monitor.id, url⟩) (s : Store) :
    (detectOnTarget ctx summaryAsDiffPreview previous target item).run s =
      (some ((changeRequest ctx summaryAsDiffPreview url item previous).map (detectedAs s item)),
        s.insertRequest (changeRequest ctx summaryAsDiffPreview url item previous)) := by
  have hrow : ∀ kind key, itemChange ctx summaryAsDiffPreview target item kind key =
      requestOf ctx summaryAsDiffPreview ⟨ctx.monitor.id, url⟩ item kind key := by
    intro kind key
    simp [itemChange, requestOf, newTarget, htarget]
  have hinsert : ∀ request : ChangeRequest, ∀ s : Store,
      (insertChangeIfNew request.row >>= fun inserted => pure (some
        (⟨inserted.row, inserted.inserted, request.watermarkAdvance, some item⟩ :
          DetectedChange))).run s =
        (some (some (detectedAs s item request)), s.insertChange request.row) := by
    intro request s
    rw [run_bind, run_insertChangeIfNew]
    unfold detectedAs
    cases s.changes request.row.id <;> rfl
  unfold detectOnTarget changeRequest
  by_cases hbase : ctx.monitor.lastCheckedAt.isNone = true
  · simp [hbase, Store.insertRequest]
  · simp only [hbase, Bool.false_eq_true, if_false]
    by_cases hnew : (!previous.present) = true
    · simp only [hnew, if_true, hrow]
      exact hinsert ⟨_, none⟩ s
    · simp only [hnew, Bool.false_eq_true, if_false]
      cases updateOf item previous with
      | none => rfl
      | some updatedAt =>
        simp only [hrow, htarget]
        exact hinsert ⟨_, some (⟨ctx.monitor.id, url⟩, updatedAt)⟩ s

theorem run_detectItem (url : Url) (item : FeedItem) {s : Store} (hs : s.Keyed) :
    (detectItem ctx summaryAsDiffPreview url item).run s =
      (some (s.detect ctx summaryAsDiffPreview url item).1,
        (s.detect ctx summaryAsDiffPreview url item).2) := by
  have hupsert : ∃ row : TargetRow, row.id = ⟨ctx.monitor.id, url⟩ ∧
      (upsertTarget ⟨⟨ctx.monitor.id, url⟩, some item.stableKey,
        if (existingTarget ⟨ctx.monitor.id, url⟩ s).present then none
        else some item.updatedAt⟩).run s =
        (some row, Store.insertTarget
          ⟨⟨ctx.monitor.id, url⟩, some item.stableKey, some item.updatedAt⟩ s) := by
    cases h : s.targets ⟨ctx.monitor.id, url⟩ with
    | none =>
      refine ⟨newTarget ⟨⟨ctx.monitor.id, url⟩, some item.stableKey, some item.updatedAt⟩, rfl, ?_⟩
      have hnew := run_upsertTarget_none
        (show s.targets (CreateTargetInput.mk ⟨ctx.monitor.id, url⟩ (some item.stableKey)
          (some item.updatedAt)).id = none from h)
      simpa [existingTarget, h] using hnew
    | some row =>
      refine ⟨row, hs.1 _ _ h, ?_⟩
      have hsame : Store.insertTarget
          ⟨⟨ctx.monitor.id, url⟩, some item.stableKey, some item.updatedAt⟩ s = s := by
        unfold Store.insertTarget
        rw [insertIfNew_of_some h]
      rw [hsame]
      have hold := run_upsertTarget_some
        (show s.targets (CreateTargetInput.mk ⟨ctx.monitor.id, url⟩ (some item.stableKey)
          none).id = some row from h) rfl
      simpa [existingTarget, h] using hold
  obtain ⟨row, hid, hrun⟩ := hupsert
  have hprevious : (getExistingTargetWatermark ⟨ctx.monitor.id, url⟩).run s =
      (some (existingTarget ⟨ctx.monitor.id, url⟩ s), s) := rfl
  unfold detectItem
  rw [run_bind_of_run hprevious, run_bind_of_run hrun]
  have hchecked : (setTargetLastChecked row.id ctx.now).run (Store.insertTarget
      ⟨⟨ctx.monitor.id, url⟩, some item.stableKey, some item.updatedAt⟩ s) =
      (some (), s.recordItem ctx url item) := by
    rw [hid]
    rfl
  rw [run_bind_of_run hchecked, run_detectOnTarget ctx summaryAsDiffPreview _ _ _ url hid]
  rfl

theorem keyed_insertTarget {input : CreateTargetInput} {s : Store} (hs : s.Keyed) :
    (s.insertTarget input).Keyed := by
  refine ⟨?_, hs.2⟩
  intro id row hrow
  by_cases hid : id = input.id
  · subst hid
    cases h : s.targets input.id with
    | none =>
      have hnew : (s.insertTarget input).targets input.id = some (newTarget input) := by
        simp [Store.insertTarget, insertIfNew_of_none h]
      rw [hnew] at hrow
      cases hrow
      rfl
    | some old =>
      have hkept : (s.insertTarget input).targets input.id = some old := insertIfNew_keeps h
      rw [hkept] at hrow
      cases hrow
      exact hs.1 _ _ h
  · have hother : (s.insertTarget input).targets id = s.targets id := insertIfNew_other hid
    rw [hother] at hrow
    exact hs.1 _ _ hrow

theorem keyed_updateTarget {id : TargetId} {f : TargetRow → TargetRow} {s : Store}
    (hf : ∀ row, (f row).id = row.id) (hs : s.Keyed) : (s.updateTarget id f).Keyed := by
  refine ⟨?_, hs.2⟩
  intro other row hrow
  by_cases hid : other = id
  · subst hid
    simp only [Store.updateTarget, Function.update_self, Option.map_eq_some_iff] at hrow
    obtain ⟨old, hold, rfl⟩ := hrow
    rw [hf]
    exact hs.1 _ _ hold
  · simp only [Store.updateTarget, Function.update_of_ne hid] at hrow
    exact hs.1 _ _ hrow

theorem keyed_insertChange {row : ChangeRow} {s : Store} (hs : s.Keyed) :
    (s.insertChange row).Keyed := by
  refine ⟨hs.1, ?_⟩
  intro id stored hstored
  by_cases hid : id = row.id
  · subst hid
    cases h : s.changes row.id with
    | none =>
      have hnew : (s.insertChange row).changes row.id = some row := by
        simp [Store.insertChange, insertIfNew_of_none h]
      rw [hnew] at hstored
      cases hstored
      rfl
    | some old =>
      have hkept : (s.insertChange row).changes row.id = some old := insertIfNew_keeps h
      rw [hkept] at hstored
      cases hstored
      exact hs.2 _ _ h
  · have hother : (s.insertChange row).changes id = s.changes id := insertIfNew_other hid
    rw [hother] at hstored
    exact hs.2 _ _ hstored

theorem keyed_updateChange {id : ChangeId} {f : ChangeRow → ChangeRow} {s : Store}
    (hf : ∀ row, (f row).id = row.id) (hs : s.Keyed) : (s.updateChange id f).Keyed := by
  refine ⟨hs.1, ?_⟩
  intro other row hrow
  by_cases hid : other = id
  · subst hid
    simp only [Store.updateChange, Function.update_self, Option.map_eq_some_iff] at hrow
    obtain ⟨old, hold, rfl⟩ := hrow
    rw [hf]
    exact hs.2 _ _ hold
  · simp only [Store.updateChange, Function.update_of_ne hid] at hrow
    exact hs.2 _ _ hrow

theorem keyed_recordItem {url : Url} {item : FeedItem} {s : Store} (hs : s.Keyed) :
    (s.recordItem ctx url item).Keyed :=
  keyed_updateTarget (fun _ => rfl) (keyed_insertTarget hs)

theorem keyed_detect {url : Url} {item : FeedItem} {s : Store} (hs : s.Keyed) :
    (s.detect ctx summaryAsDiffPreview url item).2.Keyed := by
  unfold Store.detect Store.insertRequest
  cases changeRequest ctx summaryAsDiffPreview url item
      (existingTarget ⟨ctx.monitor.id, url⟩ s) with
  | none => exact keyed_recordItem ctx hs
  | some request => exact keyed_insertChange (keyed_recordItem ctx hs)

theorem keyed_detectNext {st : List DetectedChange × Store} {item : FeedItem} (hs : st.2.Keyed) :
    (Store.detectNext tools ctx summaryAsDiffPreview st item).2.Keyed := by
  unfold Store.detectNext
  cases targetUrl tools item with
  | none => exact hs
  | some url => exact keyed_detect ctx summaryAsDiffPreview hs

/-- The Detect stage comes to `detectAll`, and keeps rows under their keys. -/
theorem run_detectFeedChanges (maxItems : Nat) (items : List FeedItem) {s : Store}
    (hs : s.Keyed) :
    (detectFeedChanges tools ctx summaryAsDiffPreview maxItems items).run s =
        (some (s.detectAll tools ctx summaryAsDiffPreview (items.take maxItems)).1,
          (s.detectAll tools ctx summaryAsDiffPreview (items.take maxItems)).2) ∧
      (s.detectAll tools ctx summaryAsDiffPreview (items.take maxItems)).2.Keyed := by
  refine run_foldlM (Store.detectNext tools ctx summaryAsDiffPreview) Store.Keyed ?_
    ([], s) hs
  intro item _ st hst
  refine ⟨?_, keyed_detectNext tools ctx summaryAsDiffPreview hst⟩
  unfold detectFeedChange Store.detectNext
  cases targetUrl tools item with
  | none => rfl
  | some url => exact run_bind_of_run (run_detectItem ctx summaryAsDiffPreview url item hst)

end Runs

/-! ## Enrich -/

section Enrich

variable (tools : ItemTools)

def titleOfPage (page : TitlePage) : Option String :=
  page.body.bind fun body =>
    if page.status != 200 || !isHtmlContentType page.contentType then none
    else tools.extractHtmlTitle body page.contentType

/-- The title the Enrich stage finds for a URL. -/
def pageTitle (url : Url) : Option String :=
  if !tools.ssrfAllowed url then none
  else if !tools.resolvedAllowed url then none
  else
    (tools.origin url).bind fun origin =>
      if !(tools.robots origin url).allowed && tools.robotsMode origin == .enforce then none
      else (tools.fetchPage url).bind (titleOfPage tools)

def setTitle (title : String) (row : ChangeRow) : ChangeRow := { row with title := some title }

def Store.enrichNext (st : EnrichState × Store) (d : DetectedChange) : EnrichState × Store :=
  if !needsTitle d || decide (MAX_TITLE_FETCHES_PER_CHECK ≤ st.1.used) then
    (⟨st.1.done ++ [d], st.1.used⟩, st.2)
  else
    match pageTitle tools d.row.targetUrl with
    | none => (⟨st.1.done ++ [d], st.1.used + 1⟩, st.2)
    | some title =>
      (⟨st.1.done ++ [{ d with row := setTitle title d.row }], st.1.used + 1⟩,
        st.2.updateChange d.row.id (setTitle title))

def Store.enrichAll (used : Nat) (detected : List DetectedChange) (s : Store) :
    EnrichState × Store :=
  detected.foldl (Store.enrichNext tools) (⟨[], used⟩, s)

theorem run_fetchTitleForUrl (url : Url) (s : Store) :
    (fetchTitleForUrl tools url).run s = (some (pageTitle tools url), s) := by
  have htitle : ∀ page, (titleOf tools page).run s = (some (titleOfPage tools page), s) := by
    intro page
    unfold titleOf titleOfPage
    cases page.body with
    | none => rfl
    | some body =>
      simp only [Option.bind_some]
      split <;> rfl
  have hfetch : (fetchTitle tools url).run s =
      (some ((tools.fetchPage url).bind (titleOfPage tools)), s) := by
    unfold fetchTitle
    rw [run_bind_of_run (run_query _ _ s)]
    cases tools.fetchPage url with
    | none => rfl
    | some page => exact htitle page
  unfold fetchTitleForUrl pageTitle
  split
  · rfl
  rw [run_bind_of_run (run_query _ _ s)]
  split
  · rfl
  cases tools.origin url with
  | none => rfl
  | some origin =>
    simp only [Option.bind_some]
    unfold fetchTitleUnderRobots
    rw [run_bind_of_run (run_query _ _ s), run_bind_of_run (run_query _ _ s)]
    split
    · rfl
    · exact hfetch

theorem run_enrichDetectedChange (d : DetectedChange) (st : EnrichState × Store) :
    (enrichDetectedChange tools st.1 d).run st.2 =
      (some (Store.enrichNext tools st d).1, (Store.enrichNext tools st d).2) := by
  unfold enrichDetectedChange Store.enrichNext
  split
  · rfl
  have hrow : (enrichRow tools d.row).run st.2 =
      match pageTitle tools d.row.targetUrl with
      | none => (some d.row, st.2)
      | some title => (some (setTitle title d.row), st.2.updateChange d.row.id (setTitle title)) := by
    unfold enrichRow
    rw [run_bind_of_run (run_fetchTitleForUrl tools _ _)]
    cases pageTitle tools d.row.targetUrl <;> rfl
  cases htitle : pageTitle tools d.row.targetUrl with
  | none =>
    rw [htitle] at hrow
    rw [run_bind_of_run (run_tryCatch_of_run hrow)]
    rfl
  | some title =>
    rw [htitle] at hrow
    rw [run_bind_of_run (run_tryCatch_of_run hrow)]
    rfl

theorem run_enrichDetectedChanges (used : Nat) (detected : List DetectedChange) (s : Store) :
    (enrichDetectedChanges tools used detected).run s =
      (some (s.enrichAll tools used detected).1, (s.enrichAll tools used detected).2) :=
  (run_foldlM (Store.enrichNext tools) (fun _ => True)
    (fun d _ st _ => ⟨run_enrichDetectedChange tools d st, trivial⟩)
    (⟨[], used⟩, s) trivial).1

end Enrich

/-! ## Classify -/

section Classify

variable (tools : ItemTools)

/-- The tags a change has after `setChangeTagsIfNull`. -/
def storedTags (id : ChangeId) (tags : List String) (s : Store) : Option (List String) :=
  (s.changes id).map fun row => row.tags.getD tags

def setTags (tags : Option (List String)) (row : ChangeRow) : ChangeRow := { row with tags }

def Store.classifyNext (classify : ClassifyConfig) (st : List DetectedChange × Store)
    (d : DetectedChange) : List DetectedChange × Store :=
  if d.row.tags.isSome then (st.1 ++ [d], st.2)
  else
    let tags := computeTags tools classify (classifyInput d)
    (st.1 ++ [{ d with row := setTags (storedTags d.row.id tags st.2) d.row }],
      st.2.updateChange d.row.id (tagIfNull tags))

def Store.classifyAll (ctx : CheckContext) (detected : List DetectedChange) (s : Store) :
    List DetectedChange × Store :=
  match ctx.source.config.bind SourceConfig.classify with
  | none => (detected, s)
  | some classify => detected.foldl (Store.classifyNext tools classify) ([], s)

theorem run_setChangeTagsIfNull (id : ChangeId) (tags : List String) (s : Store) :
    (setChangeTagsIfNull id tags).run s =
      (some (storedTags id tags s), s.updateChange id (tagIfNull tags)) := by
  unfold setChangeTagsIfNull storedTags
  rw [run_bind_of_run (run_call _ _ _ s)]
  cases h : s.changes id with
  | none => simp [Store.updateChange, h]
  | some row =>
    cases htags : row.tags with
    | none => simp [htags]
    | some stored => simp [Store.updateChange, h, tagIfNull, htags]

theorem run_classifyDetectedChanges (ctx : CheckContext) (detected : List DetectedChange)
    (s : Store) :
    (classifyDetectedChanges tools ctx detected).run s =
      (some (s.classifyAll tools ctx detected).1, (s.classifyAll tools ctx detected).2) := by
  unfold classifyDetectedChanges Store.classifyAll
  cases ctx.source.config.bind SourceConfig.classify with
  | none => rfl
  | some classify =>
    refine (run_foldlM (Store.classifyNext tools classify) (fun _ => True) ?_
      ([], s) trivial).1
    intro d _ st _
    refine ⟨?_, trivial⟩
    unfold classifyDetectedChange Store.classifyNext
    split
    · rfl
    · rw [run_bind_of_run (run_tryCatch_of_run (run_setChangeTagsIfNull _ _ _))]
      rfl

end Classify

/-! ## Notify -/

section Notify

variable (ctx : CheckContext)

/-- A delivery that is new is inserted and sent. -/
def Store.deliver (changeId : ChangeId) (s : Store) (sub : SubscriptionRow) : Store :=
  if (s.deliveries ⟨changeId, sub.destinationId⟩).isNone then
    (s.insertDelivery ⟨changeId, sub.destinationId⟩).send ⟨changeId, sub.destinationId⟩
  else s

def Store.fanOut (change : ChangeRow) (s : Store) : Store :=
  (matchingSubscriptions (fanoutMatch ctx change) s).foldl (Store.deliver change.id) s

def Store.advance (watermarkAdvance : Option (TargetId × String)) (s : Store) : Store :=
  match watermarkAdvance with
  | none => s
  | some (targetId, updatedAt) => s.updateTarget targetId (advanceWatermark updatedAt)

def Store.notifyNext (st : List ChangeId × Store) (d : DetectedChange) : List ChangeId × Store :=
  (if d.inserted then st.1 ++ [d.row.id] else st.1,
    (st.2.fanOut ctx d.row).advance d.watermarkAdvance)

def Store.notifyAll (changeIds : List ChangeId) (detected : List DetectedChange) (s : Store) :
    List ChangeId × Store :=
  detected.foldl (Store.notifyNext ctx) (changeIds, s)

theorem run_fanoutTo (changeId : ChangeId) (sub : SubscriptionRow) (s : Store) :
    (fanoutTo changeId sub).run s = (some ⟨⟩, s.deliver changeId sub) := by
  cases h : s.deliveries ⟨changeId, sub.destinationId⟩ with
  | none => simp [fanoutTo, createDeliveryIfNew, run_bind, Store.deliver, h, newDelivery, queueSend]
  | some row =>
    have hsame : s.insertDelivery ⟨changeId, sub.destinationId⟩ = s := by
      unfold Store.insertDelivery
      rw [insertIfNew_of_some h]
    simp [fanoutTo, createDeliveryIfNew, run_bind, Store.deliver, h, hsame]

theorem run_fanoutChange (change : ChangeRow) (s : Store) :
    (fanoutChange ctx change).run s = (some ⟨⟩, s.fanOut ctx change) := by
  unfold fanoutChange Store.fanOut
  have hsubs : (listMatchingSubscriptions (fanoutMatch ctx change)).run s =
      (some (matchingSubscriptions (fanoutMatch ctx change) s), s) := rfl
  rw [run_bind_of_run hsubs]
  exact run_forM _ (fun sub _ s => run_fanoutTo _ sub s) s

theorem run_notifyDetectedChange (d : DetectedChange) (st : List ChangeId × Store) :
    (notifyDetectedChange ctx st.1 d).run st.2 =
      (some (Store.notifyNext ctx st d).1, (Store.notifyNext ctx st d).2) := by
  unfold notifyDetectedChange Store.notifyNext Store.advance
  rw [run_bind_of_run (run_fanoutChange ctx d.row st.2)]
  cases d.watermarkAdvance with
  | none => rfl
  | some advance => rfl

theorem run_notifyDetectedChanges (changeIds : List ChangeId) (detected : List DetectedChange)
    (s : Store) :
    (notifyDetectedChanges ctx changeIds detected).run s =
      (some (s.notifyAll ctx changeIds detected).1, (s.notifyAll ctx changeIds detected).2) :=
  (run_foldlM (Store.notifyNext ctx) (fun _ => True)
    (fun d _ st _ => ⟨run_notifyDetectedChange ctx d st, trivial⟩)
    (changeIds, s) trivial).1

end Notify

/-! ## The whole -/

section Whole

variable (tools : ItemTools) (ctx : CheckContext)

/-- What the stages after Detect leave. -/
def Store.finishItems (used : Nat) (detected : List DetectedChange) (s : Store) : Store :=
  let (enriched, s) := s.enrichAll tools used detected
  let (classified, s) := s.classifyAll tools ctx enriched.done
  (s.notifyAll ctx [] classified).2

/-- What `processFeedItems` leaves. -/
def Store.processItems (used : Nat) (items : List FeedItem) (maxItems : Nat)
    (summaryAsDiffPreview : Bool) (s : Store) : Store :=
  let (detected, s) := s.detectAll tools ctx summaryAsDiffPreview (items.take maxItems)
  s.finishItems tools ctx used detected

theorem keyed_enrichAll (used : Nat) (detected : List DetectedChange) {s : Store}
    (hs : s.Keyed) : (s.enrichAll tools used detected).2.Keyed := by
  have hfold : ∀ st : EnrichState × Store, st.2.Keyed →
      (detected.foldl (Store.enrichNext tools) st).2.Keyed := by
    induction detected with
    | nil => exact fun _ h => h
    | cons d detected ih =>
      intro st hst
      apply ih
      unfold Store.enrichNext
      split
      · exact hst
      cases pageTitle tools d.row.targetUrl with
      | none => exact hst
      | some title => exact keyed_updateChange (fun _ => rfl) hst
  exact hfold (⟨[], used⟩, s) hs

theorem keyed_classifyAll (detected : List DetectedChange) {s : Store} (hs : s.Keyed) :
    (s.classifyAll tools ctx detected).2.Keyed := by
  unfold Store.classifyAll
  cases ctx.source.config.bind SourceConfig.classify with
  | none => exact hs
  | some classify =>
    have htag : ∀ tags row, (tagIfNull tags row).id = row.id := by
      intro tags row
      unfold tagIfNull
      split <;> rfl
    have hfold : ∀ st : List DetectedChange × Store, st.2.Keyed →
        (detected.foldl (Store.classifyNext tools classify) st).2.Keyed := by
      induction detected with
      | nil => exact fun _ h => h
      | cons d detected ih =>
        intro st hst
        apply ih
        unfold Store.classifyNext
        split
        · exact hst
        · exact keyed_updateChange (htag _) hst
    exact hfold ([], s) hs

theorem keyed_fanOut (change : ChangeRow) {s : Store} (hs : s.Keyed) :
    (s.fanOut ctx change).Keyed := by
  unfold Store.fanOut
  generalize matchingSubscriptions (fanoutMatch ctx change) s = subs
  induction subs generalizing s with
  | nil => exact hs
  | cons sub subs ih =>
    rw [List.foldl_cons]
    apply ih
    unfold Store.deliver
    split <;> exact hs

theorem keyed_notifyAll (changeIds : List ChangeId) (detected : List DetectedChange) {s : Store}
    (hs : s.Keyed) : (s.notifyAll ctx changeIds detected).2.Keyed := by
  have hadvance : ∀ updatedAt row, (advanceWatermark updatedAt row).id = row.id := by
    intro updatedAt row
    unfold advanceWatermark
    split
    · rfl
    · split <;> rfl
  have hfold : ∀ st : List ChangeId × Store, st.2.Keyed →
      (detected.foldl (Store.notifyNext ctx) st).2.Keyed := by
    induction detected with
    | nil => exact fun _ h => h
    | cons d detected ih =>
      intro st hst
      apply ih
      unfold Store.notifyNext Store.advance
      cases d.watermarkAdvance with
      | none => exact keyed_fanOut ctx d.row hst
      | some advance => exact keyed_updateTarget (hadvance _) (keyed_fanOut ctx d.row hst)
  exact hfold (changeIds, s) hs

theorem keyed_finishItems (used : Nat) (detected : List DetectedChange) {s : Store}
    (hs : s.Keyed) : (s.finishItems tools ctx used detected).Keyed := by
  have henriched := keyed_enrichAll tools used detected hs
  have hclassified := keyed_classifyAll tools ctx (s.enrichAll tools used detected).1.done henriched
  exact keyed_notifyAll ctx [] _ hclassified

theorem keyed_processItems (used : Nat) (items : List FeedItem) (maxItems : Nat)
    (summaryAsDiffPreview : Bool) {s : Store} (hs : s.Keyed) :
    (s.processItems tools ctx used items maxItems summaryAsDiffPreview).Keyed :=
  keyed_finishItems tools ctx used _
    (run_detectFeedChanges tools ctx summaryAsDiffPreview maxItems items hs).2

theorem notifyAll_store (changeIds : List ChangeId) (detected : List DetectedChange) (s : Store) :
    (s.notifyAll ctx changeIds detected).2 = (s.notifyAll ctx [] detected).2 := by
  have hstore : ∀ (ids ids' : List ChangeId) (s : Store),
      (detected.foldl (Store.notifyNext ctx) (ids, s)).2 =
        (detected.foldl (Store.notifyNext ctx) (ids', s)).2 := by
    induction detected with
    | nil => exact fun _ _ _ => rfl
    | cons d detected ih => exact fun _ _ _ => ih _ _ _
  exact hstore _ _ s

theorem run_processDetected (progress : CheckProgress) (detected : List DetectedChange)
    (s : Store) :
    (processDetected tools ctx progress detected).Returns s fun _ s' =>
      s' = s.finishItems tools ctx progress.titleFetchesUsed detected := by
  unfold processDetected Returns
  rw [run_bind_of_run (run_enrichDetectedChanges tools _ _ _),
    run_bind_of_run (run_classifyDetectedChanges tools _ _ _),
    run_bind_of_run (run_notifyDetectedChanges _ _ _ _)]
  exact notifyAll_store ctx _ _ _

/-- Undisturbed, `processFeedItems` returns and comes to `processItems`. -/
theorem processFeedItems_returns (progress : CheckProgress) (items : List FeedItem)
    (maxItems : Nat) (summaryAsDiffPreview : Bool) {s : Store} (hs : s.Keyed) :
    (processFeedItems tools ctx progress items maxItems summaryAsDiffPreview).Returns s
      fun _ s' => s' = s.processItems tools ctx progress.titleFetchesUsed items maxItems
        summaryAsDiffPreview := by
  have hdetect := (run_detectFeedChanges tools ctx summaryAsDiffPreview maxItems items hs).1
  unfold processFeedItems
  rw [returns_bind]
  unfold Returns
  rw [hdetect]
  exact returns_bind.mpr ((run_processDetected tools ctx progress _ _).mono fun _ _ h => h)

theorem run_processFeedItems (progress : CheckProgress) (items : List FeedItem) (maxItems : Nat)
    (summaryAsDiffPreview : Bool) {s : Store} (hs : s.Keyed) :
    ((processFeedItems tools ctx progress items maxItems summaryAsDiffPreview).run s).2 =
      s.processItems tools ctx progress.titleFetchesUsed items maxItems summaryAsDiffPreview := by
  obtain ⟨_, _, hrun, hstate⟩ := returns_iff.mp
    (processFeedItems_returns tools ctx progress items maxItems summaryAsDiffPreview hs)
  rw [hrun]
  exact hstate

end Whole

end Utsuroi

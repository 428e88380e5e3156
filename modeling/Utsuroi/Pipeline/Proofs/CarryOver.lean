import Mathlib.Tactic
import Utsuroi.Pipeline.Frames
import Utsuroi.Pipeline.Undisturbed

/-!
# Carry-over of truncated items

A check processes the first items of the list it is given.  A later check given the same
list processes the same ones again: what was cut stays cut.
-/

namespace Utsuroi

open Async Prog

/-! ## Which targets there are -/

def Store.known (s : Store) (id : TargetId) : Prop := (s.targets id).isSome

theorem known_updateTarget (id : TargetId) (f : TargetRow → TargetRow) (s : Store) :
    (s.updateTarget id f).known = s.known := by
  funext other
  unfold Store.known Store.updateTarget
  by_cases h : other = id
  · subst h
    simp
  · simp [Function.update_of_ne h]

theorem known_insertTarget (input : CreateTargetInput) (s : Store) (id : TargetId) :
    (s.insertTarget input).known id ↔ s.known id ∨ id = input.id := by
  unfold Store.known Store.insertTarget
  by_cases h : id = input.id
  · subst h
    simp [insertIfNew_isSome]
  · simp [insertIfNew_other h, h]

private theorem stageFrames_known : StageFrames Store.known :=
  ⟨fun _ _ _ => rfl, fun _ _ => rfl, fun _ _ => rfl, fun _ _ _ => known_updateTarget _ _ _⟩

section Processing

variable (tools : ItemTools) (ctx : CheckContext)

theorem known_detect (summaryAsDiffPreview : Bool) (url : Url) (item : FeedItem) (s : Store)
    (id : TargetId) :
    (s.detect ctx summaryAsDiffPreview url item).2.known id ↔
      s.known id ∨ id = ⟨ctx.monitor.id, url⟩ := by
  have hrequest : ∀ request, ((s.recordItem ctx url item).insertRequest request).known =
      (s.recordItem ctx url item).known := by
    intro request
    cases request <;> rfl
  unfold Store.detect
  rw [hrequest]
  unfold Store.recordItem
  rw [known_updateTarget, known_insertTarget]

/-- Detect records the targets of the items it is given. -/
theorem known_detectAll (summaryAsDiffPreview : Bool) (items : List FeedItem) (s : Store)
    (id : TargetId) :
    (s.detectAll tools ctx summaryAsDiffPreview items).2.known id ↔
      s.known id ∨ ∃ item ∈ items, ∃ url, targetUrl tools item = some url ∧
        id = ⟨ctx.monitor.id, url⟩ := by
  have hfold : ∀ st : List DetectedChange × Store,
      (items.foldl (Store.detectNext tools ctx summaryAsDiffPreview) st).2.known id ↔
        st.2.known id ∨ ∃ item ∈ items, ∃ url, targetUrl tools item = some url ∧
          id = ⟨ctx.monitor.id, url⟩ := by
    induction items with
    | nil => simp
    | cons item items ih =>
      intro st
      rw [List.foldl_cons, ih]
      have hnext : (Store.detectNext tools ctx summaryAsDiffPreview st item).2.known id ↔
          st.2.known id ∨ ∃ url, targetUrl tools item = some url ∧
            id = ⟨ctx.monitor.id, url⟩ := by
        unfold Store.detectNext
        cases targetUrl tools item with
        | none => simp
        | some url => simpa using known_detect ctx summaryAsDiffPreview url item st.2 id
      rw [hnext, or_assoc]
      simp
  exact hfold ([], s)

theorem known_finishItems (used : Nat) (detected : List DetectedChange) (s : Store) :
    (s.finishItems tools ctx used detected).known = s.known := by
  have hframes := (processDetected_frames tools stageFrames_known ctx ⟨[], used⟩ detected).run s
  obtain ⟨_, _, hrun, rfl⟩ := returns_iff.mp (run_processDetected tools ctx ⟨[], used⟩ detected s)
  rw [hrun] at hframes
  exact hframes

/-- One run of `processFeedItems` records the targets of the items it is not too long for. -/
theorem known_processItems (used : Nat) (items : List FeedItem) (maxItems : Nat)
    (summaryAsDiffPreview : Bool) (s : Store) (id : TargetId) :
    (s.processItems tools ctx used items maxItems summaryAsDiffPreview).known id ↔
      s.known id ∨ ∃ item ∈ items.take maxItems, ∃ url, targetUrl tools item = some url ∧
        id = ⟨ctx.monitor.id, url⟩ := by
  unfold Store.processItems
  rw [known_finishItems, known_detectAll]

end Processing

/-! ## Runs with one list -/

/-- How `processFeedItems` is called, apart from the list and its limit. -/
structure ItemRun where
  ctx : CheckContext
  progress : CheckProgress
  summaryAsDiffPreview : Bool

section Runs

variable (tools : ItemTools) (items : List FeedItem) (maxItems : Nat)

/-- What the runs leave, one after another. -/
def repeatItems (runs : List ItemRun) (s : Store) : Store :=
  runs.foldl (fun s r =>
    ((processFeedItems tools r.ctx r.progress items maxItems r.summaryAsDiffPreview).run s).2) s

/-- The item has a target of the monitor. -/
def HasTarget (monitorId : MonitorId) (s : Store) (item : FeedItem) : Prop :=
  ∃ url, targetUrl tools item = some url ∧ s.known ⟨monitorId, url⟩

variable {tools items maxItems}

/-- The runs record the first `maxItems` items, again and again. -/
private theorem known_repeatItems {monitorId : MonitorId} {runs : List ItemRun}
    (hruns : ∀ r ∈ runs, r.ctx.monitor.id = monitorId) {s : Store} (hs : s.Keyed)
    (id : TargetId) :
    (repeatItems tools items maxItems runs s).known id ↔
      s.known id ∨ runs ≠ [] ∧ ∃ item ∈ items.take maxItems, ∃ url,
        targetUrl tools item = some url ∧ id = ⟨monitorId, url⟩ := by
  induction runs generalizing s with
  | nil => simp [repeatItems]
  | cons r runs ih =>
    have hstate := run_processFeedItems tools r.ctx r.progress items maxItems
      r.summaryAsDiffPreview hs
    have hnext := keyed_processItems tools r.ctx r.progress.titleFetchesUsed items maxItems
      r.summaryAsDiffPreview hs
    have hmonitor := hruns r List.mem_cons_self
    have hrest := ih (fun r' hr' => hruns r' (List.mem_cons_of_mem _ hr')) hnext
    unfold repeatItems at hrest ⊢
    rw [List.foldl_cons, hstate, hrest, known_processItems, hmonitor]
    constructor
    · rintro ((h | h) | ⟨_, h⟩)
      · exact Or.inl h
      · exact Or.inr ⟨by simp, h⟩
      · exact Or.inr ⟨by simp, h⟩
    · rintro (h | ⟨_, h⟩)
      · exact Or.inl (Or.inl h)
      · exact Or.inl (Or.inr h)

private theorem hasTarget_iff {monitorId : MonitorId} {s : Store} {item : FeedItem} {url : Url}
    (hurl : targetUrl tools item = some url) :
    HasTarget tools monitorId s item ↔ s.known ⟨monitorId, url⟩ := by
  constructor
  · rintro ⟨url', hurl', hknown⟩
    rw [hurl] at hurl'
    cases hurl'
    exact hknown
  · exact fun hknown => ⟨url, hurl, hknown⟩

/-- With distinct URLs that may be targets, `ceil(n / maxItems)` runs with one list record all
its items exactly when those beyond `maxItems` were recorded before. -/
theorem processFeedItems_carryOver_iff (monitorId : MonitorId) (runs : List ItemRun) (s : Store)
    (hmax : 1 ≤ maxItems) (hallowed : ∀ item ∈ items, (targetUrl tools item).isSome)
    (hdistinct : (items.map (targetUrl tools)).Nodup)
    (hruns : ∀ r ∈ runs, r.ctx.monitor.id = monitorId ∧ r.ctx.monitor.lastCheckedAt ≠ none)
    (hlength : runs.length = (items.length + maxItems - 1) / maxItems) (hs : s.Keyed) :
    (∀ item ∈ items, HasTarget tools monitorId (repeatItems tools items maxItems runs s) item) ↔
      ∀ item ∈ items.drop maxItems, HasTarget tools monitorId s item := by
  have hknown : ∀ id, (repeatItems tools items maxItems runs s).known id ↔ s.known id ∨
      runs ≠ [] ∧ ∃ item ∈ items.take maxItems, ∃ url,
        targetUrl tools item = some url ∧ id = ⟨monitorId, url⟩ :=
    known_repeatItems (fun r hr => (hruns r hr).1) hs
  have hsplit := List.take_append_drop maxItems items
  constructor
  · intro hall item hitem
    have hmem : item ∈ items := List.mem_of_mem_drop hitem
    obtain ⟨url, hurl⟩ := Option.isSome_iff_exists.mp (hallowed item hmem)
    have hrecorded := (hasTarget_iff hurl).mp (hall item hmem)
    rw [hasTarget_iff hurl]
    rcases (hknown _).mp hrecorded with h | ⟨_, first, hfirst, url', hurl', heq⟩
    · exact h
    · -- the URL of an item that was cut is not among the first ones
      cases heq
      rw [← hsplit, List.map_append] at hdistinct
      have hdisjoint := List.disjoint_of_nodup_append hdistinct
      have hleft : some url ∈ (items.take maxItems).map (targetUrl tools) :=
        List.mem_map.mpr ⟨first, hfirst, hurl'⟩
      have hright : some url ∈ (items.drop maxItems).map (targetUrl tools) :=
        List.mem_map.mpr ⟨item, hitem, hurl⟩
      exact absurd hright (hdisjoint hleft)
  · intro hrest item hitem
    obtain ⟨url, hurl⟩ := Option.isSome_iff_exists.mp (hallowed item hitem)
    rw [hasTarget_iff hurl]
    refine (hknown _).mpr ?_
    rw [← hsplit] at hitem
    rcases List.mem_append.mp hitem with hfirst | hcut
    · right
      refine ⟨?_, item, hfirst, url, hurl, rfl⟩
      have hpos : 0 < items.length := List.length_pos_of_mem (List.mem_of_mem_take hfirst)
      have hruns : 0 < runs.length := by
        rw [hlength]
        exact Nat.div_pos (by omega) (by omega)
      exact List.ne_nil_of_length_pos hruns
    · left
      exact (hasTarget_iff hurl).mp (hrest item hcut)

end Runs

/-! ## A list of two items under a limit of one -/

private def anyTools : ItemTools where
  ssrfAllowed := fun _ => true
  resolvedAllowed := fun _ => true
  origin := fun _ => none
  robotsMode := fun _ => .enforce
  robots := fun _ _ => ⟨true, none, false, 0, "none"⟩
  fetchPage := fun _ => none
  fetchTarget := fun _ _ _ _ => .failure .networkError none
  pathname := fun _ => none
  extractHtmlTitle := fun _ _ => none
  regExp := fun _ _ => none
  parseSource := fun _ _ _ _ => none
  extractItems := fun _ _ _ => []
  sha256Bytes := fun _ => ""

private def entry (url : Url) : FeedItem := ⟨url, some url, some url, none, none, []⟩

private def checkedContext : CheckContext where
  monitor := ⟨1, 1, .active, 3600, none, some 0, none, none⟩
  source := ⟨1, .rss, "https://example.com/feed", none⟩
  site := ⟨1, none⟩
  now := 0

private def itemRun : ItemRun := ⟨checkedContext, newProgress, false⟩

private theorem keyed_emptyStore : emptyStore.Keyed :=
  ⟨fun _ _ h => (by cases h), fun _ _ h => (by cases h)⟩

/-- Two runs with two items and a limit of one: the second item gets no target. -/
theorem processFeedItems_carryOver_violated :
    ¬∀ (tools : ItemTools) (items : List FeedItem) (maxItems : Nat) (monitorId : MonitorId)
      (runs : List ItemRun) (s : Store), 1 ≤ maxItems →
      (∀ item ∈ items, (targetUrl tools item).isSome) → (items.map (targetUrl tools)).Nodup →
      (∀ r ∈ runs, r.ctx.monitor.id = monitorId ∧ r.ctx.monitor.lastCheckedAt ≠ none) →
      runs.length = (items.length + maxItems - 1) / maxItems → s.Keyed →
      ∀ item ∈ items, HasTarget tools monitorId (repeatItems tools items maxItems runs s) item := by
  intro hall
  have hruns : ∀ r ∈ [itemRun, itemRun],
      r.ctx.monitor.id = 1 ∧ r.ctx.monitor.lastCheckedAt ≠ none := by
    intro r hr
    have heq : r = itemRun := by simpa using hr
    subst heq
    exact ⟨rfl, by decide⟩
  obtain ⟨url, hurl, hknown⟩ := hall anyTools [entry "a", entry "b"] 1 1 [itemRun, itemRun]
    emptyStore le_rfl (by decide) (by decide) hruns rfl keyed_emptyStore (entry "b") (by simp)
  cases hurl
  rcases (known_repeatItems (fun r hr => (hruns r hr).1) keyed_emptyStore _).mp hknown with
    h | ⟨_, item, hitem, url, hurl, heq⟩
  · exact absurd h (by simp [Store.known, emptyStore])
  · have hfirst : item = entry "a" := by simpa using hitem
    subst hfirst
    cases hurl
    exact absurd heq (by decide)

private def secondPresent : Store :=
  emptyStore.insertTarget ⟨⟨1, "b"⟩, none, none⟩

/-- The item that is cut has its target, and two runs record the other one. -/
theorem processFeedItems_carryOver_iff_secondPresent :
    ¬HasTarget anyTools 1 secondPresent (entry "a") ∧
      HasTarget anyTools 1 secondPresent (entry "b") ∧
      ∀ item ∈ [entry "a", entry "b"], HasTarget anyTools 1
        (repeatItems anyTools [entry "a", entry "b"] 1 [itemRun, itemRun] secondPresent) item := by
  have hkeyed : secondPresent.Keyed := keyed_insertTarget keyed_emptyStore
  have hknown (url : Url) (known : Bool) (h : (secondPresent.targets ⟨1, url⟩).isSome = known) :
      secondPresent.known ⟨1, url⟩ ↔ known = true := by rw [Store.known, h]
  have hsecond : HasTarget anyTools 1 secondPresent (entry "b") :=
    ⟨"b", rfl, (hknown "b" true (by decide)).mpr rfl⟩
  refine ⟨?_, hsecond, ?_⟩
  · rintro ⟨url, hurl, hfirst⟩
    cases hurl
    exact absurd ((hknown "a" false (by decide)).mp hfirst) (by decide)
  · refine (processFeedItems_carryOver_iff 1 [itemRun, itemRun] secondPresent le_rfl (by decide)
      (by decide) ?_ rfl hkeyed).mpr ?_
    · intro r hr
      have heq : r = itemRun := by simpa using hr
      subst heq
      exact ⟨rfl, by decide⟩
    · intro item hitem
      have heq : item = entry "b" := by simpa using hitem
      subst heq
      exact hsecond

end Utsuroi

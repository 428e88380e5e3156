import Mathlib.Tactic
import Utsuroi.Pipeline.FeedHistory

/-!
# The Changes of a feed

Over any history of completed checks, an event yields its Change when it has room.  Targets are
kept by URL and Changes by dedupe key, and two items may share either.
-/

namespace Utsuroi

open Async Prog Transition

/-- What holds in every state of a history. -/
structure FeedInv (s : Store) : Prop where
  keyed : s.Keyed
  sent : SentOnce s

section Steps

variable {monitorId : MonitorId} {C : StepCond FeedState FeedEvent} {es later : List FeedEvent}
  {st st' : FeedState} {check : FeedCheck} {item : FeedItem} {e : FeedEvent}

private theorem run_detectFeedChange {tools : ItemTools} {ctx : CheckContext}
    {summaryAsDiffPreview : Bool} {detected : List DetectedChange} {url : Url} {s : Store}
    (hs : s.Keyed) (hurl : targetUrl tools item = some url) :
    (detectFeedChange tools ctx summaryAsDiffPreview detected item).run s =
      (some (detected ++ (s.detect ctx summaryAsDiffPreview url item).1.toList),
        (s.detect ctx summaryAsDiffPreview url item).2) := by
  unfold detectFeedChange
  rw [hurl]
  exact run_bind_of_run (run_detectItem ctx summaryAsDiffPreview url item hs)

/-- Detect leaves the store to an item without a URL, and else does `Store.detect`. -/
theorem detect_store (hs : st.store.Keyed)
    (hstep : (feedSystem monitorId).step st (.detect check item) st') :
    st'.store = (targetUrl check.tools item).elim st.store fun url =>
      (st.store.detect check.ctx check.summaryAsDiffPreview url item).2 := by
  obtain ⟨_, hrun, _⟩ := hstep
  cases hurl : targetUrl check.tools item with
  | none =>
    unfold detectFeedChange at hrun
    rw [hurl] at hrun
    exact (Prod.mk.inj hrun).2.symm
  | some url =>
    rw [run_detectFeedChange hs hurl] at hrun
    exact (Prod.mk.inj hrun).2.symm

theorem finish_store (hstep : (feedSystem monitorId).step st (.finish check) st') :
    st'.store =
      st.store.finishItems check.tools check.ctx check.progress.titleFetchesUsed st.detected := by
  obtain ⟨_, hrun, _⟩ := hstep
  obtain ⟨_, s', heq, hstate⟩ := returns_iff.mp
    (run_processDetected check.tools check.ctx check.progress st.detected st.store)
  rw [heq] at hrun
  exact hrun.symm.trans hstate

private theorem feedInv_step (h : FeedInv st.store) (hstep : (feedSystem monitorId).step st e st') :
    FeedInv st'.store := by
  cases e with
  | detect check item =>
    rw [detect_store h.keyed hstep]
    cases targetUrl check.tools item with
    | none => exact h
    | some url => exact ⟨keyed_detect _ _ h.keyed, detect_sent h.sent⟩
  | finish check =>
    rw [finish_store hstep]
    exact ⟨keyed_finishItems _ _ _ _ h.keyed, finishItems_keeps.2 h.sent⟩
  | others =>
    obtain ⟨hothers, _⟩ := hstep
    refine ⟨hothers.keyed, ?_, ?_⟩
    · rw [hothers.queue]
      exact h.sent.1
    · intro id hmem
      rw [hothers.queue] at hmem
      exact hothers.deliveries id (h.sent.2 id hmem)

theorem feedInv_run (h : (feedSystem monitorId).Run C es st) : FeedInv st.store := by
  induction h with
  | start hinit =>
    obtain ⟨hkeyed, hqueue, _⟩ := hinit
    exact ⟨hkeyed, by simp [SentOnce, hqueue]⟩
  | next _ hstep _ ih => exact feedInv_step ih hstep

/-- The Changes of the monitor stay. -/
private theorem changesKept_step (h : FeedInv st.store)
    (hstep : (feedSystem monitorId).step st e st') {id : ChangeId} (hid : id.monitorId = monitorId)
    {row : ChangeRow} (hrow : st.store.changes id = some row) :
    ∃ row', st'.store.changes id = some row' ∧ row'.kind = row.kind ∧
      row'.targetUrl = row.targetUrl := by
  cases e with
  | detect check item =>
    rw [detect_store h.keyed hstep]
    cases targetUrl check.tools item with
    | none => exact ⟨row, hrow, rfl, rfl⟩
    | some url => exact detect_keeps id row hrow
  | finish check =>
    rw [finish_store hstep]
    exact finishItems_keeps.1 id row hrow
  | others =>
    obtain ⟨hothers, _⟩ := hstep
    exact ⟨row, (hothers.changes id hid).trans hrow, rfl, rfl⟩

private theorem changesKept_steps (hrun : (feedSystem monitorId).Run C es st)
    (hsteps : (feedSystem monitorId).Steps C es st later st') {id : ChangeId}
    (hid : id.monitorId = monitorId) {row : ChangeRow} (hrow : st.store.changes id = some row) :
    ∃ row', st'.store.changes id = some row' ∧ row'.kind = row.kind ∧
      row'.targetUrl = row.targetUrl := by
  induction hsteps with
  | refl => exact ⟨row, hrow, rfl, rfl⟩
  | next hsteps hstep _ ih =>
    obtain ⟨row', hrow', hkind, hurl⟩ := ih
    obtain ⟨row'', hrow'', hkind', hurl'⟩ :=
      changesKept_step (feedInv_run (hrun.append hsteps)) hstep hid hrow'
    exact ⟨row'', hrow'', hkind'.trans hkind, hurl'.trans hurl⟩

end Steps

/-! ## Checks are histories -/

section Checks

variable {monitorId : MonitorId} {check : FeedCheck} {st : FeedState} {past : List FeedEvent}

/-- The events of a check that takes these items. -/
def FeedCheck.events (check : FeedCheck) (items : List FeedItem) : List FeedEvent :=
  .finish check :: (items.map (.detect check)).reverse

/-- Detect for one item, with the account. -/
private def detectStep (monitorId : MonitorId) (check : FeedCheck) (st : FeedState)
    (item : FeedItem) : FeedState :=
  let next := Store.detectNext check.tools check.ctx check.summaryAsDiffPreview
    (st.detected, st.store) item
  ⟨next.2, next.1, st.account.see monitorId check.tools item st.store next.2⟩

private theorem step_detect (hof : check.Of monitorId) (hs : st.store.Keyed) (item : FeedItem) :
    (feedSystem monitorId).step st (.detect check item) (detectStep monitorId check st item) := by
  refine ⟨hof, ?_, rfl⟩
  unfold detectStep Store.detectNext
  cases hurl : targetUrl check.tools item with
  | none =>
    unfold detectFeedChange
    rw [hurl]
    rfl
  | some url => exact run_detectFeedChange hs hurl

private theorem steps_detect (hof : check.Of monitorId) (hs : st.store.Keyed)
    (items : List FeedItem) :
    (feedSystem monitorId).Steps anyStep past st (items.map (.detect check)).reverse
        (items.foldl (detectStep monitorId check) st) ∧
      (items.foldl (detectStep monitorId check) st).store.Keyed := by
  induction items using List.reverseRecOn with
  | nil => exact ⟨.refl, hs⟩
  | append_singleton items item ih =>
    rw [List.map_append, List.reverse_append, List.foldl_append]
    have hkeyed : (detectStep monitorId check (items.foldl (detectStep monitorId check) st)
        item).store.Keyed :=
      keyed_detectNext check.tools check.ctx check.summaryAsDiffPreview ih.2
    exact ⟨.next ih.1 (step_detect hof ih.2 item) trivial, hkeyed⟩

private theorem foldl_detectStep (items : List FeedItem) (st : FeedState) :
    ((items.foldl (detectStep monitorId check) st).detected,
        (items.foldl (detectStep monitorId check) st).store) =
      items.foldl (Store.detectNext check.tools check.ctx check.summaryAsDiffPreview)
        (st.detected, st.store) := by
  induction items generalizing st with
  | nil => rfl
  | cons item items ih => exact ih (detectStep monitorId check st item)

/-- A completed `processFeedItems` is a history of its items. -/
theorem processFeedItems_steps (hof : check.Of monitorId) (hs : st.store.Keyed)
    (hdetected : st.detected = []) (items : List FeedItem) (maxItems : Nat) :
    ∃ st', (feedSystem monitorId).Steps anyStep past st (check.events (items.take maxItems)) st' ∧
      st'.detected = [] ∧
      st'.store = ((processFeedItems check.tools check.ctx check.progress items maxItems
        check.summaryAsDiffPreview).run st.store).2 := by
  have hsteps : (feedSystem monitorId).Steps anyStep past st _ _ :=
    (steps_detect hof hs (items.take maxItems)).1
  have hfold : ((((items.take maxItems).foldl (detectStep monitorId check) st).detected, _) :
      List DetectedChange × Store) = _ := foldl_detectStep (items.take maxItems) st
  generalize (items.take maxItems).foldl (detectStep monitorId check) st = after at *
  rw [hdetected] at hfold
  have hstore : (st.store.detectAll check.tools check.ctx check.summaryAsDiffPreview
      (items.take maxItems)) = (after.detected, after.store) := hfold.symm
  refine ⟨⟨((processDetected check.tools check.ctx check.progress after.detected).run
    after.store).2, [], after.account⟩, .next hsteps ⟨hof, rfl, rfl, rfl⟩ trivial, rfl, ?_⟩
  obtain ⟨_, s', heq, hstate⟩ := returns_iff.mp
    (run_processDetected check.tools check.ctx check.progress after.detected after.store)
  rw [run_processFeedItems check.tools check.ctx check.progress items maxItems
    check.summaryAsDiffPreview hs]
  unfold Store.processItems
  rw [hstore, heq]
  exact hstate

end Checks

/-! ## Exactly once -/

section Once

variable {monitorId : MonitorId} {es : List FeedEvent} {st : FeedState}

/-- In every history of completed checks an event yields its one Change exactly when it has room;
the Changes there are stay, and every message was sent once. -/
theorem feedChange_yields_iff (h : (feedSystem monitorId).Run anyStep es st) :
    (∀ check item st' url event, (feedSystem monitorId).step st (.detect check item) st' →
      targetUrl check.tools item = some url →
        st.account.eventOf monitorId st.store item = some event →
          (Yields monitorId url item event st.store st'.store ↔
            HasRoom monitorId url item event st.store)) ∧
      (∀ later st', (feedSystem monitorId).Steps anyStep es st later st' → ∀ id row,
        id.monitorId = monitorId → st.store.changes id = some row →
          ∃ row', st'.store.changes id = some row' ∧ row'.kind = row.kind ∧
            row'.targetUrl = row.targetUrl) ∧
      st.store.queue.Nodup := by
  have hinv := feedInv_run h
  refine ⟨?_, ?_, hinv.sent.1⟩
  · intro check item st' url event hstep hurl hevent
    obtain ⟨rfl, hchecked⟩ := hstep.1
    rw [detect_store hinv.keyed hstep, hurl]
    exact detect_yields_iff hchecked hevent
  · exact fun later st' hsteps id row hid hrow => changesKept_steps h hsteps hid hrow

end Once

/-! ## Two entries with one link -/

private def feedCheck : FeedCheck where
  tools :=
    { ssrfAllowed := fun _ => true
      resolvedAllowed := fun _ => true
      origin := fun _ => none
      robotsMode := fun _ => .enforce
      robots := fun _ _ => ⟨true, none, false, 0, "none"⟩
      fetchPage := fun _ => none
      fetchTarget := fun _ _ _ _ => .failure .networkError none
      pathname := fun _ => none
      extractHtmlTitle := fun _ _ => none
      regExp := fun _ _ => none
      parseSource := fun _ _ _ _ => none
      extractItems := fun _ _ _ => []
      sha256Bytes := fun _ => "" }
  ctx :=
    { monitor := ⟨1, 1, .active, 3600, none, some 0, none, none⟩
      source := ⟨1, .rss, "https://example.com/feed", none⟩
      site := ⟨1, none⟩
      now := 0 }
  progress := newProgress
  summaryAsDiffPreview := false

/-- An entry of a feed whose entries all link to the same page. -/
private def releaseNote (guid : String) : FeedItem :=
  ⟨guid, some "https://example.com/releases", some guid, none, none, []⟩

private def feedStart : FeedState := ⟨emptyStore, [], ⟨fun _ => none, []⟩⟩

private theorem feedStart_run : (feedSystem 1).Run anyStep [] feedStart :=
  .start ⟨⟨fun _ _ h => (by cases h), fun _ _ h => (by cases h)⟩, rfl, rfl⟩

private theorem feedCheck_of : feedCheck.Of 1 := ⟨rfl, rfl⟩

/-- After a check that has found the first entry. -/
private def afterFirst : FeedState := detectStep 1 feedCheck feedStart (releaseNote "1")

private theorem afterFirst_run :
    (feedSystem 1).Run anyStep [.detect feedCheck (releaseNote "1")] afterFirst :=
  .next feedStart_run (step_detect feedCheck_of (feedInv_run feedStart_run).keyed _) trivial

/-- The entry with a date. -/
private def updatedNote : FeedItem :=
  { releaseNote "1" with updatedAt := some "2024-01-02T00:00:00Z" }

theorem feedChange_yields_iff_updatedNote :
    Yields 1 "https://example.com/releases" (releaseNote "1") .new feedStart.store
        afterFirst.store ∧
      Yields 1 "https://example.com/releases" updatedNote (.updated "2024-01-02T00:00:00Z")
        afterFirst.store (detectStep 1 feedCheck afterFirst updatedNote).store :=
  ⟨((feedChange_yields_iff feedStart_run).1 feedCheck (releaseNote "1") _ _ .new
      (step_detect feedCheck_of (feedInv_run feedStart_run).keyed _) rfl rfl).mpr ⟨rfl, rfl⟩,
    ((feedChange_yields_iff afterFirst_run).1 feedCheck updatedNote _ _ (.updated _)
      (step_detect feedCheck_of (feedInv_run afterFirst_run).keyed _) rfl rfl).mpr
      ⟨rfl, _, rfl, nofun⟩⟩

/-- The second of two new entries with one link reports nothing. -/
theorem feedChange_yields_violated :
    ¬∀ es st check item st' url event, (feedSystem 1).Run anyStep es st →
      (feedSystem 1).step st (.detect check item) st' → targetUrl check.tools item = some url →
        st.account.eventOf 1 st.store item = some event →
          Yields 1 url item event st.store st'.store := by
  intro hall
  have hkeyed := (feedInv_run afterFirst_run).keyed
  have hstep := step_detect feedCheck_of hkeyed (releaseNote "2")
  have hyields := hall _ afterFirst feedCheck (releaseNote "2") _ "https://example.com/releases"
    .new afterFirst_run hstep rfl rfl
  rw [detect_store hkeyed hstep] at hyields
  have hevent : afterFirst.account.eventOf feedCheck.ctx.monitor.id afterFirst.store
      (releaseNote "2") = some .new := rfl
  have hroom : HasRoom feedCheck.ctx.monitor.id "https://example.com/releases" (releaseNote "2")
      .new afterFirst.store := (detect_yields_iff rfl hevent).mp hyields
  have htarget : afterFirst.store.targets ⟨1, "https://example.com/releases"⟩ = none := hroom.2
  contradiction

end Utsuroi

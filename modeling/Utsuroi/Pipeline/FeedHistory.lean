import Mathlib.Tactic
import Utsuroi.Framework.Run
import Utsuroi.Pipeline.Undisturbed

/-!
# The history of a feed

Checks that come to their end: Detect takes the items one by one, then the later stages follow.
An observer keeps account of the keys and the updates there have been.
-/

namespace Utsuroi

open Async Prog Transition

/-- What a check processes its items with. -/
structure FeedCheck where
  tools : ItemTools
  ctx : CheckContext
  progress : CheckProgress
  summaryAsDiffPreview : Bool

/-- A check of the monitor that is not its baseline. -/
def FeedCheck.Of (monitorId : MonitorId) (check : FeedCheck) : Prop :=
  check.ctx.monitor.id = monitorId ∧ check.ctx.monitor.lastCheckedAt.isSome

structure FeedAccount where
  /-- the URL a stable key was first seen with -/
  urlOf : String → Option Url
  /-- the stable keys and the updates there are Changes of -/
  reported : List (String × String)

structure FeedState where
  store : Store
  /-- what the check has detected so far -/
  detected : List DetectedChange
  account : FeedAccount

inductive FeedEvent
  /-- Detect takes an item -/
  | detect (check : FeedCheck) (item : FeedItem)
  /-- the stages after Detect -/
  | finish (check : FeedCheck)
  /-- whatever else happens to the store -/
  | others

/-- The target but for when it was checked last. -/
def TargetRow.unchecked (row : TargetRow) : TargetRow := { row with lastCheckedAt := none }

/-- Changes and targets of the monitor come from its item processing alone, and nobody deletes
deliveries.  The fetch of the source writes when the source's own target was checked. -/
structure OthersKeep (monitorId : MonitorId) (s s' : Store) : Prop where
  targets : ∀ id, id.monitorId = monitorId →
    (s'.targets id).map TargetRow.unchecked = (s.targets id).map TargetRow.unchecked
  changes : ∀ id, id.monitorId = monitorId → s'.changes id = s.changes id
  deliveries : ∀ id, s.deliveries id ≠ none → s'.deliveries id ≠ none
  queue : s'.queue = s.queue
  keyed : s'.Keyed

/-- The item was processed between `s` and `s'`. -/
def FeedAccount.see (monitorId : MonitorId) (tools : ItemTools) (item : FeedItem) (s s' : Store)
    (account : FeedAccount) : FeedAccount :=
  match targetUrl tools item with
  | none => account
  | some url =>
    let isNew := fun updatedAt =>
      let id : ChangeId := ⟨monitorId, updatedKey item updatedAt⟩
      (s.changes id).isNone && (s'.changes id).isSome
    { urlOf := Function.update account.urlOf item.stableKey
        (some ((account.urlOf item.stableKey).getD url))
      reported := ((item.updatedAt.filter isNew).map fun updatedAt =>
        (item.stableKey, updatedAt)).toList ++ account.reported }

/-- The completed checks of a monitor after its baseline; messages count from the start. -/
def feedSystem (monitorId : MonitorId) : System FeedState FeedEvent where
  init st := st.store.Keyed ∧ st.store.queue = [] ∧ st.detected = []
  step st e st' :=
    match e with
    | .detect check item => check.Of monitorId ∧
      (detectFeedChange check.tools check.ctx check.summaryAsDiffPreview st.detected item).run
        st.store = (some st'.detected, st'.store) ∧
      st'.account = st.account.see monitorId check.tools item st.store st'.store
    | .finish check => check.Of monitorId ∧
      ((processDetected check.tools check.ctx check.progress st.detected).run st.store).2 =
        st'.store ∧ st'.detected = [] ∧ st'.account = st.account
    | .others => OthersKeep monitorId st.store st'.store ∧ st'.detected = st.detected ∧
      st'.account = st.account

/-! ## Events -/

/-- What an item should report. -/
inductive ItemEvent
  | new
  | updated (updatedAt : String)
  deriving DecidableEq, Repr

def ItemEvent.kind : ItemEvent → ChangeKind
  | .new => .new
  | .updated _ => .updated

def ItemEvent.dedupeKey (item : FeedItem) : ItemEvent → String
  | .new => item.stableKey
  | .updated updatedAt => updatedKey item updatedAt

/-- A stable key seen for the first time, or a value that is neither the watermark of the known
item nor reported. -/
def FeedAccount.eventOf (account : FeedAccount) (monitorId : MonitorId) (s : Store)
    (item : FeedItem) : Option ItemEvent :=
  match account.urlOf item.stableKey with
  | none => some .new
  | some url =>
    (item.updatedAt.filter fun updatedAt =>
      updatedAt != "" && some updatedAt != (existingTarget ⟨monitorId, url⟩ s).lastKnownUpdatedAt &&
        !account.reported.contains (item.stableKey, updatedAt)).map .updated

/-- The event makes one Change, its own. -/
def Yields (monitorId : MonitorId) (url : Url) (item : FeedItem) (event : ItemEvent)
    (s s' : Store) : Prop :=
  let id : ChangeId := ⟨monitorId, event.dedupeKey item⟩
  s.changes id = none ∧
    (∃ row, s'.changes id = some row ∧ row.kind = event.kind ∧ row.targetUrl = url) ∧
      ∀ other, other ≠ id → s'.changes other = s.changes other

/-- No Change has the dedupe key, and the URL has no target when the item is new, and a target
with another watermark when it is known. -/
def HasRoom (monitorId : MonitorId) (url : Url) (item : FeedItem) (event : ItemEvent)
    (s : Store) : Prop :=
  s.changes ⟨monitorId, event.dedupeKey item⟩ = none ∧
    match event with
    | .new => s.targets ⟨monitorId, url⟩ = none
    | .updated updatedAt =>
      ∃ row, s.targets ⟨monitorId, url⟩ = some row ∧ row.lastKnownUpdatedAt ≠ some updatedAt

section Item

variable {ctx : CheckContext} {summaryAsDiffPreview : Bool} {url : Url} {item : FeedItem}
  {s : Store}

private theorem changes_requested {request : ChangeRequest}
    (h : changeRequest ctx summaryAsDiffPreview url item
      (existingTarget ⟨ctx.monitor.id, url⟩ s) = some request) :
    (s.detect ctx summaryAsDiffPreview url item).2.changes =
      insertIfNew s.changes request.row.id request.row := by
  unfold Store.detect
  rw [h]
  rfl

private theorem changes_unrequested
    (h : changeRequest ctx summaryAsDiffPreview url item
      (existingTarget ⟨ctx.monitor.id, url⟩ s) = none) :
    (s.detect ctx summaryAsDiffPreview url item).2.changes = s.changes := by
  unfold Store.detect
  rw [h]
  rfl

theorem updatedKey_ne (updatedAt : String) : updatedKey item updatedAt ≠ item.stableKey := by
  intro h
  have hlength := congrArg String.length h
  have hcolon : ":".length = 1 := rfl
  rw [updatedKey, String.length_append, String.length_append, hcolon] at hlength
  omega

/-- A request yields the event when it is the event's own and its key is free. -/
private theorem yields_insert {monitorId : MonitorId} {event : ItemEvent} {row : ChangeRow}
    {s' : Store} (hafter : s'.changes = insertIfNew s.changes row.id row)
    (hid : row.id = ⟨monitorId, event.dedupeKey item⟩) (hkind : row.kind = event.kind)
    (hurl : row.targetUrl = url) :
    Yields monitorId url item event s s' ↔ s.changes ⟨monitorId, event.dedupeKey item⟩ = none := by
  unfold Yields
  rw [hafter, ← hid]
  constructor
  · exact fun h => h.1
  · intro hnone
    refine ⟨hnone, ⟨row, ?_, hkind, hurl⟩, fun other hother => insertIfNew_other hother⟩
    rw [insertIfNew_of_none hnone, Function.update_self]

/-- A row of another key. -/
private theorem not_yields {monitorId : MonitorId} {event : ItemEvent} {s' : Store}
    (hsame : s'.changes ⟨monitorId, event.dedupeKey item⟩ =
      s.changes ⟨monitorId, event.dedupeKey item⟩) :
    ¬Yields monitorId url item event s s' := by
  rintro ⟨hnone, ⟨row, hrow, _⟩, _⟩
  rw [hsame, hnone] at hrow
  contradiction

/-- The update of a known item is a value of its own. -/
private theorem eventOf_updated {account : FeedAccount} {monitorId : MonitorId} {updatedAt : String}
    (h : account.eventOf monitorId s item = some (.updated updatedAt)) :
    item.updatedAt = some updatedAt ∧ updatedAt ≠ "" := by
  unfold FeedAccount.eventOf at h
  cases hurl : account.urlOf item.stableKey with
  | none => simp [hurl] at h
  | some url =>
    rw [hurl] at h
    obtain ⟨value, hvalue, heq⟩ := Option.map_eq_some_iff.mp h
    obtain ⟨hitem, hholds⟩ := Option.filter_eq_some_iff.mp hvalue
    cases heq
    simp only [Bool.and_eq_true, bne_iff_ne] at hholds
    exact ⟨hitem, hholds.1.1⟩

private theorem request_new (hchecked : ctx.monitor.lastCheckedAt.isSome)
    (htarget : s.targets ⟨ctx.monitor.id, url⟩ = none) :
    changeRequest ctx summaryAsDiffPreview url item (existingTarget ⟨ctx.monitor.id, url⟩ s) =
      some ⟨requestOf ctx summaryAsDiffPreview ⟨ctx.monitor.id, url⟩ item .new item.stableKey,
        none⟩ := by
  simp [changeRequest, existingTarget, htarget, Option.isSome_iff_ne_none.mp hchecked]

private theorem request_known (hchecked : ctx.monitor.lastCheckedAt.isSome) {row : TargetRow}
    (htarget : s.targets ⟨ctx.monitor.id, url⟩ = some row) :
    changeRequest ctx summaryAsDiffPreview url item (existingTarget ⟨ctx.monitor.id, url⟩ s) =
      (updateOf item ⟨true, row.lastKnownUpdatedAt⟩).map fun updatedAt =>
        ⟨requestOf ctx summaryAsDiffPreview ⟨ctx.monitor.id, url⟩ item .updated
          (updatedKey item updatedAt), some (⟨ctx.monitor.id, url⟩, updatedAt)⟩ := by
  simp [changeRequest, existingTarget, htarget, Option.isSome_iff_ne_none.mp hchecked]

private theorem changeId_ne {monitorId : MonitorId} (updatedAt : String) :
    (⟨monitorId, updatedKey item updatedAt⟩ : ChangeId) ≠ ⟨monitorId, item.stableKey⟩ :=
  fun h => updatedKey_ne updatedAt (ChangeId.mk.inj h).2

/-- What Detect does of the event of an item. -/
theorem detect_yields_iff {account : FeedAccount} {event : ItemEvent}
    (hchecked : ctx.monitor.lastCheckedAt.isSome)
    (hevent : account.eventOf ctx.monitor.id s item = some event) :
    Yields ctx.monitor.id url item event s (s.detect ctx summaryAsDiffPreview url item).2 ↔
      HasRoom ctx.monitor.id url item event s := by
  unfold HasRoom
  cases htarget : s.targets ⟨ctx.monitor.id, url⟩ with
  | none =>
    have hchanges : (s.detect ctx summaryAsDiffPreview url item).2.changes = _ :=
      changes_requested (request_new hchecked htarget)
    cases event with
    | new => exact (yields_insert hchanges rfl rfl rfl).trans (and_iff_left rfl).symm
    | updated updatedAt =>
      apply iff_of_false
      · apply not_yields
        rw [hchanges]
        exact insertIfNew_other (changeId_ne updatedAt)
      · simp
  | some row =>
    have hrequest : changeRequest ctx summaryAsDiffPreview url item
        (existingTarget ⟨ctx.monitor.id, url⟩ s) = _ := request_known hchecked htarget
    cases event with
    | new =>
      apply iff_of_false
      · apply not_yields
        cases hupdate : updateOf item ⟨true, row.lastKnownUpdatedAt⟩ with
        | none =>
          rw [hupdate] at hrequest
          rw [changes_unrequested hrequest]
        | some updatedAt =>
          rw [hupdate] at hrequest
          rw [changes_requested hrequest]
          exact insertIfNew_other (changeId_ne updatedAt).symm
      · simp
    | updated updatedAt =>
      obtain ⟨hvalue, hne⟩ := eventOf_updated hevent
      by_cases hsame : row.lastKnownUpdatedAt = some updatedAt
      · have hupdate : updateOf item ⟨true, row.lastKnownUpdatedAt⟩ = none := by
          simp [updateOf, hvalue, hsame]
        rw [hupdate] at hrequest
        apply iff_of_false
        · apply not_yields
          rw [changes_unrequested hrequest]
        · simp [hsame]
      · have hupdate : updateOf item ⟨true, row.lastKnownUpdatedAt⟩ = some updatedAt := by
          simp [updateOf, hvalue, hne, Ne.symm hsame]
        rw [hupdate, Option.map_some] at hrequest
        have hyields : Yields ctx.monitor.id url item (.updated updatedAt) s
            (s.detect ctx summaryAsDiffPreview url item).2 ↔
              s.changes ⟨ctx.monitor.id, updatedKey item updatedAt⟩ = none :=
          yields_insert (changes_requested hrequest) rfl rfl rfl
        exact hyields.trans (and_iff_left ⟨row, rfl, hsame⟩).symm

end Item

/-! ## What the steps keep -/

/-- The Changes there are stay, but for titles and tags. -/
def ChangesKept (s s' : Store) : Prop :=
  ∀ id row, s.changes id = some row →
    ∃ row', s'.changes id = some row' ∧ row'.kind = row.kind ∧ row'.targetUrl = row.targetUrl

theorem ChangesKept.refl (s : Store) : ChangesKept s s :=
  fun _ row hrow => ⟨row, hrow, rfl, rfl⟩

theorem ChangesKept.of_eq {s s' : Store} (h : s'.changes = s.changes) : ChangesKept s s' :=
  fun id row hrow => ⟨row, (congrFun h id).trans hrow, rfl, rfl⟩

theorem ChangesKept.trans {s s' s'' : Store} (h : ChangesKept s s') (h' : ChangesKept s' s'') :
    ChangesKept s s'' := by
  intro id row hrow
  obtain ⟨row', hrow', hkind, hurl⟩ := h id row hrow
  obtain ⟨row'', hrow'', hkind', hurl'⟩ := h' id row' hrow'
  exact ⟨row'', hrow'', hkind'.trans hkind, hurl'.trans hurl⟩

/-- Every message was sent once, for a delivery there is. -/
def SentOnce (s : Store) : Prop :=
  s.queue.Nodup ∧ ∀ id ∈ s.queue, s.deliveries id ≠ none

section Keeps

variable {tools : ItemTools} {ctx : CheckContext} {summaryAsDiffPreview : Bool} {url : Url}
  {item : FeedItem} {s : Store} {used : Nat} {detected : List DetectedChange}

theorem detect_keeps : ChangesKept s (s.detect ctx summaryAsDiffPreview url item).2 := by
  intro id row hrow
  refine ⟨row, ?_, rfl, rfl⟩
  cases hrequest : changeRequest ctx summaryAsDiffPreview url item
      (existingTarget ⟨ctx.monitor.id, url⟩ s) with
  | none => rw [changes_unrequested hrequest, hrow]
  | some request =>
    rw [changes_requested hrequest]
    exact insertIfNew_keeps hrow

theorem detect_sent (h : SentOnce s) :
    SentOnce (s.detect ctx summaryAsDiffPreview url item).2 := by
  unfold Store.detect Store.insertRequest
  cases changeRequest ctx summaryAsDiffPreview url item
    (existingTarget ⟨ctx.monitor.id, url⟩ s) <;> exact h

private theorem updateChange_keeps {id : ChangeId} {f : ChangeRow → ChangeRow}
    (hkind : ∀ row, (f row).kind = row.kind) (hurl : ∀ row, (f row).targetUrl = row.targetUrl) :
    ChangesKept s (s.updateChange id f) := by
  intro other row hrow
  by_cases hid : other = id
  · subst hid
    refine ⟨f row, ?_, hkind row, hurl row⟩
    simp [Store.updateChange, hrow]
  · refine ⟨row, ?_, rfl, rfl⟩
    simp [Store.updateChange, hid, hrow]

/-- What each of the stages after Detect keeps. -/
private structure StageKeeps (s s' : Store) : Prop where
  changes : ChangesKept s s'
  sent : SentOnce s → SentOnce s'

private theorem StageKeeps.trans {s s' s'' : Store} (h : StageKeeps s s')
    (h' : StageKeeps s' s'') : StageKeeps s s'' :=
  ⟨h.changes.trans h'.changes, h'.sent ∘ h.sent⟩

private theorem StageKeeps.refl (s : Store) : StageKeeps s s :=
  ⟨.refl s, id⟩

/-- A stage's loop, whose body keeps what the stage keeps. -/
private theorem stageKeeps_foldl {α β : Type} {next : α × Store → β → α × Store}
    (h : ∀ st b, StageKeeps st.2 (next st b).2) (bs : List β) (st : α × Store) :
    StageKeeps st.2 (bs.foldl next st).2 := by
  induction bs generalizing st with
  | nil => exact .refl _
  | cons b bs ih => exact (h st b).trans (ih (next st b))

private theorem enrichAll_keeps : StageKeeps s (s.enrichAll tools used detected).2 := by
  have hnext : ∀ st d, StageKeeps st.2 (Store.enrichNext tools st d).2 := by
    intro st d
    unfold Store.enrichNext
    split
    · exact .refl _
    · split
      · exact .refl _
      · exact ⟨updateChange_keeps (fun _ => rfl) (fun _ => rfl), id⟩
  exact stageKeeps_foldl hnext detected (⟨[], used⟩, s)

private theorem tagIfNull_keeps (tags : List String) (row : ChangeRow) :
    (tagIfNull tags row).kind = row.kind ∧ (tagIfNull tags row).targetUrl = row.targetUrl := by
  unfold tagIfNull
  split <;> exact ⟨rfl, rfl⟩

private theorem classifyAll_keeps : StageKeeps s (s.classifyAll tools ctx detected).2 := by
  unfold Store.classifyAll
  cases ctx.source.config.bind SourceConfig.classify with
  | none => exact .refl _
  | some classify =>
    have hnext : ∀ st d, StageKeeps st.2 (Store.classifyNext tools classify st d).2 := by
      intro st d
      unfold Store.classifyNext
      split
      · exact .refl _
      · exact ⟨updateChange_keeps (fun row => (tagIfNull_keeps _ row).1)
          fun row => (tagIfNull_keeps _ row).2, id⟩
    exact stageKeeps_foldl hnext detected ([], s)

private theorem deliver_sent {changeId : ChangeId} {sub : SubscriptionRow} (h : SentOnce s) :
    SentOnce (s.deliver changeId sub) := by
  unfold Store.deliver
  split
  · next hnone =>
    have hnone := Option.isNone_iff_eq_none.mp hnone
    refine ⟨List.nodup_cons.mpr ⟨fun hmem => h.2 _ hmem hnone, h.1⟩, ?_⟩
    intro id hmem
    rw [Store.send_deliveries, Store.insertDelivery_deliveries]
    rcases List.mem_cons.mp hmem with rfl | hold
    · exact Option.ne_none_iff_isSome.mpr insertIfNew_isSome
    · obtain ⟨row, hrow⟩ := Option.ne_none_iff_exists'.mp (h.2 id hold)
      rw [insertIfNew_keeps hrow]
      simp
  · exact h

private theorem fanOut_keeps {change : ChangeRow} : StageKeeps s (s.fanOut ctx change) := by
  unfold Store.fanOut
  generalize matchingSubscriptions (fanoutMatch ctx change) s = subs
  induction subs generalizing s with
  | nil => exact .refl _
  | cons sub subs ih =>
    have hdeliver : StageKeeps s (s.deliver change.id sub) := by
      refine ⟨.of_eq ?_, deliver_sent⟩
      unfold Store.deliver
      split <;> rfl
    exact hdeliver.trans ih

private theorem notifyAll_keeps {changeIds : List ChangeId} :
    StageKeeps s (s.notifyAll ctx changeIds detected).2 := by
  have hadvance : ∀ (s : Store) d, StageKeeps s (s.advance d) := by
    intro s d
    unfold Store.advance
    split
    · exact .refl _
    · exact ⟨.of_eq rfl, id⟩
  have hnext : ∀ st d, StageKeeps st.2 (Store.notifyNext ctx st d).2 :=
    fun st d => fanOut_keeps.trans (hadvance _ d.watermarkAdvance)
  exact stageKeeps_foldl hnext detected (changeIds, s)

theorem finishItems_keeps : ChangesKept s (s.finishItems tools ctx used detected) ∧
    (SentOnce s → SentOnce (s.finishItems tools ctx used detected)) := by
  have hkeeps : StageKeeps s (s.finishItems tools ctx used detected) :=
    enrichAll_keeps.trans (classifyAll_keeps.trans notifyAll_keeps)
  exact ⟨hkeeps.changes, hkeeps.sent⟩

end Keeps

end Utsuroi

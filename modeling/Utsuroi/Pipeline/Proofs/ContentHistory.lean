import Mathlib.Tactic
import Utsuroi.Pipeline.ContentHistory

/-!
# Which changes a history of documents gets

A check compares its document with the one before, but the change it inserts is keyed by the
document's digest over all changes of the monitor: a document that comes back after another
one finds its key taken.
-/

namespace Utsuroi

open Async Prog KeyedHistory

/-! ## What fanning out leaves alone -/

/-- The tables of the content processors are as they were. -/
structure SameContent (s s' : Store) : Prop where
  monitors : s'.monitors = s.monitors
  snapshots : s'.snapshots = s.snapshots
  changes : s'.changes = s.changes
  normalized : s'.normalized = s.normalized

private theorem SameContent.refl (s : Store) : SameContent s s := ⟨rfl, rfl, rfl, rfl⟩

private theorem SameContent.trans {s s' s'' : Store} (h : SameContent s s')
    (h' : SameContent s' s'') : SameContent s s'' :=
  ⟨h'.monitors.trans h.monitors, h'.snapshots.trans h.snapshots, h'.changes.trans h.changes,
    h'.normalized.trans h.normalized⟩

private theorem createDeliveryIfNew_same (changeId : ChangeId) (destinationId : DestinationId)
    (s : Store) :
    (createDeliveryIfNew changeId destinationId).Returns s fun _ s' => SameContent s s' := by
  unfold createDeliveryIfNew
  rw [returns_bind, returns_call]
  cases hrow : s.deliveries ⟨changeId, destinationId⟩ with
  | none => exact ⟨rfl, rfl, rfl, rfl⟩
  | some row =>
    simp only [Option.isNone_some, Bool.false_eq_true, if_false, returns_bind, returns_query,
      Store.insertDelivery_deliveries, insertIfNew_keeps hrow, pure_eq, returns_ret]
    exact ⟨rfl, rfl, rfl, rfl⟩

private theorem fanoutTo_same (changeId : ChangeId) (sub : SubscriptionRow) (s : Store) :
    (fanoutTo changeId sub).Returns s fun _ s' => SameContent s s' := by
  unfold fanoutTo
  rw [returns_bind]
  refine (createDeliveryIfNew_same changeId sub.destinationId s).mono ?_
  intro delivery s' hsame
  by_cases hinserted : delivery.inserted = true
  · simp only [hinserted, if_true]
    exact hsame.trans ⟨rfl, rfl, rfl, rfl⟩
  · simp only [hinserted, if_false, Bool.false_eq_true]
    exact hsame

private theorem fanoutChange_same (ctx : CheckContext) (change : ChangeRow) (s : Store) :
    (fanoutChange ctx change).Returns s fun _ s' => SameContent s s' := by
  unfold fanoutChange
  rw [returns_bind]
  refine returns_forM (SameContent s) (SameContent.refl s) ?_
  intro sub _ s' hs'
  exact (fanoutTo_same change.id sub s').mono fun _ _ h => hs'.trans h

private theorem notifyOne_same (ctx : CheckContext) (changeIds : List ChangeId) (row : ChangeRow)
    (inserted : Bool) (item : Option FeedItem) (s : Store) :
    (notifyDetectedChanges ctx changeIds [⟨row, inserted, none, item⟩]).Returns s
      fun _ s' => SameContent s s' := by
  refine returns_foldlM (fun _ => SameContent s) (SameContent.refl s) ?_
  intro d hd changeIds s' hs'
  obtain rfl := List.mem_singleton.mp hd
  unfold notifyDetectedChange
  rw [returns_bind]
  exact (fanoutChange_same ctx row s').mono fun _ _ h => hs'.trans h

/-- A change is recorded under its id unless there is one; nothing else of the content
tables changes. -/
private theorem recordChange_spec (ctx : CheckContext) (row : ChangeRow) (unifiedDiff : String)
    (s : Store) :
    (recordChange ctx row unifiedDiff).Returns s fun _ s' =>
      SameContent (s.insertChange row) s' := by
  unfold recordChange insertChangeIfNew
  simp only [returns_bind, returns_call]
  cases hrow : s.changes row.id with
  | none =>
    simp only [Option.isNone_none, if_true, pure_eq, returns_ret, Bool.true_and]
    by_cases hdiff : (unifiedDiff != "") = true
    · simp only [hdiff, if_true]
      exact (notifyOne_same ctx [] row true none _).mono fun _ _ h =>
        ⟨h.monitors, h.snapshots, h.changes, h.normalized⟩
    · simp only [hdiff, if_false, Bool.false_eq_true]
      exact notifyOne_same ctx [] row true none _
  | some old =>
    have hold : (s.insertChange row).changes row.id = some old := insertIfNew_keeps hrow
    simp only [Option.isNone_some, Bool.false_eq_true, if_false, returns_bind, returns_query,
      hold, pure_eq, returns_ret, Bool.false_and]
    exact notifyOne_same ctx [] old false none _

/-! ## One check -/

/-- What a check finds of the checks before it: `row` is the latest snapshot of the target
and the text it was taken of is in R2. -/
structure Recorded (tools : ContentTools) (row : SnapshotRow) (s : Store) : Prop where
  latest : ∃ n, latestSnapshotForTarget row.targetId s = some { row with id := n }
  past : ∀ old ∈ s.snapshots, old.targetId = row.targetId → old.fetchedAt ≤ row.fetchedAt
  addressed : Addressed tools s
  stored : ∀ hash, row.normalizedR2Key = some hash → s.normalized hash ≠ none

private theorem putBody_spec (hash : Hash) (body : List UInt8) (s : Store) :
    (putBody hash body).Returns s fun _ s' => SameContent s s' := by
  unfold putBody putIfAbsent
  rw [returns_bind, returns_query]
  cases (s.bodies hash).isSome with
  | true => exact SameContent.refl s
  | false => exact ⟨rfl, rfl, rfl, rfl⟩

private theorem putNormalized_spec (tools : ContentTools) (text : String) {s : Store}
    (haddressed : Addressed tools s) :
    (putNormalized (tools.sha256Text text) text).Returns s fun _ s' =>
      s'.monitors = s.monitors ∧ s'.snapshots = s.snapshots ∧ s'.changes = s.changes ∧
        s'.normalized (tools.sha256Text text) ≠ none ∧ Addressed tools s' ∧
          ∀ hash, s.normalized hash ≠ none → s'.normalized hash ≠ none := by
  unfold putNormalized putIfAbsent
  rw [returns_bind, returns_query]
  cases hpresent : s.normalized (tools.sha256Text text) with
  | some old =>
    refine ⟨rfl, rfl, rfl, ?_, haddressed, fun _ h => h⟩
    simp [hpresent]
  | none =>
    refine ⟨rfl, rfl, rfl, ?_, ?_, ?_⟩
    · simp
    · intro hash other hother
      by_cases heq : hash = tools.sha256Text text
      · subst heq
        simp only [Function.update_self, Option.some.injEq] at hother
        rw [← hother]
      · simp only [Function.update_of_ne heq] at hother
        exact haddressed hash other hother
    · intro hash hstored
      by_cases heq : hash = tools.sha256Text text
      · simp [heq]
      · simpa [Function.update_of_ne heq] using hstored

/-- A document stored after all others of its target is the one the next check finds. -/
private theorem storeDocument_spec (tools : ContentTools) (rawHash : Hash) (body : List UInt8)
    (text : String) (row : SnapshotRow) {s : Store} (haddressed : Addressed tools s)
    (hpast : ∀ old ∈ s.snapshots, old.targetId = row.targetId → old.fetchedAt ≤ row.fetchedAt)
    (hkey : row.normalizedR2Key = some (tools.sha256Text text)) :
    (storeDocument rawHash body (tools.sha256Text text) text row).Returns s fun _ s' =>
      s'.monitors = s.monitors ∧ s'.changes = s.changes ∧ Recorded tools row s' ∧
        ∀ hash, s.normalized hash ≠ none → s'.normalized hash ≠ none := by
  unfold storeDocument createSnapshot
  rw [returns_bind]
  refine (putBody_spec rawHash body s).mono ?_
  intro _ s₁ h₁
  have haddressed₁ : Addressed tools s₁ := by
    unfold Addressed
    rw [h₁.normalized]
    exact haddressed
  rw [returns_bind]
  refine (putNormalized_spec tools text haddressed₁).mono ?_
  rintro _ s₂ ⟨hmonitors, hsnapshots, hchanges, hstored, haddressed₂, hkept⟩
  have hpast₂ : ∀ old ∈ s₂.snapshots, old.targetId = row.targetId →
      old.fetchedAt ≤ row.fetchedAt := by
    rw [hsnapshots, h₁.snapshots]
    exact hpast
  rw [h₁.normalized] at hkept
  refine ⟨hmonitors.trans h₁.monitors, hchanges.trans h₁.changes,
    ⟨⟨_, latest_addSnapshot hpast₂⟩, ?_, haddressed₂, ?_⟩, hkept⟩
  · intro old hold htarget
    rcases List.mem_cons.mp hold with rfl | hold
    · exact le_rfl
    · exact hpast₂ old hold htarget
  · intro hash hhash
    rw [hkey] at hhash
    injection hhash with hhash
    subst hhash
    exact hstored

/-- Inserting a change and fanning it out leave the record alone. -/
private theorem Recorded.of_eq {tools : ContentTools} {row : SnapshotRow} {s s' : Store}
    (h : Recorded tools row s) (hsnapshots : s'.snapshots = s.snapshots)
    (hnormalized : s'.normalized = s.normalized) : Recorded tools row s' := by
  constructor
  · unfold latestSnapshotForTarget
    rw [hsnapshots]
    exact h.latest
  · rw [hsnapshots]
    exact h.past
  · unfold Addressed
    rw [hnormalized]
    exact h.addressed
  · rw [hnormalized]
    exact h.stored

/-- What is left of the checks before: nothing, or the record of the last document. -/
def History (w : Watch) (snapshotOf : Document → SnapshotRow) : Option Document → Store → Prop
  | none, s => Unchecked w s
  | some previous, s =>
    (∃ row, s.monitors w.monitorId = some row ∧ row.id = w.monitorId ∧
      row.lastCheckedAt ≠ none) ∧ Recorded w.tools (snapshotOf previous) s

/-- A change is inserted under `key` unless the monitor has one there; none without a key. -/
def KeyedInsert (w : Watch) (key : Option String) (s s' : Store) : Prop :=
  match key with
  | none => s'.changes = s.changes
  | some key => ∃ row, s'.changes = insertIfNew s.changes ⟨w.monitorId, key⟩ row

/-- What a processor is to do with a document that parses: record it, and insert a change
under `key` if it differs from the previous one. -/
def ProcessorSpec (process : ContentProcessor) (w : Watch)
    (snapshotOf : Document → SnapshotRow) (key : Option Document → Document → Option String)
    (parses : Document → Prop) : Prop :=
  ∀ (ctx : CheckContext) (previous : Option Document) (previousSnapshot : Option SnapshotRow)
    (doc : Document) (s : Store), parses doc → History w snapshotOf previous s →
    (∀ p, previous = some p → parses p ∧ p.now < doc.now ∧ ctx.monitor.lastCheckedAt ≠ none) →
    ctx.monitor.id = w.monitorId → ctx.now = doc.now →
    previousSnapshot = latestSnapshotForTarget w.target.id s →
    (process ctx w.target previousSnapshot doc.outcome doc.body).Returns s fun _ s' =>
      s'.monitors = s.monitors ∧ Recorded w.tools (snapshotOf doc) s' ∧
        KeyedInsert w (key previous doc) s s'

private theorem latest_of_unchecked {w : Watch} {s : Store} (h : Unchecked w s) :
    latestSnapshotForTarget w.target.id s = none := by
  have hnil : s.snapshots.filter (fun row => decide (row.targetId = w.target.id)) = [] := by
    rw [List.filter_eq_nil_iff]
    intro row hrow
    simpa using h.snapshots row hrow
  unfold latestSnapshotForTarget
  rw [hnil]
  rfl

private theorem History.past {w : Watch} {snapshotOf : Document → SnapshotRow}
    {previous : Option Document} {s : Store} (doc : Document)
    (hs : History w snapshotOf previous s)
    (htarget : ∀ p, (snapshotOf p).targetId = w.target.id)
    (hfetched : ∀ p, (snapshotOf p).fetchedAt = p.now)
    (hnow : ∀ p, previous = some p → p.now < doc.now) :
    ∀ old ∈ s.snapshots, old.targetId = (snapshotOf doc).targetId →
      old.fetchedAt ≤ (snapshotOf doc).fetchedAt := by
  intro old hold hoftarget
  rw [htarget] at hoftarget
  rw [hfetched]
  cases previous with
  | none => exact absurd hoftarget (hs.snapshots old hold)
  | some p =>
    have hle := hs.2.past old hold (by rw [htarget, hoftarget])
    rw [hfetched] at hle
    exact hle.trans (hnow p rfl).le

private theorem History.addressed {w : Watch} {snapshotOf : Document → SnapshotRow}
    {previous : Option Document} {s : Store} (hs : History w snapshotOf previous s) :
    Addressed w.tools s := by
  cases previous with
  | none => exact Unchecked.addressed hs
  | some p => exact hs.2.addressed

/-- A text in R2 is read back with the digest it is stored under. -/
private theorem getNormalized_spec {tools : ContentTools} {s : Store} {hash : Hash}
    (haddressed : Addressed tools s) (hstored : s.normalized hash ≠ none) :
    (getNormalized (some hash)).Returns s fun text s' => s' = s ∧ tools.sha256Text text = hash := by
  unfold getNormalized
  rw [returns_query]
  obtain ⟨text, htext⟩ := Option.ne_none_iff_exists'.mp hstored
  rw [htext]
  exact ⟨rfl, haddressed hash text htext⟩

/-- The key of the change a document asks for. -/
def stepKey (differs : Document → Document → Bool) (key : Document → Document → String) :
    Option Document → Document → Option String
  | none, _ => none
  | some previous, doc => if differs previous doc then some (key previous doc) else none

private theorem keyedInsert_of_same {w : Watch} {row : ChangeRow} {key : String}
    {s s₁ s' : Store} (hsame : SameContent (s₁.insertChange row) s')
    (hid : row.id = ⟨w.monitorId, key⟩) (hchanges : s₁.changes = s.changes) :
    KeyedInsert w (some key) s s' := by
  refine ⟨row, ?_⟩
  rw [hsame.changes]
  show insertIfNew s₁.changes row.id row = _
  rw [hid, hchanges]

theorem processPageContent_spec (w : Watch) :
    ProcessorSpec (processPageContent w.tools) w (pageSnapshotOf w)
      (stepKey (pageDiffers w) (pageKey w)) fun _ => True := by
  intro ctx previous previousSnapshot doc s _ hs hprevious hmonitor hnow hlatest
  have hpast := History.past doc hs (fun _ => rfl) (fun _ => rfl)
    fun p hp => (hprevious p hp).2.1
  unfold processPageContent
  rw [hnow, returns_bind]
  refine (storeDocument_spec w.tools _ doc.body _ (pageSnapshotOf w doc) hs.addressed hpast
    rfl).mono ?_
  rintro snapshotId s₁ ⟨hmonitors, hchanges, hrecorded, hkept⟩
  cases previous with
  | none =>
    rw [latest_of_unchecked hs] at hlatest
    subst hlatest
    exact ⟨hmonitors, hrecorded, hchanges⟩
  | some p =>
    obtain ⟨n, hn⟩ := hs.2.latest
    have hprev : previousSnapshot = some { pageSnapshotOf w p with id := n } := hlatest.trans hn
    subst hprev
    have hcmp : compareSnapshots
        (previousContent { pageSnapshotOf w p with id := n }
          (w.tools.normalizeHtml doc.body doc.outcome.headerCharset))
        (w.tools.normalizeHtml doc.body doc.outcome.headerCharset) = pageComparison w p doc := rfl
    simp only [hcmp, hmonitor]
    cases hdiffers : (pageComparison w p doc).changed with
    | false =>
      have hkey : stepKey (pageDiffers w) (pageKey w) (some p) doc = none := by
        simp [stepKey, pageDiffers, hdiffers]
      rw [hkey]
      exact ⟨hmonitors, hrecorded, hchanges⟩
    | true =>
      have hkey : stepKey (pageDiffers w) (pageKey w) (some p) doc = some (pageKey w p doc) := by
        simp [stepKey, pageDiffers, hdiffers]
      rw [hkey]
      simp only [Bool.not_true, Bool.false_eq_true, if_false, getNormalized, pageSnapshotOf,
        pageSnapshot, returns_bind, returns_query]
      refine (recordChange_spec ctx _ _ s₁).mono ?_
      intro _ s' hsame
      exact ⟨hsame.monitors.trans hmonitors,
        hrecorded.of_eq hsame.snapshots hsame.normalized,
        keyedInsert_of_same hsame rfl hchanges⟩

section Parsed

variable {w : Watch} {doc : Document} {items : List FeedItem} (h : w.parsed doc = some items)
include h

private theorem sitemapDocHash_parsed :
    sitemapDocHash w doc = some (w.tools.sha256Text (buildSitemapDocument items)) := by
  simp [sitemapDocHash, h]

private theorem sitemapSnapshot_parsed :
    sitemapSnapshot w.target.id doc.now doc.outcome (w.tools.sha256Bytes doc.body)
      (w.tools.sha256Text (buildSitemapDocument items)) = sitemapSnapshotOf w doc := by
  simp [sitemapSnapshotOf, sitemapDocHash_parsed h]

private theorem normalizedR2Key_parsed : (sitemapSnapshotOf w doc).normalizedR2Key =
    some (w.tools.sha256Text (buildSitemapDocument items)) := by
  rw [← sitemapSnapshot_parsed h]
  rfl

private theorem textHash_parsed : (sitemapSnapshotOf w doc).textHash =
    some (w.tools.sha256Text (buildSitemapDocument items)) := by
  rw [← sitemapSnapshot_parsed h]
  rfl

end Parsed

theorem processSitemapDirect_spec (w : Watch)
    (hdiff : ∀ before after, (w.tools.diffText before after).changed = true ↔ before ≠ after) :
    ProcessorSpec (processSitemapDirect w.tools) w (sitemapSnapshotOf w)
      (stepKey (sitemapDiffers w) (sitemapKey w)) fun doc =>
        (w.parsed doc).isSome := by
  intro ctx previous previousSnapshot doc s hparses hs hprevious hmonitor hnow hlatest
  have hpast := History.past doc hs (fun _ => rfl) (fun _ => rfl)
    fun p hp => (hprevious p hp).2.1
  obtain ⟨items, hparsed⟩ := Option.isSome_iff_exists.mp hparses
  have hitems : w.tools.parseSource doc.body doc.outcome.headerCharset = some items := hparsed
  have hhash := sitemapDocHash_parsed hparsed
  unfold processSitemapDirect
  simp only [hitems]
  rw [hnow, sitemapSnapshot_parsed hparsed, returns_bind]
  refine (storeDocument_spec w.tools _ doc.body _ (sitemapSnapshotOf w doc) hs.addressed hpast
    (normalizedR2Key_parsed hparsed)).mono ?_
  rintro snapshotId s₁ ⟨hmonitors, hchanges, hrecorded, hkept⟩
  cases previous with
  | none =>
    rw [latest_of_unchecked hs] at hlatest
    subst hlatest
    exact ⟨hmonitors, hrecorded, hchanges⟩
  | some p =>
    obtain ⟨hpparses, _, hlast⟩ := hprevious p rfl
    obtain ⟨previousItems, hpitems⟩ := Option.isSome_iff_exists.mp hpparses
    have hphash := sitemapDocHash_parsed hpitems
    obtain ⟨n, hn⟩ := hs.2.latest
    have hprev : previousSnapshot = some { sitemapSnapshotOf w p with id := n } := hlatest.trans hn
    subst hprev
    simp only [hlast, if_false]
    by_cases hsame : sitemapDocHash w p = sitemapDocHash w doc
    · have hkey : stepKey (sitemapDiffers w) (sitemapKey w) (some p) doc = none := by
        simp [stepKey, sitemapDiffers, hsame]
      have htext : (sitemapSnapshotOf w p).textHash =
          some (w.tools.sha256Text (buildSitemapDocument items)) := by
        rw [textHash_parsed hpitems, ← hphash, hsame, hhash]
      rw [hkey, if_pos htext]
      exact ⟨hmonitors, hrecorded, hchanges⟩
    · have hkey : stepKey (sitemapDiffers w) (sitemapKey w) (some p) doc =
          some (w.tools.sha256Text (buildSitemapDocument items)) := by
        have hdiffers : sitemapDiffers w p doc = true := by simp [sitemapDiffers, hsame]
        simp [stepKey, hdiffers, sitemapKey, hhash]
      have hne : w.tools.sha256Text (buildSitemapDocument previousItems) ≠
          w.tools.sha256Text (buildSitemapDocument items) := by
        simpa [hphash, hhash] using hsame
      have hkeyp := normalizedR2Key_parsed hpitems
      rw [hkey, textHash_parsed hpitems, if_neg (by simpa using hne), hkeyp, returns_bind]
      refine (getNormalized_spec hrecorded.addressed
        (hkept _ (hs.2.stored _ hkeyp))).mono ?_
      rintro previousDocument _ ⟨rfl, hdigest⟩
      -- texts with different digests differ, and the line diff sees that they do
      have hchanged : (w.tools.diffText previousDocument (buildSitemapDocument items)).changed =
          true := by
        rw [hdiff]
        rintro rfl
        exact hne hdigest.symm
      simp only [hchanged, Bool.not_true, Bool.false_eq_true, if_false, hmonitor]
      refine (recordChange_spec ctx _ _ _).mono ?_
      intro _ s' hsame
      exact ⟨hsame.monitors.trans hmonitors,
        hrecorded.of_eq hsame.snapshots hsame.normalized,
        keyedInsert_of_same hsame rfl hchanges⟩

/-! ## A whole history -/

private theorem contentCheck_spec {process : ContentProcessor} {w : Watch}
    {snapshotOf : Document → SnapshotRow} {key : Option Document → Document → Option String}
    {parses : Document → Prop} (hspec : ProcessorSpec process w snapshotOf key parses)
    {previous : Option Document} {doc : Document} {s : Store} (hparses : parses doc)
    (hs : History w snapshotOf previous s)
    (hprevious : ∀ p, previous = some p → parses p ∧ p.now < doc.now) :
    (contentCheck process w doc).Returns s fun _ s' =>
      History w snapshotOf (some doc) s' ∧ KeyedInsert w (key previous doc) s s' := by
  have hmonitor : ∃ row, s.monitors w.monitorId = some row ∧ row.id = w.monitorId ∧
      ∀ p, previous = some p → row.lastCheckedAt ≠ none := by
    cases previous with
    | none =>
      obtain ⟨row, hrow, hid, _⟩ := Unchecked.monitor hs
      exact ⟨row, hrow, hid, fun p h => absurd h (by simp)⟩
    | some p =>
      obtain ⟨row, hrow, hid, hlast⟩ := hs.1
      exact ⟨row, hrow, hid, fun _ _ => hlast⟩
  obtain ⟨row, hrow, hid, hlast⟩ := hmonitor
  unfold contentCheck
  simp only [getMonitor, returns_bind, returns_query, hrow, getLatestSnapshotForTarget]
  refine (hspec ⟨row, w.source, w.site, doc.now⟩ previous _ doc s hparses hs
    (fun p hp => ⟨(hprevious p hp).1, (hprevious p hp).2, hlast p hp⟩) hid rfl rfl).mono ?_
  rintro changeIds s' ⟨hmonitors, hrecorded, hinsert⟩
  refine ⟨⟨⟨{ row with lastCheckedAt := some doc.now }, ?_, hid, by simp⟩, ?_⟩, ?_⟩
  · simp [Store.updateMonitor, hmonitors, hrow]
  · exact hrecorded.of_eq rfl rfl
  · cases hkey : key previous doc with
    | none =>
      rw [hkey] at hinsert
      exact hinsert
    | some k =>
      rw [hkey] at hinsert
      exact hinsert

private theorem insertsOne_iff {w : Watch} {k : String} {s s' : Store}
    (h : KeyedInsert w (some k) s s') : InsertsOne s s' ↔ s.changes ⟨w.monitorId, k⟩ = none := by
  obtain ⟨row, hrow⟩ := h
  constructor
  · rintro ⟨id, inserted, hnone, hupdate⟩
    cases hold : s.changes ⟨w.monitorId, k⟩ with
    | none => rfl
    | some old =>
      rw [insertIfNew_of_some hold] at hrow
      have hsame : s'.changes id = none := by rw [hrow, hnone]
      rw [hupdate, Function.update_self] at hsame
      contradiction
  · intro hnone
    rw [insertIfNew_of_none hnone] at hrow
    exact ⟨_, row, hnone, hrow⟩

private theorem used_insert {w : Watch} {k : String} {s s' : Store}
    (h : KeyedInsert w (some k) s s') (other : String) :
    s'.changes ⟨w.monitorId, other⟩ ≠ none ↔
      s.changes ⟨w.monitorId, other⟩ ≠ none ∨ other = k := by
  obtain ⟨row, hrow⟩ := h
  rw [hrow]
  by_cases heq : other = k
  · subst heq
    have hsome : (insertIfNew s.changes ⟨w.monitorId, other⟩ row ⟨w.monitorId, other⟩).isSome :=
      insertIfNew_isSome
    simp [Option.isSome_iff_ne_none.mp hsome]
  · rw [insertIfNew_other (by simp [heq])]
    simp [heq]

/-- From any point of its history on, every differing document gets its change exactly when
the keys asked for are new. -/
private theorem detects_iff_allRecorded {process : ContentProcessor} {w : Watch}
    {snapshotOf : Document → SnapshotRow} {differs : Document → Document → Bool}
    {key : Document → Document → String} {parses : Document → Prop}
    (hspec : ProcessorSpec process w snapshotOf (stepKey differs key) parses)
    {previous : Document} {docs : List Document} {s : Store}
    (hs : History w snapshotOf (some previous) s) (hparses : parses previous)
    (hdocs : ∀ doc ∈ docs, parses doc) (hchron : Chronological (previous :: docs)) :
    DetectsExactly (contentCheck process w) differs (some previous) docs s ↔
      AllRecorded differs key (fun k => s.changes ⟨w.monitorId, k⟩ ≠ none) previous docs := by
  induction docs generalizing previous s with
  | nil => exact Iff.rfl
  | cons doc docs ih =>
    obtain ⟨hlater, hrest⟩ := List.pairwise_cons.mp hchron
    have hcheck := contentCheck_spec hspec (hdocs doc List.mem_cons_self) hs (by
      rintro p hp
      injection hp with hp
      exact ⟨hp ▸ hparses, hp ▸ hlater doc List.mem_cons_self⟩)
    obtain ⟨ids, s', hrun, hs', hinsert⟩ := returns_iff.mp hcheck
    have hih := ih hs' (hdocs doc List.mem_cons_self)
      (fun d hd => hdocs d (List.mem_cons_of_mem _ hd)) hrest
    simp only [DetectsExactly, Returns, hrun, Option.any_some, AllRecorded, hih]
    by_cases hdiffers : differs previous doc = true
    · simp only [stepKey, hdiffers, if_true] at hinsert
      simp only [hdiffers, if_true, insertsOne_iff hinsert, ne_eq, not_not]
      exact and_congr_right fun _ => allRecorded_congr _ _ (used_insert hinsert) _ _
    · simp only [stepKey, hdiffers, if_false, Bool.false_eq_true] at hinsert
      have hsame : s'.changes = s.changes := hinsert
      simp only [hdiffers, if_false, Bool.false_eq_true, hsame, true_and]

private theorem detects_iff_nodup {process : ContentProcessor} {w : Watch}
    {snapshotOf : Document → SnapshotRow} {differs : Document → Document → Bool}
    {key : Document → Document → String} {parses : Document → Prop}
    (hspec : ProcessorSpec process w snapshotOf (stepKey differs key) parses)
    {docs : List Document} {s : Store} (hs : Unchecked w s) (hdocs : ∀ doc ∈ docs, parses doc)
    (hchron : Chronological docs) :
    DetectsExactly (contentCheck process w) differs none docs s ↔
      (changeKeys differs key docs).Nodup := by
  cases docs with
  | nil => simp [DetectsExactly, changeKeys]
  | cons doc docs =>
    have hfresh : History w snapshotOf none s := hs
    have hcheck := contentCheck_spec hspec (hdocs doc List.mem_cons_self) hfresh
      fun p hp => absurd hp (by simp)
    obtain ⟨ids, s', hrun, hs', hinsert⟩ := returns_iff.mp hcheck
    have hrest := detects_iff_allRecorded hspec hs' (hdocs doc List.mem_cons_self)
      (fun d hd => hdocs d (List.mem_cons_of_mem _ hd)) hchron
    have hsame : s'.changes = s.changes := hinsert
    simp only [DetectsExactly, Returns, hrun, Option.any_none, Bool.false_eq_true, if_false, hsame,
      true_and, hrest, changeKeys, allRecorded_iff]
    exact and_iff_left fun k _ hused => hused (hs.changes k)

/-- The line diff reports a change exactly when the texts differ. -/
def DiffsLines (tools : ContentTools) : Prop :=
  ∀ before after, (tools.diffText before after).changed = true ↔ before ≠ after

/-- Exactly when a whole history of documents gets its changes: a page's when the digests
that key the changes it asks for are pairwise distinct, a sitemap's likewise. -/
theorem contentHistory_detectsExactly_iff (w : Watch) (docs : List Document) (s : Store)
    (hs : Unchecked w s) (hdocs : Chronological docs) (hdiff : DiffsLines w.tools) :
    (DetectsExactly (pageCheck w) (pageDiffers w) none docs s ↔
        (changeKeys (pageDiffers w) (pageKey w) docs).Nodup) ∧
      ((∀ doc ∈ docs, (w.parsed doc).isSome) →
        (DetectsExactly (sitemapDirectCheck w) (sitemapDiffers w) none docs s ↔
          (changeKeys (sitemapDiffers w) (sitemapKey w) docs).Nodup)) := by
  constructor
  · exact detects_iff_nodup (processPageContent_spec w) hs (fun _ _ => trivial) hdocs
  · intro hparses
    exact detects_iff_nodup (processSitemapDirect_spec w hdiff) hs hparses hdocs

/-! ## A page that goes back and forth -/

/-- `<p>A</p>` -/
def bodyA : List UInt8 := [60, 112, 62, 65, 60, 47, 112, 62]

/-- `<p>B</p>` -/
def bodyB : List UInt8 := [60, 112, 62, 66, 60, 47, 112, 62]

/-- A line of a unified diff. -/
def diffLine (sign text : String) : String :=
  sign ++ text ++ "\n\\ No newline at end of file\n"

/-- The tools on the pages above. -/
def pageTools : ContentTools where
  includedHtml raw _ := String.ofList (raw.map fun b => Char.ofNat b.toNat)
  collapseHtmlWhitespace html := html
  extractText html := String.ofList ((html.toList.drop 3).take 1)
  parseSource _ _ := none
  diffText before after :=
    if before = after then ⟨false, "", 0, 0⟩
    else
      ⟨true,
        "===================================================================\n" ++
          "--- before\n+++ after\n@@ -1,1 +1,1 @@\n" ++ diffLine "-" before ++
            diffLine "+" after, 1, 1⟩
  sha256Bytes raw :=
    if raw = bodyA then "88f8e72647fda6eedd96d8678131dd1b6320185127612942a7c7e184c516f626"
    else "195496d31a53a72f700019545b919ec7b18bfc4811b341f7fb70fd0d6f36e722"
  sha256Text text :=
    if text = "A" then "559aead08264d5795d3909718cdd05abd49572e84fe55590eef31a88a08fdffd"
    else if text = "B" then "df7e70e5021544f4834bbee64a9e3789febc4be81470df629cad6ddb03320a5c"
    else if text = "<p>A</p>" then
      "88f8e72647fda6eedd96d8678131dd1b6320185127612942a7c7e184c516f626"
    else "195496d31a53a72f700019545b919ec7b18bfc4811b341f7fb70fd0d6f36e722"

private theorem pageTools_diffsLines : DiffsLines pageTools := by
  intro before after
  simp only [pageTools]
  split <;> simp_all

def pageWatch : Watch where
  monitorId := 1
  source := ⟨1, .page, "https://example.com/", none⟩
  site := ⟨1, none⟩
  target := ⟨⟨1, "https://example.com/"⟩, none, none, none⟩
  tools := pageTools

def uncheckedStore : Store :=
  { emptyStore with
    monitors := fun id => if id = 1 then some ⟨1, 1, .active, 3600, none, none, none, none⟩ else none }

private theorem uncheckedStore_unchecked : Unchecked pageWatch uncheckedStore where
  monitor := ⟨_, rfl, rfl, rfl⟩
  snapshots := by simp [uncheckedStore, emptyStore]
  changes _ := rfl
  addressed := by simp [Addressed, uncheckedStore, emptyStore]

def pageAt (now : Nat) (body : List UInt8) : Document := ⟨now, ⟨none, none, none⟩, body⟩

/-- A, B, A, B: the second B finds the key of the first. -/
theorem contentHistory_detectsExactly_violated :
    ¬∀ (w : Watch) (docs : List Document) (s : Store), Unchecked w s → Chronological docs →
      DiffsLines w.tools → DetectsExactly (pageCheck w) (pageDiffers w) none docs s := by
  intro hall
  have hdocs : Chronological
      [pageAt 0 bodyA, pageAt 3600 bodyB, pageAt 7200 bodyA, pageAt 10800 bodyB] := by
    simp [Chronological, pageAt]
  have hexact := hall pageWatch _ uncheckedStore uncheckedStore_unchecked hdocs
    pageTools_diffsLines
  have hnodup := (detects_iff_nodup (processPageContent_spec pageWatch) uncheckedStore_unchecked
    (fun _ _ => trivial) hdocs).mp hexact
  exact absurd hnodup (by decide)

theorem contentHistory_detectsExactly_iff_back :
    DetectsExactly (pageCheck pageWatch) (pageDiffers pageWatch) none
        [pageAt 0 bodyA, pageAt 3600 bodyB, pageAt 7200 bodyA] uncheckedStore ↔
      (changeKeys (pageDiffers pageWatch) (pageKey pageWatch)
        [pageAt 0 bodyA, pageAt 3600 bodyB, pageAt 7200 bodyA]).Nodup :=
  (contentHistory_detectsExactly_iff pageWatch _ uncheckedStore uncheckedStore_unchecked
    (by simp [Chronological, pageAt]) pageTools_diffsLines).1

end Utsuroi

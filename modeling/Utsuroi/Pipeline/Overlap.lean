import Utsuroi.Pipeline.Gatekeeping
import Utsuroi.Framework.PoolRun

/-!
# Overlapping checks

Checks of the same monitors that run side by side and interleave at every await, each with what it
fetched itself.  A check that was killed or threw may be followed by another one.
-/

namespace Utsuroi

open Async Transition

/-- A check and what it is answered. -/
structure CheckTask where
  monitorId : MonitorId
  items : ItemTools
  tools : ContentTools
  source : SourceRow
  world : CheckWorld

def CheckTask.prog (task : CheckTask) : Prog RunSite Store PUnit := do
  let _ ← runMonitorCheck (siteWorld task.items task.tools task.source task.world) task.monitorId

/-- What the handlers and the queue's consumer do beside the checks: they write neither targets nor
changes and insert no deliveries. -/
structure Store.Beside (subscribed : SubscriptionRow → Prop) (s s' : Store) : Prop where
  targets : s'.targets = s.targets
  changes : s'.changes = s.changes
  subscriptions : ∀ sub ∈ s'.subscriptions, subscribed sub
  deliveries : ∀ id, s.deliveries id = none → s'.deliveries id = none

/-- `subscribed` are the subscriptions that there are in the course of a run. -/
def overlap (κ : Type) (subscribed : SubscriptionRow → Prop) : Tasks κ RunSite Store CheckTask where
  init s := (∀ id row, s.changes id = some row → row.id = id) ∧ ∀ sub ∈ s.subscriptions, subscribed sub
  fits _ _ := True
  prog _ := CheckTask.prog
  enter _ _ s := s
  others := Store.Beside subscribed

abbrev CheckPool (κ : Type) := Pool κ RunSite Store

abbrev CheckEvent (κ : Type) := PoolEvent κ RunSite Store CheckTask

/-! ## Two checks of one feed -/

/-- A feed of one entry. -/
def entryTools (updatedAt : String) : ItemTools where
  ssrfAllowed := fun _ => true
  resolvedAllowed := fun _ => true
  origin := fun _ => some "https://example.com"
  robotsMode := fun _ => .enforce
  robots := fun _ _ => ⟨true, none, false, 0, "none"⟩
  fetchPage := fun _ => none
  fetchTarget := fun _ _ _ _ => .success ⟨none, none, none⟩ false (some [])
  pathname := fun _ => none
  extractHtmlTitle := fun _ _ => none
  regExp := fun _ _ => some fun _ => true
  parseSource := fun _ _ _ _ =>
    some ⟨.atom, [⟨"k", some "https://example.com/a", some "t", some updatedAt, none, []⟩]⟩
  extractItems := fun _ _ _ => []
  sha256Bytes := fun _ => ""

def noDocumentTools : ContentTools where
  includedHtml := fun _ _ => ""
  collapseHtmlWhitespace := id
  extractText := id
  parseSource := fun _ _ => none
  diffText := fun _ _ => ⟨false, "", 0, 0⟩
  sha256Bytes := fun _ => ""
  sha256Text := fun _ => ""

def checkWorldAt (trigger : Trigger) (now : Nat) : CheckWorld where
  trigger := trigger
  now := now
  source := none
  site := some ⟨1, none⟩
  policy := some ()
  staticSsrfAllowed := true
  resolvedAllowed := true
  origin := ""
  robotsMode := .enforce
  robots := ⟨true, none, false, 0, "none"⟩
  lease := ⟨true, some 1, none⟩
  fetchTarget _ _ := ⟨.fail, trivial⟩
  processor _ _ := ⟨.ret [], trivial⟩
  checkedNow := now
  finishNow := now
  random := 0
  appliedNow := now

/-- A check of the feed; its source has these rules for tags. -/
def entryTask (trigger : Trigger) (now : Nat) (updatedAt : String)
    (classify : Option ClassifyConfig) : CheckTask where
  monitorId := 1
  items := entryTools updatedAt
  tools := noDocumentTools
  source := ⟨1, .atom, "https://example.com/feed", some ⟨none, none, none, [], none, none, classify⟩⟩
  world := checkWorldAt trigger now

/-- The monitor was checked before. -/
def entryPool (subscriptions : List SubscriptionRow) : CheckPool Bool where
  shared :=
    { emptyStore with
      monitors := fun id => some ⟨id, 1, .active, 3600, some 1000, some 500, none, none⟩
      subscriptions := subscriptions
      destinations := fun _ => some ⟨false⟩ }
  threads := fun _ => none

theorem entryPool_init {subscribed : SubscriptionRow → Prop} (subscriptions : List SubscriptionRow)
    (h : ∀ sub ∈ subscriptions, subscribed sub) :
    (poolSystem (overlap Bool subscribed)).init (entryPool subscriptions) :=
  ⟨⟨fun _ _ hrow => (by cases hrow), h⟩, fun _ => rfl⟩

/-- Calls of a check that are not disturbed. -/
def undisturbed (k : Bool) (n : Nat) : List (Move Bool CheckTask) := List.replicate n (.call k .none)

end Utsuroi

import Mathlib.Tactic
import Utsuroi.Pipeline.Document
import Utsuroi.Pipeline.Frames
import Utsuroi.Pipeline.Proofs.ContentHistory

/-!
# A document processed up to any call

What a plan that runs to its end stores and reports, and what one that is stopped may leave.
-/

namespace Utsuroi

open Async Prog

/-! ## What is reported -/

/-- The same changes are there, and the same deliveries exist. -/
structure SameReports (s s' : Store) : Prop where
  changes : s'.changes = s.changes
  delivered : ∀ id, s'.deliveries id ≠ none ↔ s.deliveries id ≠ none

/-- The deliveries the fan-out of a change asks for. -/
def Store.asked (ctx : CheckContext) (row : ChangeRow) (s : Store) : List DeliveryId :=
  (matchingSubscriptions (fanoutMatch ctx row) s).map fun sub => ⟨row.id, sub.destinationId⟩

/-- The change is there, and all its deliveries exist. -/
def Reported (ctx : CheckContext) (id : ChangeId) (s : Store) : Prop :=
  ∃ row, s.changes id = some row ∧ ∀ delivery ∈ s.asked ctx row, s.deliveries delivery ≠ none

/-- What the fan-out reads of the subscriptions is the same. -/
structure SameSubscriptions (s s' : Store) : Prop where
  subscriptions : s'.subscriptions = s.subscriptions
  destinations : s'.destinations = s.destinations

/-- The row a change is known by after its insertion. -/
def Store.changeAs (row : ChangeRow) (s : Store) : ChangeRow := (s.changes row.id).getD row

/-- `s'` is `s` with a part of the report of `row`. -/
structure PartlyReported (ctx : CheckContext) (row : ChangeRow) (s s' : Store) : Prop where
  same : SameSubscriptions s s'
  kept : ∀ id, s.deliveries id ≠ none → s'.deliveries id ≠ none
  added : s'.changes = s.changes ∧ (∀ id, s'.deliveries id ≠ none → s.deliveries id ≠ none) ∨
    s'.changes = insertIfNew s.changes row.id row ∧
      ∀ id, s'.deliveries id ≠ none →
        s.deliveries id ≠ none ∨ id ∈ s.asked ctx (s.changeAs row)

/-- `s'` is `s` with the whole report of `row`. -/
structure FullyReported (ctx : CheckContext) (row : ChangeRow) (s s' : Store) : Prop where
  changes : s'.changes = insertIfNew s.changes row.id row
  delivered : ∀ id, s'.deliveries id ≠ none ↔
    s.deliveries id ≠ none ∨ id ∈ s.asked ctx (s.changeAs row)

theorem SameReports.symm {s s' : Store} (h : SameReports s s') : SameReports s' s :=
  ⟨h.changes.symm, fun id => (h.delivered id).symm⟩

theorem SameReports.trans {s s' s'' : Store} (h : SameReports s s')
    (h' : SameReports s' s'') : SameReports s s'' :=
  ⟨h'.changes.trans h.changes, fun id => (h'.delivered id).trans (h.delivered id)⟩

private theorem changeAs_inserted (row : ChangeRow) (s : Store) :
    insertIfNew s.changes row.id row row.id = some (s.changeAs row) := by
  unfold Store.changeAs
  cases h : s.changes row.id with
  | none => simp [insertIfNew_of_none h]
  | some old => simp [insertIfNew_of_some h, h]

theorem asked_same {s s' : Store} (h : SameSubscriptions s s') (ctx : CheckContext)
    (row : ChangeRow) : s'.asked ctx row = s.asked ctx row := by
  simp [Store.asked, matchingSubscriptions, h.subscriptions, h.destinations]

/-- A part of a report is the whole exactly when the change and its deliveries are there. -/
theorem partly_iff {ctx : CheckContext} {row : ChangeRow} {s s₁ s₂ : Store}
    (hpart : PartlyReported ctx row s s₁) (hfull : FullyReported ctx row s s₂) :
    SameReports s₁ s₂ ↔ Reported ctx row.id s₁ := by
  have hrow := changeAs_inserted row s
  constructor
  · intro hsame
    refine ⟨s.changeAs row, ?_, ?_⟩
    · rw [← hsame.changes, hfull.changes, hrow]
    · intro delivery hasked
      rw [asked_same hpart.same] at hasked
      exact (hsame.delivered delivery).mp ((hfull.delivered delivery).mpr (Or.inr hasked))
  · intro hreported
    obtain ⟨known, hknown, hall⟩ := hreported
    have hchanges : s₁.changes = insertIfNew s.changes row.id row := by
      rcases hpart.added with ⟨hsame, _⟩ | ⟨hins, _⟩
      · rw [hsame] at hknown
        rw [hsame, insertIfNew_of_some hknown]
      · exact hins
    have hknownAs : known = s.changeAs row := by
      rw [hchanges, hrow] at hknown
      exact (Option.some.inj hknown).symm
    refine ⟨hfull.changes.trans hchanges.symm, fun id => ?_⟩
    rw [hfull.delivered id]
    constructor
    · intro h
      rcases h with h | hasked
      · exact hpart.kept id h
      · apply hall id
        rw [asked_same hpart.same, hknownAs]
        exact hasked
    · intro h
      rcases hpart.added with ⟨_, hback⟩ | ⟨_, hback⟩
      · exact Or.inl (hback id h)
      · exact hback id h

/-! ## Recording a change -/

private theorem deliver_same (changeId : ChangeId) (sub : SubscriptionRow) (s : Store) :
    SameSubscriptions s (s.deliver changeId sub) ∧ (s.deliver changeId sub).changes = s.changes ∧
      (s.deliver changeId sub).snapshots = s.snapshots ∧
      (s.deliver changeId sub).normalized = s.normalized := by
  unfold Store.deliver
  split <;> exact ⟨⟨rfl, rfl⟩, rfl, rfl, rfl⟩

private theorem insertDelivery_delivered (id other : DeliveryId) (s : Store) :
    (s.insertDelivery other).deliveries id ≠ none ↔ s.deliveries id ≠ none ∨ id = other := by
  rw [Store.insertDelivery_deliveries]
  by_cases heq : id = other
  · subst heq
    have hsome : (insertIfNew s.deliveries id (newDelivery id) id).isSome := insertIfNew_isSome
    simp [Option.isSome_iff_ne_none.mp hsome]
  · simp [insertIfNew_other heq, heq]

private theorem deliver_delivered (changeId : ChangeId) (sub : SubscriptionRow) (s : Store)
    (id : DeliveryId) :
    (s.deliver changeId sub).deliveries id ≠ none ↔
      s.deliveries id ≠ none ∨ id = ⟨changeId, sub.destinationId⟩ := by
  unfold Store.deliver
  cases h : s.deliveries ⟨changeId, sub.destinationId⟩ with
  | none =>
    simp only [Option.isNone_none, if_true, Store.send_deliveries]
    exact insertDelivery_delivered id _ s
  | some row =>
    simp only [Option.isNone_some, Bool.false_eq_true, if_false]
    constructor
    · exact Or.inl
    · intro hid
      rcases hid with hid | rfl
      · exact hid
      · simp [h]

/-- The deliveries of some of the subscriptions are there, and nothing else is new. -/
private structure Fanned (changeId : ChangeId) (subs : List SubscriptionRow) (s s' : Store) :
    Prop where
  same : SameSubscriptions s s'
  changes : s'.changes = s.changes
  delivered : ∀ id, s'.deliveries id ≠ none ↔
    s.deliveries id ≠ none ∨ id ∈ subs.map fun sub => ⟨changeId, sub.destinationId⟩

private theorem fanned_foldl (changeId : ChangeId) (subs : List SubscriptionRow) (s : Store) :
    Fanned changeId subs s (subs.foldl (Store.deliver changeId) s) := by
  induction subs generalizing s with
  | nil => exact ⟨⟨rfl, rfl⟩, rfl, by simp⟩
  | cons sub subs ih =>
    obtain ⟨hfirst, hchanges, _, _⟩ := deliver_same changeId sub s
    have hrest := ih (s.deliver changeId sub)
    refine ⟨⟨hrest.same.subscriptions.trans hfirst.subscriptions,
      hrest.same.destinations.trans hfirst.destinations⟩, hrest.changes.trans hchanges, ?_⟩
    intro id
    rw [List.foldl_cons, hrest.delivered id, deliver_delivered changeId sub s id, List.map_cons,
      List.mem_cons, or_assoc]

private theorem createDeliveryIfNew_passes {changeId : ChangeId} {destinationId : DestinationId}
    {s s' : Store} (h : (createDeliveryIfNew changeId destinationId).Passes s s') :
    s' = s ∨ s' = s.insertDelivery ⟨changeId, destinationId⟩ := by
  unfold createDeliveryIfNew at h
  rcases passes_bind h with hinsert | ⟨inserted, s₁, hrun, hrest⟩
  · exact passes_call.mp hinsert
  · cases hrun
    right
    split at hrest
    · exact hrest
    · rcases passes_bind hrest with hselect | ⟨existing, s₂, hrun, hlast⟩
      · exact passes_query.mp hselect
      · cases hrun
        split at hlast <;> exact hlast

private theorem run_createDeliveryIfNew {changeId : ChangeId} {destinationId : DestinationId}
    {s s₁ : Store} {result : InsertResult DeliveryRow}
    (h : (createDeliveryIfNew changeId destinationId).run s = (some result, s₁)) :
    s₁ = s.insertDelivery ⟨changeId, destinationId⟩ := by
  cases hrow : s.deliveries ⟨changeId, destinationId⟩ with
  | none =>
    simp only [createDeliveryIfNew, run_bind, run_call, hrow, Option.isNone_none, if_true, pure_eq,
      run_ret, Prod.mk.injEq] at h
    exact h.2.symm
  | some row =>
    simp only [createDeliveryIfNew, run_bind, run_call, run_query, hrow, Option.isNone_some,
      Bool.false_eq_true, if_false, Store.insertDelivery_deliveries, insertIfNew_keeps hrow, pure_eq,
      run_ret, Prod.mk.injEq] at h
    exact h.2.symm

private theorem fanoutTo_passes {changeId : ChangeId} {sub : SubscriptionRow} {s s' : Store}
    (h : (fanoutTo changeId sub).Passes s s') :
    Fanned changeId [] s s' ∨ Fanned changeId [sub] s s' := by
  have hinserted : Fanned changeId [sub] s (s.insertDelivery ⟨changeId, sub.destinationId⟩) := by
    refine ⟨⟨rfl, rfl⟩, rfl, fun id => ?_⟩
    rw [insertDelivery_delivered]
    simp
  have hsent : ∀ sent, Fanned changeId [sub] s
      ((s.insertDelivery ⟨changeId, sub.destinationId⟩).send sent) :=
    fun sent => ⟨⟨rfl, rfl⟩, rfl, fun id => hinserted.delivered id⟩
  rcases passes_bind h with hcreate | ⟨result, s₁, hrun, hsend⟩
  · rcases createDeliveryIfNew_passes hcreate with rfl | rfl
    · exact Or.inl ⟨⟨rfl, rfl⟩, rfl, by simp⟩
    · exact Or.inr hinserted
  · right
    rw [run_createDeliveryIfNew hrun] at hsend
    split at hsend
    · rcases passes_call.mp hsend with rfl | rfl
      · exact hinserted
      · exact hsent _
    · rw [passes_ret.mp hsend]
      exact hinserted

/-- Wherever a fan-out is passed, the deliveries of some of its subscriptions are there. -/
private theorem fanoutChange_passes {ctx : CheckContext} {row : ChangeRow} {s s' : Store}
    (h : (fanoutChange ctx row).Passes s s') :
    ∃ subs, subs ⊆ matchingSubscriptions (fanoutMatch ctx row) s ∧ Fanned row.id subs s s' := by
  have hquery : (listMatchingSubscriptions (fanoutMatch ctx row)).run s =
      (some (matchingSubscriptions (fanoutMatch ctx row) s), s) := rfl
  unfold fanoutChange at h
  rcases passes_bind_of_run hquery h with hlist | hloop
  · rw [passes_query.mp hlist]
    exact ⟨[], by simp, ⟨rfl, rfl⟩, rfl, by simp⟩
  · have hrounds := passes_forM (Store.deliver row.id) (fun sub _ s => run_fanoutTo row.id sub s)
      hloop
    rcases hrounds with rfl | ⟨done, sub, todo, hsubs, hround⟩
    · exact ⟨_, List.Subset.refl _, fanned_foldl row.id _ s⟩
    · have hdone := fanned_foldl row.id done s
      have hsub : ∃ more, more ⊆ [sub] ∧
          Fanned row.id more (done.foldl (Store.deliver row.id) s) s' := by
        rcases fanoutTo_passes hround with hnone | hone
        · exact ⟨[], by simp, hnone⟩
        · exact ⟨[sub], List.Subset.refl _, hone⟩
      obtain ⟨more, hmore, hfanned⟩ := hsub
      refine ⟨done ++ more, ?_, ⟨hfanned.same.subscriptions.trans hdone.same.subscriptions,
        hfanned.same.destinations.trans hdone.same.destinations⟩,
        hfanned.changes.trans hdone.changes, fun id => ?_⟩
      · rw [hsubs]
        intro x hx
        rcases List.mem_append.mp hx with hx | hx
        · exact List.mem_append_left _ hx
        · have hxsub := List.mem_singleton.mp (hmore hx)
          subst hxsub
          exact List.mem_append_right _ List.mem_cons_self
      · rw [hfanned.delivered id, hdone.delivered id, List.map_append, List.mem_append, or_assoc]

private theorem notifyOne_passes {ctx : CheckContext} {row : ChangeRow} {inserted : Bool}
    {s s' : Store} (h : (notifyDetectedChanges ctx [] [⟨row, inserted, none, none⟩]).Passes s s') :
    ∃ subs, subs ⊆ matchingSubscriptions (fanoutMatch ctx row) s ∧ Fanned row.id subs s s' := by
  have hfull := fanned_foldl row.id (matchingSubscriptions (fanoutMatch ctx row) s) s
  have hnotified := run_notifyDetectedChange ctx ⟨row, inserted, none, none⟩ ([], s)
  have hsplit : (notifyDetectedChange ctx [] ⟨row, inserted, none, none⟩ >>= fun ids =>
      .ret ids).Passes s s' := h
  rcases passes_bind_of_run hnotified hsplit with hone | hend
  · unfold notifyDetectedChange at hone
    rcases passes_bind_of_run (run_fanoutChange ctx row s) hone with hfanout | hend
    · exact fanoutChange_passes hfanout
    · rw [passes_ret.mp hend]
      exact ⟨_, List.Subset.refl _, hfull⟩
  · rw [passes_ret.mp hend]
    exact ⟨_, List.Subset.refl _, hfull⟩

/-- The insertion of a change, followed by a part of its fan-out. -/
private theorem partly_of_fanned {ctx : CheckContext} {row : ChangeRow} {s s₁ s' : Store}
    {subs : List SubscriptionRow} (hchanges : s₁.changes = insertIfNew s.changes row.id row)
    (hsame : SameSubscriptions s s₁) (hdeliveries : s₁.deliveries = s.deliveries)
    (hsubs : subs ⊆ matchingSubscriptions (fanoutMatch ctx (s.changeAs row)) s₁)
    (hfanned : Fanned (s.changeAs row).id subs s₁ s') : PartlyReported ctx row s s' := by
  refine ⟨⟨hfanned.same.subscriptions.trans hsame.subscriptions,
    hfanned.same.destinations.trans hsame.destinations⟩, fun id h => ?_,
    Or.inr ⟨hfanned.changes.trans hchanges, fun id h => ?_⟩⟩
  · rw [← hdeliveries] at h
    exact (hfanned.delivered id).mpr (Or.inl h)
  · rcases (hfanned.delivered id).mp h with h | h
    · rw [hdeliveries] at h
      exact Or.inl h
    · right
      rw [← asked_same hsame]
      exact List.map_subset _ hsubs h

/-- What an insertion of a change answers. -/
private def insertedAs (row : ChangeRow) (s : Store) : InsertResult ChangeRow :=
  ⟨(s.changes row.id).isNone, s.changeAs row⟩

private theorem run_insertChangeIfNew_as (row : ChangeRow) (s : Store) :
    (insertChangeIfNew row).run s = (some (insertedAs row s), s.insertChange row) := by
  rw [run_insertChangeIfNew]
  unfold insertedAs Store.changeAs
  cases s.changes row.id <;> rfl

private theorem insertChangeIfNew_passes {row : ChangeRow} {s s' : Store}
    (h : (insertChangeIfNew row).Passes s s') : s' = s ∨ s' = s.insertChange row := by
  unfold insertChangeIfNew at h
  rcases passes_bind h with hinsert | ⟨inserted, s₁, hrun, hrest⟩
  · exact passes_call.mp hinsert
  · cases hrun
    right
    split at hrest
    · exact hrest
    · rcases passes_bind hrest with hselect | ⟨existing, s₂, hrun, hlast⟩
      · exact passes_query.mp hselect
      · cases hrun
        split at hlast <;> exact hlast

/-- The part of `recordChange` between the insertion and the fan-out. -/
private theorem putDiff_passes {row : ChangeRow} {unifiedDiff : String} {asNew : Bool}
    {rest : Prog Site Store (List ChangeId)} {s s' : Store}
    (h : (do
      if asNew && unifiedDiff != "" then putDiff row.id unifiedDiff
      rest : Prog Site Store (List ChangeId)).Passes s s') :
    ∃ diffs, s' = { s with diffs } ∨ rest.Passes { s with diffs } s' := by
  split at h
  · rcases passes_bind h with hput | ⟨_, s₁, hrun, hrest⟩
    · rcases passes_call.mp hput with rfl | rfl
      · exact ⟨s'.diffs, Or.inl rfl⟩
      · exact ⟨_, Or.inl rfl⟩
    · cases hrun
      exact ⟨_, Or.inr hrest⟩
  · exact ⟨s.diffs, Or.inr h⟩

private theorem recordChange_passes {ctx : CheckContext} {row : ChangeRow} {unifiedDiff : String}
    {s s' : Store} (h : (recordChange ctx row unifiedDiff).Passes s s') :
    PartlyReported ctx row s s' := by
  have hnothing : PartlyReported ctx row s s :=
    ⟨⟨rfl, rfl⟩, fun _ h => h, Or.inl ⟨rfl, fun _ h => h⟩⟩
  have hinserted : ∀ diffs, PartlyReported ctx row s { s.insertChange row with diffs } :=
    fun diffs => ⟨⟨rfl, rfl⟩, fun _ h => h, Or.inr ⟨rfl, fun _ h => Or.inl h⟩⟩
  rcases passes_bind_of_run (run_insertChangeIfNew_as row s) h with hinsert | hrest
  · rcases insertChangeIfNew_passes hinsert with rfl | rfl
    · exact hnothing
    · exact hinserted s.diffs
  · obtain ⟨diffs, rfl | hnotify⟩ := putDiff_passes hrest
    · exact hinserted diffs
    · obtain ⟨subs, hsubs, hfanned⟩ := notifyOne_passes hnotify
      have hsame : SameSubscriptions s { s.insertChange row with diffs } := ⟨rfl, rfl⟩
      exact partly_of_fanned rfl hsame rfl hsubs hfanned

/-- Undisturbed, the whole report is made. -/
private theorem recordChange_returns (ctx : CheckContext) (row : ChangeRow) (unifiedDiff : String)
    (s : Store) :
    (recordChange ctx row unifiedDiff).Returns s fun _ s' => FullyReported ctx row s s' := by
  have hnotify : ∀ (asNew : Bool) (diffs : ChangeId → Option String),
      (notifyDetectedChanges ctx [] [⟨s.changeAs row, asNew, none, none⟩]).Returns
        { s.insertChange row with diffs } fun _ s' => FullyReported ctx row s s' := by
    intro asNew diffs
    have hfanned := fanned_foldl (s.changeAs row).id (matchingSubscriptions
      (fanoutMatch ctx (s.changeAs row)) { s.insertChange row with diffs })
      { s.insertChange row with diffs }
    unfold Returns
    rw [run_notifyDetectedChanges]
    exact ⟨hfanned.changes, hfanned.delivered⟩
  have hinsert : (insertChangeIfNew row).Returns s fun inserted s₁ =>
      inserted = insertedAs row s ∧ s₁ = s.insertChange row := by
    unfold Returns
    rw [run_insertChangeIfNew_as]
    exact ⟨rfl, rfl⟩
  apply returns_bind.mpr
  apply hinsert.mono
  intro inserted s₁ h
  obtain ⟨rfl, rfl⟩ := h
  split
  · apply returns_bind.mpr
    exact hnotify _ _
  · exact hnotify _ s.diffs

/-! ## A whole document -/

section Document

variable (plan : DocumentPlan) (ctx : CheckContext)

/-- The text of a previous snapshot, once the new text is stored. -/
def DocumentPlan.previousText (previous : SnapshotRow) (s : Store) : String :=
  previous.normalizedR2Key.elim "" fun hash =>
    (insertIfNew s.normalized plan.textHash plan.text hash).getD ""

/-- The change an undisturbed run reports, and its diff. -/
def DocumentPlan.due (previousSnapshot : Option SnapshotRow) (s : Store) :
    Option (ChangeRow × String) :=
  previousSnapshot.bind fun previous =>
    if plan.compares ctx previous then
      plan.report ctx.monitor.id previous s.snapshots.length (plan.previousText previous s)
    else none

/-- A run stopped before its snapshot was stored. -/
structure Unstored (s s' : Store) : Prop where
  snapshots : s'.snapshots = s.snapshots
  same : SameSubscriptions s s'
  changes : s'.changes = s.changes
  deliveries : s'.deliveries = s.deliveries
  text : insertIfNew s'.normalized plan.textHash plan.text =
    insertIfNew s.normalized plan.textHash plan.text

/-- The store once the document is stored; `bodies` is what R2 holds then. -/
private def storedAs (outcome : FetchSuccess) (bodies : Hash → Option (List UInt8)) (s : Store) :
    Store :=
  Store.addSnapshot (plan.snapshot ctx.now outcome)
    { s with bodies, normalized := insertIfNew s.normalized plan.textHash plan.text }

private theorem putIfAbsent_run {present : Store → Bool} {put : Store → Store} (s : Store) :
    (putIfAbsent present put).run s = (some (), if present s then s else put s) := by
  unfold putIfAbsent
  rw [run_bind_of_run (run_query _ _ s)]
  cases present s <;> rfl

private theorem putIfAbsent_passes {present : Store → Bool} {put : Store → Store} {s s' : Store}
    (h : (putIfAbsent present put).Passes s s') :
    s' = s ∨ s' = if present s then s else put s := by
  rcases passes_bind_of_run (run_query _ _ s) h with hhead | hput
  · exact Or.inl (passes_query.mp hhead)
  · cases hpresent : present s with
    | true =>
      simp only [hpresent] at hput
      exact Or.inl hput
    | false =>
      simp only [hpresent] at hput
      exact passes_call.mp hput

private theorem putBody_run (hash : Hash) (body : List UInt8) (s : Store) :
    (putBody hash body).run s =
      (some (), { s with bodies := insertIfNew s.bodies hash body }) := by
  unfold putBody insertIfNew
  rw [putIfAbsent_run]
  split <;> rfl

private theorem putNormalized_run (hash : Hash) (text : String) (s : Store) :
    (putNormalized hash text).run s =
      (some (), { s with normalized := insertIfNew s.normalized hash text }) := by
  unfold putNormalized insertIfNew
  rw [putIfAbsent_run]
  split <;> rfl

private theorem putBody_passes {hash : Hash} {body : List UInt8} {s s' : Store}
    (h : (putBody hash body).Passes s s') : ∃ bodies, s' = { s with bodies } := by
  rcases putIfAbsent_passes h with rfl | rfl
  · exact ⟨s'.bodies, rfl⟩
  · split
    · exact ⟨s.bodies, rfl⟩
    · exact ⟨_, rfl⟩

private theorem putNormalized_passes {hash : Hash} {text : String} {s s' : Store}
    (h : (putNormalized hash text).Passes s s') :
    s' = s ∨ s' = { s with normalized := insertIfNew s.normalized hash text } := by
  have hrun := putNormalized_run hash text s
  unfold putNormalized at h hrun
  rw [putIfAbsent_run] at hrun
  rcases putIfAbsent_passes h with hsame | hput
  · exact Or.inl hsame
  · exact Or.inr (hput.trans (congrArg Prod.snd hrun))

private theorem insertIfNew_idem {κ ρ : Type} [DecidableEq κ] (table : κ → Option ρ) (key : κ)
    (row : ρ) : insertIfNew (insertIfNew table key row) key row = insertIfNew table key row := by
  obtain ⟨old, hold⟩ :=
    Option.isSome_iff_exists.mp (@insertIfNew_isSome _ _ _ table key row)
  exact insertIfNew_of_some hold

private theorem storeDocument_run (outcome : FetchSuccess) (s : Store) : ∃ bodies,
    (storeDocument plan.rawHash plan.body plan.textHash plan.text
      (plan.snapshot ctx.now outcome)).run s =
        (some s.snapshots.length, storedAs plan ctx outcome bodies s) := by
  refine ⟨insertIfNew s.bodies plan.rawHash plan.body, ?_⟩
  unfold storeDocument
  rw [run_bind_of_run (putBody_run _ _ s), run_bind_of_run (putNormalized_run _ _ _)]
  rfl

private theorem storeDocument_passes {outcome : FetchSuccess} {s s' : Store}
    (h : (storeDocument plan.rawHash plan.body plan.textHash plan.text
      (plan.snapshot ctx.now outcome)).Passes s s') :
    Unstored plan s s' ∨ ∃ bodies, s' = storedAs plan ctx outcome bodies s := by
  rcases passes_bind_of_run (putBody_run _ _ s) h with hbody | hrest
  · obtain ⟨bodies, rfl⟩ := putBody_passes hbody
    exact Or.inl ⟨rfl, ⟨rfl, rfl⟩, rfl, rfl, rfl⟩
  · rcases passes_bind_of_run (putNormalized_run _ _ _) hrest with htext | hsnapshot
    · left
      rcases putNormalized_passes htext with rfl | rfl
      · exact ⟨rfl, ⟨rfl, rfl⟩, rfl, rfl, rfl⟩
      · exact ⟨rfl, ⟨rfl, rfl⟩, rfl, rfl, insertIfNew_idem _ _ _⟩
    · rcases passes_call.mp hsnapshot with rfl | rfl
      · exact Or.inl ⟨rfl, ⟨rfl, rfl⟩, rfl, rfl, insertIfNew_idem _ _ _⟩
      · exact Or.inr ⟨_, rfl⟩

/-- The report of a change is partly made, or nothing is reported where nothing is due. -/
def PartlyDone (due : Option (ChangeRow × String)) (s s' : Store) : Prop :=
  match due with
  | none => SameSubscriptions s s' ∧ SameReports s s'
  | some report => PartlyReported ctx report.1 s s'

def FullyDone (due : Option (ChangeRow × String)) (s s' : Store) : Prop :=
  match due with
  | none => SameReports s s'
  | some report => FullyReported ctx report.1 s s'

private theorem getNormalized_run (previous : SnapshotRow) (outcome : FetchSuccess)
    (bodies : Hash → Option (List UInt8)) (s : Store) :
    (getNormalized previous.normalizedR2Key).run (storedAs plan ctx outcome bodies s) =
      (some (plan.previousText previous s), storedAs plan ctx outcome bodies s) := by
  unfold DocumentPlan.previousText
  cases previous.normalizedR2Key <;> rfl

private theorem getNormalized_passes {key : Option Hash} {s s' : Store}
    (h : (getNormalized key).Passes s s') : s' = s := by
  cases key with
  | none => exact h
  | some hash => exact passes_query.mp h

private theorem recordChange_snapshots (row : ChangeRow) (unifiedDiff : String) :
    (recordChange ctx row unifiedDiff).Frames Store.snapshots := by
  have hnotify : ∀ detected, (notifyDetectedChanges ctx [] detected).Frames Store.snapshots :=
    notifyDetectedChanges_frames
      ⟨fun _ _ _ => rfl, fun _ _ => rfl, fun _ _ => rfl, fun _ _ _ => rfl⟩ ctx []
  apply frames_bind (insertChangeIfNew_frames (fun _ _ => rfl) row)
  intro inserted
  split
  · exact frames_bind (frames_call.mpr fun _ => rfl) fun _ => hnotify _
  · exact hnotify _

/-- Where a run that looks at the previous text may stop. -/
private theorem reportOn_passes {previous : SnapshotRow} {outcome : FetchSuccess}
    {bodies : Hash → Option (List UInt8)} {s s' : Store}
    (h : (plan.reportOn ctx previous s.snapshots.length).Passes
      (storedAs plan ctx outcome bodies s) s') :
    s'.snapshots = (s.addSnapshot (plan.snapshot ctx.now outcome)).snapshots ∧
      PartlyDone ctx (plan.report ctx.monitor.id previous s.snapshots.length
        (plan.previousText previous s)) s s' := by
  have hpartly : ∀ report, PartlyReported ctx report s (storedAs plan ctx outcome bodies s) :=
    fun _ => ⟨⟨rfl, rfl⟩, fun _ h => h, Or.inl ⟨rfl, fun _ h => h⟩⟩
  have hread : ∀ due, PartlyDone ctx due s (storedAs plan ctx outcome bodies s) := by
    intro due
    cases due with
    | none => exact ⟨⟨rfl, rfl⟩, ⟨rfl, fun _ => Iff.rfl⟩⟩
    | some report => exact hpartly _
  rcases passes_bind_of_run (getNormalized_run plan ctx previous outcome bodies s) h with
    hget | hreport
  · rw [getNormalized_passes hget]
    exact ⟨rfl, hread _⟩
  · cases hdue : plan.report ctx.monitor.id previous s.snapshots.length
      (plan.previousText previous s) with
    | none =>
      rw [hdue] at hreport
      rw [passes_ret.mp hreport]
      exact ⟨rfl, hread none⟩
    | some report =>
      rw [hdue] at hreport
      have hsnapshots := (recordChange_snapshots ctx report.1 report.2).passes hreport
      have hrecord := recordChange_passes hreport
      exact ⟨hsnapshots, ⟨⟨hrecord.same.subscriptions, hrecord.same.destinations⟩,
        hrecord.kept, hrecord.added⟩⟩

/-- Where a run may stop: before its snapshot is stored, or with it and a part of its report. -/
theorem process_passes {previousSnapshot : Option SnapshotRow} {outcome : FetchSuccess}
    {s s' : Store} (h : (plan.process ctx previousSnapshot outcome).Passes s s') :
    Unstored plan s s' ∨
      s'.snapshots = (s.addSnapshot (plan.snapshot ctx.now outcome)).snapshots ∧
        PartlyDone ctx (plan.due ctx previousSnapshot s) s s' := by
  have hnothing : ∀ bodies, SameSubscriptions s (storedAs plan ctx outcome bodies s) ∧
      SameReports s (storedAs plan ctx outcome bodies s) :=
    fun _ => ⟨⟨rfl, rfl⟩, rfl, fun _ => Iff.rfl⟩
  have hstored : ∀ bodies, PartlyDone ctx (plan.due ctx previousSnapshot s) s
      (storedAs plan ctx outcome bodies s) := by
    intro bodies
    cases plan.due ctx previousSnapshot s with
    | none => exact hnothing bodies
    | some report => exact ⟨⟨rfl, rfl⟩, fun _ h => h, Or.inl ⟨rfl, fun _ h => h⟩⟩
  obtain ⟨bodies, hrun⟩ := storeDocument_run plan ctx outcome s
  rcases passes_bind_of_run hrun h with hstore | hrest
  · rcases storeDocument_passes plan ctx hstore with hunstored | ⟨bodies, rfl⟩
    · exact Or.inl hunstored
    · exact Or.inr ⟨rfl, hstored bodies⟩
  · right
    cases previousSnapshot with
    | none =>
      rw [passes_ret.mp hrest]
      exact ⟨rfl, hstored bodies⟩
    | some previous =>
      cases hcompares : plan.compares ctx previous with
      | false =>
        simp only [hcompares, Bool.false_eq_true, if_false] at hrest
        rw [passes_ret.mp hrest]
        exact ⟨rfl, hstored bodies⟩
      | true =>
        simp only [hcompares, if_true] at hrest
        have hreport := reportOn_passes plan ctx hrest
        simpa [DocumentPlan.due, hcompares] using hreport

/-- Undisturbed, a run returns with its whole report made. -/
theorem process_returns (previousSnapshot : Option SnapshotRow) (outcome : FetchSuccess)
    (s : Store) :
    (plan.process ctx previousSnapshot outcome).Returns s fun _ s' =>
      FullyDone ctx (plan.due ctx previousSnapshot s) s s' := by
  obtain ⟨bodies, hrun⟩ := storeDocument_run plan ctx outcome s
  have hsame : SameReports s (storedAs plan ctx outcome bodies s) := ⟨rfl, fun _ => Iff.rfl⟩
  have hread := getNormalized_run plan ctx
  unfold DocumentPlan.process Returns
  rw [run_bind_of_run hrun]
  cases previousSnapshot with
  | none => exact hsame
  | some previous =>
    cases hcompares : plan.compares ctx previous with
    | false => simpa [hcompares, DocumentPlan.due, FullyDone] using hsame
    | true =>
      simp only [if_true, DocumentPlan.reportOn, DocumentPlan.due, Option.bind_some, hcompares]
      rw [run_bind_of_run (hread previous outcome bodies s)]
      cases plan.report ctx.monitor.id previous s.snapshots.length
        (plan.previousText previous s) with
      | none => exact hsame
      | some report =>
        have hrecord := recordChange_returns ctx report.1 report.2
          (storedAs plan ctx outcome bodies s)
        exact hrecord.mono fun _ _ h => ⟨h.changes, h.delivered⟩

private theorem putIfAbsent_unhandled {present : Store → Bool} {put : Store → Store} :
    (putIfAbsent present put).Unhandled := by
  apply unhandled_bind unhandled_query
  intro existing
  cases existing
  · exact unhandled_call
  · trivial

private theorem fanoutTo_unhandled (changeId : ChangeId) (sub : SubscriptionRow) :
    (fanoutTo changeId sub).Unhandled := by
  have hcreate : (createDeliveryIfNew changeId sub.destinationId).Unhandled := by
    apply unhandled_bind unhandled_call
    intro inserted
    split
    · trivial
    · apply unhandled_bind unhandled_query
      intro existing
      cases existing <;> trivial
  apply unhandled_bind hcreate
  intro delivery
  split
  · exact unhandled_call
  · trivial

private theorem notifyDetectedChange_unhandled (changeIds : List ChangeId) (d : DetectedChange) :
    (notifyDetectedChange ctx changeIds d).Unhandled := by
  have hfanout : (fanoutChange ctx d.row).Unhandled :=
    unhandled_bind unhandled_query fun _ => unhandled_forM fun sub => fanoutTo_unhandled _ sub
  apply unhandled_bind hfanout
  intro _
  cases d.watermarkAdvance with
  | none => trivial
  | some advance => exact unhandled_bind unhandled_call fun _ => trivial

private theorem recordChange_unhandled (row : ChangeRow) (unifiedDiff : String) :
    (recordChange ctx row unifiedDiff).Unhandled := by
  have hnotify : ∀ detected, (notifyDetectedChanges ctx [] detected).Unhandled :=
    fun _ => unhandled_foldlM fun _ _ => notifyDetectedChange_unhandled ctx _ _
  have hinsert : (insertChangeIfNew row).Unhandled := by
    apply unhandled_bind unhandled_call
    intro inserted
    split
    · trivial
    · apply unhandled_bind unhandled_query
      intro existing
      cases existing <;> trivial
  apply unhandled_bind hinsert
  intro inserted
  split
  · exact unhandled_bind unhandled_call fun _ => hnotify _
  · exact hnotify _

theorem process_unhandled (previousSnapshot : Option SnapshotRow)
    (outcome : FetchSuccess) : (plan.process ctx previousSnapshot outcome).Unhandled := by
  have hstore : (storeDocument plan.rawHash plan.body plan.textHash plan.text
      (plan.snapshot ctx.now outcome)).Unhandled :=
    unhandled_bind putIfAbsent_unhandled fun _ => unhandled_bind putIfAbsent_unhandled fun _ =>
      unhandled_call
  apply unhandled_bind hstore
  intro snapshotId
  cases previousSnapshot with
  | none => trivial
  | some previous =>
    dsimp only
    split
    · have hget : (getNormalized previous.normalizedR2Key).Unhandled := by
        cases previous.normalizedR2Key
        · trivial
        · exact unhandled_query
      apply unhandled_bind hget
      intro previousText
      cases plan.report ctx.monitor.id previous snapshotId previousText with
      | none => trivial
      | some report => exact recordChange_unhandled ctx report.1 report.2
    · trivial

end Document

end Utsuroi

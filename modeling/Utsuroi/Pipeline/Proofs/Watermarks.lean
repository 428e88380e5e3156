import Mathlib.Data.String.Basic
import Utsuroi.Pipeline.CheckParts
import Utsuroi.Pipeline.Overlap

/-!
# Watermarks under overlapping checks

The guarded update raises a watermark or leaves it.  The UPDATE of an upsert writes what its check
chose when it had not found the target, whatever is stored by then.
-/

namespace Utsuroi

open Async Prog Transition Relation

/-! ## The order of watermarks -/

/-- `last_known_updated_at` -/
def watermarkOf (store : Store) (id : TargetId) : Option String :=
  (store.targets id).bind TargetRow.lastKnownUpdatedAt

/-- The comparisons of watermarks: SQLite's in the guarded update and JavaScript's at a child. -/
inductive WatermarkGate
  | update
  | traversal
  deriving DecidableEq, Repr

namespace WatermarkGate

def le : WatermarkGate → String → String → Prop
  | .update, a, b => a ≤ b
  | .traversal, a, b => jsLe a b = true

variable (gate : WatermarkGate)

theorem le_refl (a : String) : gate.le a a := by
  cases gate with
  | update => exact String.le_refl a
  | traversal => exact unitsLe_refl _

theorem le_trans {a b c : String} (h : gate.le a b) (h' : gate.le b c) : gate.le a c := by
  cases gate with
  | update => exact String.le_trans h h'
  | traversal => exact unitsLe_trans h h'

/-- No watermark is lowered or lost. -/
def Keeps (s s' : Store) : Prop :=
  ∀ id known, watermarkOf s id = some known →
    ∃ next, watermarkOf s' id = some next ∧ gate.le known next

variable {gate}

theorem Keeps.of_known {s s' : Store}
    (h : ∀ id known, watermarkOf s id = some known → watermarkOf s' id = some known) :
    gate.Keeps s s' := fun id known hknown => ⟨known, h id known hknown, gate.le_refl known⟩

theorem Keeps.trans {s₁ s₂ s₃ : Store} (h : gate.Keeps s₁ s₂) (h' : gate.Keeps s₂ s₃) :
    gate.Keeps s₁ s₃ := by
  intro id known hknown
  obtain ⟨next, hnext, hle⟩ := h id known hknown
  obtain ⟨last, hlast, hle'⟩ := h' id next hnext
  exact ⟨last, hlast, gate.le_trans hle hle'⟩

end WatermarkGate

/-! ## What a check does to targets -/

/-- The UPDATE of an upsert that is given a watermark. -/
def Store.overwriteWatermark (id : TargetId) (lastKnownUpdatedAt : Option String) : Store → Store :=
  Store.updateTarget id fun row => { row with lastKnownUpdatedAt }

/-- The effects of a check on targets, by the calls that have them. -/
inductive TargetEffect : Option Site → (Store → Store) → Prop
  | aside {site : Option Site} {eff : Store → Store} (h : ∀ s, (eff s).targets = s.targets) :
      TargetEffect site eff
  | insert (input : CreateTargetInput) :
      TargetEffect (some (.insertTarget input.id)) (Store.insertTarget input)
  | check (id : TargetId) (lastCheckedAt : Nat) : TargetEffect (some (.setTargetLastChecked id))
      (Store.updateTarget id fun row => { row with lastCheckedAt := some lastCheckedAt })
  | overwrite (id : TargetId) (lastKnownUpdatedAt : Option String) :
      TargetEffect (some (.updateTarget id)) (Store.overwriteWatermark id lastKnownUpdatedAt)
  | advance (id : TargetId) (lastKnownUpdatedAt : String) :
      TargetEffect (some (.setTargetLastKnownUpdatedAt id))
        (Store.updateTarget id (advanceWatermark lastKnownUpdatedAt))

section Effects

variable {s : Store} {id : TargetId} {known : String}

theorem watermarkOf_updateTarget (f : TargetRow → TargetRow) (other : TargetId) :
    watermarkOf (s.updateTarget id f) other =
      if other = id then (s.targets id).bind fun row => (f row).lastKnownUpdatedAt
      else watermarkOf s other := by
  unfold watermarkOf Store.updateTarget
  by_cases heq : other = id
  · subst heq
    cases s.targets other <;> simp
  · simp [heq]

theorem watermarkOf_insertTarget (input : CreateTargetInput) (h : watermarkOf s id = some known) :
    watermarkOf (s.insertTarget input) id = some known := by
  obtain ⟨row, hrow, hwatermark⟩ := Option.bind_eq_some_iff.mp h
  have hkept : (s.insertTarget input).targets id = some row := insertIfNew_keeps hrow
  unfold watermarkOf
  rw [hkept]
  exact hwatermark

theorem watermarkOf_overwrite (v : Option String) (h : watermarkOf s id = some known) :
    watermarkOf (s.overwriteWatermark id v) id = v := by
  obtain ⟨row, hrow, _⟩ := Option.bind_eq_some_iff.mp h
  unfold Store.overwriteWatermark
  rw [watermarkOf_updateTarget, if_pos rfl, hrow]
  rfl

theorem watermarkOf_advance (next : String) (h : watermarkOf s id = some known) :
    watermarkOf (s.updateTarget id (advanceWatermark next)) id =
      some (if known < next then next else known) := by
  obtain ⟨row, hrow, hknown⟩ := Option.bind_eq_some_iff.mp h
  rw [watermarkOf_updateTarget, if_pos rfl, hrow]
  simp only [Option.bind_some, advanceWatermark, hknown]
  split
  · rfl
  · exact hknown

end Effects

private theorem upsertTarget_effects (input : CreateTargetInput) :
    (upsertTarget input).Effects TargetEffect := by
  unfold upsertTarget
  refine effects_closed.bind (effects_call (.insert input)) fun inserted => ?_
  cases inserted with
  | true => trivial
  | false =>
    simp only [Bool.false_eq_true, if_false]
    cases input.lastKnownUpdatedAt with
    | none =>
      refine effects_closed.bind (effects_call (.aside fun _ => rfl)) fun existing => ?_
      cases existing <;> trivial
    | some v =>
      refine effects_closed.bind (effects_call (.overwrite input.id v)) fun _ => ?_
      refine effects_closed.bind (effects_call (.aside fun _ => rfl)) fun existing => ?_
      cases existing <;> trivial

private theorem aside_of_frames {α : Type} {p : Prog Site Store α} (h : p.Frames Store.targets) :
    p.Effects TargetEffect := h.effects fun _ _ => .aside

private theorem notifyDetectedChanges_effects (ctx : CheckContext) (changeIds : List ChangeId)
    (detected : List DetectedChange) :
    (notifyDetectedChanges ctx changeIds detected).Effects TargetEffect := by
  refine effects_closed.foldlM fun changeIds d => ?_
  have hfanout : (fanoutChange ctx d.row).Frames Store.targets :=
    fanoutChange_frames (fun _ _ => rfl) (fun _ _ => rfl) ctx d.row
  refine effects_closed.bind (aside_of_frames hfanout) fun _ => ?_
  cases d.watermarkAdvance with
  | none => trivial
  | some advance => exact effects_closed.bind (effects_call (.advance _ _)) fun _ => trivial

private theorem insertChangeIfNew_effects (row : ChangeRow) :
    (insertChangeIfNew row).Effects TargetEffect :=
  aside_of_frames (insertChangeIfNew_frames (fun _ _ => rfl) row)

private theorem detectFeedChanges_effects (items : ItemTools) (ctx : CheckContext)
    (summaryAsDiffPreview : Bool) (maxItems : Nat) (list : List FeedItem) :
    (detectFeedChanges items ctx summaryAsDiffPreview maxItems list).Effects TargetEffect := by
  refine effects_closed.foldlM fun detected item => ?_
  unfold detectFeedChange
  cases targetUrl items item with
  | none => trivial
  | some url =>
    refine effects_closed.bind ?_ fun _ => trivial
    refine effects_closed.bind (effects_call (.aside fun _ => rfl)) fun previous => ?_
    refine effects_closed.bind (upsertTarget_effects _) fun target => ?_
    refine effects_closed.bind (effects_call (.check _ _)) fun _ => ?_
    unfold detectOnTarget
    split
    · trivial
    split
    · exact effects_closed.bind (insertChangeIfNew_effects _) fun _ => trivial
    split
    · trivial
    · exact effects_closed.bind (insertChangeIfNew_effects _) fun _ => trivial

/-- Of the targets a check writes, only the UPDATE of an upsert does not look at what is there. -/
theorem targetParts (items : ItemTools) :
    CheckParts items fun α => @Effects Site Store α TargetEffect where
  closed := effects_closed
  quiet _ _ _ h := effects_call (.aside fun s => congrArg Prod.fst (h s))
  upsertTarget := upsertTarget_effects
  setTargetLastChecked id n := effects_call (.check id n)
  setTargetLastKnownUpdatedAt id v := effects_call (.advance id v)
  processFeedItems ctx progress list maxItems summaryAsDiffPreview := by
    refine effects_closed.bind (detectFeedChanges_effects _ _ _ _ _) fun detected => ?_
    refine effects_closed.bind ?_ fun _ => trivial
    have henrich : (enrichDetectedChanges items progress.titleFetchesUsed detected).Frames
        Store.targets := enrichDetectedChanges_frames items (fun _ _ _ => rfl) _ detected
    refine effects_closed.bind (aside_of_frames henrich) fun enriched => ?_
    have hclassify : (classifyDetectedChanges items ctx enriched.done).Frames Store.targets :=
      classifyDetectedChanges_frames items (fun _ _ _ => rfl) ctx enriched.done
    refine effects_closed.bind (aside_of_frames hclassify) fun classified => ?_
    exact effects_closed.bind (notifyDetectedChanges_effects _ _ _) fun _ => trivial
  recordChange ctx row unifiedDiff _ := by
    refine effects_closed.bind (insertChangeIfNew_effects row) fun inserted => ?_
    split
    · refine effects_closed.bind (effects_call (.aside fun _ => rfl)) fun _ => ?_
      exact notifyDetectedChanges_effects _ _ _
    · exact notifyDetectedChanges_effects _ _ _

/-- The effects of a whole check. -/
def RunTargetEffect (site : Option RunSite) (eff : Store → Store) : Prop :=
  TargetEffect (site.map RunSite.site) eff

private theorem regions_effects : CheckParts.JudgesRegions (fun α => @Effects Site Store α TargetEffect)
    fun α => @Effects RunSite Store α RunTargetEffect where
  closed := effects_closed
  region region p h := by
    refine effects_relabel (h.mono fun site eff heff => ?_)
    cases site with
    | none => exact heff
    | some site => exact heff

private theorem checkTask_effects (task : CheckTask) : task.prog.Effects RunTargetEffect :=
  effects_closed.bind ((targetParts task.items).check regions_effects task.tools task.source
    task.world task.monitorId) fun _ => trivial

/-! ## The steps of a run -/

section Runs

variable {κ : Type} [DecidableEq κ] {subscribed : SubscriptionRow → Prop}

/-- The writes over a watermark do not lower it: an UPDATE of an upsert writes no watermark below the
one stored, and where the guarded update takes the new one for greater, so does the gate. -/
structure WatermarkGate.InOrder (gate : WatermarkGate) (pool : CheckPool κ) (e : CheckEvent κ) :
    Prop where
  upsert : ∀ region id known v, watermarkOf pool.shared id = some known →
    pool.Writes e ⟨region, .updateTarget id⟩ (Store.overwriteWatermark id v) →
      ∃ next, v = some next ∧ gate.le known next
  update : ∀ region id known next, watermarkOf pool.shared id = some known →
    pool.Writes e ⟨region, .setTargetLastKnownUpdatedAt id⟩
      (Store.updateTarget id (advanceWatermark next)) → known < next → gate.le known next

variable {gate : WatermarkGate} {pool : CheckPool κ} {e : CheckEvent κ}

omit [DecidableEq κ] in
private theorem inOrder_of_no_writes (h : ∀ site eff, ¬pool.Writes e site eff) :
    gate.InOrder pool e :=
  ⟨fun _ _ _ _ _ hwrites => absurd hwrites (h _ _), fun _ _ _ _ _ hwrites => absurd hwrites (h _ _)⟩

private theorem syncSteps_targets {s s' : Store} (h : SyncSteps RunTargetEffect s s') :
    s'.targets = s.targets := by
  induction h with
  | refl => rfl
  | tail _ hstep ih =>
    obtain ⟨eff, heff, rfl⟩ := hstep
    cases heff with
    | aside h => exact (h _).trans ih

private theorem keeps_of_targets {s s' : Store} (h : s'.targets = s.targets) : gate.Keeps s s' := by
  refine .of_known fun id known hknown => ?_
  unfold watermarkOf at hknown ⊢
  rwa [h]

omit [DecidableEq κ] in
/-- A call keeps the watermarks exactly where its writes are in order. -/
private theorem keeps_write_iff {call : Prog.Call RunSite Store} {k : κ} {eff : Store → Store}
    (heff : RunTargetEffect (some call.site) eff)
    (honly : ∀ site eff', pool.Writes (ρ := CheckTask) (.call k call) site eff' →
      site = call.site ∧ eff' = eff)
    (hwrites : pool.Writes (ρ := CheckTask) (.call k call) call.site eff) :
    gate.Keeps pool.shared (eff pool.shared) ↔ gate.InOrder pool (.call k call) := by
  constructor
  · intro hkeeps
    refine ⟨fun region id known v hknown hwrites => ?_, fun region id known next hknown hwrites hlt => ?_⟩
    · obtain ⟨_, rfl⟩ := honly _ _ hwrites
      obtain ⟨next, hnext, hle⟩ := hkeeps id known hknown
      rw [watermarkOf_overwrite v hknown] at hnext
      exact ⟨next, hnext, hle⟩
    · obtain ⟨_, rfl⟩ := honly _ _ hwrites
      obtain ⟨last, hlast, hle⟩ := hkeeps id known hknown
      rw [watermarkOf_advance next hknown, if_pos hlt] at hlast
      cases hlast
      exact hle
  · intro horder
    obtain ⟨⟨region, site⟩, before, fault⟩ := call
    cases heff with
    | aside h => exact keeps_of_targets (h _)
    | insert input => exact .of_known fun id known hknown => watermarkOf_insertTarget input hknown
    | check id n =>
      refine .of_known fun other known hknown => ?_
      rw [watermarkOf_updateTarget]
      split
      next heq =>
        subst heq
        exact hknown
      · exact hknown
    | overwrite id v =>
      intro other known hknown
      by_cases heq : other = id
      · subst heq
        obtain ⟨next, rfl, hle⟩ := horder.upsert region other known v hknown hwrites
        exact ⟨next, watermarkOf_overwrite _ hknown, hle⟩
      · refine ⟨known, ?_, gate.le_refl known⟩
        unfold Store.overwriteWatermark
        rw [watermarkOf_updateTarget, if_neg heq, hknown]
    | advance id next =>
      intro other known hknown
      by_cases heq : other = id
      · subst heq
        refine ⟨_, watermarkOf_advance next hknown, ?_⟩
        split
        next hlt => exact horder.update region other known next hknown hwrites hlt
        · exact gate.le_refl known
      · refine ⟨known, ?_, gate.le_refl known⟩
        rw [watermarkOf_updateTarget, if_neg heq, hknown]

/-- A step of a run keeps the watermarks exactly where its writes are in order. -/
theorem keeps_step_iff {D : StepCond (CheckPool κ) (CheckEvent κ)} {es : List (CheckEvent κ)}
    (hrun : (poolSystem (overlap κ subscribed)).Run D es pool)
    (henabled : pool.enables (overlap κ subscribed) e) :
    gate.Keeps pool.shared (pool.after (overlap κ subscribed) e).shared ↔ gate.InOrder pool e := by
  have heffects : ∀ k task, (overlap κ subscribed).fits k task →
      ((overlap κ subscribed).prog k task).Effects RunTargetEffect :=
    fun _ task _ => checkTask_effects task
  cases e with
  | others s =>
    refine iff_of_true (keeps_of_targets henabled.targets) (inOrder_of_no_writes ?_)
    rintro site eff ⟨_, _, _, _, heq, _⟩
    cases heq
  | start k task =>
    have hsync := effectStart_of_run heffects hrun henabled
    refine iff_of_true (keeps_of_targets (syncSteps_targets hsync)) (inOrder_of_no_writes ?_)
    rintro site eff ⟨_, _, _, _, heq, _⟩
    cases heq
  | call k call =>
    rcases effectStep_of_run heffects hrun henabled with
      ⟨eff, heff, honly, hwrites, hsync⟩ | ⟨hnone, hsync⟩
    · rw [← keeps_write_iff heff honly hwrites]
      unfold WatermarkGate.Keeps watermarkOf
      rw [syncSteps_targets hsync]
    · exact iff_of_true (keeps_of_targets (syncSteps_targets hsync)) (inOrder_of_no_writes hnone)

variable (gate subscribed)

/-- The step keeps the watermarks. -/
def keepsWatermarks : StepCond (CheckPool κ) (CheckEvent κ) :=
  fun _ pool e => gate.Keeps pool.shared (pool.after (overlap κ subscribed) e).shared

/-- The writes of the step are in order. -/
def writesInOrder : StepCond (CheckPool κ) (CheckEvent κ) := fun _ pool e => gate.InOrder pool e

/-- The runs of overlapping checks in which no step lowers a watermark are those in which every write
over a watermark is in order; in these no watermark is below what it was before. -/
theorem watermarks_monotone_iff :
    (∀ es (pool : CheckPool κ),
      (poolSystem (overlap κ subscribed)).Run (keepsWatermarks subscribed gate) es pool ↔
        (poolSystem (overlap κ subscribed)).Run (writesInOrder gate) es pool) ∧
    ∀ es newer (pool pool' : CheckPool κ),
      (poolSystem (overlap κ subscribed)).Run (writesInOrder gate) es pool →
      (poolSystem (overlap κ subscribed)).Steps (writesInOrder gate) es pool newer pool' →
        gate.Keeps pool.shared pool'.shared := by
  refine ⟨fun es pool => ⟨fun h => ?_, fun h => ?_⟩, fun es newer pool pool' hrun hsteps => ?_⟩
  · induction h with
    | start hinit => exact .start hinit
    | next hrun hstep hkeeps ih => exact .next ih hstep ((keeps_step_iff hrun hstep.1).mp hkeeps)
  · induction h with
    | start hinit => exact .start hinit
    | next hrun hstep horder ih => exact .next ih hstep ((keeps_step_iff hrun hstep.1).mpr horder)
  · induction hsteps with
    | refl => exact .of_known fun _ _ h => h
    | next hsteps hstep horder ih =>
      obtain ⟨henabled, rfl⟩ := hstep
      exact ih.trans ((keeps_step_iff (hrun.append hsteps) henabled).mpr horder)

/-- The UPDATE of an upsert leaves the watermark it finds or a later one, in SQLite's order. -/
def upsertsRaise : StepCond (CheckPool κ) (CheckEvent κ)
  | _, pool, .call k call =>
    match call.site.site with
    | .updateTarget id => ∀ known ∈ watermarkOf pool.shared id,
      ∃ next ∈ watermarkOf (pool.after (overlap κ subscribed) (.call k call)).shared id, known ≤ next
    | _ => True
  | _, _, _ => True

instance (es : List (CheckEvent κ)) (pool : CheckPool κ) :
    ∀ e, Decidable (upsertsRaise subscribed es pool e)
  | .call k call => by
    unfold upsertsRaise
    dsimp only
    split <;> infer_instance
  | .start _ _ | .others _ => inferInstanceAs (Decidable True)

variable {subscribed}

/-- In SQLite's order the guarded update is in order by its guard. -/
private theorem inOrder_of_upsertsRaise {D : StepCond (CheckPool κ) (CheckEvent κ)}
    {es : List (CheckEvent κ)} (hrun : (poolSystem (overlap κ subscribed)).Run D es pool)
    (henabled : pool.enables (overlap κ subscribed) e) (h : upsertsRaise subscribed es pool e) :
    WatermarkGate.update.InOrder pool e := by
  have heffects : ∀ k task, (overlap κ subscribed).fits k task →
      ((overlap κ subscribed).prog k task).Effects RunTargetEffect :=
    fun _ task _ => checkTask_effects task
  cases e with
  | others s =>
    apply inOrder_of_no_writes
    rintro site eff ⟨_, _, _, _, heq, _⟩
    cases heq
  | start k task =>
    apply inOrder_of_no_writes
    rintro site eff ⟨_, _, _, _, heq, _⟩
    cases heq
  | call k call =>
    rcases effectStep_of_run heffects hrun henabled with
      ⟨eff, _, honly, _, hsync⟩ | ⟨hnone, _⟩
    · constructor
      · intro region id known v hknown hwrites
        obtain ⟨hsite, rfl⟩ := honly _ _ hwrites
        have hraised : ∀ known ∈ watermarkOf pool.shared id,
            ∃ next ∈ watermarkOf (pool.after (overlap κ subscribed) (.call k call)).shared id,
              known ≤ next := by
          simpa only [upsertsRaise, ← hsite] using h
        obtain ⟨next, hnext, hle⟩ := hraised known hknown
        have hafter : watermarkOf (pool.after (overlap κ subscribed) (.call k call)).shared id = v := by
          rw [← watermarkOf_overwrite v hknown]
          unfold watermarkOf
          rw [syncSteps_targets hsync]
        exact ⟨next, hafter.symm.trans hnext, hle⟩
      · exact fun _ _ _ _ _ _ hlt => le_of_lt hlt
    · exact inOrder_of_no_writes hnone

private theorem run_writesInOrder {es : List (CheckEvent κ)}
    (h : (poolSystem (overlap κ subscribed)).Run (upsertsRaise subscribed) es pool) :
    (poolSystem (overlap κ subscribed)).Run (writesInOrder .update) es pool := by
  induction h with
  | start hinit => exact .start hinit
  | next hrun hstep hraised ih =>
    exact .next ih hstep (inOrder_of_upsertsRaise hrun hstep.1 hraised)

private theorem steps_writesInOrder {es newer : List (CheckEvent κ)} {pool' : CheckPool κ}
    (hrun : (poolSystem (overlap κ subscribed)).Run (upsertsRaise subscribed) es pool)
    (hsteps : (poolSystem (overlap κ subscribed)).Steps (upsertsRaise subscribed) es pool newer
      pool') :
    (poolSystem (overlap κ subscribed)).Steps (writesInOrder .update) es pool newer pool' := by
  induction hsteps with
  | refl => exact .refl
  | next hsteps hstep hraised ih =>
    exact .next ih hstep (inOrder_of_upsertsRaise (hrun.append hsteps) hstep.1 hraised)

end Runs

/-! ## An entry lowered -/

/-- The first check has found no target for the entry, and the second one records it. -/
private def recordedBetween (first second : String) : List (Move Bool CheckTask) :=
  undisturbed true 20 ++ [.start true (entryTask .manual 2000 second none)] ++
    undisturbed false 19 ++ [.start false (entryTask .scheduled 1000 first none)]

private def entryWatermark (played : List (CheckEvent Bool) × CheckPool Bool) : Option String :=
  watermarkOf played.2.shared ⟨1, "https://example.com/a"⟩

/-- The upsert of the first check writes its older watermark over that of the second one. -/
theorem watermark_lowered :
    ¬∀ (gate : WatermarkGate) es newer (pool pool' : CheckPool Bool),
      (poolSystem (overlap Bool fun _ => True)).Run anyStep es pool →
      (poolSystem (overlap Bool fun _ => True)).Steps anyStep es pool newer pool' →
        gate.Keeps pool.shared pool'.shared := by
  intro hall
  obtain ⟨es, pool, newer, pool', hrun, hsteps, hbefore, hafter⟩ := exists_steps_of_play
    (undisturbed false 2) (recordedBetween "2024-01-01T00:00:00.000Z" "2024-02-01T00:00:00.000Z")
    (D := anyStep) (P := fun played => entryWatermark played == some "2024-02-01T00:00:00.000Z")
    (Q := fun played => entryWatermark played == some "2024-01-01T00:00:00.000Z")
    (entryPool_init [] fun _ _ => trivial) (fun _ _ _ => trivial)
    (by decide +kernel) (by decide +kernel)
  have hlower : ¬("2024-02-01T00:00:00.000Z" ≤ "2024-01-01T00:00:00.000Z") := by decide
  obtain ⟨next, hnext, hle⟩ := hall .update es newer pool pool' hrun hsteps
    ⟨1, "https://example.com/a"⟩ "2024-02-01T00:00:00.000Z" (eq_of_beq hbefore)
  cases (eq_of_beq hafter).symm.trans hnext
  exact hlower hle

/-- The upsert of the first check writes its later watermark over that of the second one. -/
theorem watermarks_monotone_iff_raised :
    ∃ es newer, ∃ pool pool' : CheckPool Bool,
      (poolSystem (overlap Bool fun _ => True)).Run (keepsWatermarks (fun _ => True) .update)
        es pool ∧
      watermarkOf pool.shared ⟨1, "https://example.com/a"⟩ = some "2024-01-01T00:00:00.000Z" ∧
      (poolSystem (overlap Bool fun _ => True)).Steps (writesInOrder .update) es pool newer pool' ∧
      watermarkOf pool'.shared ⟨1, "https://example.com/a"⟩ = some "2024-02-01T00:00:00.000Z" ∧
      WatermarkGate.update.Keeps pool.shared pool'.shared := by
  obtain ⟨es, pool, newer, pool', hrun, hsteps, hbefore, hafter⟩ := exists_steps_of_play
    (undisturbed false 2) (recordedBetween "2024-02-01T00:00:00.000Z" "2024-01-01T00:00:00.000Z")
    (D := upsertsRaise fun _ => True)
    (P := fun played => entryWatermark played == some "2024-01-01T00:00:00.000Z")
    (Q := fun played => entryWatermark played == some "2024-02-01T00:00:00.000Z")
    (entryPool_init [] fun _ _ => trivial) (fun _ _ _ => trivial)
    (by decide +kernel) (by decide +kernel)
  have horder := run_writesInOrder hrun
  have hsteps' := steps_writesInOrder hrun hsteps
  obtain ⟨hiff, hkeeps⟩ := @watermarks_monotone_iff Bool _ (fun _ => True) .update
  exact ⟨es, newer, pool, pool', (hiff es pool).mpr horder, eq_of_beq hbefore, hsteps',
    eq_of_beq hafter, hkeeps es newer pool pool' horder hsteps'⟩

end Utsuroi

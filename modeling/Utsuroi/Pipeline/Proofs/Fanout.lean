import Mathlib.Tactic
import Utsuroi.Framework.CrashLogic
import Utsuroi.Framework.Run
import Utsuroi.Pipeline.Notify

/-!
# Recovery of the fan-out

A delivery is sent by the run that inserted its row and by no later one.  A run stopped
between the INSERT and the send leaves a row that every rerun finds and none sends.
-/

namespace Utsuroi

open Async Prog Transition

/-- Every delivery of the change that is still pending has been sent to the queue. -/
def AllSent (id : ChangeId) (s : Store) : Prop :=
  ∀ d row, s.deliveries ⟨id, d⟩ = some row → row.status = .pending → ⟨id, d⟩ ∈ s.queue

/-- The call was stopped after a delivery of the change was inserted and before its message
was sent. -/
def InSendGap (id : ChangeId) (call : Call Site Store) : Prop :=
  match call.site with
  | .insertDelivery delivery =>
    delivery.changeId = id ∧ call.before.deliveries delivery = none ∧ call.fault.After
  | .queueSend delivery => delivery.changeId = id ∧ call.fault.Before
  | _ => False

/-! ## Runs and reruns -/

inductive FanoutEvent
  /-- a run of `fanoutChange` for the change, completed or not -/
  | fanout (log : List (Call Site Store)) (exit : Exit PUnit)
  /-- whatever else happens to the store -/
  | others

/-- Consumers change the deliveries whose message was sent; new deliveries of the change
and messages for them come from `fanoutChange` alone. -/
def OthersStep (id : ChangeId) (s s' : Store) : Prop :=
  ∀ d, (⟨id, d⟩ ∈ s'.queue ↔ ⟨id, d⟩ ∈ s.queue) ∧
    (s'.deliveries ⟨id, d⟩ = s.deliveries ⟨id, d⟩ ∨
      ⟨id, d⟩ ∈ s.queue ∧ s'.deliveries ⟨id, d⟩ ≠ none)

/-- The runs for the change `id`, from its insertion on. -/
def fanoutSystem (id : ChangeId) : System Store FanoutEvent where
  init s := ∀ d, s.deliveries ⟨id, d⟩ = none ∧ ⟨id, d⟩ ∉ s.queue
  step s e s' :=
    match e with
    | .fanout log exit =>
      ∃ ctx change faults, change.id = id ∧
        (fanoutChange ctx change).exec faults [] s = ⟨log, exit, s'⟩
    | .others => OthersStep id s s'

/-- No run was stopped between the INSERT of a delivery and its send. -/
def OutsideSendGap (id : ChangeId) (es : List FanoutEvent) : Prop :=
  ∀ log exit, .fanout log exit ∈ es → ∀ call ∈ log, ¬InSendGap id call

/-! ## What one run does -/

/-- A pending delivery whose message nobody sent. -/
def Unsent (id : ChangeId) (d : DestinationId) (s : Store) : Prop :=
  (∃ row, s.deliveries ⟨id, d⟩ = some row ∧ row.status = .pending) ∧ ⟨id, d⟩ ∉ s.queue

private theorem not_allSent_of_unsent {id : ChangeId} {d : DestinationId} {s : Store}
    (h : Unsent id d s) : ¬AllSent id s := by
  obtain ⟨⟨row, hrow, hpending⟩, hqueue⟩ := h
  exact fun hall => hqueue (hall d row hrow hpending)

/-- All deliveries are sent, but for `except`, and only deliveries that exist are. -/
structure SentExcept (id : ChangeId) (except : DestinationId → Prop) (s : Store) : Prop where
  sent : ∀ d row, ¬except d → s.deliveries ⟨id, d⟩ = some row → row.status = .pending →
    ⟨id, d⟩ ∈ s.queue
  known : ∀ d, ⟨id, d⟩ ∈ s.queue → s.deliveries ⟨id, d⟩ ≠ none

/-- Between runs, and within them between the loop's rounds, nothing is left unsent. -/
abbrev Settled (id : ChangeId) (s : Store) : Prop := SentExcept id (fun _ => False) s

private theorem Settled.allSent {id : ChangeId} {s : Store} (h : Settled id s) : AllSent id s :=
  fun d row hrow hpending => h.sent d row (fun h => h) hrow hpending

/-- How a run may be stopped: outside the gap with everything settled, or in the gap. -/
def StoppedAs (id : ChangeId) (log : List (Call Site Store)) (s : Store) : Prop :=
  ((∀ call ∈ log, ¬InSendGap id call) ∧ Settled id s) ∨
    ((∃ call ∈ log, InSendGap id call) ∧ ∃ d, Unsent id d s)

private theorem noGap_cons {id : ChangeId} {call : Call Site Store} {log : List (Call Site Store)}
    (hcall : ¬InSendGap id call) (hlog : ∀ call ∈ log, ¬InSendGap id call) :
    ∀ c ∈ call :: log, ¬InSendGap id c := by
  intro c hc
  rcases List.mem_cons.mp hc with rfl | hc
  · exact hcall
  · exact hlog c hc

/-- The INSERT of a delivery there is not changes nothing else. -/
private theorem sentExcept_insert {id : ChangeId} {d : DestinationId} {s : Store}
    (h : Settled id s) (hnone : s.deliveries ⟨id, d⟩ = none) :
    SentExcept id (· = d) (s.insertDelivery ⟨id, d⟩) ∧
      Unsent id d (s.insertDelivery ⟨id, d⟩) := by
  refine ⟨⟨?_, ?_⟩, ⟨newDelivery ⟨id, d⟩, ?_, rfl⟩, ?_⟩
  · intro other row hne hrow hpending
    rw [Store.insertDelivery_deliveries, insertIfNew_other (by simp [hne])] at hrow
    exact h.sent other row (fun h => h) hrow hpending
  · intro other hqueue
    obtain ⟨row, hrow⟩ := Option.ne_none_iff_exists'.mp (h.known other hqueue)
    rw [Store.insertDelivery_deliveries, insertIfNew_keeps hrow]
    simp
  · simp [insertIfNew_of_none hnone]
  · exact fun hqueue => h.known d hqueue hnone

private theorem settled_insert {id : ChangeId} {d : DestinationId} {s : Store}
    (h : Settled id s) (hsome : s.deliveries ⟨id, d⟩ ≠ none) :
    Settled id (s.insertDelivery ⟨id, d⟩) := by
  obtain ⟨row, hrow⟩ := Option.ne_none_iff_exists'.mp hsome
  have hsame : s.insertDelivery ⟨id, d⟩ = s := by
    unfold Store.insertDelivery
    rw [insertIfNew_of_some hrow]
  rw [hsame]
  exact h

private theorem settled_send {id : ChangeId} {d : DestinationId} {s : Store}
    (h : SentExcept id (· = d) s) (hunsent : Unsent id d s) : Settled id (s.send ⟨id, d⟩) := by
  constructor
  · intro other row _ hrow hpending
    by_cases hother : other = d
    · subst hother
      exact List.mem_cons_self
    · exact List.mem_cons_of_mem _ (h.sent other row hother hrow hpending)
  · intro other hqueue
    rcases List.mem_cons.mp hqueue with heq | hqueue
    · injection heq with _ heq
      subst heq
      obtain ⟨row, hrow, _⟩ := hunsent.1
      simp [hrow]
    · exact h.known other hqueue

private theorem createDeliveryIfNew_settled {id : ChangeId} {d : DestinationId}
    {log : List (Call Site Store)} {s : Store} (hlog : ∀ call ∈ log, ¬InSendGap id call)
    (hs : Settled id s) :
    (createDeliveryIfNew id d).wp anyCall
      (.orStop (fun result log s => (∀ call ∈ log, ¬InSendGap id call) ∧
          (result.inserted = false ∧ Settled id s ∨
            result.inserted = true ∧ result.row.id = ⟨id, d⟩ ∧ SentExcept id (· = d) s ∧
              Unsent id d s))
        (StoppedAs id)) log s := by
  unfold createDeliveryIfNew
  by_cases hnone : s.deliveries ⟨id, d⟩ = none
  · obtain ⟨hexcept, hunsent⟩ := sentExcept_insert hs hnone
    refine wp_bind.mpr (wp_call_orStop ?_ ?_ ?_)
    · intro _
      simp only [hnone, Option.isNone_none, if_true, pure_eq, wp]
      exact ⟨noGap_cons (fun h => Fault.not_after_none h.2.2) hlog,
        Or.inr ⟨rfl, rfl, hexcept, hunsent⟩⟩
    · intro fault hfault _
      exact Or.inl ⟨noGap_cons (fun h => hfault.not_after h.2.2) hlog, hs⟩
    · intro fault hfault _
      exact Or.inr ⟨⟨_, List.mem_cons_self, rfl, hnone, hfault⟩, d, hunsent⟩
  · have hins := settled_insert hs hnone
    have hsome : (s.deliveries ⟨id, d⟩).isNone = false := by
      simpa [Option.isSome_iff_ne_none] using hnone
    refine wp_bind.mpr (wp_call_orStop ?_ ?_ ?_)
    · intro _
      simp only [hsome, if_false, Bool.false_eq_true]
      have hlog' : ∀ call ∈ ⟨.insertDelivery ⟨id, d⟩, s, .none⟩ :: log, ¬InSendGap id call :=
        noGap_cons (fun h => hnone h.2.1) hlog
      refine wp_bind.mpr (wp_call_orStop ?_ ?_ ?_)
      · intro _
        have hsel : ∀ fault, ∀ call ∈ ⟨.selectDelivery ⟨id, d⟩, s.insertDelivery ⟨id, d⟩, fault⟩ ::
            ⟨.insertDelivery ⟨id, d⟩, s, .none⟩ :: log, ¬InSendGap id call :=
          fun _ => noGap_cons (fun h => h) hlog'
        cases hrow : (s.insertDelivery ⟨id, d⟩).deliveries ⟨id, d⟩ with
        | none => exact Or.inl ⟨hsel _, hins⟩
        | some row => exact ⟨hsel _, Or.inl ⟨rfl, hins⟩⟩
      · intro fault _ _
        exact Or.inl ⟨noGap_cons (fun h => h) hlog', hins⟩
      · intro fault _ _
        exact Or.inl ⟨noGap_cons (fun h => h) hlog', hins⟩
    · intro fault _ _
      exact Or.inl ⟨noGap_cons (fun h => hnone h.2.1) hlog, hs⟩
    · intro fault _ _
      exact Or.inl ⟨noGap_cons (fun h => hnone h.2.1) hlog, hins⟩

private theorem fanoutTo_settled {id : ChangeId} {sub : SubscriptionRow}
    {log : List (Call Site Store)} {s : Store} (hlog : ∀ call ∈ log, ¬InSendGap id call)
    (hs : Settled id s) :
    (fanoutTo id sub).wp anyCall
      (.orStop (fun _ log s => (∀ call ∈ log, ¬InSendGap id call) ∧ Settled id s)
        (StoppedAs id)) log s := by
  refine wp_seq (createDeliveryIfNew_settled hlog hs) ?_
  rintro result log s ⟨hlog, ⟨hold, hs⟩ | ⟨hnew, hid, hexcept, hunsent⟩⟩
  · simp only [hold, Bool.false_eq_true, if_false, pure_eq]
    exact ⟨hlog, hs⟩
  · simp only [hnew, if_true, hid]
    refine wp_call_orStop ?_ ?_ ?_
    · intro _
      exact ⟨noGap_cons (fun h => Fault.not_before_none h.2) hlog, settled_send hexcept hunsent⟩
    · intro fault hfault _
      exact Or.inr ⟨⟨_, List.mem_cons_self, rfl, hfault⟩, sub.destinationId, hunsent⟩
    · intro fault hfault _
      exact Or.inl ⟨noGap_cons (fun h => hfault.not_before h.2) hlog,
        settled_send hexcept hunsent⟩

/-- A run that finds everything settled leaves it so, unless it is stopped in the gap. -/
private theorem fanoutChange_settled (ctx : CheckContext) {change : ChangeRow} {s : Store}
    (hs : Settled change.id s) :
    (fanoutChange ctx change).wp anyCall
      (.orStop (fun _ => StoppedAs change.id) (StoppedAs change.id)) [] s := by
  refine wp_bind.mpr (wp_call_orStop ?_ ?_ ?_)
  · intro _
    refine wp_forM (fun _ _ log s => (∀ call ∈ log, ¬InSendGap change.id call) ∧
      Settled change.id s) ⟨noGap_cons (fun h => h) (by simp), hs⟩ ?_ ?_
    · rintro done sub todo log s _ ⟨hlog, hs⟩
      exact fanoutTo_settled hlog hs
    · exact fun log s h => Or.inl h
  · intro fault _ _
    exact Or.inl ⟨noGap_cons (fun h => h) (by simp), hs⟩
  · intro fault _ _
    exact Or.inl ⟨noGap_cons (fun h => h) (by simp), hs⟩

/-! ## A delivery once left unsent stays unsent -/

private theorem unsent_insert {id : ChangeId} {d : DestinationId} {s : Store}
    (h : Unsent id d s) (other : DeliveryId) : Unsent id d (s.insertDelivery other) := by
  obtain ⟨⟨row, hrow, hpending⟩, hqueue⟩ := h
  exact ⟨⟨row, insertIfNew_keeps hrow, hpending⟩, hqueue⟩

private theorem createDeliveryIfNew_unsent {id : ChangeId} {d other : DestinationId}
    {log : List (Call Site Store)} {s : Store} (hs : Unsent id d s) :
    (createDeliveryIfNew id other).wp anyCall
      (.orStop (fun result _ s => Unsent id d s ∧
          (result.inserted = true → result.row.id = ⟨id, other⟩ ∧ other ≠ d))
        (fun _ => Unsent id d)) log s := by
  have hins := unsent_insert hs ⟨id, other⟩
  unfold createDeliveryIfNew
  refine wp_bind.mpr (wp_call_orStop ?_ (fun _ _ _ => hs) (fun _ _ _ => hins))
  intro _
  by_cases hnone : s.deliveries ⟨id, other⟩ = none
  · simp only [hnone, Option.isNone_none, if_true, pure_eq, wp]
    refine ⟨hins, fun _ => ⟨rfl, ?_⟩⟩
    rintro rfl
    obtain ⟨row, hrow, _⟩ := hs.1
    rw [hnone] at hrow
    contradiction
  · have hsome : (s.deliveries ⟨id, other⟩).isNone = false := by
      simpa [Option.isSome_iff_ne_none] using hnone
    simp only [hsome, if_false, Bool.false_eq_true]
    refine wp_bind.mpr (wp_call_orStop ?_ (fun _ _ _ => hins) (fun _ _ _ => hins))
    intro _
    cases (s.insertDelivery ⟨id, other⟩).deliveries ⟨id, other⟩ with
    | none => exact hins
    | some row => exact ⟨hins, fun h => absurd h (by simp)⟩

private theorem fanoutTo_unsent {id : ChangeId} {d : DestinationId} {sub : SubscriptionRow}
    {log : List (Call Site Store)} {s : Store} (hs : Unsent id d s) :
    (fanoutTo id sub).wp anyCall (.orStop (fun _ _ => Unsent id d) (fun _ => Unsent id d))
      log s := by
  refine wp_seq (createDeliveryIfNew_unsent hs) ?_
  rintro result log s ⟨hs, hnew⟩
  by_cases hinserted : result.inserted = true
  · obtain ⟨hid, hne⟩ := hnew hinserted
    have hsend : Unsent id d (s.send ⟨id, sub.destinationId⟩) := by
      refine ⟨hs.1, ?_⟩
      simp only [Store.send_queue, List.mem_cons, DeliveryId.mk.injEq, true_and]
      rintro (h | h)
      · exact hne h.symm
      · exact hs.2 h
    simp only [hinserted, if_true, hid]
    exact wp_call_orStop (fun _ => hsend) (fun _ _ _ => hs) (fun _ _ _ => hsend)
  · simp only [hinserted, if_false, Bool.false_eq_true, pure_eq]
    exact hs

private theorem fanoutChange_unsent (ctx : CheckContext) {change : ChangeRow}
    {d : DestinationId} {s : Store} (hs : Unsent change.id d s) :
    (fanoutChange ctx change).wp anyCall
      (.orStop (fun _ _ => Unsent change.id d) (fun _ => Unsent change.id d)) [] s := by
  refine wp_bind.mpr (wp_call_orStop ?_ (fun _ _ _ => hs) (fun _ _ _ => hs))
  intro _
  exact wp_forM (fun _ _ _ s => Unsent change.id d s) hs
    (fun _ _ _ _ _ _ hs => fanoutTo_unsent hs) (fun _ _ h => h)

/-! ## Runs and reruns -/

/-- Between the runs either everything is settled and no run was stopped in the gap, or a
delivery is unsent and one was. -/
private def FanoutInv (id : ChangeId) (es : List FanoutEvent) (s : Store) : Prop :=
  OutsideSendGap id es ∧ Settled id s ∨ ¬OutsideSendGap id es ∧ ∃ d, Unsent id d s

private theorem outsideSendGap_cons {id : ChangeId} {e : FanoutEvent} {es : List FanoutEvent}
    (he : ∀ log exit, e = .fanout log exit → ∀ call ∈ log, ¬InSendGap id call)
    (hes : OutsideSendGap id es) : OutsideSendGap id (e :: es) := by
  intro log exit hmem
  rcases List.mem_cons.mp hmem with heq | hmem
  · exact he log exit heq.symm
  · exact hes log exit hmem

private theorem settled_others {id : ChangeId} {s s' : Store} (hs : Settled id s)
    (hothers : OthersStep id s s') : Settled id s' := by
  constructor
  · intro d row _ hrow hpending
    obtain ⟨hqueue, hsame | ⟨hsent, _⟩⟩ := hothers d
    · rw [hsame] at hrow
      exact hqueue.mpr (hs.sent d row (fun h => h) hrow hpending)
    · exact hqueue.mpr hsent
  · intro d hsent
    obtain ⟨hqueue, hsame | ⟨_, hsome⟩⟩ := hothers d
    · rw [hsame]
      exact hs.known d (hqueue.mp hsent)
    · exact hsome

private theorem unsent_others {id : ChangeId} {d : DestinationId} {s s' : Store}
    (hs : Unsent id d s) (hothers : OthersStep id s s') : Unsent id d s' := by
  obtain ⟨hqueue, hsame | ⟨hsent, _⟩⟩ := hothers d
  · refine ⟨?_, fun h => hs.2 (hqueue.mp h)⟩
    rw [hsame]
    exact hs.1
  · exact absurd hsent hs.2

private theorem fanoutInv_step {id : ChangeId} {es : List FanoutEvent} {s s' : Store}
    {e : FanoutEvent} (hinv : FanoutInv id es s) (hstep : (fanoutSystem id).step s e s') :
    FanoutInv id (e :: es) s' := by
  rcases hinv with ⟨hes, hs⟩ | ⟨hes, d, hs⟩
  · cases e with
    | fanout log exit =>
      obtain ⟨ctx, change, faults, rfl, hexec⟩ := hstep
      have hpost := wp_exec_any faults (fanoutChange_settled ctx hs)
      rw [hexec] at hpost
      have hstopped : StoppedAs change.id log s' := by cases exit <;> exact hpost
      rcases hstopped with ⟨hgap, hs'⟩ | ⟨⟨call, hcall, hgap⟩, hunsent⟩
      · refine Or.inl ⟨outsideSendGap_cons ?_ hes, hs'⟩
        intro log' exit' heq
        injection heq with hlog _
        exact hlog ▸ hgap
      · exact Or.inr ⟨fun h => h log exit List.mem_cons_self call hcall hgap, hunsent⟩
    | others =>
      refine Or.inl ⟨outsideSendGap_cons ?_ hes, settled_others hs hstep⟩
      intro log exit heq
      contradiction
  · have hes' : ¬OutsideSendGap id (e :: es) := by
      intro h
      exact hes fun log exit hmem => h log exit (List.mem_cons_of_mem _ hmem)
    cases e with
    | fanout log exit =>
      obtain ⟨ctx, change, faults, rfl, hexec⟩ := hstep
      have hpost := wp_exec_any faults (fanoutChange_unsent ctx hs)
      rw [hexec] at hpost
      have hunsent : Unsent change.id d s' := by cases exit <;> exact hpost
      exact Or.inr ⟨hes', d, hunsent⟩
    | others => exact Or.inr ⟨hes', d, unsent_others hs hstep⟩

private theorem fanoutInv_run {id : ChangeId} {C : StepCond Store FanoutEvent}
    {es : List FanoutEvent} {s : Store} (h : (fanoutSystem id).Run C es s) :
    FanoutInv id es s := by
  refine h.invariant ?_ fun _ _ _ _ _ hinv hstep _ => fanoutInv_step hinv hstep
  intro s hinit
  refine Or.inl ⟨by simp [OutsideSendGap], ?_, ?_⟩
  · intro d row _ hrow
    rw [(hinit d).1] at hrow
    contradiction
  · exact fun d hsent => absurd hsent (hinit d).2

/-- After any runs and reruns of the fan-out of a change, completed or stopped anywhere,
every delivery that is still pending has been sent if and only if no run was stopped between
the INSERT of a delivery and its send. -/
theorem fanoutChange_recovery_iff {id : ChangeId} {es : List FanoutEvent} {s : Store}
    (h : (fanoutSystem id).Run anyStep es s) : AllSent id s ↔ OutsideSendGap id es := by
  rcases fanoutInv_run h with ⟨hes, hs⟩ | ⟨hes, d, hs⟩
  · exact ⟨fun _ => hes, fun _ => hs.allSent⟩
  · exact ⟨fun hsent => absurd hsent (not_allSent_of_unsent hs), fun h => absurd h hes⟩

/-! ## A run stopped in the gap -/

private def oneChange : ChangeRow where
  id := ⟨1, "guid-1"⟩
  targetId := none
  targetUrl := "https://example.com/a"
  kind := .new
  diffLevel := none
  previousSnapshotId := none
  snapshotId := none
  diffR2Key := none
  diffPreview := none
  title := none
  tags := none

private def oneContext : CheckContext where
  monitor := ⟨1, 1, .active, 3600, none, some 0, none, none⟩
  source := ⟨1, .rss, "https://example.com/feed", none⟩
  site := ⟨1, none⟩
  now := 0

/-- A store in which one destination subscribes to everything. -/
private def subscribed : Store :=
  { emptyStore with
    subscriptions := [⟨7, none, none, none, none⟩]
    destinations := fun _ => some ⟨false⟩ }

/-- The run under `faults` as an event. -/
private def fanoutEvent (outcome : Outcome Site Store PUnit) : FanoutEvent :=
  .fanout outcome.log outcome.exit

/-- A run of the example's change, stopped as `faults` say. -/
private def oneRun (faults : List Fault) (s : Store) : Outcome Site Store PUnit :=
  (fanoutChange oneContext oneChange).exec faults [] s

/-- One run under `faults` and a rerun that nothing disturbs. -/
private def rerunAfter (faults : List Fault) : Outcome Site Store PUnit :=
  oneRun [] (oneRun faults subscribed).state

private theorem rerunAfter_run (faults : List Fault) :
    (fanoutSystem oneChange.id).Run anyStep
      [fanoutEvent (rerunAfter faults), fanoutEvent (oneRun faults subscribed)]
      (rerunAfter faults).state := by
  refine .next (.next (.start ?_) ⟨oneContext, oneChange, faults, rfl, rfl⟩ trivial)
    ⟨oneContext, oneChange, [], rfl, rfl⟩ trivial
  intro d
  exact ⟨rfl, List.not_mem_nil⟩

/-- Killed right after the INSERT: the rerun completes and the delivery is never sent. -/
theorem fanoutChange_recovery_violated :
    ¬∀ (id : ChangeId) (log : List (Call Site Store)) (es : List FanoutEvent) (s : Store),
      (fanoutSystem id).Run anyStep (.fanout log (.ok ⟨⟩) :: es) s → AllSent id s := by
  intro hall
  have hsent := hall oneChange.id (rerunAfter [.none, .killAfter]).log _ _
    (rerunAfter_run [.none, .killAfter]) 7 (newDelivery ⟨oneChange.id, 7⟩) (by decide) rfl
  exact absurd hsent (by decide)

/-- Killed before the INSERT: the rerun sends it. -/
theorem fanoutChange_recovery_iff_killBefore :
    AllSent oneChange.id (rerunAfter [.none, .killBefore]).state ↔
      OutsideSendGap oneChange.id
        [fanoutEvent (rerunAfter [.none, .killBefore]),
          fanoutEvent (oneRun [.none, .killBefore] subscribed)] :=
  fanoutChange_recovery_iff (rerunAfter_run [.none, .killBefore])

end Utsuroi

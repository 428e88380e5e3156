import Utsuroi.Pipeline.CheckParts
import Utsuroi.Pipeline.Overlap

/-!
# Tags and fan-out under overlapping checks

Tags are written where there are none, and a check knows of a change only tags that are stored.  So
whatever the checks of a monitor do to each other, a delivery goes where the stored tags allow it.
-/

namespace Utsuroi

open Async Prog Transition

def tagsOf (store : Store) (id : ChangeId) : Option (List String) :=
  (store.changes id).bind ChangeRow.tags

/-- The tag of the subscription, if it has one, is among the stored tags of the change. -/
def SubscriptionRow.Admits (sub : SubscriptionRow) (store : Store) (id : ChangeId) : Prop :=
  ∀ tag, sub.tag = some tag → ∃ tags, tagsOf store id = some tags ∧ tag ∈ tags

/-- The rows are stored under their ids, and the subscriptions are among those of the run. -/
structure Store.Regular (subscribed : SubscriptionRow → Prop) (store : Store) : Prop where
  ids : ∀ id row, store.changes id = some row → row.id = id
  subscriptions : ∀ sub ∈ store.subscriptions, subscribed sub

/-- Stored tags stay, and a delivery is inserted only for a subscription that admits the change. -/
structure Store.TagsKept (subscribed : SubscriptionRow → Prop) (s s' : Store) : Prop where
  regular : s.Regular subscribed → s'.Regular subscribed
  tags : ∀ id tags, tagsOf s id = some tags → tagsOf s' id = some tags
  deliveries : ∀ id, s.deliveries id = none → s'.deliveries id ≠ none →
    ∃ sub, subscribed sub ∧ sub.destinationId = id.destinationId ∧ sub.Admits s' id.changeId

section Agreement

variable {subscribed : SubscriptionRow → Prop} {s s' s'' : Store}

theorem SubscriptionRow.Admits.kept {sub : SubscriptionRow} {id : ChangeId} (h : sub.Admits s id)
    (hkept : s.TagsKept subscribed s') : sub.Admits s' id := by
  intro tag htag
  obtain ⟨tags, htags, hmem⟩ := h tag htag
  exact ⟨tags, hkept.tags id tags htags, hmem⟩

/-- An effect that leaves the deliveries alone. -/
theorem Store.TagsKept.of_tags (hregular : s.Regular subscribed → s'.Regular subscribed)
    (htags : ∀ id tags, tagsOf s id = some tags → tagsOf s' id = some tags)
    (hdeliveries : s'.deliveries = s.deliveries) : s.TagsKept subscribed s' :=
  ⟨hregular, htags, fun id hnone hsome => absurd (congrFun hdeliveries id ▸ hnone) hsome⟩

theorem Store.TagsKept.of_findings (h : s'.findings = s.findings) : s.TagsKept subscribed s' := by
  obtain ⟨_, hchanges, hsubscriptions, hdeliveries⟩ :
      s'.targets = s.targets ∧ s'.changes = s.changes ∧ s'.subscriptions = s.subscriptions ∧
        s'.deliveries = s.deliveries := by
    simpa [Store.findings] using h
  refine .of_tags (fun hs => ⟨?_, ?_⟩) (fun id tags htags => ?_) hdeliveries
  · exact hchanges ▸ hs.ids
  · exact hsubscriptions ▸ hs.subscriptions
  · unfold tagsOf at htags ⊢
    rwa [hchanges]

theorem Store.TagsKept.trans (h : s.TagsKept subscribed s') (h' : s'.TagsKept subscribed s'') :
    s.TagsKept subscribed s'' where
  regular hs := h'.regular (h.regular hs)
  tags id tags htags := h'.tags id tags (h.tags id tags htags)
  deliveries id hnone hsome := by
    by_cases hbetween : s'.deliveries id = none
    · exact h'.deliveries id hbetween hsome
    · obtain ⟨sub, hsub, hdestination, hadmits⟩ := h.deliveries id hnone hbetween
      exact ⟨sub, hsub, hdestination, hadmits.kept h'⟩

/-- What overlapping checks agree upon. -/
def tagAgreement (subscribed : SubscriptionRow → Prop) : Agreement Store where
  inv := Store.Regular subscribed
  keeps := Store.TagsKept subscribed
  refl _ := .of_findings rfl
  trans _ _ _ := .trans
  stable _ _ hs h := h.regular hs

/-! ## What a check knows of tags -/

/-- The tags of a row in memory are stored. -/
def ChangeRow.Known (row : ChangeRow) (store : Store) : Prop :=
  ∀ tags, row.tags = some tags → tagsOf store row.id = some tags

theorem ChangeRow.Known.kept {row : ChangeRow} (h : row.Known s) (hkept : s.TagsKept subscribed s') :
    row.Known s' := fun tags htags => hkept.tags row.id tags (h tags htags)

theorem ChangeRow.known_of_untagged {row : ChangeRow} (h : row.tags = none) : row.Known s :=
  fun _ htags => absurd (h.symm.trans htags) nofun

def AllKnown (detected : List DetectedChange) (store : Store) : Prop :=
  ∀ d ∈ detected, d.row.Known store

theorem AllKnown.kept {detected : List DetectedChange} (h : AllKnown detected s)
    (hkept : s.TagsKept subscribed s') : AllKnown detected s' := fun d hd => (h d hd).kept hkept

theorem allKnown_nil : AllKnown [] s := fun _ hd => absurd hd List.not_mem_nil

theorem allKnown_singleton {d : DetectedChange} (h : d.row.Known s) : AllKnown [d] s := by
  intro d' hd'
  rw [List.mem_singleton.mp hd']
  exact h

theorem AllKnown.snoc {done : List DetectedChange} {d : DetectedChange} (h : AllKnown done s)
    (hd : d.row.Known s) : AllKnown (done ++ [d]) s := by
  intro d' hd'
  rcases List.mem_append.mp hd' with hd' | hd'
  · exact h d' hd'
  · rw [List.mem_singleton.mp hd']
    exact hd

/-! ## The effects of the stages -/

theorem tagsKept_insertChange (row : ChangeRow) : s.TagsKept subscribed (s.insertChange row) := by
  refine .of_tags (fun hs => ⟨fun id row' hrow => ?_, hs.subscriptions⟩) (fun id tags htags => ?_) rfl
  · by_cases hid : id = row.id
    · subst hid
      cases hold : s.changes row.id with
      | none =>
        have hnew : insertIfNew s.changes row.id row row.id = some row' := hrow
        rw [insertIfNew_of_none hold, Function.update_self] at hnew
        cases hnew
        rfl
      | some old =>
        have hkept : insertIfNew s.changes row.id row row.id = some old := insertIfNew_keeps hold
        cases hkept.symm.trans hrow
        exact hs.ids _ _ hold
    · have hother : insertIfNew s.changes row.id row id = s.changes id := insertIfNew_other hid
      exact hs.ids id row' (hother ▸ hrow)
  · obtain ⟨old, hold, htags⟩ := Option.bind_eq_some_iff.mp htags
    exact Option.bind_eq_some_iff.mpr ⟨old, insertIfNew_keeps hold, htags⟩

/-- An update of a change that keeps its id and the tags it has. -/
theorem tagsKept_updateChange {id : ChangeId} {f : ChangeRow → ChangeRow}
    (hid : ∀ row, (f row).id = row.id)
    (htags : ∀ row tags, row.tags = some tags → (f row).tags = some tags) :
    s.TagsKept subscribed (s.updateChange id f) := by
  refine .of_tags (fun hs => ⟨fun other row hrow => ?_, hs.subscriptions⟩)
    (fun other tags hstored => ?_) rfl
  · by_cases heq : other = id
    · subst heq
      have hupdated : (s.changes other).map f = some row := by
        simpa [Store.updateChange] using hrow
      obtain ⟨old, hold, rfl⟩ := Option.map_eq_some_iff.mp hupdated
      rw [hid]
      exact hs.ids other old hold
    · have hother : s.changes other = some row := by simpa [Store.updateChange, heq] using hrow
      exact hs.ids other row hother
  · obtain ⟨old, hold, hold'⟩ := Option.bind_eq_some_iff.mp hstored
    by_cases heq : other = id
    · subst heq
      simp [tagsOf, Store.updateChange, hold, htags old tags hold']
    · simp [tagsOf, Store.updateChange, heq, hold, hold']

theorem tagsKept_tagIfNull (id : ChangeId) (tags : List String) :
    s.TagsKept subscribed (s.updateChange id (tagIfNull tags)) := by
  refine tagsKept_updateChange (fun row => ?_) fun row old hold => ?_
  · unfold tagIfNull
    split <;> rfl
  · simp [tagIfNull, hold]

theorem tagsKept_insertDelivery {id : DeliveryId} {sub : SubscriptionRow} (hsub : subscribed sub)
    (hdestination : sub.destinationId = id.destinationId) (hadmits : sub.Admits s id.changeId) :
    s.TagsKept subscribed (s.insertDelivery id) where
  regular hs := ⟨hs.ids, hs.subscriptions⟩
  tags _ _ h := h
  deliveries other hnone hsome := by
    by_cases heq : other = id
    · subst heq
      exact ⟨sub, hsub, hdestination, hadmits⟩
    · rw [Store.insertDelivery_deliveries, insertIfNew_other heq] at hsome
      contradiction

end Agreement

/-! ## The stages -/

section Stages

variable {subscribed : SubscriptionRow → Prop} {s : Store}

/-- A stage under the agreement, and what is known of its answer. -/
abbrev Tagged {α : Type} (subscribed : SubscriptionRow → Prop) (p : Prog Site Store α)
    (M : α → Store → Prop) (s : Store) : Prop := p.Yields (tagAgreement subscribed) M s

/-- A stage that only keeps to the agreement. -/
abbrev Untagged {α : Type} (subscribed : SubscriptionRow → Prop) (p : Prog Site Store α) : Prop :=
  p.Abides (tagAgreement subscribed)

/-- What fan-out writes of findings. -/
private def Store.fanoutView (store : Store) :
    (ChangeId → Option ChangeRow) × List SubscriptionRow × (DeliveryId → Option DeliveryRow) :=
  (store.changes, store.subscriptions, store.deliveries)

private theorem untagged_of_frames {α : Type} {p : Prog Site Store α}
    (h : p.Frames Store.fanoutView) : Untagged subscribed p := by
  refine Effects.abides (h.effects fun site eff heff store _ => ?_)
  obtain ⟨hchanges, hsubscriptions, hdeliveries⟩ :
      (eff store).changes = store.changes ∧ (eff store).subscriptions = store.subscriptions ∧
        (eff store).deliveries = store.deliveries := by
    simpa [Store.fanoutView] using heff store
  refine .of_tags (fun hs => ⟨?_, ?_⟩) (fun id tags htags => ?_) hdeliveries
  · exact hchanges ▸ hs.ids
  · exact hsubscriptions ▸ hs.subscriptions
  · unfold tagsOf at htags ⊢
    rwa [hchanges]

private theorem insertChangeIfNew_tagged (hs : s.Regular subscribed) {row : ChangeRow}
    (hrow : row.tags = none) :
    Tagged subscribed (insertChangeIfNew row) (fun inserted => inserted.row.Known) s := by
  refine yields_bind (yields_call (M := fun _ _ => True) hs (fun _ _ _ => tagsKept_insertChange row)
    fun _ _ _ => trivial) fun inserted s hs _ _ => ?_
  cases inserted with
  | true => exact yields_ret hs (ChangeRow.known_of_untagged hrow)
  | false =>
    refine yields_bind (yields_query (M := fun existing store => ∀ old, existing = some old →
      old.Known store) hs fun found hfound _ old hold tags htags => ?_) fun existing s hs _ hknown => ?_
    · rw [hfound.ids _ old hold]
      exact Option.bind_eq_some_iff.mpr ⟨old, hold, htags⟩
    · cases existing with
      | none => exact hs
      | some old => exact yields_ret hs (hknown old rfl)

/-! ### Detect -/

section Detect

variable {items : ItemTools} {ctx : CheckContext}

private theorem detectOnTarget_tagged (hs : s.Regular subscribed) (summaryAsDiffPreview : Bool)
    (previous : ExistingTargetWatermark) (target : TargetRow) (item : FeedItem) :
    Tagged subscribed (detectOnTarget ctx summaryAsDiffPreview previous target item)
      (fun found => AllKnown found.toList) s := by
  unfold detectOnTarget
  split
  · exact yields_ret hs allKnown_nil
  split
  · refine yields_bind (insertChangeIfNew_tagged hs rfl) fun inserted s hs _ hknown => ?_
    exact yields_ret hs (allKnown_singleton hknown)
  split
  · exact yields_ret hs allKnown_nil
  · refine yields_bind (insertChangeIfNew_tagged hs rfl) fun inserted s hs _ hknown => ?_
    exact yields_ret hs (allKnown_singleton hknown)

private theorem upsertTarget_untagged (input : CreateTargetInput) :
    Untagged subscribed (upsertTarget input) :=
  untagged_of_frames (upsertTarget_frames (fun _ _ => rfl) (fun _ _ _ => rfl) input)

private theorem setTargetLastChecked_untagged (id : TargetId) (n : Nat) :
    Untagged subscribed (setTargetLastChecked id n) :=
  untagged_of_frames (frames_call.mpr fun _ => rfl)

private theorem setTargetLastKnownUpdatedAt_untagged (id : TargetId) (v : String) :
    Untagged subscribed (setTargetLastKnownUpdatedAt id v) :=
  untagged_of_frames (frames_call.mpr fun _ => rfl)

private theorem detectFeedChanges_tagged (hs : s.Regular subscribed) (summaryAsDiffPreview : Bool)
    (maxItems : Nat) (list : List FeedItem) :
    Tagged subscribed (detectFeedChanges items ctx summaryAsDiffPreview maxItems list) AllKnown s := by
  refine yields_foldlM AllKnown hs allKnown_nil fun detected item s _ hs hdetected => ?_
  unfold detectFeedChange
  cases targetUrl items item with
  | none => exact yields_ret hs hdetected
  | some url =>
    have hitem : Tagged subscribed (detectItem ctx summaryAsDiffPreview url item)
        (fun found => AllKnown found.toList) s := by
      refine yields_bind (yields_query (M := fun _ _ => True) hs fun _ _ _ => trivial)
        fun previous s hs _ _ => ?_
      refine yields_bind (upsertTarget_untagged _ s hs) fun target s hs _ _ => ?_
      refine yields_bind (setTargetLastChecked_untagged _ _ s hs) fun _ s hs _ _ => ?_
      exact detectOnTarget_tagged hs _ _ _ _
    refine yields_bind hitem fun found s' hs hkept hfound => ?_
    refine yields_ret hs fun d hd => ?_
    rcases List.mem_append.mp hd with hd | hd
    · exact hdetected.kept hkept d hd
    · exact hfound d hd

end Detect

/-! ### Enrich and Classify -/

section Classify

variable {items : ItemTools}

/-- The title says nothing of the tags. -/
private theorem enrichRow_tagged (hs : s.Regular subscribed) (row : ChangeRow) :
    Tagged subscribed (enrichRow items row)
      (fun enriched _ => enriched.id = row.id ∧ enriched.tags = row.tags) s := by
  have hfetch : Untagged subscribed (fetchTitleForUrl items row.targetUrl) :=
    untagged_of_frames (fetchTitleForUrl_frames items _)
  refine yields_bind (hfetch s hs) fun title s hs _ _ => ?_
  cases title with
  | none => exact yields_ret hs ⟨rfl, rfl⟩
  | some title =>
    have hupdate : Untagged subscribed (updateChangeTitle row.id title) :=
      abides_call fun _ _ => tagsKept_updateChange (fun _ => rfl) fun _ _ htags => htags
    exact yields_bind (hupdate s hs) fun _ s hs _ _ => yields_ret hs ⟨rfl, rfl⟩

private theorem enrichDetectedChanges_tagged (hs : s.Regular subscribed) (used : Nat)
    {detected : List DetectedChange} (hdetected : AllKnown detected s) :
    Tagged subscribed (enrichDetectedChanges items used detected) (fun st => AllKnown st.done) s := by
  refine Yields.mono (yields_foldlM (fun st store => AllKnown st.done store ∧ AllKnown detected store)
    hs ⟨allKnown_nil, hdetected⟩ fun st d s hd hs hknown => ?_) fun _ _ h => h.1
  obtain ⟨hdone, hdetected⟩ := hknown
  unfold enrichDetectedChange
  split
  · exact yields_ret hs ⟨hdone.snoc (hdetected d hd), hdetected⟩
  · have hrow : Tagged subscribed (Prog.tryCatch (enrichRow items d.row) (.ret d.row))
        (fun enriched _ => enriched.id = d.row.id ∧ enriched.tags = d.row.tags) s :=
      yields_tryCatch (enrichRow_tagged hs d.row) fun _ hs _ => yields_ret hs ⟨rfl, rfl⟩
    refine yields_bind hrow fun enriched s' hs hkept hsame => ?_
    refine yields_ret hs ⟨(hdone.kept hkept).snoc fun tags htags => ?_, hdetected.kept hkept⟩
    have hknown := (hdetected d hd).kept hkept tags (hsame.2 ▸ htags)
    exact hsame.1 ▸ hknown

/-- The answer is what is stored. -/
private theorem setChangeTagsIfNull_tagged (hs : s.Regular subscribed) (id : ChangeId)
    (tags : List String) :
    Tagged subscribed (setChangeTagsIfNull id tags)
      (fun answer store => ∀ stored, answer = some stored → tagsOf store id = some stored) s := by
  refine yields_bind (yields_call (M := fun written store => written = true →
    tagsOf store id = some tags) hs (fun _ _ _ => tagsKept_tagIfNull id tags)
    fun found _ _ hwritten => ?_) fun written s hs _ hwritten => ?_
  · cases hrow : found.changes id with
    | none =>
      rw [hrow] at hwritten
      contradiction
    | some row =>
      have hnull : row.tags = none := by simpa [hrow] using hwritten
      simp [tagsOf, Store.updateChange, hrow, tagIfNull, hnull]
  · cases written with
    | true =>
      refine yields_ret hs fun stored hstored => ?_
      cases hstored
      exact hwritten rfl
    | false => exact yields_query hs fun _ _ _ _ hstored => hstored

private theorem classifyDetectedChanges_tagged (hs : s.Regular subscribed) (ctx : CheckContext)
    {detected : List DetectedChange} (hdetected : AllKnown detected s) :
    Tagged subscribed (classifyDetectedChanges items ctx detected) AllKnown s := by
  unfold classifyDetectedChanges
  cases ctx.source.config.bind SourceConfig.classify with
  | none => exact yields_ret hs hdetected
  | some classify =>
    refine Yields.mono (yields_foldlM (fun done store => AllKnown done store ∧ AllKnown detected store)
      hs ⟨allKnown_nil, hdetected⟩ fun done d s hd hs hknown => ?_) fun _ _ h => h.1
    obtain ⟨hdone, hdetected⟩ := hknown
    unfold classifyDetectedChange
    split
    · exact yields_ret hs ⟨hdone.snoc (hdetected d hd), hdetected⟩
    · refine yields_bind (yields_tryCatch (setChangeTagsIfNull_tagged hs d.row.id _)
        fun _ hs _ => yields_ret hs nofun) fun answer s' hs hkept hstored => ?_
      exact yields_ret hs ⟨(hdone.kept hkept).snoc hstored, hdetected.kept hkept⟩

end Classify

/-! ### Notify -/

section Notify

variable {ctx : CheckContext}

/-- The subscriptions that fan-out goes through. -/
def AllAdmitted (subscribed : SubscriptionRow → Prop) (id : ChangeId) (subs : List SubscriptionRow)
    (store : Store) : Prop := ∀ sub ∈ subs, subscribed sub ∧ sub.Admits store id

private theorem matching_admitted {change : ChangeRow} (hs : s.Regular subscribed)
    (hknown : change.Known s) :
    AllAdmitted subscribed change.id (matchingSubscriptions (fanoutMatch ctx change) s) s := by
  intro sub hsub
  obtain ⟨hmem, hmatches⟩ := List.mem_filter.mp hsub
  refine ⟨hs.subscriptions sub hmem, fun tag htag => ?_⟩
  obtain ⟨⟨_, htags⟩, _⟩ : (_ ∧ sub.tag.all (fanoutMatch ctx change).tags.contains = true) ∧ _ := by
    simpa [SubscriptionRow.matches] using hmatches
  have hcontains : tag ∈ change.tags.getD [] := by simpa [htag, fanoutMatch] using htags
  cases htags : change.tags with
  | none =>
    rw [htags] at hcontains
    contradiction
  | some tags =>
    rw [htags] at hcontains
    exact ⟨tags, hknown tags htags, hcontains⟩

private theorem fanoutChange_untagged {change : ChangeRow} (hs : s.Regular subscribed)
    (hknown : change.Known s) :
    Tagged subscribed (fanoutChange ctx change) (fun _ _ => True) s := by
  refine yields_bind (yields_query (M := AllAdmitted subscribed change.id) hs fun found hfound hkept =>
    matching_admitted hfound (hknown.kept hkept)) fun subs s hs _ hadmitted => ?_
  refine Yields.mono (yields_forM (AllAdmitted subscribed change.id subs) hs hadmitted
    fun sub s hsub hs hadmitted => ?_) fun _ _ _ => trivial
  have hinsert : Tagged subscribed (createDeliveryIfNew change.id sub.destinationId)
      (fun _ _ => True) s := by
    refine yields_bind (yields_call (M := fun _ _ => True) hs (fun found _ hkept => ?_)
      fun _ _ _ => trivial) fun inserted s hs _ _ => ?_
    · obtain ⟨hsubscribed, hadmits⟩ := hadmitted sub hsub
      exact tagsKept_insertDelivery hsubscribed rfl (hadmits.kept hkept)
    · cases inserted with
      | true => exact yields_ret hs trivial
      | false =>
        refine yields_bind (yields_query (M := fun _ _ => True) hs fun _ _ _ => trivial)
          fun existing s hs _ _ => ?_
        cases existing with
        | none => exact hs
        | some row => exact yields_ret hs trivial
  refine yields_bind hinsert fun delivery s' hs hkept _ => ?_
  have hstill : AllAdmitted subscribed change.id subs s' := fun sub hsub =>
    ⟨(hadmitted sub hsub).1, (hadmitted sub hsub).2.kept hkept⟩
  split
  · have hsend : Untagged subscribed (queueSend delivery.row.id) :=
      untagged_of_frames (frames_call.mpr fun _ => rfl)
    refine Yields.mono (hsend s' hs).kept fun _ s'' hsent => ?_
    exact fun sub hsub => ⟨(hstill sub hsub).1, (hstill sub hsub).2.kept hsent.2⟩
  · exact yields_ret hs hstill

private theorem notifyDetectedChanges_untagged (hs : s.Regular subscribed) (changeIds : List ChangeId)
    {detected : List DetectedChange} (hdetected : AllKnown detected s) :
    Tagged subscribed (notifyDetectedChanges ctx changeIds detected) (fun _ _ => True) s := by
  refine Yields.mono (yields_foldlM (fun _ => AllKnown detected) hs hdetected
    fun changeIds d s hd hs hdetected => ?_) fun _ _ _ => trivial
  refine yields_bind (fanoutChange_untagged hs (hdetected d hd)) fun _ s' hs hkept _ => ?_
  cases d.watermarkAdvance with
  | none => exact yields_ret hs (hdetected.kept hkept)
  | some advance =>
    refine yields_bind (setTargetLastKnownUpdatedAt_untagged _ _ s' hs) fun _ s'' hs hkept' _ => ?_
    exact yields_ret hs ((hdetected.kept hkept).kept hkept')

end Notify

/-- What a check does to tags and deliveries keeps to the agreement. -/
theorem tagParts (subscribed : SubscriptionRow → Prop) (items : ItemTools) :
    CheckParts items fun α (p : Prog Site Store α) => Untagged subscribed p where
  closed := abides_closed
  quiet _ _ _ h := abides_call fun store _ => .of_findings (h store)
  upsertTarget := upsertTarget_untagged
  setTargetLastChecked := setTargetLastChecked_untagged
  setTargetLastKnownUpdatedAt := setTargetLastKnownUpdatedAt_untagged
  processFeedItems ctx progress list maxItems summaryAsDiffPreview s hs := by
    refine yields_bind (detectFeedChanges_tagged hs _ _ _) fun detected s hs _ hdetected => ?_
    have hstages : Tagged subscribed (processDetected items ctx progress detected)
        (fun _ _ => True) s := by
      refine yields_bind (enrichDetectedChanges_tagged hs _ hdetected)
        fun enriched s hs _ hdone => ?_
      refine yields_bind (classifyDetectedChanges_tagged hs ctx hdone)
        fun classified s hs _ hclassified => ?_
      refine yields_bind (notifyDetectedChanges_untagged hs _ hclassified) fun _ s hs _ _ => ?_
      exact yields_ret hs trivial
    exact yields_bind hstages fun _ s hs _ _ => yields_ret hs trivial
  recordChange ctx row unifiedDiff hrow s hs := by
    refine yields_bind (insertChangeIfNew_tagged hs hrow) fun inserted s hs _ hknown => ?_
    split
    · have hput : Untagged subscribed (putDiff row.id unifiedDiff) :=
        untagged_of_frames (frames_call.mpr fun _ => rfl)
      refine yields_bind (hput s hs) fun _ s' hs hkept _ => ?_
      exact notifyDetectedChanges_untagged hs _ (allKnown_singleton (hknown.kept hkept))
    · exact notifyDetectedChanges_untagged hs _ (allKnown_singleton hknown)

end Stages

/-! ## Overlapping checks -/

section Runs

variable {κ : Type} [DecidableEq κ] {subscribed : SubscriptionRow → Prop}

private theorem regions_abide : CheckParts.JudgesRegions
    (fun α (p : Prog Site Store α) => Untagged subscribed p)
    fun α (p : RunProg α) => p.Abides (tagAgreement subscribed) where
  closed := abides_closed
  region _ _ h := abides_relabel h

omit [DecidableEq κ] in
theorem overlap_abides : (overlap κ subscribed).Abide (tagAgreement subscribed) where
  prog _ task _ := abides_closed.bind ((tagParts subscribed task.items).check regions_abide
    task.tools task.source task.world task.monitorId) fun _ => abides_closed.ret _
  init _ hinit := ⟨hinit.1, hinit.2⟩
  enter _ _ _ := (tagAgreement subscribed).refl _
  others s s' h _ := by
    refine ⟨fun hs => ⟨h.changes ▸ hs.ids, h.subscriptions⟩, fun id tags htags => ?_,
      fun id hnone hsome => absurd (h.deliveries id hnone) hsome⟩
    unfold tagsOf at htags ⊢
    rwa [h.changes]

/-- However checks of a monitor overlap, throw, are killed and run again: the tags of a change that
has some stay as they are, and each delivery that was inserted is for a destination with a
subscription that has no tag or one of the stored tags. -/
theorem fanout_tagConsistent (subscribed : SubscriptionRow → Prop)
    (es newer : List (PoolEvent κ RunSite Store CheckTask)) (pool pool' : Pool κ RunSite Store) :
    (poolSystem (overlap κ subscribed)).Run anyStep es pool →
    (poolSystem (overlap κ subscribed)).Steps anyStep es pool newer pool' →
      (∀ id tags, tagsOf pool.shared id = some tags → tagsOf pool'.shared id = some tags) ∧
      ∀ id, pool.shared.deliveries id = none → pool'.shared.deliveries id ≠ none →
        ∃ sub, subscribed sub ∧ sub.destinationId = id.destinationId ∧
          (sub.tag = none ∨ ∃ tag tags, sub.tag = some tag ∧
            tagsOf pool'.shared id.changeId = some tags ∧ tag ∈ tags) := by
  intro hrun hsteps
  have hkept := overlap_abides.keeps hrun hsteps
  refine ⟨hkept.tags, fun id hnone hsome => ?_⟩
  obtain ⟨sub, hsub, hdestination, hadmits⟩ := hkept.deliveries id hnone hsome
  refine ⟨sub, hsub, hdestination, ?_⟩
  cases htag : sub.tag with
  | none => exact Or.inl rfl
  | some tag =>
    obtain ⟨tags, htags, hmem⟩ := hadmits tag htag
    exact Or.inr ⟨tag, tags, rfl, htags, hmem⟩

end Runs

/-! ## Two checks with different rules -/

private def tagRule (tag : String) : Option ClassifyConfig :=
  some ⟨[⟨tag, "url", ".", none⟩], none⟩

private def tagSubscriptions : List SubscriptionRow :=
  [⟨1, none, none, some "a", none⟩, ⟨2, none, none, some "b", none⟩, ⟨3, none, none, none, none⟩]

private def entryChange : ChangeId := ⟨1, "k"⟩

/-- Both checks have found the change without tags. -/
private def bothUntagged : List (Move Bool CheckTask) :=
  undisturbed true 6 ++ undisturbed false 3 ++ undisturbed true 19 ++
    [.start true (entryTask .manual 2000 "2024-01-01T00:00:00.000Z" (tagRule "b"))] ++
    undisturbed false 19 ++
    [.start false (entryTask .scheduled 1000 "2024-01-01T00:00:00.000Z" (tagRule "a"))]

/-- The first check is killed once its tags are written, and the second one goes on. -/
private def killedTagged : List (Move Bool CheckTask) :=
  undisturbed true 7 ++ [.call false .killAfter]

private def entryFanout (played : List (CheckEvent Bool) × CheckPool Bool) :
    Option (List String) × List DestinationId :=
  (tagsOf played.2.shared entryChange,
    [1, 2, 3].filter fun id => (played.2.shared.deliveries ⟨entryChange, id⟩).isSome)

/-- The second check computes other tags and delivers by the stored ones. -/
theorem fanout_tagConsistent_rules : ∃ es newer pool pool',
    (poolSystem (overlap Bool (· ∈ tagSubscriptions))).Run anyStep es pool ∧
    (poolSystem (overlap Bool (· ∈ tagSubscriptions))).Steps anyStep es pool newer pool' ∧
      pool.shared.deliveries ⟨entryChange, 1⟩ = none ∧
      pool'.shared.deliveries ⟨entryChange, 1⟩ ≠ none ∧
      ∃ sub ∈ tagSubscriptions, sub.destinationId = 1 ∧
        (sub.tag = none ∨ ∃ tag tags, sub.tag = some tag ∧
          tagsOf pool'.shared entryChange = some tags ∧ tag ∈ tags) := by
  obtain ⟨es, pool, newer, pool', hrun, hsteps, hbefore, hafter⟩ := exists_steps_of_play
    killedTagged bothUntagged (D := anyStep)
    (P := fun played => (played.2.shared.deliveries ⟨entryChange, 1⟩).isNone)
    (Q := fun played => entryFanout played == (some ["a"], [1, 3]) &&
      (played.2.shared.deliveries ⟨entryChange, 1⟩).isSome)
    (entryPool_init tagSubscriptions fun _ h => h) (fun _ _ _ => trivial) (by decide +kernel)
    (by decide +kernel)
  have hnone := Option.isNone_iff_eq_none.mp hbefore
  have hsome := Option.isSome_iff_ne_none.mp ((Bool.and_eq_true _ _).mp hafter).2
  obtain ⟨_, hdeliveries⟩ := fanout_tagConsistent (· ∈ tagSubscriptions) es newer pool pool' hrun hsteps
  exact ⟨es, newer, pool, pool', hrun, hsteps, hnone, hsome, hdeliveries _ hnone hsome⟩

end Utsuroi

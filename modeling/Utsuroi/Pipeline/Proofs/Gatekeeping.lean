import Mathlib.Tactic
import Utsuroi.Pipeline.Gatekeeping

/-!
# No fetch without its gate
-/

namespace Utsuroi

open Async Prog

/-- The call fetches nothing and asks nothing about a URL. -/
def Site.plain : Site → Bool
  | .fetchPage _ | .fetchTarget _ | .resolveAndCheck _ | .getRobotsMode _ | .checkRobots _ _ => false
  | _ => true

/-- A part of a check without such calls. -/
abbrev Plain {α : Type} (p : Prog Site Store α) : Prop := p.Calls fun site => site.plain = true

/-! ## Parts without a fetch -/

section Plain

theorem insertChangeIfNew_plain (row : ChangeRow) : Plain (insertChangeIfNew row) := by
  refine calls_bind (calls_call rfl) fun inserted => ?_
  cases inserted with
  | true => trivial
  | false =>
    refine calls_bind (calls_query rfl) fun existing => ?_
    cases existing <;> trivial

theorem upsertTarget_plain (input : CreateTargetInput) : Plain (upsertTarget input) := by
  unfold upsertTarget
  refine calls_bind (calls_call rfl) fun inserted => ?_
  cases inserted with
  | true => trivial
  | false =>
    simp only [Bool.false_eq_true, if_false]
    cases input.lastKnownUpdatedAt with
    | none =>
      refine calls_bind (calls_query rfl) fun existing => ?_
      cases existing <;> trivial
    | some lastKnownUpdatedAt =>
      refine calls_bind (calls_call rfl) fun _ => calls_bind (calls_query rfl) fun existing => ?_
      cases existing <;> trivial

private theorem createDeliveryIfNew_plain (changeId : ChangeId) (destinationId : DestinationId) :
    Plain (createDeliveryIfNew changeId destinationId) := by
  refine calls_bind (calls_call rfl) fun inserted => ?_
  cases inserted with
  | true => trivial
  | false =>
    refine calls_bind (calls_query rfl) fun existing => ?_
    cases existing <;> trivial

theorem notifyDetectedChanges_plain (ctx : CheckContext) (changeIds : List ChangeId)
    (detected : List DetectedChange) : Plain (notifyDetectedChanges ctx changeIds detected) := by
  have hfanout : ∀ change, Plain (fanoutChange ctx change) := by
    intro change
    refine calls_bind (calls_query rfl) fun subs => ?_
    apply calls_forM
    intro sub
    refine calls_bind (createDeliveryIfNew_plain _ _) fun delivery => ?_
    split
    · exact calls_call rfl
    · trivial
  apply calls_foldlM
  intro changeIds d
  refine calls_bind (hfanout d.row) fun _ => ?_
  cases d.watermarkAdvance with
  | none => trivial
  | some advance => exact calls_bind (calls_call rfl) fun _ => trivial

private theorem classifyDetectedChanges_plain (tools : ItemTools) (ctx : CheckContext)
    (detected : List DetectedChange) : Plain (classifyDetectedChanges tools ctx detected) := by
  have hset : ∀ id tags, Plain (setChangeTagsIfNull id tags) := by
    intro id tags
    refine calls_bind (calls_call rfl) fun written => ?_
    cases written with
    | true => trivial
    | false => exact calls_query rfl
  unfold classifyDetectedChanges
  cases ctx.source.config.bind SourceConfig.classify with
  | none => trivial
  | some classify =>
    apply calls_foldlM
    intro done d
    unfold classifyDetectedChange
    split
    · trivial
    · exact calls_bind (calls_tryCatch (hset _ _) trivial) fun _ => trivial

private theorem detectFeedChanges_plain (tools : ItemTools) (ctx : CheckContext)
    (summaryAsDiffPreview : Bool) (maxItems : Nat) (items : List FeedItem) :
    Plain (detectFeedChanges tools ctx summaryAsDiffPreview maxItems items) := by
  have htarget : ∀ previous target item,
      Plain (detectOnTarget ctx summaryAsDiffPreview previous target item) := by
    intro previous target item
    unfold detectOnTarget
    split
    · trivial
    split
    · exact calls_bind (insertChangeIfNew_plain _) fun _ => trivial
    split
    · trivial
    · exact calls_bind (insertChangeIfNew_plain _) fun _ => trivial
  apply calls_foldlM
  intro detected item
  unfold detectFeedChange
  cases targetUrl tools item with
  | none => trivial
  | some url =>
    refine calls_bind ?_ fun _ => trivial
    refine calls_bind (calls_query rfl) fun previous => ?_
    refine calls_bind (upsertTarget_plain _) fun target => ?_
    exact calls_bind (calls_call rfl) fun _ => htarget _ _ _

theorem putIfAbsent_plain (present : Store → Bool) (put : Store → Store) :
    Plain (putIfAbsent present put) := by
  refine calls_bind (calls_query rfl) fun existing => ?_
  cases existing with
  | false => exact calls_call rfl
  | true => trivial

private theorem storeDocument_plain (rawHash : Hash) (body : List UInt8) (textHash : Hash)
    (text : String) (row : SnapshotRow) : Plain (storeDocument rawHash body textHash text row) := by
  refine calls_bind (putIfAbsent_plain _ _) fun _ => ?_
  refine calls_bind (putIfAbsent_plain _ _) fun _ => ?_
  exact calls_call rfl

private theorem recordChange_plain (ctx : CheckContext) (row : ChangeRow) (unifiedDiff : String) :
    Plain (recordChange ctx row unifiedDiff) := by
  refine calls_bind (insertChangeIfNew_plain row) fun inserted => ?_
  split
  · exact calls_bind (calls_call rfl) fun _ => notifyDetectedChanges_plain _ _ _
  · exact notifyDetectedChanges_plain _ _ _

private theorem getNormalized_plain (hash : Option Hash) : Plain (getNormalized hash) := by
  cases hash with
  | none => trivial
  | some hash => exact calls_query rfl

theorem processPageContent_plain (tools : ContentTools) (ctx : CheckContext) (target : TargetRow)
    (previousSnapshot : Option SnapshotRow) (outcome : FetchSuccess) (body : List UInt8) :
    Plain (processPageContent tools ctx target previousSnapshot outcome body) := by
  refine calls_bind (storeDocument_plain _ _ _ _ _) fun snapshotId => ?_
  cases previousSnapshot with
  | none => trivial
  | some previousSnapshot =>
    dsimp only
    split
    · trivial
    · exact calls_bind (getNormalized_plain _) fun _ => recordChange_plain _ _ _

theorem processSitemapDirect_plain (tools : ContentTools) (ctx : CheckContext)
    (target : TargetRow) (previousSnapshot : Option SnapshotRow) (outcome : FetchSuccess)
    (body : List UInt8) :
    Plain (processSitemapDirect tools ctx target previousSnapshot outcome body) := by
  unfold processSitemapDirect
  cases tools.parseSource body outcome.headerCharset with
  | none => trivial
  | some items =>
    refine calls_bind (storeDocument_plain _ _ _ _ _) fun snapshotId => ?_
    cases previousSnapshot with
    | none => trivial
    | some previousSnapshot =>
      dsimp only
      split
      · trivial
      split
      · trivial
      refine calls_bind (getNormalized_plain _) fun previousDocument => ?_
      split
      · trivial
      · exact recordChange_plain _ _ _

end Plain

/-! ## Parts with a fetch -/

section Gate

variable {items : ItemTools} {source : Url} {child : Url → Prop} {maxFetchesPerCheck : Nat}

theorem ignores_plain {site : Site} (h : site.plain = true) :
    (requestGate items source child maxFetchesPerCheck).Ignores site := by
  intro m
  cases site <;> first | contradiction | exact ⟨rfl, trivial⟩

theorem Plain.obeys {α : Type} {p : Prog Site Store α} (h : Plain p)
    {Q : α → GateMemory → Prop} {T : GateMemory → Prop} {m : GateMemory} (hret : ∀ a, Q a m)
    (hthrown : T m) : p.Obeys (requestGate items source child maxFetchesPerCheck) Q T m :=
  Calls.obeys (h.mono fun _ => ignores_plain) hret hthrown

private theorem robots_pass {decision : RobotsDecision} {robotsMode : RobotsMode}
    (h : ¬(!decision.allowed && robotsMode == .enforce) = true) :
    decision.allowed = true ∨ robotsMode = .ignore := by
  cases robotsMode with
  | enforce => exact Or.inl (by simpa using h)
  | ignore => exact Or.inr rfl

/-- The number of fetches is what it was, wherever the part ends. -/
abbrev KeepsFetches {α : Type} (items : ItemTools) (source : Url) (child : Url → Prop)
    (maxFetchesPerCheck : Nat) (p : Prog Site Store α) : Prop :=
  ∀ m : GateMemory, p.Obeys (requestGate items source child maxFetchesPerCheck)
    (fun _ m' => m'.fetches = m.fetches) (fun m' => m'.fetches = m.fetches) m

theorem Plain.keepsFetches {α : Type} {p : Prog Site Store α} (h : Plain p) :
    KeepsFetches items source child maxFetchesPerCheck p :=
  fun _ => h.obeys (fun _ => rfl) rfl

theorem keepsFetches_bind {α β : Type} {p : Prog Site Store α} {f : α → Prog Site Store β}
    (hp : KeepsFetches items source child maxFetchesPerCheck p)
    (hf : ∀ a, KeepsFetches items source child maxFetchesPerCheck (f a)) :
    KeepsFetches items source child maxFetchesPerCheck (p >>= f) :=
  fun m => obeys_bind (hp m) fun a m' hm' =>
    (hf a m').mono (fun _ _ h => h.trans hm') fun _ h => h.trans hm'

theorem keepsFetches_foldlM {β γ : Type} {xs : List β} {body : γ → β → Prog Site Store γ}
    {acc : γ} (h : ∀ acc x, KeepsFetches items source child maxFetchesPerCheck (body acc x)) :
    KeepsFetches items source child maxFetchesPerCheck (xs.foldlM body acc) :=
  fun m => obeys_foldlM (fun _ m' => m'.fetches = m.fetches) rfl fun acc x m' _ hm' =>
    (h acc x m').mono (fun _ _ h => h.trans hm') fun _ h => h.trans hm'

theorem keepsFetches_tryCatch {α : Type} {p handler : Prog Site Store α}
    (hp : KeepsFetches items source child maxFetchesPerCheck p)
    (hhandler : KeepsFetches items source child maxFetchesPerCheck handler) :
    KeepsFetches items source child maxFetchesPerCheck (p.tryCatch handler) :=
  fun m => obeys_tryCatch (hp m) fun m' hm' =>
    (hhandler m').mono (fun _ _ h => h.trans hm') fun _ h => h.trans hm'

/-- A title is fetched only through the gate. -/
private theorem fetchTitleForUrl_keepsFetches (url : Url) :
    KeepsFetches items source child maxFetchesPerCheck (fetchTitleForUrl items url) := by
  have htitle : ∀ page, Plain (titleOf items page) := by
    intro page
    unfold titleOf
    cases page.body with
    | none => trivial
    | some body =>
      dsimp only
      split
      · trivial
      · exact calls_query rfl
  intro m
  unfold fetchTitleForUrl
  split
  · rfl
  next hssrf =>
  refine obeys_ask trivial rfl ?_
  split
  · rfl
  next hresolved =>
  split
  · rfl
  next origin horigin =>
  have hasked : items.ssrfAllowed url = true ∧ items.origin url = some origin :=
    ⟨by simpa using hssrf, horigin⟩
  refine obeys_ask trivial rfl ?_
  refine obeys_ask hasked rfl ?_
  split
  · rfl
  next hrobots =>
  have hpassed : GatePassed items ⟨some url, some origin, some (origin, url), m.fetches⟩ url :=
    { ssrf := by simpa using hssrf
      asked := rfl
      resolved := by simpa using hresolved
      robots := ⟨origin, horigin, rfl, rfl, robots_pass hrobots⟩ }
  refine obeys_ask hpassed rfl ?_
  cases items.fetchPage url with
  | none => rfl
  | some page => exact (htitle page).obeys (fun _ => rfl) rfl

theorem processFeedItems_keepsFetches (ctx : CheckContext) (progress : CheckProgress)
    (list : List FeedItem) (maxItems : Nat) (summaryAsDiffPreview : Bool) :
    KeepsFetches items source child maxFetchesPerCheck
      (processFeedItems items ctx progress list maxItems summaryAsDiffPreview) := by
  have hrow : ∀ row, KeepsFetches items source child maxFetchesPerCheck (enrichRow items row) := by
    intro row
    refine keepsFetches_bind (fetchTitleForUrl_keepsFetches _) fun title => ?_
    cases title with
    | none => exact fun _ => rfl
    | some title =>
      have hplain : Plain (do
          updateChangeTitle row.id title
          return { row with title := some title }) := calls_bind (calls_call rfl) fun _ => trivial
      exact hplain.keepsFetches
  have henrich : ∀ used detected, KeepsFetches items source child maxFetchesPerCheck
      (enrichDetectedChanges items used detected) := by
    intro used detected
    apply keepsFetches_foldlM
    intro st d
    unfold enrichDetectedChange
    split
    · exact fun _ => rfl
    · exact keepsFetches_bind (keepsFetches_tryCatch (hrow _) fun _ => rfl) fun _ _ => rfl
  refine keepsFetches_bind (detectFeedChanges_plain items ctx _ _ _).keepsFetches fun detected => ?_
  refine keepsFetches_bind ?_ fun _ _ => rfl
  refine keepsFetches_bind (henrich _ _) fun enriched => ?_
  refine keepsFetches_bind (classifyDetectedChanges_plain items ctx _).keepsFetches fun _ => ?_
  exact keepsFetches_bind (notifyDetectedChanges_plain ctx _ _).keepsFetches fun _ _ => rfl

end Gate

/-! ## The traversal -/

section Traversal

variable {items : ItemTools} {ctx : CheckContext} {source : Url} {maxFetchesPerCheck : Nat}
  {root : AdapterParseResult}

/-- The traversal counts its fetches; the source's own was the first. -/
def Counted (maxFetchesPerCheck : Nat) (st : TraversalState) (m : GateMemory) : Prop :=
  m.fetches = 1 + st.counts.fetchesUsed ∧ st.counts.fetchesUsed ≤ maxFetchesPerCheck

/-- A part of the traversal that obeys the gate and keeps the count. -/
abbrev Traverses (items : ItemTools) (ctx : CheckContext) (source : Url)
    (maxFetchesPerCheck : Nat) (root : AdapterParseResult) (p : Prog Site Store TraversalState)
    (m : GateMemory) : Prop :=
  p.Obeys (requestGate items source (FetchableChild items ctx root) maxFetchesPerCheck)
    (Counted maxFetchesPerCheck) (fun _ => True) m

private theorem advanceChild_traverses {id : TargetId} {lastmod : String} {st : TraversalState}
    {m : GateMemory} (hm : Counted maxFetchesPerCheck st m) :
    Traverses items ctx source maxFetchesPerCheck root (advanceChild id lastmod st) m :=
  ⟨trivial, fun _ => hm, trivial⟩

private theorem expandUrlset_traverses {id : TargetId} {lastmod : String} {list : List FeedItem}
    {st : TraversalState} {m : GateMemory} (hm : Counted maxFetchesPerCheck st m) :
    Traverses items ctx source maxFetchesPerCheck root
      (expandUrlset items ctx (cutoffOf ctx) id lastmod list st) m := by
  unfold expandUrlset
  dsimp only
  split
  · exact advanceChild_traverses hm
  · refine obeys_bind ((processFeedItems_keepsFetches ctx _ _ _ _ m).mono (fun _ _ h => h)
      fun _ _ => trivial) fun result m' hm' => ?_
    have hcounted : m'.fetches = 1 + st.counts.fetchesUsed := Eq.trans hm' hm.1
    split
    · exact ⟨hcounted, hm.2⟩
    · exact advanceChild_traverses ⟨hcounted, hm.2⟩

variable {depth : Nat} {parsed : AdapterParseResult}

private theorem eligibleChild_some {cutoffIso : String} {entry : ChildEntry}
    {child : SelectedChildEntry} (h : eligibleChild items ctx cutoffIso entry = some child) :
    tooOld cutoffIso child.lastmod = false ∧ excluded items ctx child.loc = false := by
  unfold eligibleChild at h
  cases hlastmod : entry.lastmod with
  | none =>
    rw [hlastmod] at h
    contradiction
  | some lastmod =>
    rw [hlastmod] at h
    dsimp only at h
    split at h
    · contradiction
    next hnot =>
      obtain rfl := Option.some.inj h
      simpa using hnot

/-- What the selection and the check of the origin let through. -/
private theorem fetchable_of_within {child : SelectedChildEntry}
    (hparsed : IndexAt items ctx root depth parsed) (hdepth : depth < max 1 (maxDepthOf ctx))
    (hchild : child ∈ childrenToProcess items ctx (cutoffOf ctx) parsed)
    (hwithin : isWithinSiteOrigin items ctx child.loc = true) :
    FetchableChild items ctx root child.loc := by
  have hselected : child ∈ (childEntries parsed.items).filterMap
      (eligibleChild items ctx (cutoffOf ctx)) :=
    List.mem_mergeSort.mp (List.mem_of_mem_take hchild)
  obtain ⟨entry, _, heligible⟩ := List.mem_filterMap.mp hselected
  obtain ⟨hnew, hpattern⟩ := eligibleChild_some heligible
  refine ⟨depth, parsed, child.lastmod, hparsed, hdepth, hchild, hnew, ?_, ?_⟩
  · simpa [excluded, Classical.or_iff_not_imp_left] using hpattern
  · unfold isWithinSiteOrigin at hwithin
    cases hprimary : ctx.site.primaryOrigin with
    | none => simp [hprimary] at hwithin
    | some primaryOrigin =>
      simp only [hprimary, Bool.and_eq_true] at hwithin
      cases horigin : items.origin child.loc with
      | none => simp [horigin] at hwithin
      | some origin =>
        cases hsite : items.origin primaryOrigin with
        | none => simp [horigin, hsite] at hwithin
        | some siteOrigin =>
          have heq : origin = siteOrigin := by simpa [horigin, hsite] using hwithin.2
          exact ⟨origin, primaryOrigin, rfl, rfl, heq ▸ hsite⟩

variable {nested : Nested}
  (hnested : ∀ traverse, nested = some traverse → depth + 1 < maxDepthOf ctx ∧
    ∀ parsed', IndexAt items ctx root (depth + 1) parsed' → ∀ st m,
      Counted maxFetchesPerCheck st m →
        Traverses items ctx source maxFetchesPerCheck root (traverse parsed' st) m)
  (hparsed : IndexAt items ctx root depth parsed) (hdepth : depth < max 1 (maxDepthOf ctx))
include hnested

private theorem expandIndex_traverses {id : TargetId} {lastmod : String}
    {parsed' : AdapterParseResult} {st : TraversalState} {m : GateMemory}
    (hm : Counted maxFetchesPerCheck st m)
    (hindex : depth + 1 < maxDepthOf ctx → IndexAt items ctx root (depth + 1) parsed') :
    Traverses items ctx source maxFetchesPerCheck root
      (expandIndex nested id lastmod parsed' st) m := by
  unfold expandIndex
  cases hcase : nested with
  | none => exact hm
  | some traverse =>
    obtain ⟨hlt, htraverse⟩ := hnested traverse hcase
    refine obeys_bind (htraverse parsed' (hindex hlt) st m hm) fun st' m' hm' => ?_
    split
    · exact hm'
    · exact advanceChild_traverses hm'

include hparsed

private theorem processChildBody_traverses {id : TargetId} {child : SelectedChildEntry}
    (hchild : child ∈ childrenToProcess items ctx (cutoffOf ctx) parsed) {nth : Nat}
    {etag lastModified : Option String} {st : TraversalState} {m : GateMemory}
    (hm : Counted maxFetchesPerCheck st m) :
    Traverses items ctx source maxFetchesPerCheck root
      (processChildBody items ctx (cutoffOf ctx) nested id child
        (items.fetchTarget nth child.loc etag lastModified) st) m := by
  cases hfetched : items.fetchTarget nth child.loc etag lastModified with
  | failure failureClass retryAfterSeconds => exact hm
  | success result notModified body =>
    refine ⟨trivial, fun _ => ?_, trivial⟩
    change Traverses items ctx source maxFetchesPerCheck root _ m
    cases notModified with
    | true => exact hm
    | false =>
      cases body with
      | none => exact hm
      | some body =>
        dsimp only
        cases hbody : items.parseSource .sitemap child.loc body result.headerCharset with
        | none => exact hm
        | some parsed' =>
          dsimp only
          unfold expandChild
          split
          · exact expandUrlset_traverses hm
          · exact expandIndex_traverses hnested hm fun hlt =>
              .nested hparsed hchild hfetched hbody hlt

private theorem fetchChild_traverses {id : TargetId} {child : SelectedChildEntry}
    (hchild : child ∈ childrenToProcess items ctx (cutoffOf ctx) parsed)
    (hfetchable : FetchableChild items ctx root child.loc) {st : TraversalState} {m : GateMemory}
    (hm : Counted maxFetchesPerCheck st m) (hpassed : GatePassed items m child.loc) :
    Traverses items ctx source maxFetchesPerCheck root
      (fetchChild items ctx (cutoffOf ctx) maxFetchesPerCheck nested id child st) m := by
  unfold fetchChild
  split
  · exact hm
  next hbudget =>
  have hlatest : Plain (getLatestSnapshotForTarget id) := calls_query rfl
  refine obeys_bind (hlatest.obeys (Q := fun _ m' => m' = m) (fun _ => rfl) trivial) ?_
  rintro latest m' rfl
  have hlt : st.counts.fetchesUsed < maxFetchesPerCheck := Nat.lt_of_not_le hbudget
  have hfetches : m'.fetches = 1 + st.counts.fetchesUsed := hm.1
  refine obeys_ask ⟨hpassed, Or.inr ⟨by omega, by omega, hfetchable⟩⟩ trivial ?_
  apply processChildBody_traverses hnested hparsed hchild
  constructor
  · change m'.fetches + 1 = 1 + (st.counts.fetchesUsed + 1)
    omega
  · exact hlt

private theorem visitChild_traverses {id : TargetId} {child : SelectedChildEntry}
    (hchild : child ∈ childrenToProcess items ctx (cutoffOf ctx) parsed)
    (hfetchable : FetchableChild items ctx root child.loc) {st : TraversalState} {m : GateMemory}
    (hm : Counted maxFetchesPerCheck st m) :
    Traverses items ctx source maxFetchesPerCheck root
      (visitChild items ctx (cutoffOf ctx) maxFetchesPerCheck nested id child st) m := by
  unfold visitChild
  split
  · exact hm
  next hssrf =>
  refine obeys_ask trivial trivial ?_
  split
  · exact hm
  next hresolved =>
  split
  · exact hm
  next origin horigin =>
  have hasked : items.ssrfAllowed child.loc = true ∧ items.origin child.loc = some origin :=
    ⟨by simpa using hssrf, horigin⟩
  refine obeys_ask trivial trivial (obeys_ask hasked trivial ?_)
  split
  · exact hm
  next hrobots =>
  refine fetchChild_traverses hnested hparsed hchild hfetchable ?_ ?_
  · exact hm
  · exact
      { ssrf := by simpa using hssrf
        asked := rfl
        resolved := by simpa using hresolved
        robots := ⟨origin, horigin, rfl, rfl, robots_pass hrobots⟩ }

include hdepth

private theorem traverseChild_traverses {child : SelectedChildEntry}
    (hchild : child ∈ childrenToProcess items ctx (cutoffOf ctx) parsed)
    {st : TraversalState} {m : GateMemory} (hm : Counted maxFetchesPerCheck st m) :
    Traverses items ctx source maxFetchesPerCheck root
      (traverseChild items ctx (cutoffOf ctx) maxFetchesPerCheck nested st child) m := by
  unfold traverseChild
  split
  · exact hm
  next hwithin =>
  have hfetchable : FetchableChild items ctx root child.loc :=
    fetchable_of_within hparsed hdepth hchild (by simpa using hwithin)
  have hwatermark : Plain (getExistingTargetWatermark ⟨ctx.monitor.id, child.loc⟩) :=
    calls_query rfl
  refine obeys_bind (hwatermark.obeys (Q := fun _ m' => m' = m) (fun _ => rfl) trivial) ?_
  rintro previous m' rfl
  refine obeys_bind ((upsertTarget_plain _).obeys (Q := fun _ m => m = m') (fun _ => rfl) trivial) ?_
  rintro target m rfl
  split
  · exact ⟨trivial, fun _ => hm, trivial⟩
  · exact visitChild_traverses hnested hparsed hchild hfetchable hm

private theorem traverseChildren_traverses {st : TraversalState} {m : GateMemory}
    (hm : Counted maxFetchesPerCheck st m) :
    Traverses items ctx source maxFetchesPerCheck root
      (traverseChildren items ctx (cutoffOf ctx) maxFetchesPerCheck nested parsed st) m := by
  apply obeys_foldlM
  · exact hm
  · intro st child m hchild hm
    exact traverseChild_traverses hnested hparsed hdepth hchild hm

omit hnested hparsed hdepth

/-- The recursion: `levels` below the depth are left. -/
private theorem traverseSitemapIndex_traverses {levels : Nat}
    (hlevels : maxDepthOf ctx - 1 = depth + levels) (hparsed : IndexAt items ctx root depth parsed)
    {st : TraversalState} {m : GateMemory} (hm : Counted maxFetchesPerCheck st m) :
    Traverses items ctx source maxFetchesPerCheck root
      (traverseSitemapIndex items ctx (cutoffOf ctx) maxFetchesPerCheck levels parsed st) m := by
  have hdepth : depth < max 1 (maxDepthOf ctx) := by omega
  induction levels generalizing depth parsed st m with
  | zero =>
    refine traverseChildren_traverses ?_ hparsed hdepth hm
    intro traverse htraverse
    contradiction
  | succ levels ih =>
    refine traverseChildren_traverses ?_ hparsed hdepth hm
    intro traverse htraverse
    obtain rfl := Option.some.inj htraverse
    refine ⟨by omega, fun parsed' hparsed' st m hm => ?_⟩
    exact ih (by omega) hparsed' hm (by omega)

/-- From the fetch of the source document on, a traversal obeys the gate. -/
theorem processSitemapTraversal_obeys (target : TargetRow) (outcome : FetchSuccess)
    (body : List UInt8) {child : Url → Prop} {m : GateMemory} (hm : m.fetches = 1)
    (hchild : ∀ root url, items.parseSource ctx.source.type ctx.source.url body
      outcome.headerCharset = some root → FetchableChild items ctx root url → child url) :
    (processSitemapTraversal items ctx maxFetchesPerCheck target outcome body).Obeys
      (requestGate items source child maxFetchesPerCheck) (fun _ _ => True) (fun _ => True) m := by
  have hinit : Counted maxFetchesPerCheck ⟨newCounts, newProgress⟩ m := ⟨hm, Nat.zero_le _⟩
  have hsource : ∀ root, items.parseSource ctx.source.type ctx.source.url body
      outcome.headerCharset = some root →
      (traverseSource items ctx maxFetchesPerCheck root).Obeys
        (requestGate items source child maxFetchesPerCheck) (fun _ _ => True) (fun _ => True) m := by
    intro root hroot
    unfold traverseSource
    dsimp only
    split
    · split
      · trivial
      · refine obeys_bind ((processFeedItems_keepsFetches ctx _ _ _ _ m).mono (fun _ _ h => h)
          fun _ _ => trivial) fun _ _ _ => trivial
    · have htraverse : Traverses items ctx source maxFetchesPerCheck root
          (traverseSitemapIndex items ctx (cutoffOf ctx) maxFetchesPerCheck (maxDepthOf ctx - 1)
            root ⟨newCounts, newProgress⟩) m :=
        traverseSitemapIndex_traverses (Nat.zero_add _).symm .root hinit
      refine (htraverse.lax ?_).mono (fun _ _ _ => trivial) fun _ h => h
      intro site m hadmits
      cases site with
      | fetchTarget url =>
        obtain ⟨hpassed, hfirst | ⟨hone, hle, hfetchable⟩⟩ := hadmits
        · exact ⟨hpassed, Or.inl hfirst⟩
        · exact ⟨hpassed, Or.inr ⟨hone, hle, hchild root url hroot hfetchable⟩⟩
      | _ => exact hadmits
  unfold processSitemapTraversal
  refine obeys_bind ((putIfAbsent_plain _ _).obeys (Q := fun _ m' => m' = m) (fun _ => rfl)
    trivial) ?_
  rintro _ m' rfl
  split
  · trivial
  next root hroot =>
  have hsnapshot : Plain (createSnapshot (feedSnapshot ctx target.id outcome
      (items.sha256Bytes body))) := calls_call rfl
  refine obeys_bind (hsnapshot.obeys (Q := fun _ m => m = m') (fun _ => rfl) trivial) ?_
  rintro _ m rfl
  refine obeys_bind (hsource root hroot) fun st _ _ => ?_
  have hrecord : Plain (recordTruncationIfAny st.counts) := by
    unfold recordTruncationIfAny
    split
    · trivial
    · exact calls_query rfl
  exact obeys_bind (hrecord.obeys (Q := fun _ _ => True) (fun _ => trivial) trivial)
    fun _ _ _ => trivial

end Traversal

/-! ## A whole check -/

section Check

variable {items : ItemTools} {tools : ContentTools} {source : SourceRow} {world : CheckWorld}
  {maxFetchesPerCheck : Nat}

/-- The gate of a check of `source`. -/
abbrev sourceGate (items : ItemTools) (source : SourceRow) (world : CheckWorld) :
    Guard Site GateMemory :=
  checkGate items source.url (CheckedChild items source world.site world.now)
    MAX_TRAVERSAL_FETCHES_PER_CHECK

/-- The same, with robots.txt asked only about URLs that may be requested. -/
abbrev sourceRequests (items : ItemTools) (source : SourceRow) (world : CheckWorld) :
    Guard Site GateMemory :=
  requestGate items source.url (CheckedChild items source world.site world.now)
    MAX_TRAVERSAL_FETCHES_PER_CHECK

/-- What a document is handed to obeys the gate. -/
private theorem resolveContentProcessor_obeys {ctx : CheckContext} (hsource : ctx.source = source)
    (hsite : world.site = some ctx.site) (hnow : ctx.now = world.now) {input : ContentInput}
    {etag lastModified : Option String} (hfetched : items.fetchTarget 0 source.url etag
      lastModified = .success input.outcome false (some input.body))
    {m : GateMemory} (hm : m.fetches = 1) :
    (resolveContentProcessor items tools ctx input).prog.Obeys (sourceRequests items source world)
      (fun _ _ => True) (fun _ => True) m := by
  have hids : ∀ {p : Prog Site Store CheckProgress},
      p.Obeys (sourceRequests items source world) (fun _ _ => True) (fun _ => True) m →
        (changeIdsOf p).Obeys (sourceRequests items source world) (fun _ _ => True) (fun _ => True) m :=
    fun hp => obeys_bind hp fun _ _ _ => trivial
  have hkeeps : ∀ {p : Prog Site Store CheckProgress},
      KeepsFetches items source.url (CheckedChild items source world.site world.now)
        MAX_TRAVERSAL_FETCHES_PER_CHECK p →
        (changeIdsOf p).Obeys (sourceRequests items source world) (fun _ _ => True) (fun _ => True) m :=
    fun hp => hids ((hp m).mono (fun _ _ _ => trivial) fun _ _ => trivial)
  have hsnapshot : ∀ row, Plain (createSnapshot row) := fun _ => calls_call rfl
  unfold resolveContentProcessor
  cases resolveRecipeKey ctx.source with
  | pageContent => exact (processPageContent_plain _ _ _ _ _ _).obeys (fun _ => trivial) trivial
  | sitemapDirect => exact (processSitemapDirect_plain _ _ _ _ _ _).obeys (fun _ => trivial) trivial
  | pageExtract =>
    apply hkeeps
    unfold processPageItems
    split
    · exact fun _ => rfl
    next extract _ =>
    have hextract : Plain (Prog.query .extractItems fun _ =>
        items.extractItems extract input.outcome input.body) := calls_query rfl
    refine keepsFetches_bind hextract.keepsFetches fun extracted => ?_
    refine keepsFetches_bind (processFeedItems_keepsFetches _ _ _ _ _) fun result => ?_
    exact keepsFetches_bind (hsnapshot _).keepsFetches fun _ _ => rfl
  | feed =>
    apply hkeeps
    refine keepsFetches_bind (putIfAbsent_plain _ _).keepsFetches fun _ => ?_
    split
    · exact fun _ => rfl
    refine keepsFetches_bind (hsnapshot _).keepsFetches fun _ => ?_
    exact keepsFetches_bind (processFeedItems_keepsFetches _ _ _ _ _) fun _ _ => rfl
  | sitemapTraverse =>
    apply hids
    apply processSitemapTraversal_obeys input.target input.outcome input.body hm
    intro root url hroot hfetchable
    exact ⟨ctx, etag, lastModified, input.outcome, input.body, hsource, hsite, hnow, hfetched, root,
      hroot, hfetchable⟩

/-- The parts of a run that fetch nothing. -/
private abbrev RunPlain {α : Type} (p : RunProg α) : Prop :=
  p.Calls fun site => site.site.plain = true

private theorem inRegion_plain {α : Type} {p : Prog Site Store α} (h : Plain p) (region : Region) :
    RunPlain (inRegion region p) :=
  calls_relabel h

/-- A part of a run that obeys the gate. -/
private abbrev RunObeys {α : Type} (items : ItemTools) (source : SourceRow) (world : CheckWorld)
    (p : RunProg α) (m : GateMemory) : Prop :=
  p.Obeys ((sourceRequests items source world).comap RunSite.site) (fun _ _ => True) (fun _ => True) m

private theorem RunPlain.obeys {α : Type} {p : RunProg α} (h : RunPlain p)
    {Q : α → GateMemory → Prop} {m : GateMemory} (hret : ∀ a, Q a m) :
    p.Obeys ((sourceRequests items source world).comap RunSite.site) Q (fun _ => True) m := by
  have hignores : ∀ site : RunSite, site.site.plain = true →
      ((sourceRequests items source world).comap RunSite.site).Ignores site :=
    fun _ hplain => ignores_plain hplain
  exact Calls.obeys (h.mono hignores) hret trivial

private theorem obeys_regionAsk {α β : Type} {region : Region} {site : Site} {a : α}
    {f : α → RunProg β} {Q : β → GateMemory → Prop} {m : GateMemory}
    (hadmits : (sourceRequests items source world).admits site m)
    (hf : (f a).Obeys ((sourceRequests items source world).comap RunSite.site) Q (fun _ => True)
      (noteCall site m)) :
    (inRegion region (.query site fun _ => a) >>= f).Obeys
      ((sourceRequests items source world).comap RunSite.site) Q (fun _ => True) m :=
  ⟨hadmits, fun _ => hf, trivial⟩

private theorem finishJob_plain (monitor : MonitorRow) (job : CheckJobId) (status : FinishStatus)
    (changeIds : List ChangeId) : RunPlain (finishJob world monitor job status changeIds) := by
  refine calls_bind (calls_call rfl) fun _ => ?_
  refine calls_bind (calls_call rfl) fun _ => ?_
  exact calls_bind (calls_call rfl) fun _ => trivial

private theorem fetchAndProcess_obeys {ctx : CheckContext} (hsource : ctx.source = source)
    (hsite : world.site = some ctx.site) (hnow : ctx.now = world.now) (target : TargetRow)
    (latestSnapshot : Option SnapshotRow) {m : GateMemory} (hm : m.fetches = 0)
    (hpassed : GatePassed items m source.url) :
    (fetchAndProcess (siteWorld items tools source world) ctx target latestSnapshot).Obeys
      (sourceRequests items source world) (fun _ _ => True) (fun _ => True) m := by
  refine obeys_ask ⟨hpassed, Or.inl ⟨hm, rfl⟩⟩ trivial ?_
  cases hfetched : items.fetchTarget 0 source.url (latestSnapshot.bind SnapshotRow.etag)
      (latestSnapshot.bind SnapshotRow.lastModified) with
  | failure failureClass retryAfterSeconds => trivial
  | success result notModified body =>
    have hchecked : Plain (setTargetLastChecked target.id
      (siteWorld items tools source world).checkedNow) := calls_call rfl
    refine obeys_bind (hchecked.obeys (Q := fun _ m' => m'.fetches = 1) (fun _ => ?_) trivial)
      fun _ m' hm' => ?_
    · exact congrArg (· + 1) hm
    cases notModified with
    | true => trivial
    | false =>
      cases body with
      | none => trivial
      | some body =>
        exact obeys_bind (resolveContentProcessor_obeys hsource hsite hnow hfetched hm')
          fun _ _ _ => trivial

private theorem checkUnderLease_obeys {ctx : CheckContext} (hsource : ctx.source = source)
    (hsite : world.site = some ctx.site) (hnow : ctx.now = world.now) (job : CheckJobId)
    (target : TargetRow) (latestSnapshot : Option SnapshotRow) {m : GateMemory}
    (hm : m.fetches = 0) (hpassed : GatePassed items m source.url) :
    RunObeys items source world (checkUnderLease (siteWorld items tools source world) ctx job target
      latestSnapshot) m := by
  refine obeys_tryFinally ?_ fun m _ => ⟨trivial, fun _ => trivial, trivial⟩
  refine obeys_bind (Q := fun _ _ => True) ?_ fun outcome m _ =>
    (finishJob_plain _ _ _ _).obeys fun _ => trivial
  refine obeys_tryCatch (M := fun _ => True) ?_ fun m _ => ?_
  · exact obeys_relabel.mpr
      (fetchAndProcess_obeys hsource hsite hnow target latestSnapshot hm hpassed)
  · refine obeys_bind (Q := fun _ _ => True) ((finishJob_plain _ _ _ _).obeys fun _ => trivial) ?_
    exact fun _ _ _ => trivial

private theorem acquireAndCheck_obeys {ctx : CheckContext} (hsource : ctx.source = source)
    (hsite : world.site = some ctx.site) (hnow : ctx.now = world.now) (job : CheckJobId)
    (target : TargetRow) {m : GateMemory} (hm : m.fetches = 0)
    (hpassed : GatePassed items m source.url) :
    RunObeys items source world (acquireAndCheck (siteWorld items tools source world) ctx job
      target) m := by
  have hacquire : RunPlain (inRegion .unguarded (.query .acquire fun _ =>
      (siteWorld items tools source world).lease)) := calls_query rfl
  have hdefer : RunPlain (inRegion .deferring (updateCheckJobStatus job .pending)) :=
    calls_call rfl
  have hlatest : RunPlain (inRegion .unguarded (getLatestSnapshotForTarget target.id)) :=
    calls_query rfl
  unfold acquireAndCheck
  refine obeys_bind (hacquire.obeys (Q := fun _ m' => m' = m) fun _ => rfl) ?_
  rintro lease m' rfl
  split
  · exact obeys_bind (hdefer.obeys (Q := fun _ _ => True) fun _ => trivial) fun _ _ _ => trivial
  refine obeys_bind (hlatest.obeys (Q := fun _ m => m = m') fun _ => rfl) ?_
  rintro latestSnapshot m rfl
  exact checkUnderLease_obeys hsource hsite hnow job target latestSnapshot hm hpassed

private theorem checkRobotsAndHost_obeys {ctx : CheckContext} (hsource : ctx.source = source)
    (hsite : world.site = some ctx.site) (hnow : ctx.now = world.now) (job : CheckJobId)
    (target : TargetRow) {m : GateMemory} (hm : m.fetches = 0)
    (hasked : m.resolved = some source.url) {origin : String}
    (horigin : items.origin source.url = some origin) (hssrf : items.ssrfAllowed source.url = true)
    (hresolved : items.resolvedAllowed source.url = true) :
    RunObeys items source world (checkRobotsAndHost (siteWorld items tools source world) ctx job
      target) m := by
  have hworld : (siteWorld items tools source world).origin = origin := by
    simp [siteWorld, horigin]
  have hmode : (siteWorld items tools source world).robotsMode = items.robotsMode origin := by
    simp [siteWorld, horigin]
  have hrobots : (siteWorld items tools source world).robots = items.robots origin source.url := by
    simp [siteWorld, horigin]
  unfold checkRobotsAndHost
  rw [hworld, hmode, hrobots, hsource]
  refine obeys_regionAsk trivial (obeys_regionAsk ⟨hssrf, horigin⟩ ?_)
  have hevaluation : RunPlain (inRegion .unguarded (createRobotsEvaluation
      ⟨origin, (items.robots origin source.url).fetchedAt,
        (items.robots origin source.url).unavailable⟩)) := calls_call rfl
  refine obeys_bind (hevaluation.obeys (Q := fun _ m' => m' = ⟨m.resolved, some origin,
    some (origin, source.url), m.fetches⟩) fun _ => rfl) ?_
  rintro evaluationId m' rfl
  split
  · have hcount : RunPlain (consecutiveUnavailable (siteWorld items tools source world)
        (items.robots origin source.url)) := by
      unfold consecutiveUnavailable
      split
      · exact calls_query rfl
      · trivial
    refine RunPlain.obeys (calls_bind hcount fun count => calls_bind (calls_query rfl) fun _ => ?_)
      fun _ => trivial
    split
    · exact finishJob_plain _ _ _ _
    · exact calls_bind (calls_call rfl) fun _ => calls_bind (calls_call rfl) fun _ => trivial
  next hpass =>
  have hpassed : GatePassed items ⟨m.resolved, some origin, some (origin, source.url), m.fetches⟩
      source.url :=
    { ssrf := hssrf
      asked := hasked
      resolved := hresolved
      robots := ⟨origin, horigin, rfl, rfl, robots_pass hpass⟩ }
  exact acquireAndCheck_obeys hsource hsite hnow job target hm hpassed

private theorem checkSource_obeys {ctx : CheckContext} (hsource : ctx.source = source)
    (hsite : world.site = some ctx.site) (hnow : ctx.now = world.now) (job : CheckJobId)
    {m : GateMemory} (hm : m.fetches = 0) :
    RunObeys items source world (checkSource (siteWorld items tools source world) ctx job) m := by
  unfold checkSource
  refine obeys_bind (RunPlain.obeys (inRegion_plain (upsertTarget_plain _) _)
    (Q := fun _ m' => m' = m) fun _ => rfl) ?_
  rintro target m' rfl
  have hrefused : RunPlain (do
      inRegion .unguarded createCheckAttempt
      finishJob (siteWorld items tools source world) ctx.monitor job .failed []) :=
    calls_bind (calls_query rfl) fun _ => finishJob_plain _ _ _ _
  unfold ssrfAllowed
  split
  next hstatic =>
    refine obeys_regionAsk trivial ?_
    split
    · exact hrefused.obeys fun _ => trivial
    next hresolved =>
    have hboth : items.ssrfAllowed source.url = true ∧ (items.origin source.url).isSome = true := by
      simpa [siteWorld] using hstatic
    obtain ⟨origin, horigin⟩ := Option.isSome_iff_exists.mp hboth.2
    refine checkRobotsAndHost_obeys hsource hsite hnow job target hm (congrArg some ?_) horigin
      hboth.1 (by simpa [siteWorld] using hresolved)
    rw [hsource]
  · exact hrefused.obeys fun _ => trivial

/-- A check obeys its gate from the first call on. -/
theorem runMonitorCheck_obeys (monitorId : MonitorId) :
    RunObeys items source world (runMonitorCheck (siteWorld items tools source world) monitorId)
      newGateMemory := by
  have hkeep : ∀ {α : Type} {p : RunProg α} {β : Type} {f : α → RunProg β}, RunPlain p →
      (∀ a, RunObeys items source world (f a) newGateMemory) →
        RunObeys items source world (p >>= f) newGateMemory := by
    intro α p β f hp hf
    refine obeys_bind (hp.obeys (Q := fun _ m => m = newGateMemory) fun _ => rfl) ?_
    rintro a m rfl
    exact hf a
  unfold runMonitorCheck
  refine hkeep (calls_query rfl) fun monitor => ?_
  cases monitor with
  | none => trivial
  | some monitor =>
    change RunObeys items source world (ite _ _ _) newGateMemory
    split
    · trivial
    refine obeys_regionAsk trivial ?_
    refine obeys_regionAsk trivial ?_
    cases hsite : (siteWorld items tools source world).site with
    | none => trivial
    | some site =>
      refine obeys_regionAsk trivial ?_
      cases (siteWorld items tools source world).policy with
      | none => trivial
      | some policy =>
        have hcreate : ∀ id trigger, RunPlain (inRegion .loading (createCheckJobIfNew id trigger)) := by
          intro id trigger
          refine inRegion_plain (calls_bind (calls_call rfl) fun inserted => ?_) _
          cases inserted with
          | true => trivial
          | false =>
            refine calls_bind (calls_query rfl) fun existing => ?_
            cases existing <;> trivial
        have hpolicy : RunPlain (orThrow (some policy)) := trivial
        refine hkeep hpolicy fun _ => hkeep (hcreate _ _) fun jobResult => ?_
        split
        · trivial
        refine hkeep (calls_call rfl) fun _ => ?_
        refine checkSource_obeys ?_ ?_ ?_ _ ?_
        · rfl
        · exact hsite
        · rfl
        · rfl

/-- In every check, whatever is thrown or cut off: a document or a title is fetched only where its
URL has passed the gate just before.  The first document is the source, the others are at most
`MAX_TRAVERSAL_FETCHES_PER_CHECK` children.  Any bound on them is kept, and an index is traversed
only at a depth below its bound. -/
theorem fetches_gated (items : ItemTools) (tools : ContentTools) (source : SourceRow)
    (world : CheckWorld) (monitorId : MonitorId) (faults : List Fault) (store : Store) :
    (∀ newer call past, ((runMonitorCheck (siteWorld items tools source world) monitorId).exec
        faults [] store).log = newer ++ call :: past →
      (sourceGate items source world).admits call.site.site
        (((sourceGate items source world).comap RunSite.site).noted newGateMemory past)) ∧
    (∀ ctx maxFetchesPerCheck target outcome body newer call past,
      ((processSitemapTraversal items ctx maxFetchesPerCheck target outcome body).exec faults []
        store).log = newer ++ call :: past →
      let gate := checkGate items ctx.source.url (SourceChild items ctx outcome body)
        maxFetchesPerCheck
      gate.admits call.site (gate.noted { newGateMemory with fetches := 1 } past)) ∧
    ∀ ctx cutoffIso maxFetchesPerCheck maxDepth,
      traverseSitemapIndex items ctx cutoffIso maxFetchesPerCheck (maxDepth - 1) =
        traverseAtDepth items ctx cutoffIso maxFetchesPerCheck maxDepth
          ⟨0, lt_max_of_lt_left Nat.one_pos⟩ := by
  refine ⟨?_, ?_, ?_⟩
  · have hobeys : (runMonitorCheck (siteWorld items tools source world) monitorId).Obeys
        ((sourceGate items source world).comap RunSite.site) (fun _ _ => True) (fun _ => True)
        newGateMemory :=
      (runMonitorCheck_obeys monitorId).lax fun _ _ => checkGate_of_requestGate
    exact hobeys.log faults store
  · intro ctx maxFetchesPerCheck target outcome body
    have hobeys : (processSitemapTraversal items ctx maxFetchesPerCheck target outcome body).Obeys
        (requestGate items ctx.source.url (SourceChild items ctx outcome body) maxFetchesPerCheck)
        (fun _ _ => True) (fun _ => True) { newGateMemory with fetches := 1 } :=
      processSitemapTraversal_obeys target outcome body rfl fun root url hroot hfetchable =>
        ⟨root, hroot, hfetchable⟩
    have hgate : (processSitemapTraversal items ctx maxFetchesPerCheck target outcome body).Obeys
        (checkGate items ctx.source.url (SourceChild items ctx outcome body) maxFetchesPerCheck)
        (fun _ _ => True) (fun _ => True) { newGateMemory with fetches := 1 } :=
      hobeys.lax fun _ _ => checkGate_of_requestGate
    exact hgate.log faults store
  · intro ctx cutoffIso maxFetchesPerCheck maxDepth
    exact (traverseAtDepth_eq items ctx cutoffIso maxFetchesPerCheck maxDepth
      ⟨0, lt_max_of_lt_left Nat.one_pos⟩).symm

end Check

end Utsuroi

import Mathlib.Data.List.Perm.Subperm
import Utsuroi.Db.FetcherPolicies

/-!
# Policies come back as they were put

Both validators accept the policies whose order list arranges the allow list.  The rows of a policy
are the only ones under its id, and their positions give the order back.
-/

namespace Utsuroi.FetcherPolicies

/-! ## The validators -/

theorem validateFetcherPolicy_ok_iff (policy : FetcherPolicy) :
    validateFetcherPolicy policy = .ok () ↔ policy.WellFormed := by
  constructor
  · intro h
    simp only [validateFetcherPolicy] at h
    split at h
    · cases h
    · next hallowed =>
        split at h
        · cases h
        · next hdistinct =>
            split at h
            · cases h
            · next horder =>
                split at h
                · cases h
                · next hmatch =>
                    have hallow := (dedup_length_iff _).mp (not_not.mp hdistinct)
                    have hids := (dedup_length_iff _).mp (not_not.mp horder)
                    rw [hids.dedup, hallow.dedup, Bool.or_eq_true, not_or] at hmatch
                    have hlength := not_not.mp (decide_eq_true_iff.not.mp hmatch.1)
                    have hmem : ∀ id ∈ policy.orderList.map FetcherPolicyEntry.fetcherId,
                        id ∈ policy.allowList := by
                      intro id hid
                      by_contra hout
                      exact hmatch.2 (List.any_eq_true.mpr ⟨id, hid, by simpa using hout⟩)
                    exact ⟨fun hnil => hallowed (List.length_eq_zero_iff.mpr hnil), hallow,
                      (hids.subperm hmem).perm_of_length_le (Nat.le_of_eq hlength.symm)⟩
  · intro h
    have horder := h.arranged.nodup_iff.mpr h.distinct
    have hallowed : policy.allowList.length ≠ 0 :=
      fun hzero => h.allowed (List.length_eq_zero_iff.mp hzero)
    have hmatch : ((policy.orderList.map FetcherPolicyEntry.fetcherId).any
        fun id => !policy.allowList.contains id) = false := by
      rw [List.any_eq_false]
      intro id hid
      simpa using h.arranged.mem_iff.mp hid
    simp only [validateFetcherPolicy, horder.dedup, h.distinct.dedup, h.arranged.length_eq, hmatch]
    rw [if_neg hallowed]
    simp

theorem validators_agree (policy : FetcherPolicy) :
    (Utsuroi.validateFetcherPolicy policy).valid = true ↔ validateFetcherPolicy policy = .ok () :=
  (validateFetcherPolicy_valid_iff policy).trans (validateFetcherPolicy_ok_iff policy).symm

/-! ## Rows -/

theorem parseJson_toJson (value : Option Json) : parseJson (toJson value) = value.getD .null := by
  cases value with
  | none => rfl
  | some json => simp [parseJson, toJson, Json.parse_text]

theorem readProceedOn_proceedOnJson (failures : List FailureClass) :
    readProceedOn (proceedOnJson failures) = some failures := by
  unfold readProceedOn proceedOnJson
  induction failures with
  | nil => rfl
  | cons failure failures ih =>
      simp only at ih ⊢
      rw [List.map_cons, List.mapM_cons, ih]
      simp

theorem readProceedOn_parseJson (proceedOn : Option (List FailureClass)) :
    readProceedOn (parseJson (toJson (proceedOn.map proceedOnJson))) = proceedOn := by
  rw [parseJson_toJson]
  cases proceedOn with
  | none => rfl
  | some failures => exact readProceedOn_proceedOnJson failures

section Rows

variable (policyId : String) (ids : Nat → String)

theorem entryRows_decode (index : Nat) (entries : List FetcherPolicyEntry) :
    (entryRows policyId ids index entries).map decodeEntry = entries := by
  induction entries generalizing index with
  | nil => rfl
  | cons entry entries ih =>
      rw [entryRows, List.map_cons, ih, decodeEntry, readProceedOn_parseJson]

theorem entryRows_policy (index : Nat) (entries : List FetcherPolicyEntry) :
    ∀ row ∈ entryRows policyId ids index entries, row.fetcherPolicyId = policyId := by
  induction entries generalizing index with
  | nil => simp [entryRows]
  | cons entry entries ih =>
      rw [entryRows, List.forall_mem_cons]
      exact ⟨rfl, ih (index + 1)⟩

theorem entryRows_fetchers (index : Nat) (entries : List FetcherPolicyEntry) :
    (entryRows policyId ids index entries).map PolicyEntryRow.fetcherId =
      entries.map FetcherPolicyEntry.fetcherId := by
  induction entries generalizing index with
  | nil => rfl
  | cons entry entries ih => rw [entryRows, List.map_cons, List.map_cons, ih]

theorem entryRows_positions (index : Nat) (entries : List FetcherPolicyEntry) :
    (entryRows policyId ids index entries).map PolicyEntryRow.orderIndex =
      List.range' index entries.length := by
  induction entries generalizing index with
  | nil => rfl
  | cons entry entries ih =>
      rw [entryRows, List.map_cons, ih, List.length_cons, List.range'_succ]

theorem entryRows_ids (index : Nat) (entries : List FetcherPolicyEntry) :
    (entryRows policyId ids index entries).map PolicyEntryRow.id =
      (List.range' index entries.length).map ids := by
  induction entries generalizing index with
  | nil => rfl
  | cons entry entries ih =>
      rw [entryRows, List.map_cons, ih, List.length_cons, List.range'_succ, List.map_cons]

/-- The rows stand in the order they are read in. -/
theorem entryRows_sorted (entries : List FetcherPolicyEntry) :
    (entryRows policyId ids 0 entries).mergeSort
        (fun a b => decide (a.orderIndex ≤ b.orderIndex)) =
      entryRows policyId ids 0 entries := by
  apply List.mergeSort_of_pairwise
  have hpositions : ((entryRows policyId ids 0 entries).map PolicyEntryRow.orderIndex).Pairwise
      (· < ·) := by
    rw [entryRows_positions]
    exact List.pairwise_lt_range'
  exact (List.pairwise_map.mp hpositions).imp fun h => decide_eq_true (Nat.le_of_lt h)

end Rows

/-! ## A put that is accepted -/

theorem runAll_insertEntries (rows : List PolicyEntryRow) (t : Tables) :
    Transaction.runAll Statement.apply (rows.map .insertEntry) t =
      { t with entries := t.entries ++ rows } := by
  induction rows generalizing t with
  | nil => simp [Transaction.runAll]
  | cons row rows ih =>
      have hrest := ih (Statement.apply (.insertEntry row) t)
      rw [List.map_cons, Transaction.runAll, List.foldl_cons]
      rw [Transaction.runAll] at hrest
      rw [hrest]
      simp [Statement.apply]

/-- The policy is read from the rows under its id. -/
theorem getFetcherPolicy_of_rows {t : Tables} {siteId : String} {policyRow : PolicyRow}
    {ids : Nat → String} {entries : List FetcherPolicyEntry}
    (hfind : findPolicy t siteId = some policyRow)
    (hrows : t.entries.filter (fun row => row.fetcherPolicyId == policyRow.id) =
      entryRows policyRow.id ids 0 entries) :
    getFetcherPolicy t siteId =
      some ⟨entries.map FetcherPolicyEntry.fetcherId, entries⟩ := by
  simp only [getFetcherPolicy, hfind, hrows]
  rw [entryRows_sorted, entryRows_decode]

theorem filter_entryRows (policyId : String) (ids : Nat → String)
    (entries : List FetcherPolicyEntry) :
    (entryRows policyId ids 0 entries).filter (fun row => row.fetcherPolicyId == policyId) =
      entryRows policyId ids 0 entries := by
  rw [List.filter_eq_self]
  intro row hrow
  exact beq_iff_eq.mpr (entryRows_policy policyId ids 0 entries row hrow)

theorem findPolicy_touched (env : Env) {t : Tables} {siteId : String} {policyRow : PolicyRow}
    (h : findPolicy t siteId = some policyRow) :
    ∃ touched, findPolicy (Statement.apply (.updatePolicy env.now policyRow.id) t) siteId =
      some touched ∧ touched.id = policyRow.id := by
  rw [findPolicy] at h
  refine ⟨{ policyRow with updatedAt := env.now }, ?_, rfl⟩
  rw [findPolicy, Statement.apply, List.find?_map]
  have hcomp : ((fun row : PolicyRow => row.siteId == siteId) ∘ fun row =>
      if row.id = policyRow.id then { row with updatedAt := env.now } else row) =
      fun row => row.siteId == siteId := by
    funext row
    simp only [Function.comp]
    split <;> rfl
  rw [hcomp, h]
  simp

theorem put_existing (env : Env) {t : Tables} {siteId : String} (policy : FetcherPolicy)
    {policyRow : PolicyRow} (h : findPolicy t siteId = some policyRow) :
    getFetcherPolicy (Transaction.runAll Statement.apply
      (putStatements env siteId policy (some policyRow)) t) siteId =
      some ⟨policy.orderList.map FetcherPolicyEntry.fetcherId, policy.orderList⟩ := by
  obtain ⟨touched, hfind, hid⟩ := findPolicy_touched env h
  rw [putStatements, Transaction.runAll, List.foldl_append]
  have hinserts := runAll_insertEntries (entryRows policyRow.id env.newIds 0 policy.orderList)
    (Statement.apply (.deleteEntries policyRow.id)
      (Statement.apply (.updatePolicy env.now policyRow.id) t))
  rw [Transaction.runAll] at hinserts
  rw [List.foldl_cons, List.foldl_cons, List.foldl_nil, hinserts]
  refine @getFetcherPolicy_of_rows _ siteId touched env.newIds policy.orderList ?_ ?_
  · exact hfind
  · rw [hid, List.filter_append, filter_entryRows]
    have hgone : (Statement.apply (.deleteEntries policyRow.id)
        (Statement.apply (.updatePolicy env.now policyRow.id) t)).entries.filter
          (fun row => row.fetcherPolicyId == policyRow.id) = [] := by
      rw [List.filter_eq_nil_iff]
      intro row hrow
      have hkept := (List.mem_filter.mp hrow).2
      simpa using hkept
    rw [hgone, List.nil_append]

theorem put_new (env : Env) {t : Tables} (hconsistent : Consistent t) {siteId : String}
    (policy : FetcherPolicy) (h : findPolicy t siteId = none)
    (hfresh : env.newIds 0 ∉ t.policies.map PolicyRow.id) :
    getFetcherPolicy (Transaction.runAll Statement.apply
      (putStatements env siteId policy none) t) siteId =
      some ⟨policy.orderList.map FetcherPolicyEntry.fetcherId, policy.orderList⟩ := by
  have hinserts := runAll_insertEntries
    (entryRows (env.newIds 0) (fun index => env.newIds (index + 1)) 0 policy.orderList)
    (Statement.apply (.insertPolicy ⟨env.newIds 0, siteId, env.now, env.now⟩) t)
  rw [Transaction.runAll] at hinserts
  rw [putStatements, Transaction.runAll, List.foldl_cons, hinserts]
  have hfind : findPolicy
      (Statement.apply (.insertPolicy ⟨env.newIds 0, siteId, env.now, env.now⟩) t) siteId =
        some ⟨env.newIds 0, siteId, env.now, env.now⟩ := by
    rw [findPolicy] at h
    rw [findPolicy, Statement.apply, List.find?_append, h]
    simp
  refine @getFetcherPolicy_of_rows _ siteId ⟨env.newIds 0, siteId, env.now, env.now⟩
    (fun index => env.newIds (index + 1)) policy.orderList ?_ ?_
  · exact hfind
  · rw [List.filter_append, filter_entryRows]
    have hnone : (Statement.apply (.insertPolicy ⟨env.newIds 0, siteId, env.now, env.now⟩)
        t).entries.filter (fun row => row.fetcherPolicyId == env.newIds 0) = [] := by
      rw [List.filter_eq_nil_iff]
      intro row hrow heq
      exact hfresh (beq_iff_eq.mp heq ▸ hconsistent.entryPolicies row hrow)
    rw [hnone, List.nil_append]

/-! ## A put that succeeds -/

theorem Consistent.sublist {t : Tables} {few many : List PolicyEntryRow} (hsub : few.Sublist many)
    (h : Consistent { t with entries := many }) : Consistent { t with entries := few } where
  policyIds := h.policyIds
  policySites := h.policySites
  knownSites := h.knownSites
  entryIds := h.entryIds.sublist (hsub.map _)
  entryPolicies := fun row hrow => h.entryPolicies row (hsub.subset hrow)
  entryFetchers := fun row hrow => h.entryFetchers row (hsub.subset hrow)
  entryMembers := h.entryMembers.sublist (hsub.map _)
  entryPositions := h.entryPositions.sublist (hsub.map _)

/-- Rows go in one by one when they may all stand in the table. -/
theorem batch_insertEntries (rows : List PolicyEntryRow) {t : Tables}
    (h : Consistent { t with entries := t.entries ++ rows }) :
    Transaction.batch Statement.apply Consistent (rows.map .insertEntry) t =
      some { t with entries := t.entries ++ rows } := by
  induction rows generalizing t with
  | nil => simp [Transaction.batch]
  | cons row rows ih =>
      have hlist : t.entries ++ row :: rows = (t.entries ++ [row]) ++ rows := by simp
      rw [hlist] at h ⊢
      have hfirst : Consistent (Statement.apply (.insertEntry row) t) :=
        Consistent.sublist (List.sublist_append_left _ _) h
      rw [List.map_cons, Transaction.batch_cons_of_valid hfirst]
      exact ih h

/-- What a put that is not rejected finds. -/
structure Accepts (env : Env) (siteId : String) (policy : FetcherPolicy) (t : Tables) : Prop where
  online : env.online = true
  knownSite : siteId ∈ t.sites
  knownFetchers : ∀ id ∈ policy.allowList, id ∈ t.fetchers
  distinctIds : Function.Injective env.newIds
  freshPolicy : ∀ n, env.newIds n ∉ t.policies.map PolicyRow.id
  freshEntries : ∀ n, env.newIds n ∉ t.entries.map PolicyEntryRow.id

theorem nodup_under {policyId : String} {α : Type} {rows others : List PolicyEntryRow}
    {key : PolicyEntryRow → α} (hrows : (rows.map key).Nodup)
    (hunder : ∀ row ∈ rows, row.fetcherPolicyId = policyId)
    (hothers : (others.map fun row => (row.fetcherPolicyId, key row)).Nodup)
    (hnone : ∀ row ∈ others, row.fetcherPolicyId ≠ policyId) :
    ((others ++ rows).map fun row => (row.fetcherPolicyId, key row)).Nodup := by
  have hpairs : (rows.map fun row => (row.fetcherPolicyId, key row)).Nodup := by
    apply List.Nodup.of_map Prod.snd
    rw [List.map_map]
    exact hrows
  rw [List.map_append, List.nodup_append]
  refine ⟨hothers, hpairs, ?_⟩
  intro a ha b hb heq
  obtain ⟨other, hother, rfl⟩ := List.mem_map.mp ha
  obtain ⟨row, hrow, rfl⟩ := List.mem_map.mp hb
  exact hnone other hother ((Prod.mk.inj heq).1.trans (hunder row hrow))

/-- The rows of a policy may be added where none are left of it. -/
theorem consistent_entryRows {t : Tables} (h : Consistent t) {policy : FetcherPolicy}
    (hpolicy : policy.WellFormed) (hfetchers : ∀ id ∈ policy.allowList, id ∈ t.fetchers)
    {policyId : String} (hid : policyId ∈ t.policies.map PolicyRow.id)
    (hnone : ∀ row ∈ t.entries, row.fetcherPolicyId ≠ policyId)
    {ids : Nat → String} (hdistinct : Function.Injective ids)
    (hfresh : ∀ n, ids n ∉ t.entries.map PolicyEntryRow.id) :
    Consistent { t with entries := t.entries ++ entryRows policyId ids 0 policy.orderList } := by
  have hunder := entryRows_policy policyId ids 0 policy.orderList
  refine ⟨h.policyIds, h.policySites, h.knownSites, ?_, ?_, ?_, ?_, ?_⟩
  · rw [List.map_append, entryRows_ids, List.nodup_append]
    refine ⟨h.entryIds, List.Nodup.map hdistinct List.nodup_range', ?_⟩
    intro a ha b hb heq
    obtain ⟨n, -, rfl⟩ := List.mem_map.mp hb
    exact hfresh n (heq ▸ ha)
  · intro row hrow
    rcases List.mem_append.mp hrow with hold | hnew
    · exact h.entryPolicies row hold
    · rw [hunder row hnew]
      exact hid
  · intro row hrow
    rcases List.mem_append.mp hrow with hold | hnew
    · exact h.entryFetchers row hold
    · have hlisted : row.fetcherId ∈ policy.orderList.map FetcherPolicyEntry.fetcherId := by
        rw [← entryRows_fetchers policyId ids 0]
        exact List.mem_map_of_mem hnew
      exact hfetchers _ (hpolicy.arranged.mem_iff.mp hlisted)
  · apply nodup_under _ hunder h.entryMembers hnone
    rw [entryRows_fetchers]
    exact hpolicy.arranged.nodup_iff.mpr hpolicy.distinct
  · apply nodup_under _ hunder h.entryPositions hnone
    rw [entryRows_positions]
    exact List.nodup_range'

theorem consistent_updatePolicy {t : Tables} (h : Consistent t) (updatedAt id : String) :
    Consistent (Statement.apply (.updatePolicy updatedAt id) t) := by
  have hids : (Statement.apply (.updatePolicy updatedAt id) t).policies.map PolicyRow.id =
      t.policies.map PolicyRow.id := by
    rw [Statement.apply, List.map_map]
    apply List.map_congr_left
    intro row _
    simp only [Function.comp]
    split <;> rfl
  have hsites : (Statement.apply (.updatePolicy updatedAt id) t).policies.map PolicyRow.siteId =
      t.policies.map PolicyRow.siteId := by
    rw [Statement.apply, List.map_map]
    apply List.map_congr_left
    intro row _
    simp only [Function.comp]
    split <;> rfl
  refine ⟨hids ▸ h.policyIds, hsites ▸ h.policySites, ?_, h.entryIds, hids ▸ h.entryPolicies,
    h.entryFetchers, h.entryMembers, h.entryPositions⟩
  intro row hrow
  have hsite := List.mem_map_of_mem (f := PolicyRow.siteId) hrow
  rw [hsites] at hsite
  obtain ⟨old, hold, heq⟩ := List.mem_map.mp hsite
  exact heq ▸ h.knownSites old hold

theorem consistent_insertPolicy {t : Tables} (h : Consistent t) {row : PolicyRow}
    (hid : row.id ∉ t.policies.map PolicyRow.id) (hfree : findPolicy t row.siteId = none)
    (hsite : row.siteId ∈ t.sites) : Consistent (Statement.apply (.insertPolicy row) t) := by
  have hother : row.siteId ∉ t.policies.map PolicyRow.siteId := by
    intro hmem
    obtain ⟨old, hold, heq⟩ := List.mem_map.mp hmem
    exact List.find?_eq_none.mp hfree old hold (beq_iff_eq.mpr heq)
  refine ⟨?_, ?_, ?_, h.entryIds, ?_, h.entryFetchers, h.entryMembers, h.entryPositions⟩
  · rw [Statement.apply, List.map_append, List.map_singleton, ← List.concat_eq_append]
    exact h.policyIds.concat hid
  · rw [Statement.apply, List.map_append, List.map_singleton, ← List.concat_eq_append]
    exact h.policySites.concat hother
  · intro other hmem
    rcases List.mem_append.mp hmem with hold | hnew
    · exact h.knownSites other hold
    · rw [List.mem_singleton.mp hnew]
      exact hsite
  · intro entry hentry
    rw [Statement.apply, List.map_append]
    exact List.mem_append_left _ (h.entryPolicies entry hentry)

theorem batch_putStatements {env : Env} {siteId : String} {policy : FetcherPolicy} {t : Tables}
    (h : Consistent t) (hpolicy : policy.WellFormed) (haccepts : Accepts env siteId policy t) :
    (Transaction.batch Statement.apply Consistent
      (putStatements env siteId policy (findPolicy t siteId)) t).isSome = true := by
  cases hfind : findPolicy t siteId with
  | none =>
      have hinsert : Consistent
          (Statement.apply (.insertPolicy ⟨env.newIds 0, siteId, env.now, env.now⟩) t) :=
        consistent_insertPolicy h (haccepts.freshPolicy 0) hfind haccepts.knownSite
      have hnone : ∀ row ∈ t.entries, row.fetcherPolicyId ≠ env.newIds 0 := by
        intro row hrow heq
        exact haccepts.freshPolicy 0 (heq ▸ h.entryPolicies row hrow)
      have hids : Function.Injective fun index => env.newIds (index + 1) :=
        fun a b hab => Nat.succ.inj (haccepts.distinctIds hab)
      have hlisted : env.newIds 0 ∈ (Statement.apply (.insertPolicy
          ⟨env.newIds 0, siteId, env.now, env.now⟩) t).policies.map PolicyRow.id := by
        simp [Statement.apply]
      have hrows := consistent_entryRows hinsert hpolicy haccepts.knownFetchers hlisted hnone hids
        (fun n => haccepts.freshEntries (n + 1))
      rw [putStatements, Transaction.batch_cons_of_valid hinsert, batch_insertEntries _ hrows]
      rfl
  | some policyRow =>
      have hupdate := consistent_updatePolicy h env.now policyRow.id
      have hdelete : Consistent (Statement.apply (.deleteEntries policyRow.id)
          (Statement.apply (.updatePolicy env.now policyRow.id) t)) :=
        Consistent.sublist List.filter_sublist hupdate
      have hmem : policyRow.id ∈ (Statement.apply (.updatePolicy env.now policyRow.id)
          t).policies.map PolicyRow.id := by
        obtain ⟨touched, htouched, hid⟩ := findPolicy_touched env hfind
        rw [findPolicy] at htouched
        exact List.mem_map.mpr ⟨touched, List.mem_of_find?_eq_some htouched, hid⟩
      have hnone : ∀ row ∈ (Statement.apply (.deleteEntries policyRow.id)
          (Statement.apply (.updatePolicy env.now policyRow.id) t)).entries,
          row.fetcherPolicyId ≠ policyRow.id := by
        intro row hrow
        exact bne_iff_ne.mp (List.mem_filter.mp hrow).2
      have hfresh : ∀ n, env.newIds n ∉ (Statement.apply (.deleteEntries policyRow.id)
          (Statement.apply (.updatePolicy env.now policyRow.id) t)).entries.map
            PolicyEntryRow.id := by
        intro n hin
        exact haccepts.freshEntries n (List.filter_sublist.map _ |>.subset hin)
      have hrows := consistent_entryRows hdelete hpolicy haccepts.knownFetchers hmem hnone
        haccepts.distinctIds hfresh
      rw [putStatements, List.cons_append, List.cons_append, List.nil_append,
        Transaction.batch_cons_of_valid hupdate, Transaction.batch_cons_of_valid hdelete,
        batch_insertEntries _ hrows]
      rfl

/-! ## The round trip -/

theorem put_stored {env : Env} {siteId : String} {policy : FetcherPolicy} {t stored : Tables}
    (h : Consistent t)
    (hbatch : Transaction.batch Statement.apply Consistent
      (putStatements env siteId policy (findPolicy t siteId)) t = some stored) :
    getFetcherPolicy stored siteId =
      some ⟨policy.orderList.map FetcherPolicyEntry.fetcherId, policy.orderList⟩ := by
  rw [Transaction.batch_eq_runAll hbatch]
  cases hfind : findPolicy t siteId with
  | some policyRow => exact put_existing env policy hfind
  | none =>
      rw [hfind, putStatements, Transaction.batch] at hbatch
      split at hbatch
      · next hvalid =>
          have hids := hvalid.policyIds
          rw [Statement.apply, List.map_append, List.nodup_append] at hids
          have hfresh : env.newIds 0 ∉ t.policies.map PolicyRow.id :=
            fun hin => hids.2.2 _ hin _ (List.mem_singleton_self _) rfl
          exact put_new env h policy hfind hfresh
      · cases hbatch

theorem put_ok_iff {env : Env} {siteId : String} {policy : FetcherPolicy} {t : Tables} :
    (putFetcherPolicy env siteId policy t).1 = .ok () ↔
      policy.WellFormed ∧ env.online = true ∧
        Transaction.batch Statement.apply Consistent
          (putStatements env siteId policy (findPolicy t siteId)) t =
            some (putFetcherPolicy env siteId policy t).2 := by
  rw [← validateFetcherPolicy_ok_iff, putFetcherPolicy]
  cases validateFetcherPolicy policy with
  | error message => simp
  | ok =>
      cases env.online with
      | false => simp
      | true =>
          cases hbatch : Transaction.batch Statement.apply Consistent
              (putStatements env siteId policy (findPolicy t siteId)) t with
          | none => simp [hbatch]
          | some stored => simp [hbatch]

theorem put_failed {env : Env} {siteId : String} {policy : FetcherPolicy} {t : Tables}
    (h : (putFetcherPolicy env siteId policy t).1 ≠ .ok ()) :
    (putFetcherPolicy env siteId policy t).2 = t := by
  rw [putFetcherPolicy] at h ⊢
  cases hpolicy : validateFetcherPolicy policy with
  | error message => rfl
  | ok =>
      simp only [hpolicy] at h ⊢
      cases hbatch : (if env.online then Transaction.batch Statement.apply Consistent
          (putStatements env siteId policy (findPolicy t siteId)) t else none) with
      | none => rfl
      | some result =>
          rw [hbatch] at h
          exact absurd rfl h

/-- The policy that is read back. -/
def stored (policy : FetcherPolicy) : FetcherPolicy :=
  ⟨policy.orderList.map FetcherPolicyEntry.fetcherId, policy.orderList⟩

theorem stored_wellFormed {policy : FetcherPolicy} (h : policy.WellFormed) :
    (stored policy).WellFormed where
  allowed := by
    intro hnil
    have hperm : [].Perm policy.allowList := hnil ▸ h.arranged
    exact h.allowed hperm.nil_eq.symm
  distinct := h.arranged.nodup_iff.mpr h.distinct
  arranged := List.Perm.refl _

theorem putFetcherPolicy_roundTrip (env : Env) (siteId : String) (policy : FetcherPolicy)
    (db : Database) :
    ((Utsuroi.validateFetcherPolicy policy).valid = true ↔
        validateFetcherPolicy policy = .ok ()) ∧
      ((putFetcherPolicy env siteId policy db.tables).1 = .ok () →
        ∃ back, getFetcherPolicy (putFetcherPolicy env siteId policy db.tables).2 siteId =
            some back ∧
          back.orderList = policy.orderList ∧ back.allowList.Perm policy.allowList ∧
          (Utsuroi.validateFetcherPolicy back).valid = true ∧
          validateFetcherPolicy back = .ok ()) ∧
      ((putFetcherPolicy env siteId policy db.tables).1 ≠ .ok () →
        (putFetcherPolicy env siteId policy db.tables).2 = db.tables) ∧
      (Accepts env siteId policy db.tables →
        ((putFetcherPolicy env siteId policy db.tables).1 = .ok () ↔
          validateFetcherPolicy policy = .ok ())) := by
  refine ⟨validators_agree policy, ?_, put_failed, ?_⟩
  · intro hok
    obtain ⟨hpolicy, -, hbatch⟩ := put_ok_iff.mp hok
    have hback := stored_wellFormed hpolicy
    exact ⟨stored policy, put_stored db.consistent hbatch, rfl, hpolicy.arranged,
      (validateFetcherPolicy_valid_iff _).mpr hback, (validateFetcherPolicy_ok_iff _).mpr hback⟩
  · intro haccepts
    rw [put_ok_iff, validateFetcherPolicy_ok_iff]
    constructor
    · exact fun hok => hok.1
    · intro hpolicy
      obtain ⟨result, hresult⟩ :=
        Option.isSome_iff_exists.mp (batch_putStatements db.consistent hpolicy haccepts)
      have hvalid := (validateFetcherPolicy_ok_iff policy).mpr hpolicy
      have hput : (putFetcherPolicy env siteId policy db.tables).2 = result := by
        simp only [putFetcherPolicy, hvalid, haccepts.online, if_true, hresult]
      exact ⟨hpolicy, haccepts.online, hput ▸ hresult⟩

/-- A site whose policy is replaced by one with another order and an empty `proceedOn`. -/
def sampleDatabase : Database where
  tables := ⟨["site"], ["cf-http", "home-http"], [⟨"p", "site", "0", "0"⟩],
    [⟨"e", "p", "cf-http", 0, none⟩]⟩
  consistent := by decide

def samplePolicy : FetcherPolicy :=
  ⟨["cf-http", "home-http"], [⟨"home-http", some []⟩, ⟨"cf-http", none⟩]⟩

def sampleEnv : Env := ⟨"1", fun n => String.ofList (List.replicate (n + 1) 'x'), true⟩

theorem putFetcherPolicy_roundTrip_sample :
    ∃ back, getFetcherPolicy
        (putFetcherPolicy sampleEnv "site" samplePolicy sampleDatabase.tables).2 "site" =
          some back ∧
      back.orderList = [⟨"home-http", some []⟩, ⟨"cf-http", none⟩] := by
  have hok : (putFetcherPolicy sampleEnv "site" samplePolicy sampleDatabase.tables).1 = .ok () := by
    decide +kernel
  obtain ⟨back, hback, horder, -⟩ :=
    (putFetcherPolicy_roundTrip sampleEnv "site" samplePolicy sampleDatabase).2.1 hok
  exact ⟨back, hback, horder⟩

end Utsuroi.FetcherPolicies

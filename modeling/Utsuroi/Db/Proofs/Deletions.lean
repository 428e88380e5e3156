import Utsuroi.Db.Deletions
import Utsuroi.Db.Proofs.Monitors

/-!
# A deletion takes all that belongs to the row, or nothing

A site goes with its policies and subscriptions where it has no source, and a destination with its
subscriptions where nothing has been delivered to it.  Otherwise a foreign key stops the batch, and no
table changes.
-/

namespace Utsuroi.Monitors

open Relational

variable {Data : Type} {db : Database Table Column Data} {siteId id : String}

/-- Whether the row of a key was there is what the last statement tells. -/
private theorem removed_fewer {table : Table} {doomed : Table → Row Column Data → Bool}
    {gone : List Table} {key : String} (hgone : table ∈ gone)
    (hroot : ∀ row, doomed table row = (row.id == key)) :
    decide ((removed doomed gone db table).length < (db table).length) =
      decide (key ∈ (db table).map Row.id) := by
  have htable : removed doomed gone db table = (db table).filter fun row => !doomed table row :=
    if_pos hgone
  rw [htable, decide_eq_decide, List.length_filter_lt_length_iff_exists]
  simp only [hroot, List.mem_map, Bool.not_eq_true', beq_eq_false_iff_ne, ne_eq, not_not]

open Classical in
/-- The tables without what is doomed, where that is what belongs to a row. -/
private theorem removed_belongs {root : Table} {key : String} {doomed : Table → Row Column Data → Bool}
    {gone : List Table} (hother : ∀ t, t ∉ gone → ∀ row, doomed t row = false)
    (hbelongs : ∀ t, ∀ row ∈ db t, (schema.Belongs db root key t row ↔ doomed t row = true)) :
    removed doomed gone db =
      fun t => (db t).filter fun row => decide (¬ schema.Belongs db root key t row) := by
  rw [removed_eq_filter fun t ht row _ => hother t ht row]
  funext t
  refine List.filter_congr fun row hrow => ?_
  rw [Bool.eq_iff_iff, decide_eq_true_eq, hbelongs t row hrow]
  simp

/-- A row with the key of a row belongs to it. -/
private theorem belongs_of_reference (hconsistent : schema.Consistent db) {c : Column} {root : Table}
    {key : String} (hroot : schema.references c = root) {row : Row Column Data}
    (hrow : row ∈ db (schema.table c)) (hkey : row.key c = some key) :
    schema.Belongs db root key (schema.table c) row := by
  subst hroot
  obtain ⟨parent, hparent, rfl⟩ :=
    List.mem_map.mp (hconsistent.present c (mem_columns c) row hrow key hkey)
  exact .child (mem_columns c) hrow hkey (.root hparent rfl)

/-! ## Sites -/

/-- What goes with a site. -/
def siteRows (siteId : String) (db : Database Table Column Data) (t : Table)
    (row : Row Column Data) : Bool :=
  match t with
  | .sites => row.id == siteId
  | .fetcherPolicies => equals .fetcherPoliciesSiteId siteId row
  | .fetcherPolicyEntries =>
    inSelection .fetcherPolicyEntriesFetcherPolicyId
      ((db .fetcherPolicies).filter (equals .fetcherPoliciesSiteId siteId)) row
  | .robotsPolicies => equals .robotsPoliciesSiteId siteId row
  | .subscriptions => equals .subscriptionsSiteId siteId row
  | _ => false

/-- No row of the columns that are not seen to references the site. -/
def Unsourced (siteId : String) (db : Database Table Column Data) : Prop :=
  (∀ row ∈ db .sources, row.key .sourcesSiteId ≠ some siteId) ∧
    ∀ row ∈ db .monitors, row.key .monitorsSiteId ≠ some siteId

private theorem inSelection_iff {c up : Column} {key : String} {rows : List (Row Column Data)}
    {row : Row Column Data} :
    inSelection c (rows.filter (equals up key)) row = true ↔
      ∃ parent ∈ rows, parent.key up = some key ∧ row.key c = some parent.id := by
  simp only [inSelection, equals, Option.any_eq_true, List.contains_iff_mem, List.mem_map,
    List.mem_filter, beq_iff_eq]
  constructor
  · rintro ⟨selected, hkey, parent, ⟨hparent, hup⟩, rfl⟩
    exact ⟨parent, hparent, hup, hkey⟩
  · rintro ⟨parent, hparent, hup, hkey⟩
    exact ⟨parent.id, hkey, parent, ⟨hparent, hup⟩, rfl⟩

theorem belongs_site_iff (hunsourced : Unsourced siteId db) (hconsistent : schema.Consistent db)
    {t : Table} {row : Row Column Data} (hrow : row ∈ db t) :
    schema.Belongs db .sites siteId t row ↔ siteRows siteId db t row = true := by
  constructor
  · intro h
    clear hrow
    induction h with
    | root hrow hid => exact beq_iff_eq.mpr hid
    | @child c row parent hc hrow hkey hparent ih =>
        have hcolumns : c = .sourcesSiteId ∨ c = .monitorsSiteId ∨ c = .fetcherPoliciesSiteId ∨
            c = .subscriptionsSiteId ∨ c = .robotsPoliciesSiteId ∨
            c = .fetcherPolicyEntriesFetcherPolicyId := by
          revert ih
          cases c <;> simp [schema, foreignKey, siteRows]
        rcases hcolumns with rfl | rfl | rfl | rfl | rfl | rfl
        · exact absurd (hkey.trans (congrArg some (beq_iff_eq.mp ih))) (hunsourced.1 row hrow)
        · exact absurd (hkey.trans (congrArg some (beq_iff_eq.mp ih))) (hunsourced.2 row hrow)
        · exact beq_iff_eq.mpr (hkey.trans (congrArg some (beq_iff_eq.mp ih)))
        · exact beq_iff_eq.mpr (hkey.trans (congrArg some (beq_iff_eq.mp ih)))
        · exact beq_iff_eq.mpr (hkey.trans (congrArg some (beq_iff_eq.mp ih)))
        · exact inSelection_iff.mpr
            ⟨parent, mem_of_belongs schema hparent, beq_iff_eq.mp ih, hkey⟩
  · intro h
    cases t with
    | sites => exact .root hrow (beq_iff_eq.mp h)
    | fetcherPolicies =>
        exact belongs_of_reference (c := .fetcherPoliciesSiteId) hconsistent rfl hrow (beq_iff_eq.mp h)
    | fetcherPolicyEntries =>
        obtain ⟨parent, hparent, hsite, hkey⟩ := inSelection_iff.mp h
        exact .child (mem_columns .fetcherPolicyEntriesFetcherPolicyId) hrow hkey
          (belongs_of_reference (c := .fetcherPoliciesSiteId) hconsistent rfl hparent hsite)
    | robotsPolicies =>
        exact belongs_of_reference (c := .robotsPoliciesSiteId) hconsistent rfl hrow (beq_iff_eq.mp h)
    | subscriptions =>
        exact belongs_of_reference (c := .subscriptionsSiteId) hconsistent rfl hrow (beq_iff_eq.mp h)
    | _ => exact absurd h (by simp [siteRows])

/-- The tables of the batch but its last one, the last one first. -/
private def siteTables : List Table :=
  [.subscriptions, .robotsPolicies, .fetcherPolicies, .fetcherPolicyEntries]

/-- Up to its last statement nothing stands in the way of the batch. -/
private theorem batch_site (hconsistent : schema.Consistent db) :
    schema.Consistent (removed (siteRows siteId db) siteTables db) ∧
    deleteSiteCascade siteId db =
      (Transaction.batch (Statement.apply schema) schema.Consistent
        [.delete .sites fun _ row => row.id == siteId] (removed (siteRows siteId db) siteTables db)).map
          fun result => (decide ((result .sites).length < (db .sites).length), result) := by
  have hleaf : ∀ table ∈ [Table.fetcherPolicyEntries, .robotsPolicies, .subscriptions],
      ∀ c ∈ schema.columns, schema.references c ≠ table := by decide
  have hstart : schema.Consistent (removed (siteRows siteId db) [] db) := by rwa [removed_nil]
  have hentries : schema.Consistent (removed (siteRows siteId db) [.fetcherPolicyEntries] db) :=
    consistent_removed_leaf hstart (mem_tables _) (by decide) (hleaf _ (by decide))
  have hpolicies : schema.Consistent
      (removed (siteRows siteId db) [.fetcherPolicies, .fetcherPolicyEntries] db) := by
    refine (consistent_removed_iff hentries (mem_tables _) (by decide)).mpr ?_
    intro c _ hreferences row hrow parent hparent hdoomed hkey
    obtain rfl : c = .fetcherPolicyEntriesFetcherPolicyId := by
      revert hreferences
      cases c <;> simp [schema, foreignKey]
    obtain ⟨hrow, hsafe⟩ := mem_removed.mp hrow
    have hgoes : siteRows siteId db .fetcherPolicyEntries row = true :=
      inSelection_iff.mpr ⟨parent, hparent, beq_iff_eq.mp hdoomed, hkey⟩
    have hstays := hsafe (by decide)
    exact absurd (hstays.symm.trans hgoes) Bool.false_ne_true
  have hrobots : schema.Consistent (removed (siteRows siteId db)
      [.robotsPolicies, .fetcherPolicies, .fetcherPolicyEntries] db) :=
    consistent_removed_leaf hpolicies (mem_tables _) (by decide) (hleaf _ (by decide))
  have hsubscriptions : schema.Consistent (removed (siteRows siteId db) siteTables db) :=
    consistent_removed_leaf hrobots (mem_tables _) (by decide) (hleaf _ (by decide))
  refine ⟨hsubscriptions, ?_⟩
  have hsame : removed (siteRows siteId db) [] db = db := removed_nil
  rw [deleteSiteCascade, deleted]
  conv_lhs => rw [← hsame]
  rw [batch_removed hentries (by decide) fun row _ => by rw [hsame]; rfl,
    batch_removed hpolicies (by decide) fun row _ => rfl,
    batch_removed hrobots (by decide) fun row _ => rfl,
    batch_removed hsubscriptions (by decide) fun row _ => rfl, hsame]
  rfl

open Classical in
/-- The batch fails just where a source or a monitor of the site is left, and else takes all that
belongs to the site and no other row. -/
theorem deleteSiteCascade_eq (hconsistent : schema.Consistent db) :
    deleteSiteCascade siteId db =
      if Unsourced siteId db then
        some (decide (siteId ∈ (db .sites).map Row.id),
          fun t => (db t).filter fun row => decide (¬ schema.Belongs db .sites siteId t row))
      else none := by
  obtain ⟨hbefore, hbatch⟩ := @batch_site _ db siteId hconsistent
  have hlast : ∀ row ∈ db .sites, (row.id == siteId) = siteRows siteId db .sites row :=
    fun row _ => rfl
  split
  · next hunsourced =>
      have hvalid : schema.Consistent (removed (siteRows siteId db) (.sites :: siteTables) db) := by
        refine (consistent_removed_iff hbefore (mem_tables _) (by decide)).mpr ?_
        intro c _ hreferences row hrow parent _ hdoomed hkey
        rw [beq_iff_eq.mp hdoomed] at hkey
        obtain ⟨hrow, hsafe⟩ := mem_removed.mp hrow
        have hcolumns : c = .sourcesSiteId ∨ c = .monitorsSiteId ∨ c = .fetcherPoliciesSiteId ∨
            c = .subscriptionsSiteId ∨ c = .robotsPoliciesSiteId := by
          revert hreferences
          cases c <;> simp [schema, foreignKey]
        rcases hcolumns with rfl | rfl | rfl | rfl | rfl
        · exact hunsourced.1 row hrow hkey
        · exact hunsourced.2 row hrow hkey
        · exact absurd ((hsafe (by decide)).symm.trans (beq_iff_eq.mpr hkey)) Bool.false_ne_true
        · exact absurd ((hsafe (by decide)).symm.trans (beq_iff_eq.mpr hkey)) Bool.false_ne_true
        · exact absurd ((hsafe (by decide)).symm.trans (beq_iff_eq.mpr hkey)) Bool.false_ne_true
      have hother : ∀ t, t ∉ .sites :: siteTables → ∀ row : Row Column Data,
          siteRows siteId db t row = false := by
        intro t ht row
        cases t <;> first | rfl | exact absurd ht (by decide)
      rw [hbatch, batch_removed hvalid (by decide) hlast, Transaction.batch, Option.map_some,
        removed_fewer List.mem_cons_self fun _ => rfl,
        removed_belongs hother fun t row hrow => belongs_site_iff hunsourced hconsistent hrow]
  · next hsourced =>
      have hblocked : ∀ c ∈ [Column.sourcesSiteId, .monitorsSiteId], ∀ row ∈ db (schema.table c),
          row.key c = some siteId → deleteSiteCascade siteId db = none := by
        intro c hc row hrow hkey
        have hreferences : schema.references c = .sites ∧
            schema.table c ∉ .sites :: siteTables := by
          revert hc
          cases c <;> decide
        have hpresent := hconsistent.present c (mem_columns c) row hrow siteId hkey
        rw [hreferences.1] at hpresent
        obtain ⟨parent, hparent, hid⟩ := List.mem_map.mp hpresent
        rw [hbatch, batch_blocked hbefore (mem_tables _) (by decide) hlast (mem_columns c)
          hreferences.1 (mem_removed.mpr ⟨hrow, fun hin => absurd hin hreferences.2⟩) hparent
          (beq_iff_eq.mpr hid) (hid ▸ hkey), Option.map_none]
      by_contra hnone
      refine hsourced ⟨fun row hrow hkey => ?_, fun row hrow hkey => ?_⟩
      · exact hnone (hblocked .sourcesSiteId (by decide) row hrow hkey)
      · exact hnone (hblocked .monitorsSiteId (by decide) row hrow hkey)

/-- Monitors are of the site of their source, so sources are all there is to look for. -/
private theorem unsourced_iff (hconsistent : schema.Consistent db)
    (hmonitors : ∀ monitor ∈ db .monitors, ∀ source ∈ db .sources,
      monitor.key .monitorsSourceId = some source.id →
        monitor.key .monitorsSiteId = source.key .sourcesSiteId) :
    Unsourced siteId db ↔ ¬ ∃ source ∈ db .sources, source.key .sourcesSiteId = some siteId := by
  constructor
  · rintro ⟨hsources, -⟩ ⟨source, hsource, hkey⟩
    exact hsources source hsource hkey
  · intro hnone
    refine ⟨fun source hsource hkey => hnone ⟨source, hsource, hkey⟩, fun monitor hmonitor hkey => ?_⟩
    have hrequired := hconsistent.required .monitorsSourceId (mem_columns _) rfl monitor hmonitor
    obtain ⟨sourceId, hsourceId⟩ := Option.ne_none_iff_exists'.mp hrequired
    have hpresent := hconsistent.present .monitorsSourceId (mem_columns _) monitor hmonitor _ hsourceId
    obtain ⟨source, hsource, rfl⟩ := List.mem_map.mp hpresent
    exact hnone ⟨source, hsource, (hmonitors monitor hmonitor source hsource hsourceId).symm.trans hkey⟩

open Classical in
/-- Whatever happens to the tables between the count and the batch: a site whose sources are counted
is left, and so is one that has sources by then; else it goes with all that belongs to it and nothing
besides. -/
theorem deleteSite_eq (counted : Database Table Column Data) (hconsistent : schema.Consistent db)
    (hmonitors : ∀ monitor ∈ db .monitors, ∀ source ∈ db .sources,
      monitor.key .monitorsSourceId = some source.id →
        monitor.key .monitorsSiteId = source.key .sourcesSiteId) :
    deleteSite siteId counted db =
      if siteId ∈ (counted .sites).map Row.id then
        if ∃ source ∈ counted .sources, source.key .sourcesSiteId = some siteId then
          (.conflict "site_has_sources", db)
        else if ∃ source ∈ db .sources, source.key .sourcesSiteId = some siteId then (.failed, db)
        else (.deleted, fun t =>
          (db t).filter fun row => decide (¬ schema.Belongs db .sites siteId t row))
      else (.notFound "site_not_found", db) := by
  have hcount : ((counted .sources).filter (equals .sourcesSiteId siteId)).length ≠ 0 ↔
      ∃ source ∈ counted .sources, source.key .sourcesSiteId = some siteId := by
    simp [equals]
  have hcascade := @deleteSiteCascade_eq _ db siteId hconsistent
  rw [unsourced_iff hconsistent hmonitors] at hcascade
  unfold deleteSite
  by_cases hsources : ∃ source ∈ db .sources, source.key .sourcesSiteId = some siteId
  · rw [if_neg (not_not.mpr hsources)] at hcascade
    simp only [hcount, hcascade, if_pos hsources]
  · rw [if_pos hsources] at hcascade
    simp only [hcount, hcascade, if_neg hsources]

/-- A site that has policies and a subscription, but no source, beside one that has a monitor. -/
def sampleSites : Database Table Column String
  | .sites => [labelled "old" "old" [], labelled "site" "site" []]
  | .sources => [labelled "source" "site" [(.sourcesSiteId, "site")]]
  | .monitors => [labelled "m" "site" [(.monitorsSiteId, "site"), (.monitorsSourceId, "source")]]
  | .executors => [labelled "cloudflare" "" []]
  | .fetchers => [labelled "cf-http" "" [(.fetchersExecutorId, "cloudflare")]]
  | .fetcherPolicies => [labelled "p" "old" [(.fetcherPoliciesSiteId, "old")]]
  | .fetcherPolicyEntries =>
    [labelled "e" "old" [(.fetcherPolicyEntriesFetcherPolicyId, "p"),
      (.fetcherPolicyEntriesFetcherId, "cf-http")]]
  | .robotsPolicies => [labelled "r" "old" [(.robotsPoliciesSiteId, "old")]]
  | .destinations => [labelled "d" "" []]
  | .subscriptions =>
    [labelled "s" "old" [(.subscriptionsDestinationId, "d"), (.subscriptionsSiteId, "old")]]
  | _ => []

private theorem sampleSites_consistent : schema.Consistent sampleSites := by decide +kernel

theorem deleteSite_eq_sample : (deleteSite "old" sampleSites sampleSites).1 = .deleted := by
  have hmonitors : ∀ monitor ∈ sampleSites .monitors, ∀ source ∈ sampleSites .sources,
      monitor.key .monitorsSourceId = some source.id →
        monitor.key .monitorsSiteId = source.key .sourcesSiteId := by
    decide +kernel
  have hmem : "old" ∈ (sampleSites .sites).map Row.id := by decide
  have hnone : ¬ ∃ source ∈ sampleSites .sources, source.key .sourcesSiteId = some "old" := by
    decide +kernel
  rw [deleteSite_eq sampleSites sampleSites_consistent hmonitors, if_pos hmem, if_neg hnone,
    if_neg hnone]

/-! ## Destinations -/

/-- What goes with a destination. -/
private def destinationRows (id : String) (t : Table) (row : Row Column Data) : Bool :=
  match t with
  | .destinations => row.id == id
  | .subscriptions => equals .subscriptionsDestinationId id row
  | _ => false

private theorem belongs_destination_iff
    (hunsent : ∀ delivery ∈ db .deliveries, delivery.key .deliveriesDestinationId ≠ some id)
    (hconsistent : schema.Consistent db) {t : Table} {row : Row Column Data} (hrow : row ∈ db t) :
    schema.Belongs db .destinations id t row ↔ destinationRows id t row = true := by
  constructor
  · intro h
    clear hrow
    induction h with
    | root hrow hid => exact beq_iff_eq.mpr hid
    | @child c row parent hc hrow hkey hparent ih =>
        have hcolumns : c = .subscriptionsDestinationId ∨ c = .deliveriesDestinationId := by
          revert ih
          cases c <;> simp [schema, foreignKey, destinationRows]
        rcases hcolumns with rfl | rfl
        · exact beq_iff_eq.mpr (hkey.trans (congrArg some (beq_iff_eq.mp ih)))
        · exact absurd (hkey.trans (congrArg some (beq_iff_eq.mp ih))) (hunsent row hrow)
  · intro h
    cases t with
    | destinations => exact .root hrow (beq_iff_eq.mp h)
    | subscriptions =>
        exact belongs_of_reference (c := .subscriptionsDestinationId) hconsistent rfl hrow
          (beq_iff_eq.mp h)
    | _ => exact absurd h (by simp [destinationRows])

open Classical in
/-- The batch fails just where something has been delivered to the destination. -/
theorem deleteDestinationById_eq (hconsistent : schema.Consistent db) :
    deleteDestinationById id db =
      if ∃ delivery ∈ db .deliveries, delivery.key .deliveriesDestinationId = some id then none
      else some (decide (id ∈ (db .destinations).map Row.id),
        fun t => (db t).filter fun row => decide (¬ schema.Belongs db .destinations id t row)) := by
  have hsame : removed (destinationRows id) [] db = db := removed_nil
  have hstart : schema.Consistent (removed (destinationRows id) [] db) := by rwa [hsame]
  have hleaf : ∀ c ∈ schema.columns, schema.references c ≠ .subscriptions := by decide
  have hbefore : schema.Consistent (removed (destinationRows id) [.subscriptions] db) :=
    consistent_removed_leaf hstart (mem_tables _) (by decide) hleaf
  have hlast : ∀ row ∈ db .destinations, (row.id == id) = destinationRows id .destinations row :=
    fun row _ => rfl
  have hbatch : deleteDestinationById id db =
      (Transaction.batch (Statement.apply schema) schema.Consistent
        [.delete .destinations fun _ row => row.id == id]
          (removed (destinationRows id) [.subscriptions] db)).map
        fun result => (decide ((result .destinations).length < (db .destinations).length), result) := by
    rw [deleteDestinationById, deleted]
    conv_lhs => rw [← hsame]
    rw [batch_removed hbefore (by decide) fun row _ => rfl, hsame]
  rw [hbatch]
  split
  · next hsent =>
      obtain ⟨delivery, hdelivery, hkey⟩ := hsent
      obtain ⟨parent, hparent, hid⟩ := List.mem_map.mp
        (hconsistent.present .deliveriesDestinationId (mem_columns _) delivery hdelivery id hkey)
      have hstays : delivery ∈ removed (destinationRows id) [.destinations, .subscriptions] db
          (schema.table .deliveriesDestinationId) :=
        mem_removed.mpr ⟨hdelivery, fun hin => absurd hin (by decide)⟩
      have hreferences : schema.references .deliveriesDestinationId = .destinations := rfl
      rw [hreferences] at hparent
      rw [batch_blocked hbefore (mem_tables _) (by decide) hlast (mem_columns _) hreferences hstays
        hparent (beq_iff_eq.mpr hid) (hid ▸ hkey), Option.map_none]
  · next hnone =>
      have hunsent : ∀ delivery ∈ db .deliveries, delivery.key .deliveriesDestinationId ≠ some id :=
        fun delivery hdelivery hkey => hnone ⟨delivery, hdelivery, hkey⟩
      have hvalid : schema.Consistent
          (removed (destinationRows id) [.destinations, .subscriptions] db) := by
        refine (consistent_removed_iff hbefore (mem_tables _) (by decide)).mpr ?_
        intro c _ hreferences row hrow parent _ hdoomed hkey
        rw [beq_iff_eq.mp hdoomed] at hkey
        obtain ⟨hrow, hsafe⟩ := mem_removed.mp hrow
        have hcolumns : c = .subscriptionsDestinationId ∨ c = .deliveriesDestinationId := by
          revert hreferences
          cases c <;> simp [schema, foreignKey]
        rcases hcolumns with rfl | rfl
        · exact absurd ((hsafe (by decide)).symm.trans (beq_iff_eq.mpr hkey)) Bool.false_ne_true
        · exact hunsent row hrow hkey
      have hother : ∀ t, t ∉ [Table.destinations, .subscriptions] → ∀ row : Row Column Data,
          destinationRows id t row = false := by
        intro t ht row
        cases t <;> first | rfl | exact absurd ht (by decide)
      rw [batch_removed hvalid (by decide) hlast, Transaction.batch, Option.map_some,
        removed_fewer List.mem_cons_self fun _ => rfl,
        removed_belongs hother fun t row hrow => belongs_destination_iff hunsent hconsistent hrow]

open Classical in
/-- A destination that something has been delivered to is left as it is; else it goes with its
subscriptions and nothing besides. -/
theorem deleteDestination_eq (seen : Database Table Column Data) (hconsistent : schema.Consistent db) :
    deleteDestination id seen db =
      if id ∈ (seen .destinations).map Row.id then
        if ∃ delivery ∈ db .deliveries, delivery.key .deliveriesDestinationId = some id then
          (.conflict "destination_has_delivery_history", db)
        else (.deleted, fun t =>
          (db t).filter fun row => decide (¬ schema.Belongs db .destinations id t row))
      else (.notFound "destination_not_found", db) := by
  have hbatch := @deleteDestinationById_eq _ db id hconsistent
  unfold deleteDestination
  by_cases hsent : ∃ delivery ∈ db .deliveries, delivery.key .deliveriesDestinationId = some id
  · rw [if_pos hsent] at hbatch
    simp only [hbatch, if_pos hsent]
  · rw [if_neg hsent] at hbatch
    simp only [hbatch, if_neg hsent]

theorem deleteDestination_eq_sample :
    (deleteDestination "d" sampleSites sampleSites).1 = .deleted := by
  have hmem : "d" ∈ (sampleSites .destinations).map Row.id := by decide
  have hnone : ¬ ∃ delivery ∈ sampleSites .deliveries,
      delivery.key .deliveriesDestinationId = some "d" := by
    decide +kernel
  rw [deleteDestination_eq sampleSites sampleSites_consistent, if_pos hmem, if_neg hnone]

end Utsuroi.Monitors

import Utsuroi.Db.Monitors

/-!
# The cascade erases what belongs to the monitor

A row with a monitor's key, or with the key of a row that has it, belongs to that monitor.  Each
statement therefore takes the rows that belong to the monitor, and no reference is left behind.
-/

namespace Utsuroi.Monitors

open Relational Classical

variable {Data : Type} {db : Database Table Column Data} {monitorId : String}

/-- The tables with rows that belong to monitors, the last one to be erased first. -/
def monitorTables : List Table :=
  [.monitors, .subscriptions, .targets, .snapshots, .checkJobs, .changes, .checkAttempts,
    .deliveries]

theorem mem_monitorTables {t : Table} {row : Row Column Data}
    (h : schema.Belongs db .monitors monitorId t row) : t ∈ monitorTables := by
  refine belongs_reaches schema ?_ ?_ h
  · decide
  · decide

/-! ## Which rows belong to a monitor -/

theorem belongs_monitors_iff {row : Row Column Data} (hrow : row ∈ db .monitors) :
    schema.Belongs db .monitors monitorId .monitors row ↔ row.id = monitorId := by
  constructor
  · intro h
    obtain ⟨-, ⟨-, hid⟩ | ⟨c, hc, htable, parent, -, hparent⟩⟩ := (belongs_iff schema).mp h
    · exact hid
    · have hnone : ∀ c ∈ schema.columns, schema.table c = .monitors →
          schema.references c ∉ monitorTables := by decide
      exact absurd (mem_monitorTables hparent) (hnone c hc htable)
  · exact .root hrow

theorem belongs_of_key (hconsistent : schema.Consistent db) {c : Column}
    (hreferences : schema.references c = .monitors) {row : Row Column Data}
    (hrow : row ∈ db (schema.table c)) (hkey : row.key c = some monitorId) :
    schema.Belongs db .monitors monitorId (schema.table c) row := by
  have hpresent := hconsistent.present c (mem_columns c) row hrow monitorId hkey
  rw [hreferences] at hpresent
  obtain ⟨parent, hparent, rfl⟩ := List.mem_map.mp hpresent
  refine .child (mem_columns c) hrow hkey ?_
  rw [hreferences]
  exact .root hparent rfl

/-- A required key of a monitor. -/
theorem belongs_iff_key (hconsistent : schema.Consistent db)
    (howner : schema.SingleOwner db .monitors) {c : Column}
    (hreferences : schema.references c = .monitors) (hrequired : schema.nullable c = false)
    {row : Row Column Data} (hrow : row ∈ db (schema.table c)) :
    schema.Belongs db .monitors monitorId (schema.table c) row ↔
      equals c monitorId row = true := by
  rw [equals, beq_iff_eq]
  constructor
  · intro h
    cases hkey : row.key c with
    | none => exact absurd hkey (hconsistent.required c (mem_columns c) hrequired row hrow)
    | some key =>
        rw [howner _ _ _ row h (belongs_of_key hconsistent hreferences hrow hkey)]
  · exact belongs_of_key hconsistent hreferences hrow

/-- A required key of a row with a required key of a monitor. -/
theorem belongs_iff_selected (hconsistent : schema.Consistent db)
    (howner : schema.SingleOwner db .monitors) {c up : Column}
    (hreferences : schema.references c = schema.table up)
    (hup : schema.references up = .monitors) (hrequired : schema.nullable c = false)
    (hrequired' : schema.nullable up = false)
    {row : Row Column Data} (hrow : row ∈ db (schema.table c)) :
    schema.Belongs db .monitors monitorId (schema.table c) row ↔
      inSelection c ((db (schema.table up)).filter (equals up monitorId)) row = true := by
  have hselected : inSelection c ((db (schema.table up)).filter (equals up monitorId)) row = true ↔
      ∃ parent ∈ db (schema.table up), equals up monitorId parent = true ∧
        row.key c = some parent.id := by
    rw [inSelection, Option.any_eq_true]
    constructor
    · intro ⟨key, hkey, hin⟩
      obtain ⟨parent, hparent, rfl⟩ := List.mem_map.mp (List.contains_iff_mem.mp hin)
      have hmem := List.mem_filter.mp hparent
      exact ⟨parent, hmem.1, hmem.2, hkey⟩
    · intro ⟨parent, hparent, hequals, hkey⟩
      exact ⟨parent.id, hkey, List.contains_iff_mem.mpr
        (List.mem_map_of_mem (List.mem_filter.mpr ⟨hparent, hequals⟩))⟩
  rw [hselected]
  have hchild : ∀ {key : String} {parent : Row Column Data},
      schema.Belongs db .monitors key (schema.table up) parent → row.key c = some parent.id →
      schema.Belongs db .monitors key (schema.table c) row := by
    intro key parent hparent hkey
    refine .child (mem_columns c) hrow hkey ?_
    rw [hreferences]
    exact hparent
  constructor
  · intro h
    cases hkey : row.key c with
    | none => exact absurd hkey (hconsistent.required c (mem_columns c) hrequired row hrow)
    | some key =>
        have hpresent := hconsistent.present c (mem_columns c) row hrow key hkey
        rw [hreferences] at hpresent
        obtain ⟨parent, hparent, rfl⟩ := List.mem_map.mp hpresent
        refine ⟨parent, hparent, ?_, rfl⟩
        cases hkey' : parent.key up with
        | none =>
            exact absurd hkey'
              (hconsistent.required up (mem_columns up) hrequired' parent hparent)
        | some owner =>
            have hparent' := belongs_of_key hconsistent hup hparent hkey'
            rw [equals, hkey', howner _ _ _ row h (hchild hparent' hkey)]
            exact beq_self_eq_true _
  · intro ⟨parent, hparent, hequals, hkey⟩
    exact hchild (belongs_of_key hconsistent hup hparent (beq_iff_eq.mp hequals)) hkey

/-- The key of a monitor may be missing here. -/
theorem belongs_subscriptions_iff (hconsistent : schema.Consistent db)
    {row : Row Column Data} (hrow : row ∈ db .subscriptions) :
    schema.Belongs db .monitors monitorId .subscriptions row ↔
      equals .subscriptionsMonitorId monitorId row = true := by
  rw [equals, beq_iff_eq]
  constructor
  · intro h
    obtain ⟨-, ⟨habsurd, -⟩ | ⟨c, hc, htable, parent, hkey, hparent⟩⟩ := (belongs_iff schema).mp h
    · cases habsurd
    · have honly : ∀ c ∈ schema.columns, schema.table c = .subscriptions →
          schema.references c ∈ monitorTables → c = .subscriptionsMonitorId := by decide
      obtain rfl := honly c hc htable (mem_monitorTables hparent)
      rw [hkey, (belongs_monitors_iff (mem_of_belongs schema hparent)).mp hparent]
  · exact belongs_of_key (c := .subscriptionsMonitorId) hconsistent rfl hrow

/-! ## The statements -/

section Statements

variable {doomed : Table → Row Column Data → Prop} {gone : List Table} {cleared : List Column}

theorem equals_erasedRow {c : Column} (hc : c ∉ cleared) (value : String) (t : Table)
    (row : Row Column Data) :
    equals c value (erasedRow schema doomed cleared t row) = equals c value row := by
  rw [equals, equals, erasedRow_key hc]

/-- Neither the selected keys nor the column that is compared have changed. -/
theorem inSelection_erased {c up : Column} (hc : c ∉ cleared) (hup : up ∉ cleared)
    (hkept : schema.table up ∉ gone) (value : String) (t : Table) (row : Row Column Data) :
    inSelection c ((erased schema doomed gone cleared db (schema.table up)).filter
        (equals up value)) (erasedRow schema doomed cleared t row) =
      inSelection c ((db (schema.table up)).filter (equals up value)) row := by
  have hequals : equals up value ∘ erasedRow schema doomed cleared (schema.table up) =
      equals up value := funext fun parent => equals_erasedRow hup value _ parent
  have hids : Row.id ∘ erasedRow schema doomed cleared (schema.table up) = Row.id :=
    funext fun parent => erasedRow_id cleared _ parent
  rw [inSelection, inSelection, erasedRow_key hc, erased_kept cleared hkept, List.filter_map,
    hequals, List.map_map, hids]

end Statements

theorem batch_cascade (hconsistent : schema.Consistent db)
    (howner : schema.SingleOwner db .monitors) (monitorId : String) :
    Transaction.batch (Statement.apply schema) schema.Consistent (cascade monitorId) db =
      some (erased schema (schema.Belongs db .monitors monitorId)
        monitorTables [.snapshotsCheckAttemptId] db) := by
  have hdown := belongs_downward schema db .monitors monitorId
  have hnullable : ∀ c ∈ [Column.snapshotsCheckAttemptId], schema.nullable c = true := by decide
  have hkey : ∀ c, schema.references c = .monitors → schema.nullable c = false →
      c ∉ [Column.snapshotsCheckAttemptId] → ∀ row ∈ db (schema.table c),
        (equals c monitorId (erasedRow schema (schema.Belongs db .monitors monitorId)
          [.snapshotsCheckAttemptId] (schema.table c) row) = true ↔
        schema.Belongs db .monitors monitorId (schema.table c) row) := by
    intro c hreferences hrequired hc row hrow
    rw [equals_erasedRow hc, belongs_iff_key hconsistent howner hreferences hrequired hrow]
  have hselected : ∀ c up gone, schema.references c = schema.table up →
      schema.references up = .monitors → schema.nullable c = false → schema.nullable up = false →
      c ∉ [Column.snapshotsCheckAttemptId] → up ∉ [Column.snapshotsCheckAttemptId] →
      schema.table up ∉ gone → ∀ row ∈ db (schema.table c),
        (inSelection c ((erased schema (schema.Belongs db .monitors monitorId) gone
            [.snapshotsCheckAttemptId] db (schema.table up)).filter (equals up monitorId))
          (erasedRow schema (schema.Belongs db .monitors monitorId) [.snapshotsCheckAttemptId]
            (schema.table c) row) = true ↔
        schema.Belongs db .monitors monitorId (schema.table c) row) := by
    intro c up gone hreferences hup hrequired hrequired' hc hup' hgone row hrow
    rw [inSelection_erased hc hup' hgone,
      belongs_iff_selected hconsistent howner hreferences hup hrequired hrequired' hrow]
  rw [cascade, batch_clear hconsistent hdown rfl]
  -- one step for each table, in the order of the statements
  · refine (batch_delete hconsistent hdown hnullable (by decide) (by decide)
      (hselected .deliveriesChangeId .changesMonitorId [] rfl rfl rfl rfl (by decide) (by decide)
        (by decide))).trans ?_
    refine (batch_delete hconsistent hdown hnullable (by decide) (by decide)
      (hselected .checkAttemptsCheckJobId .checkJobsMonitorId [.deliveries] rfl rfl rfl rfl
        (by decide) (by decide) (by decide))).trans ?_
    refine (batch_delete hconsistent hdown hnullable (by decide) (by decide)
      (hkey .changesMonitorId rfl rfl (by decide))).trans ?_
    refine (batch_delete hconsistent hdown hnullable (by decide) (by decide)
      (hkey .checkJobsMonitorId rfl rfl (by decide))).trans ?_
    refine (batch_delete hconsistent hdown hnullable (by decide) (by decide)
      (hkey .snapshotsMonitorId rfl rfl (by decide))).trans ?_
    refine (batch_delete hconsistent hdown hnullable (by decide) (by decide)
      (hkey .targetsMonitorId rfl rfl (by decide))).trans ?_
    refine (batch_delete hconsistent hdown hnullable (by decide) (by decide) ?_).trans ?_
    · intro row hrow
      rw [equals_erasedRow (by decide)]
      exact (belongs_subscriptions_iff hconsistent hrow).symm
    refine (batch_delete hconsistent hdown hnullable (by decide) (by decide) ?_).trans rfl
    intro row hrow
    rw [erasedRow_id, beq_iff_eq]
    exact (belongs_monitors_iff hrow).symm
  · intro row hrow
    exact (belongs_iff_key (c := .snapshotsMonitorId) hconsistent howner rfl rfl hrow).symm

/-- Outside the tables of the cascade nothing belongs to a monitor. -/
theorem erased_cascade (db : Database Table Column Data) (monitorId : String) (t : Table) :
    erased schema (schema.Belongs db .monitors monitorId)
        monitorTables [.snapshotsCheckAttemptId] db t =
      (db t).filter fun row => decide (¬ schema.Belongs db .monitors monitorId t row) := by
  by_cases ht : t ∈ monitorTables
  · exact erased_gone _ ht
  · have hsafe : ∀ row, ¬ schema.Belongs db .monitors monitorId t row :=
      fun row h => ht (mem_monitorTables h)
    rw [erased_kept _ ht]
    have hsame : ∀ row ∈ db t, erasedRow schema (schema.Belongs db .monitors monitorId)
        [.snapshotsCheckAttemptId] t row = id row := fun row _ => erasedRow_safe (hsafe row)
    rw [List.map_congr_left hsame, List.map_id, List.filter_eq_self.mpr]
    exact fun row _ => decide_eq_true (hsafe row)

theorem deleteMonitorCascade_erases (db : Database Table Column Data) (monitorId : String)
    (hconsistent : schema.Consistent db) (howner : schema.SingleOwner db .monitors) :
    ∃ result, deleteMonitorCascade monitorId db =
        some (decide (monitorId ∈ (db .monitors).map Row.id), result) ∧
      (∀ t, result t =
        (db t).filter fun row => decide (¬ schema.Belongs db .monitors monitorId t row)) ∧
      schema.Consistent result := by
  have hbatch := batch_cascade hconsistent howner monitorId
  refine ⟨_, ?_, erased_cascade db monitorId, Transaction.batch_valid hconsistent hbatch⟩
  rw [deleteMonitorCascade, hbatch, Option.map_some, erased_cascade]
  congr 2
  rw [decide_eq_decide]
  constructor
  · intro hlength
    by_contra hnone
    rw [List.filter_eq_self.mpr] at hlength
    · exact Nat.lt_irrefl _ hlength
    · intro row hrow
      rw [decide_eq_true_eq, belongs_monitors_iff hrow]
      exact fun hid => hnone (hid ▸ List.mem_map_of_mem hrow)
  · intro hmem
    obtain ⟨row, hrow, hid⟩ := List.mem_map.mp hmem
    apply List.length_filter_lt_length_iff_exists.mpr
    refine ⟨row, hrow, ?_⟩
    rw [decide_eq_true_eq, not_not]
    exact (belongs_monitors_iff hrow).mpr hid

/-- A row labelled with the monitor it belongs to. -/
def labelled (id owner : String) (keys : List (Column × String)) : Row Column String :=
  ⟨id, fun c => keys.lookup c, owner⟩

/-- Two monitors; an attempt of the first one and its snapshot reference each other. -/
def sampleDatabase : Database Table Column String
  | .sites => [labelled "site" "" []]
  | .sources => [labelled "source" "" [(.sourcesSiteId, "site")]]
  | .executors => [labelled "cloudflare" "" []]
  | .fetchers => [labelled "cf-http" "" [(.fetchersExecutorId, "cloudflare")]]
  | .monitors =>
    [labelled "m" "m" [(.monitorsSiteId, "site"), (.monitorsSourceId, "source")],
      labelled "n" "n" [(.monitorsSiteId, "site"), (.monitorsSourceId, "source")]]
  | .targets =>
    [labelled "t" "m" [(.targetsMonitorId, "m")], labelled "u" "n" [(.targetsMonitorId, "n")]]
  | .checkJobs => [labelled "j" "m" [(.checkJobsMonitorId, "m")]]
  | .checkAttempts =>
    [labelled "a" "m" [(.checkAttemptsCheckJobId, "j"), (.checkAttemptsTargetId, "t"),
      (.checkAttemptsFetcherId, "cf-http"), (.checkAttemptsSnapshotId, "s")]]
  | .snapshots =>
    [labelled "s" "m" [(.snapshotsMonitorId, "m"), (.snapshotsTargetId, "t"),
      (.snapshotsCheckAttemptId, "a")]]
  | .changes =>
    [labelled "c" "m" [(.changesMonitorId, "m"), (.changesSnapshotId, "s")]]
  | .destinations => [labelled "d" "" []]
  | .deliveries =>
    [labelled "v" "m" [(.deliveriesChangeId, "c"), (.deliveriesDestinationId, "d")]]
  | _ => []

theorem deleteMonitorCascade_erases_sample :
    ∃ result, deleteMonitorCascade "m" sampleDatabase = some (true, result) ∧
      schema.Consistent result := by
  have hconsistent : schema.Consistent sampleDatabase := by decide +kernel
  have howner : schema.SingleOwner sampleDatabase .monitors := by
    refine @singleOwner_of_label _ _ _ schema sampleDatabase .monitors Row.data monitorTables
      ?_ ?_ ?_ ?_
    · decide
    · decide
    · decide +kernel
    · decide +kernel
  obtain ⟨result, hresult, -, hafter⟩ :=
    deleteMonitorCascade_erases sampleDatabase "m" hconsistent howner
  have hmem : "m" ∈ (sampleDatabase .monitors).map Row.id := by decide
  rw [decide_eq_true hmem] at hresult
  exact ⟨result, hresult, hafter⟩

end Utsuroi.Monitors

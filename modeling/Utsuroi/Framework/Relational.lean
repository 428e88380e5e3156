import Mathlib.Data.List.Nodup
import Utsuroi.Framework.Transaction

/-!
# Tables with foreign keys

Rows that reference one row, directly or through other rows, belong to it.  When these rows are
erased table by table, the foreign keys hold all along if the tables are taken in an order in which
no reference to an erased table is left.
-/

namespace Utsuroi.Relational

/-- The foreign keys of a database: a column of one table holds the key of a row of another. -/
structure Schema (Table Column : Type) where
  tables : List Table
  columns : List Column
  table : Column → Table
  references : Column → Table
  nullable : Column → Bool

/-- `data` is what no key depends on. -/
structure Row (Column Data : Type) where
  id : String
  key : Column → Option String
  data : Data

abbrev Database (Table Column Data : Type) : Type := Table → List (Row Column Data)

/-- `DELETE FROM … WHERE …` and `UPDATE … SET … = NULL WHERE …`. -/
inductive Statement (Table Column Data : Type)
  | delete (table : Table) (condition : Database Table Column Data → Row Column Data → Bool)
  | clear (column : Column) (condition : Database Table Column Data → Row Column Data → Bool)

section Semantics

variable {Table Column Data : Type} (schema : Schema Table Column)

def Row.clear [DecidableEq Column] (row : Row Column Data) (column : Column) : Row Column Data :=
  { row with key := fun c => if c = column then none else row.key c }

def Statement.apply [DecidableEq Table] [DecidableEq Column] :
    Statement Table Column Data → Database Table Column Data → Database Table Column Data
  | .delete table condition, db => fun t =>
    if t = table then (db t).filter fun row => !condition db row else db t
  | .clear column condition, db => fun t =>
    if t = schema.table column then
      (db t).map fun row => if condition db row then row.clear column else row
    else db t

namespace Schema

/-- Primary keys, `NOT NULL` columns and foreign keys. -/
structure Consistent (db : Database Table Column Data) : Prop where
  distinct : ∀ t ∈ schema.tables, ((db t).map Row.id).Nodup
  required : ∀ c ∈ schema.columns, schema.nullable c = false →
    ∀ row ∈ db (schema.table c), row.key c ≠ none
  present : ∀ c ∈ schema.columns, ∀ row ∈ db (schema.table c), ∀ key ∈ row.key c,
    key ∈ (db (schema.references c)).map Row.id

instance : DecidablePred fun db : Database Table Column Data => schema.Consistent db := fun db =>
  decidable_of_iff
    ((∀ t ∈ schema.tables, ((db t).map Row.id).Nodup) ∧
      (∀ c ∈ schema.columns, schema.nullable c = false →
        ∀ row ∈ db (schema.table c), row.key c ≠ none) ∧
      ∀ c ∈ schema.columns, ∀ row ∈ db (schema.table c), ∀ key ∈ row.key c,
        key ∈ (db (schema.references c)).map Row.id)
    ⟨fun ⟨hdistinct, hrequired, hpresent⟩ => ⟨hdistinct, hrequired, hpresent⟩,
      fun ⟨hdistinct, hrequired, hpresent⟩ => ⟨hdistinct, hrequired, hpresent⟩⟩

/-- The row references the row `key` of the table `root`, directly or through other rows. -/
inductive Belongs (db : Database Table Column Data) (root : Table) (key : String) :
    Table → Row Column Data → Prop
  | root {row : Row Column Data} : row ∈ db root → row.id = key → Belongs db root key root row
  | child {c : Column} {row parent : Row Column Data} : c ∈ schema.columns →
      row ∈ db (schema.table c) → row.key c = some parent.id →
      Belongs db root key (schema.references c) parent →
      Belongs db root key (schema.table c) row

/-- No row belongs to two rows of the table `root`. -/
def SingleOwner (db : Database Table Column Data) (root : Table) : Prop :=
  ∀ key key' t row, schema.Belongs db root key t row → schema.Belongs db root key' t row →
    key = key'

/-- A row that references a doomed row is doomed. -/
def Downward (db : Database Table Column Data) (doomed : Table → Row Column Data → Prop) : Prop :=
  ∀ c ∈ schema.columns, ∀ row ∈ db (schema.table c), ∀ parent,
    row.key c = some parent.id → doomed (schema.references c) parent → doomed (schema.table c) row

end Schema

theorem belongs_downward (db : Database Table Column Data) (root : Table) (key : String) :
    schema.Downward db (schema.Belongs db root key) :=
  fun _ hc _ hrow _ hkey hparent => .child hc hrow hkey hparent

theorem mem_of_belongs {db : Database Table Column Data} {root t : Table} {key : String}
    {row : Row Column Data} (h : schema.Belongs db root key t row) : row ∈ db t := by
  cases h with
  | root hrow _ => exact hrow
  | child _ hrow _ _ => exact hrow

theorem belongs_iff {db : Database Table Column Data} {root t : Table} {key : String}
    {row : Row Column Data} :
    schema.Belongs db root key t row ↔
      row ∈ db t ∧ (t = root ∧ row.id = key ∨
        ∃ c ∈ schema.columns, schema.table c = t ∧ ∃ parent, row.key c = some parent.id ∧
          schema.Belongs db root key (schema.references c) parent) := by
  constructor
  · intro h
    cases h with
    | root hrow hid => exact ⟨hrow, .inl ⟨rfl, hid⟩⟩
    | child hc hrow hkey hparent => exact ⟨hrow, .inr ⟨_, hc, rfl, _, hkey, hparent⟩⟩
  · intro ⟨hrow, h⟩
    rcases h with ⟨rfl, hid⟩ | ⟨c, hc, rfl, parent, hkey, hparent⟩
    · exact .root hrow hid
    · exact .child hc hrow hkey hparent

/-- Only tables from which `root` can be reached hold rows that belong to one of its rows. -/
theorem belongs_reaches {db : Database Table Column Data} {root t : Table} {key : String}
    {row : Row Column Data} {reaching : List Table} (hroot : root ∈ reaching)
    (hclosed : ∀ c ∈ schema.columns, schema.references c ∈ reaching → schema.table c ∈ reaching)
    (h : schema.Belongs db root key t row) : t ∈ reaching := by
  induction h with
  | root _ _ => exact hroot
  | child hc _ _ _ ih => exact hclosed _ hc ih

/-- Rows have one owner when each can be labelled with it. -/
theorem singleOwner_of_label {db : Database Table Column Data} {root : Table}
    (label : Row Column Data → String) {reaching : List Table} (hroot : root ∈ reaching)
    (hclosed : ∀ c ∈ schema.columns, schema.references c ∈ reaching → schema.table c ∈ reaching)
    (hroots : ∀ row ∈ db root, label row = row.id)
    (hlabels : ∀ c ∈ schema.columns, schema.references c ∈ reaching →
      ∀ row ∈ db (schema.table c), ∀ parent ∈ db (schema.references c),
        row.key c = some parent.id → label row = label parent) :
    schema.SingleOwner db root := by
  have hlabel : ∀ {key : String} {t : Table} {row : Row Column Data},
      schema.Belongs db root key t row → label row = key := by
    intro key t row h
    induction h with
    | root hrow hid => rw [hroots _ hrow, hid]
    | child hc hrow hkey hparent ih =>
        have hreaching := belongs_reaches schema hroot hclosed hparent
        rw [hlabels _ hc hreaching _ hrow _ (mem_of_belongs schema hparent) hkey, ih]
  intro key key' t row h h'
  rw [← hlabel h, ← hlabel h']

end Semantics

/-! ## Erasing the rows of an owner -/

section Erasing

open Classical

variable {Table Column Data : Type} [DecidableEq Table] [DecidableEq Column]
variable (schema : Schema Table Column) (doomed : Table → Row Column Data → Prop)

/-- A doomed row whose `cleared` columns are empty. -/
noncomputable def erasedRow (cleared : List Column) (t : Table) (row : Row Column Data) :
    Row Column Data :=
  if doomed t row then
    { row with key := fun c => if c ∈ cleared ∧ schema.table c = t then none else row.key c }
  else row

/-- Doomed rows are gone from the tables `gone`; elsewhere their `cleared` columns are empty. -/
noncomputable def erased (gone : List Table) (cleared : List Column)
    (db : Database Table Column Data) : Database Table Column Data := fun t =>
  if t ∈ gone then (db t).filter fun row => decide (¬ doomed t row)
  else (db t).map (erasedRow schema doomed cleared t)

variable {schema doomed} {db : Database Table Column Data}

theorem erasedRow_safe {cleared : List Column} {t : Table} {row : Row Column Data}
    (h : ¬ doomed t row) : erasedRow schema doomed cleared t row = row :=
  if_neg h

@[simp] theorem erasedRow_id (cleared : List Column) (t : Table) (row : Row Column Data) :
    (erasedRow schema doomed cleared t row).id = row.id := by
  rw [erasedRow]
  split <;> rfl

theorem erasedRow_key {cleared : List Column} {c : Column} (h : c ∉ cleared) (t : Table)
    (row : Row Column Data) : (erasedRow schema doomed cleared t row).key c = row.key c := by
  rw [erasedRow]
  split
  · exact if_neg fun hc => h hc.1
  · rfl

theorem erasedRow_cleared {cleared : List Column} {c : Column} (h : c ∈ cleared)
    {row : Row Column Data} (hdoomed : doomed (schema.table c) row) :
    (erasedRow schema doomed cleared (schema.table c) row).key c = none := by
  rw [erasedRow, if_pos hdoomed]
  exact if_pos ⟨h, rfl⟩

theorem erasedRow_key_or (cleared : List Column) (c : Column) (t : Table) (row : Row Column Data) :
    (erasedRow schema doomed cleared t row).key c = row.key c ∨
      c ∈ cleared ∧ (erasedRow schema doomed cleared t row).key c = none := by
  rw [erasedRow]
  split
  · by_cases hc : c ∈ cleared ∧ schema.table c = t
    · exact .inr ⟨hc.1, if_pos hc⟩
    · exact .inl (if_neg hc)
  · exact .inl rfl

theorem erased_gone {gone : List Table} (cleared : List Column) {t : Table} (h : t ∈ gone) :
    erased schema doomed gone cleared db t = (db t).filter fun row => decide (¬ doomed t row) :=
  if_pos h

theorem erased_kept {gone : List Table} (cleared : List Column) {t : Table} (h : t ∉ gone) :
    erased schema doomed gone cleared db t = (db t).map (erasedRow schema doomed cleared t) :=
  if_neg h

theorem mem_erased {gone : List Table} {cleared : List Column} {t : Table}
    {row : Row Column Data} (h : row ∈ erased schema doomed gone cleared db t) :
    ∃ old ∈ db t, row = erasedRow schema doomed cleared t old ∧ (t ∈ gone → ¬ doomed t old) := by
  by_cases hgone : t ∈ gone
  · rw [erased_gone cleared hgone] at h
    obtain ⟨hrow, hkept⟩ := List.mem_filter.mp h
    have hsafe : ¬ doomed t row := of_decide_eq_true hkept
    exact ⟨row, hrow, (erasedRow_safe hsafe).symm, fun _ => hsafe⟩
  · rw [erased_kept cleared hgone] at h
    obtain ⟨old, hold, rfl⟩ := List.mem_map.mp h
    exact ⟨old, hold, rfl, fun hin => absurd hin hgone⟩

theorem erased_ids {gone : List Table} (cleared : List Column) {t : Table} (h : t ∉ gone) :
    (erased schema doomed gone cleared db t).map Row.id = (db t).map Row.id := by
  rw [erased_kept cleared h, List.map_map]
  apply List.map_congr_left
  intro row _
  exact erasedRow_id cleared t row

/-- No key dangles when a column into an erased table is a column of an erased table or cleared. -/
theorem erased_consistent {gone : List Table} {cleared : List Column}
    (h : schema.Consistent db)
    (hdown : schema.Downward db doomed)
    (hclosed : ∀ c ∈ schema.columns, schema.references c ∈ gone →
      schema.table c ∈ gone ∨ c ∈ cleared)
    (hnullable : ∀ c ∈ cleared, schema.nullable c = true) :
    schema.Consistent (erased schema doomed gone cleared db) where
  distinct := by
    intro t ht
    by_cases hgone : t ∈ gone
    · rw [erased, if_pos hgone]
      exact (h.distinct t ht).sublist (List.filter_sublist.map _)
    · rw [erased_ids cleared hgone]
      exact h.distinct t ht
  required := by
    intro c hc hnull row hrow
    obtain ⟨old, hold, rfl, -⟩ := mem_erased hrow
    rcases erasedRow_key_or cleared c (schema.table c) old with hkey | ⟨hcleared, -⟩
    · rw [hkey]
      exact h.required c hc hnull old hold
    · rw [hnullable c hcleared] at hnull
      cases hnull
  present := by
    intro c hc row hrow key hkey
    obtain ⟨old, hold, rfl, hsafe⟩ := mem_erased hrow
    rcases erasedRow_key_or cleared c (schema.table c) old with hsame | ⟨-, hnone⟩
    · have hold_key : old.key c = some key := hsame.symm.trans hkey
      have hparent := h.present c hc old hold key hold_key
      by_cases hgone : schema.references c ∈ gone
      · obtain ⟨parent, hmem, rfl⟩ := List.mem_map.mp hparent
        have hstays : ¬ doomed (schema.references c) parent := by
          intro hdoomed
          have hdoomed' := hdown c hc old hold parent hold_key hdoomed
          rcases hclosed c hc hgone with htable | hcolumn
          · exact hsafe htable hdoomed'
          · rw [erasedRow_cleared hcolumn hdoomed'] at hkey
            cases hkey
        rw [erased_gone cleared hgone]
        exact List.mem_map_of_mem (List.mem_filter.mpr ⟨hmem, decide_eq_true hstays⟩)
      · rw [erased_ids cleared hgone]
        exact hparent
    · rw [hnone] at hkey
      cases hkey

/-- `UPDATE … SET … = NULL` on the doomed rows of a table. -/
theorem apply_clear {column : Column}
    {condition : Database Table Column Data → Row Column Data → Bool}
    (h : ∀ row ∈ db (schema.table column),
      (condition db row = true ↔ doomed (schema.table column) row)) :
    Statement.apply schema (.clear column condition) db =
      erased schema doomed [] [column] db := by
  funext t
  rw [erased_kept _ List.not_mem_nil]
  by_cases ht : t = schema.table column
  · have happly : Statement.apply schema (.clear column condition) db t =
        (db t).map fun row => if condition db row then row.clear column else row := if_pos ht
    rw [happly]
    subst ht
    apply List.map_congr_left
    intro row hrow
    by_cases hdoomed : doomed (schema.table column) row
    · rw [if_pos ((h row hrow).mpr hdoomed), erasedRow, if_pos hdoomed, Row.clear]
      congr 1
      funext c
      by_cases hc : c = column
      · subst hc
        simp
      · simp [hc]
    · rw [if_neg fun hcond => hdoomed ((h row hrow).mp hcond), erasedRow_safe hdoomed]
  · have happly : Statement.apply schema (.clear column condition) db t = db t := if_neg ht
    have hnone : ∀ c, ¬ (c ∈ [column] ∧ schema.table c = t) := by
      intro c hc
      rw [List.mem_singleton.mp hc.1] at hc
      exact ht hc.2.symm
    have hsame : ∀ row ∈ db t, erasedRow schema doomed [column] t row = id row := by
      intro row _
      rw [erasedRow]
      simp only [hnone, if_false, ite_self, id]
    rw [happly, List.map_congr_left hsame, List.map_id]

/-- `DELETE` of the doomed rows of a table. -/
theorem apply_delete {gone : List Table} {cleared : List Column} {table : Table}
    {condition : Database Table Column Data → Row Column Data → Bool} (htable : table ∉ gone)
    (h : ∀ row ∈ db table,
      (condition (erased schema doomed gone cleared db)
        (erasedRow schema doomed cleared table row) = true ↔ doomed table row)) :
    Statement.apply schema (.delete table condition) (erased schema doomed gone cleared db) =
      erased schema doomed (table :: gone) cleared db := by
  funext t
  by_cases ht : t = table
  · have happly : Statement.apply schema (.delete table condition)
        (erased schema doomed gone cleared db) t =
        (erased schema doomed gone cleared db t).filter fun row =>
          !condition (erased schema doomed gone cleared db) row := if_pos ht
    subst ht
    rw [happly, erased_kept cleared htable, erased_gone cleared List.mem_cons_self,
      List.filter_map]
    have hfilter : (db t).filter ((fun row =>
        !condition (erased schema doomed gone cleared db) row) ∘
          erasedRow schema doomed cleared t) =
        (db t).filter fun row => decide (¬ doomed t row) := by
      apply List.filter_congr
      intro row hrow
      rw [Bool.eq_iff_iff, decide_eq_true_eq, ← h row hrow]
      simp
    have hsame : ∀ row ∈ (db t).filter fun row => decide (¬ doomed t row),
        erasedRow schema doomed cleared t row = id row :=
      fun row hrow => erasedRow_safe (of_decide_eq_true (List.mem_filter.mp hrow).2)
    rw [hfilter, List.map_congr_left hsame, List.map_id]
  · have happly : Statement.apply schema (.delete table condition)
        (erased schema doomed gone cleared db) t = erased schema doomed gone cleared db t :=
      if_neg ht
    rw [happly]
    by_cases hgone : t ∈ gone
    · rw [erased_gone cleared hgone, erased_gone cleared (List.mem_cons_of_mem _ hgone)]
    · have hkept : t ∉ table :: gone := fun hmem => (List.mem_cons.mp hmem).elim ht hgone
      rw [erased_kept cleared hgone, erased_kept cleared hkept]

theorem batch_clear {column : Column} {statements : List (Statement Table Column Data)}
    {condition : Database Table Column Data → Row Column Data → Bool}
    (hconsistent : schema.Consistent db) (hdown : schema.Downward db doomed)
    (hnullable : schema.nullable column = true)
    (h : ∀ row ∈ db (schema.table column),
      (condition db row = true ↔ doomed (schema.table column) row)) :
    Transaction.batch (Statement.apply schema) schema.Consistent
        (.clear column condition :: statements) db =
      Transaction.batch (Statement.apply schema) schema.Consistent statements
        (erased schema doomed [] [column] db) := by
  have hvalid : schema.Consistent (erased schema doomed [] [column] db) :=
    erased_consistent hconsistent hdown (fun _ _ hin => absurd hin List.not_mem_nil)
      (fun c hc => List.mem_singleton.mp hc ▸ hnullable)
  rw [← apply_clear h] at hvalid ⊢
  exact Transaction.batch_cons_of_valid hvalid

theorem batch_delete {gone : List Table} {cleared : List Column} {table : Table}
    {statements : List (Statement Table Column Data)}
    {condition : Database Table Column Data → Row Column Data → Bool}
    (hconsistent : schema.Consistent db) (hdown : schema.Downward db doomed)
    (hnullable : ∀ c ∈ cleared, schema.nullable c = true)
    (hclosed : ∀ c ∈ schema.columns, schema.references c ∈ table :: gone →
      schema.table c ∈ table :: gone ∨ c ∈ cleared)
    (htable : table ∉ gone)
    (h : ∀ row ∈ db table,
      (condition (erased schema doomed gone cleared db)
        (erasedRow schema doomed cleared table row) = true ↔ doomed table row)) :
    Transaction.batch (Statement.apply schema) schema.Consistent
        (.delete table condition :: statements) (erased schema doomed gone cleared db) =
      Transaction.batch (Statement.apply schema) schema.Consistent statements
        (erased schema doomed (table :: gone) cleared db) := by
  have hvalid := erased_consistent hconsistent hdown hclosed hnullable
  rw [← apply_delete htable h] at hvalid ⊢
  exact Transaction.batch_cons_of_valid hvalid

end Erasing

/-! ## Removing rows table by table -/

section Removing

variable {Table Column Data : Type} [DecidableEq Table] (doomed : Table → Row Column Data → Bool)

/-- Doomed rows are gone from the tables `gone`. -/
def removed (gone : List Table) (db : Database Table Column Data) : Database Table Column Data :=
  fun t => if t ∈ gone then (db t).filter fun row => !doomed t row else db t

variable {doomed} {db : Database Table Column Data} {gone : List Table} {table : Table}

theorem removed_nil : removed doomed [] db = db := by
  funext t
  simp [removed]

theorem mem_removed {t : Table} {row : Row Column Data} :
    row ∈ removed doomed gone db t ↔ row ∈ db t ∧ (t ∈ gone → doomed t row = false) := by
  unfold removed
  split
  · next hgone => simp [hgone]
  · next hkept => simp [hkept]

/-- Where no other table has doomed rows, all of them are gone. -/
theorem removed_eq_filter (h : ∀ t, t ∉ gone → ∀ row ∈ db t, doomed t row = false) :
    removed doomed gone db = fun t => (db t).filter fun row => !doomed t row := by
  funext t
  by_cases hgone : t ∈ gone
  · exact if_pos hgone
  · have hkept : removed doomed gone db t = db t := if_neg hgone
    rw [hkept]
    exact (List.filter_eq_self.mpr fun row hrow => by rw [h t hgone row hrow]; rfl).symm

variable {schema : Schema Table Column}

theorem apply_removed [DecidableEq Column]
    {condition : Database Table Column Data → Row Column Data → Bool}
    (htable : table ∉ gone)
    (h : ∀ row ∈ db table, condition (removed doomed gone db) row = doomed table row) :
    Statement.apply schema (.delete table condition) (removed doomed gone db) =
      removed doomed (table :: gone) db := by
  funext t
  by_cases ht : t = table
  · subst ht
    have happly : Statement.apply schema (.delete t condition) (removed doomed gone db) t =
        (removed doomed gone db t).filter fun row => !condition (removed doomed gone db) row :=
      if_pos rfl
    have hkept : removed doomed gone db t = db t := if_neg htable
    have hgone : removed doomed (t :: gone) db t = (db t).filter fun row => !doomed t row :=
      if_pos List.mem_cons_self
    rw [happly, hgone, hkept]
    exact List.filter_congr fun row hrow => by rw [h row hrow]
  · have happly : Statement.apply schema (.delete table condition) (removed doomed gone db) t =
        removed doomed gone db t := if_neg ht
    rw [happly]
    simp [removed, ht]

/-- The rows of a table go without a trace where no row that stays references one of them. -/
theorem consistent_removed_iff (h : schema.Consistent (removed doomed gone db))
    (hmem : table ∈ schema.tables) (htable : table ∉ gone) :
    schema.Consistent (removed doomed (table :: gone) db) ↔
      ∀ c ∈ schema.columns, schema.references c = table →
        ∀ row ∈ removed doomed (table :: gone) db (schema.table c), ∀ parent ∈ db table,
          doomed table parent = true → row.key c ≠ some parent.id := by
  have hfewer : ∀ t, removed doomed (table :: gone) db t ⊆ removed doomed gone db t := by
    intro t row hrow
    obtain ⟨hrow, hsafe⟩ := mem_removed.mp hrow
    exact mem_removed.mpr ⟨hrow, fun hgone => hsafe (List.mem_cons_of_mem _ hgone)⟩
  have hbefore : removed doomed gone db table = db table := if_neg htable
  have hafter : removed doomed (table :: gone) db table = (db table).filter fun row => !doomed table row :=
    if_pos List.mem_cons_self
  have hunique : ∀ row ∈ db table, ∀ other ∈ db table, row.id = other.id → row = other := by
    intro row hrow other hother hid
    have hdistinct := h.distinct table hmem
    rw [hbefore] at hdistinct
    exact List.inj_on_of_nodup_map hdistinct hrow hother hid
  constructor
  · rintro hconsistent c hc rfl row hrow parent hparent hdoomed hkey
    have hpresent := hconsistent.present c hc row hrow parent.id hkey
    rw [hafter] at hpresent
    obtain ⟨other, hother, hid⟩ := List.mem_map.mp hpresent
    obtain ⟨hother, hsafe⟩ := List.mem_filter.mp hother
    rw [hunique other hother parent hparent hid, hdoomed] at hsafe
    contradiction
  · intro hfree
    constructor
    case distinct =>
      intro t ht
      by_cases heq : t = table
      · subst heq
        have hdistinct := h.distinct t ht
        rw [hbefore] at hdistinct
        rw [hafter]
        exact hdistinct.sublist (List.filter_sublist.map _)
      · have hsame : removed doomed (table :: gone) db t = removed doomed gone db t := by
          simp [removed, heq]
        rw [hsame]
        exact h.distinct t ht
    case required => exact fun c hc hnull row hrow => h.required c hc hnull row (hfewer _ hrow)
    case present =>
      intro c hc row hrow key hkey
      have hpresent := h.present c hc row (hfewer _ hrow) key hkey
      by_cases heq : schema.references c = table
      · subst heq
        rw [hbefore] at hpresent
        obtain ⟨parent, hparent, rfl⟩ := List.mem_map.mp hpresent
        rw [hafter]
        refine List.mem_map_of_mem (List.mem_filter.mpr ⟨hparent, ?_⟩)
        by_contra hdoomed
        exact hfree c hc rfl row hrow parent hparent (by simpa using hdoomed) hkey
      · have hsame : removed doomed (table :: gone) db (schema.references c) =
            removed doomed gone db (schema.references c) := by
          simp [removed, heq]
        rw [hsame]
        exact hpresent

/-- Nothing stands in the way where no column references the table. -/
theorem consistent_removed_leaf (h : schema.Consistent (removed doomed gone db))
    (hmem : table ∈ schema.tables) (htable : table ∉ gone)
    (hleaf : ∀ c ∈ schema.columns, schema.references c ≠ table) :
    schema.Consistent (removed doomed (table :: gone) db) :=
  (consistent_removed_iff h hmem htable).mpr fun c hc hreferences => absurd hreferences (hleaf c hc)

variable [DecidableEq Column]

/-- A statement that nothing stands in the way of. -/
theorem batch_removed {statements : List (Statement Table Column Data)}
    {condition : Database Table Column Data → Row Column Data → Bool}
    (hvalid : schema.Consistent (removed doomed (table :: gone) db)) (htable : table ∉ gone)
    (h : ∀ row ∈ db table, condition (removed doomed gone db) row = doomed table row) :
    Transaction.batch (Statement.apply schema) schema.Consistent
        (.delete table condition :: statements) (removed doomed gone db) =
      Transaction.batch (Statement.apply schema) schema.Consistent statements
        (removed doomed (table :: gone) db) := by
  have happly : Statement.apply schema (.delete table condition) (removed doomed gone db) =
      removed doomed (table :: gone) db := apply_removed htable h
  rw [← happly] at hvalid ⊢
  exact Transaction.batch_cons_of_valid hvalid

/-- A statement that a row that stays stands in the way of. -/
theorem batch_blocked {statements : List (Statement Table Column Data)}
    {condition : Database Table Column Data → Row Column Data → Bool}
    (hconsistent : schema.Consistent (removed doomed gone db)) (hmem : table ∈ schema.tables)
    (htable : table ∉ gone)
    (h : ∀ row ∈ db table, condition (removed doomed gone db) row = doomed table row)
    {c : Column} (hc : c ∈ schema.columns) (hreferences : schema.references c = table)
    {row parent : Row Column Data}
    (hrow : row ∈ removed doomed (table :: gone) db (schema.table c)) (hparent : parent ∈ db table)
    (hdoomed : doomed table parent = true) (hkey : row.key c = some parent.id) :
    Transaction.batch (Statement.apply schema) schema.Consistent
        (.delete table condition :: statements) (removed doomed gone db) = none := by
  rw [Transaction.batch, apply_removed htable h, if_neg]
  intro hvalid
  exact (consistent_removed_iff hconsistent hmem htable).mp hvalid c hc hreferences row hrow parent
    hparent hdoomed hkey

end Removing

end Utsuroi.Relational

import SchemaSnapshot.Proofs.Exclusion
import SchemaSnapshot.Proofs.Sqlite.ForeignKeys

/-!
# Excluded tables of a SQLite database

A database may keep tables that no snapshot shows. Here a catalog is compared to the catalog without
some of these tables (`Catalog.Without`). What is loaded differs in the rows about them, to which no
reader listens; it can also differ in the foreign keys that are listed under tables of the user's.
Where a removed table refers to a table of the user's (`Catalog.LeadsOut`), the catalog with it
makes a run fail, and where a table of the user's refers to removed tables only (`Catalog.LeadsIn`),
the catalog without them does. Apart from that, runs end alike (`exclusion_of_catalog`).
-/

namespace SchemaSnapshot.Sqlite

namespace Catalog

/-! ### A catalog without some tables -/

/-- Whether `r` stays when the tables `removed` are removed. -/
def stays (removed : List String) (r : Relation) : Bool :=
  !(r.isTable && removed.contains r.name)

theorem stays_of_not_mem {removed : List String} {r : Relation} (hr : r.name ∉ removed) :
    stays removed r = true := by
  simp [stays, hr]

/-- The tables and views of `c` as they are listed. -/
def listed (c : Catalog) : Except QueryFailure (List Relation) :=
  c.objects.map (List.filterMap (·.relation?))

/-- `c'` is `c` without some tables. The other tables and views are listed as before, and what is
told about them and about the indexes of the other tables is the same. -/
structure Without (removed : List String) (c c' : Catalog) : Prop where
  listed : c'.listed = c.listed.map (List.filter (stays removed))
  tableInfo : ∀ name ∉ removed, c'.tableInfo name = c.tableInfo name
  indexList : ∀ name ∉ removed, c'.indexList name = c.indexList name
  indexInfo : ∀ table, c.HasTable table → table ∉ removed → ∀ index ∈ rowsOf (c.indexesOn table),
    c'.indexInfo index = c.indexInfo index
  foreignKeyList : ∀ name ∉ removed, c'.foreignKeyList name = c.foreignKeyList name

/-- The catalog `c` without the tables `removed`, with no rows left about them. -/
def without (c : Catalog) (removed : List String) : Catalog where
  objects := c.objects.map (List.filter fun o => !(o.type == "table" && removed.contains o.name))
  tableInfo name := if name ∈ removed then .ok [] else c.tableInfo name
  indexList name := if name ∈ removed then .ok [] else c.indexList name
  indexInfo index :=
    if ∃ table ∈ c.tableNames, table ∉ removed ∧ index ∈ rowsOf (c.indexesOn table) then
      c.indexInfo index
    else .ok []
  foreignKeyList name := if name ∈ removed then .ok [] else c.foreignKeyList name

theorem filter_relation? (removed : List String) (o : ObjectRecord) :
    (if !(o.type == "table" && removed.contains o.name) then o.relation? else none) =
      o.relation?.filter (stays removed) := by
  obtain ⟨type, name, sql⟩ := o
  unfold ObjectRecord.relation?
  by_cases htable : type = "table"
  · simp [htable, stays, Relation.isTable, Option.filter]
  · by_cases hview : type = "view"
    · simp [hview, stays, Relation.isTable, Option.filter]
    · simp [htable, hview]

theorem without_spec (c : Catalog) (removed : List String) :
    c.Without removed (c.without removed) where
  listed := by
    unfold listed without
    cases c.objects with
    | error failure => rfl
    | ok rows =>
      refine congrArg Except.ok ?_
      rw [List.filterMap_filter, List.filter_filterMap]
      exact List.filterMap_congr fun o _ => filter_relation? removed o
  tableInfo name hname := if_neg hname
  indexList name hname := if_neg hname
  indexInfo table htable hkept index hindex :=
    if_pos ⟨table, mem_tableNames.2 htable, hkept, hindex⟩
  foreignKeyList name hname := if_neg hname

end Catalog

section Without

variable {c c' : Catalog} {removed : List String} (h : c.Without removed c')
include h

theorem relationList_of_without :
    c'.relationList = c.relationList.filter (Catalog.stays removed) := by
  -- `relationList` depends on what is listed, in whatever order
  have hlist (c : Catalog) : c.relationList = orderedBy (·.name) (rowsOf c.listed) := by
    unfold Catalog.relationList Catalog.relations Catalog.listed
    cases c.objects <;> rfl
  rw [hlist, hlist, h.listed, rowsOf_map _ _ List.filter_nil, orderedBy_filter]

theorem tableNames_of_without :
    c'.tableNames = c.tableNames.filter fun name => !removed.contains name := by
  unfold Catalog.tableNames
  rw [relationList_of_without h, List.filter_map, List.filter_filter, List.filter_filter]
  refine congrArg _ (List.filter_congr fun relation _ => ?_)
  unfold Catalog.stays
  cases relation.isTable <;> simp

theorem records_of_without {name : String} (hname : name ∉ removed) :
    c'.records name = c.records name := by
  rw [Catalog.records, Catalog.columnsOf, h.tableInfo name hname]
  rfl

theorem declaredOn_of_without {name : String} (hname : name ∉ removed) :
    c'.declaredOn name = c.declaredOn name := by
  rw [Catalog.declaredOn, Catalog.foreignKeysOf, h.foreignKeyList name hname]
  rfl

theorem indexRowsOn_of_without {table : String} (htable : c.HasTable table)
    (hkept : table ∉ removed) : c'.indexRowsOn table = c.indexRowsOn table := by
  have hlist : c'.indexesOn table = c.indexesOn table := by
    rw [Catalog.indexesOn, h.indexList table hkept]
    rfl
  unfold Catalog.indexRowsOn
  rw [hlist]
  refine List.flatMap_congr fun index hindex => ?_
  rw [Catalog.rowsOfIndex, Catalog.indexColumnsOf, h.indexInfo table htable hkept index hindex]
  rfl

/-- `c'.relationList.filter q = c.relationList.filter q` if every relation with `q` stays. -/
theorem filter_relationList_of_without {q : Relation → Bool}
    (hq : ∀ r, q r = true → Catalog.stays removed r = true) :
    c'.relationList.filter q = c.relationList.filter q := by
  rw [relationList_of_without h, List.filter_filter]
  refine List.filter_congr fun r _ => ?_
  cases hr : q r with
  | true => simp [hq r hr]
  | false => rfl

/-- Rows with `p` are the same in `c'` as in `c`, if they are about relations that stay. -/
theorem filter_rows_of_without {β : Type} (rows : Relation → List ColumnRecord → List β)
    {p : β → Bool} {q : Relation → Bool} (hp : ∀ r records, ∀ b ∈ rows r records, p b = q r)
    (hq : ∀ r, q r = true → r.name ∉ removed) :
    (c'.relationList.flatMap fun r => rows r (c'.records r.name)).filter p =
      (c.relationList.flatMap fun r => rows r (c.records r.name)).filter p := by
  -- Both lists are put together from groups of rows, one for each table or view.
  rw [filter_flatMap_of_groups fun r _ => hp r _, filter_flatMap_of_groups fun r _ => hp r _,
    filter_relationList_of_without h fun r hr => Catalog.stays_of_not_mem (hq r hr)]
  refine List.flatMap_congr fun r hr => ?_
  rw [records_of_without h (hq r (List.mem_filter.1 hr).2)]

theorem filter_primaryKeyRows_of_without {table : String} (htable : table ∉ removed) :
    c'.primaryKeyRows.filter (·.table == table) = c.primaryKeyRows.filter (·.table == table) := by
  refine filter_rows_of_without h (fun r records => records.filterMap (·.primaryKeyRow? r.name)) ?_
    (q := fun r => r.name == table) ?_
  · intro r records row hrow
    obtain ⟨record, -, hkey⟩ := List.mem_filterMap.1 hrow
    obtain ⟨-, rfl⟩ := ColumnRecord.primaryKeyRow?_eq_some_iff.1 hkey
    rfl
  · intro r hr
    rw [beq_iff_eq.1 hr]
    exact htable

omit h in
theorem table_of_mem_indexRowsOn {table : String} {row : IndexRow}
    (hrow : row ∈ c.indexRowsOn table) : row.table = table := by
  obtain ⟨index, -, hrow⟩ := List.mem_flatMap.1 hrow
  unfold Catalog.rowsOfIndex at hrow
  split at hrow
  · cases hrow
  · obtain ⟨column, -, rfl⟩ := List.mem_map.1 hrow
    rfl

theorem filter_indexRows_of_without {table : String} (htable : table ∉ removed) :
    (c'.tableNames.flatMap c'.indexRowsOn).filter (·.table == table) =
      (c.tableNames.flatMap c.indexRowsOn).filter (·.table == table) := by
  -- the rows of one table stand together, one group for each name
  have hgroup (c : Catalog) (name : String) : ∀ row ∈ c.indexRowsOn name,
      (row.table == table) = (name == table) := by
    intro row hrow
    rw [table_of_mem_indexRowsOn hrow]
  have hnames : c'.tableNames.filter (· == table) = c.tableNames.filter (· == table) := by
    rw [tableNames_of_without h, List.filter_filter]
    refine List.filter_congr fun name _ => ?_
    by_cases hname : name = table
    · subst hname
      simp [htable]
    · simp [hname]
  rw [filter_flatMap_of_groups fun name _ => hgroup c' name,
    filter_flatMap_of_groups fun name _ => hgroup c name, hnames]
  refine List.flatMap_congr fun name hname => ?_
  obtain ⟨hmem, hsame⟩ := List.mem_filter.1 hname
  rw [beq_iff_eq.1 hsame] at hmem ⊢
  exact indexRowsOn_of_without h (Catalog.mem_tableNames.1 hmem) htable

/-- `c'.declaredKeys` are those of `c.declaredKeys` with `k.table ∉ removed`. -/
theorem declaredKeys_of_without :
    c'.declaredKeys = c.declaredKeys.filter fun k => !removed.contains k.table := by
  have hgroup (name : String) : ∀ k ∈ c.declaredOn name,
      (!removed.contains k.table) = !removed.contains name := by
    intro k hk
    obtain ⟨record, -, rfl⟩ := List.mem_map.1 hk
    rfl
  rw [Catalog.declaredKeys, Catalog.declaredKeys,
    filter_flatMap_of_groups fun name _ => hgroup name, tableNames_of_without h]
  refine List.flatMap_congr fun name hname => ?_
  exact declaredOn_of_without h (by simpa using (List.mem_filter.1 hname).2)

/-! ### Where foreign keys are listed -/

theorem keyColumn?_of_without {table : String} (htable : table ∉ removed) (place : Int) :
    keyColumn? c'.primaryKeyRows table place = keyColumn? c.primaryKeyRows table place := by
  have hfind (rows : List PrimaryKeyRow) :
      (rows.find? fun k => k.table == table && k.position.toInt == place) =
        (rows.filter (·.table == table)).find? (·.position.toInt == place) := by
    simp only [List.find?_filter, Bool.decide_and, Bool.decide_eq_true]
  rw [keyColumn?, keyColumn?, hfind, hfind, filter_primaryKeyRows_of_without h htable]

theorem row_of_without {k : DeclaredKey} {target : String} (htarget : target ∉ removed) :
    k.row c' target = k.row c target := by
  simp only [DeclaredKey.row, DeclaredKey.targetColumn, keyColumn?_of_without h htarget]

theorem hasTable_of_without {name : String} :
    c'.HasTable name ↔ c.HasTable name ∧ name ∉ removed := by
  rw [← Catalog.mem_tableNames, ← Catalog.mem_tableNames, tableNames_of_without h, List.mem_filter]
  simp

theorem refersTo_of_without {key : ForeignKeyRecord} {target : String} :
    c'.RefersTo key target ↔ c.RefersTo key target ∧ target ∉ removed := by
  rw [Catalog.RefersTo, Catalog.RefersTo, hasTable_of_without h, and_right_comm]

/-- A declaration that leads to `target` in `c` leads to it in `c'` too, unless `target` is
removed. -/
theorem referenced?_of_without {k : DeclaredKey} {target : String}
    (hreferenced : k.referenced? c.tableNames = some target) (htarget : target ∉ removed) :
    k.referenced? c'.tableNames = some target := by
  rw [DeclaredKey.referenced?, tableNames_of_without h]
  exact find?_filter_of_find? hreferenced (by simpa using htarget)

end Without

/-- The row of a declaration among those that are listed under `table`, if it is one of them. -/
def DeclaredKey.rowUnder? (c : Catalog) (table : String) (k : DeclaredKey) :
    Option ForeignKeyRow :=
  if (k.resolve c.tableNames c.primaryKeyRows).1 == table then
    some (k.resolve c.tableNames c.primaryKeyRows).2
  else none

theorem keysListedUnder_eq_filterMap (c : Catalog) (table : String) :
    c.keysListedUnder table = c.declaredKeys.filterMap (·.rowUnder? c table) := by
  unfold Catalog.keysListedUnder
  induction c.declaredKeys with
  | nil => rfl
  | cons k rest ih =>
    rw [List.map_cons, List.filter_cons, List.filterMap_cons, DeclaredKey.rowUnder?]
    split <;> simp [ih]

namespace Catalog

/-- Some table of `removed` refers to a table of the user's. -/
def LeadsOut (c : Catalog) (options : Options) (removed : List String) : Prop :=
  ∃ table ∈ removed, ∃ key, c.Declares table key ∧
    ∃ target, c.RefersTo key target ∧ options.excludes target = false

/-- Some table of the user's refers to tables of `removed`, and to no other table. -/
def LeadsIn (c : Catalog) (options : Options) (removed : List String) : Prop :=
  ∃ table key, c.Declares table key ∧ options.excludes table = false ∧
    (∃ target, c.RefersTo key target) ∧ ∀ target, c.RefersTo key target → target ∈ removed

end Catalog

section Listing

variable {c c' : Catalog} {options : Options} {removed : List String}

theorem not_mem_of_live
    (hremoved : ∀ name ∈ removed, c.HasTable name ∧ options.excludes name = true)
    {name : String} (hlive : options.excludes name = false) : name ∉ removed := by
  intro hmem
  rw [(hremoved name hmem).2] at hlive
  cases hlive

variable (hremoved : ∀ name ∈ removed, c.HasTable name ∧ options.excludes name = true)
  {table : String} (htable : options.excludes table = false)
include htable

/-- `k.rowUnder? c table = none` if `k` is listed under an excluded table. -/
theorem rowUnder?_of_excluded {k : DeclaredKey}
    (h : options.excludes (k.resolve c.tableNames c.primaryKeyRows).1 = true) :
    k.rowUnder? c table = none := by
  rw [DeclaredKey.rowUnder?, if_neg]
  intro hsame
  rw [beq_iff_eq.1 hsame, htable] at h
  cases h

theorem rowUnder?_of_referenced? {k : DeclaredKey} {target : String}
    (h : k.referenced? c.tableNames = some target) (hexcluded : options.excludes target = true) :
    k.rowUnder? c table = none := by
  apply rowUnder?_of_excluded htable
  rw [DeclaredKey.resolve_of_referenced? h]
  exact hexcluded

include hremoved

/-- `k.rowUnder? c table = none` if a removed table declares `k`, unless it leads out to a table of
the user's. -/
theorem rowUnder?_of_removed (hout : ¬c.LeadsOut options removed) {k : DeclaredKey}
    (hk : c.Declares k.table k.record) (hmem : k.table ∈ removed) :
    k.rowUnder? c table = none := by
  cases hreferenced : k.referenced? c.tableNames with
  -- a reference that leads nowhere is listed under the table that refers, which is excluded
  | none =>
    apply rowUnder?_of_excluded htable
    rw [DeclaredKey.resolve_of_none hreferenced]
    exact (hremoved k.table hmem).2
  -- it leads to an excluded table, as it does not lead out
  | some target =>
    apply rowUnder?_of_referenced? htable hreferenced
    rw [← Bool.not_eq_false]
    intro hlive
    exact hout ⟨k.table, hmem, k.record, hk, target,
      DeclaredKey.refersTo_of_referenced? hreferenced, hlive⟩

/-- `k.rowUnder? c' table = k.rowUnder? c table` if a table that stays declares `k`, unless it led
to a removed table. -/
theorem rowUnder?_of_without (h : c.Without removed c') (hin : ¬c.LeadsIn options removed)
    {k : DeclaredKey} (hk : c.Declares k.table k.record) :
    k.rowUnder? c' table = k.rowUnder? c table := by
  cases hreferenced : k.referenced? c.tableNames with
  | none =>
    -- Nothing has the name in either catalog, and no removed table in particular.
    have hnone := DeclaredKey.referenced?_eq_none_iff.1 hreferenced
    have hreferenced' : k.referenced? c'.tableNames = none := by
      rw [DeclaredKey.referenced?_eq_none_iff]
      exact fun target htarget => hnone target ((refersTo_of_without h).1 htarget).1
    have hname : k.record.target ∉ removed := fun hmem =>
      hnone _ ⟨(hremoved _ hmem).1, Text.sameIgnoringCase_iff.2 rfl⟩
    rw [DeclaredKey.rowUnder?, DeclaredKey.rowUnder?, DeclaredKey.resolve_of_none hreferenced,
      DeclaredKey.resolve_of_none hreferenced', row_of_without h hname]
  | some target =>
    have hrefers := DeclaredKey.refersTo_of_referenced? hreferenced
    cases hlive : options.excludes target with
    | false =>
      -- A table of the user's is referred to. It stays, and the search ends at it as before.
      have hstays := not_mem_of_live hremoved hlive
      rw [DeclaredKey.rowUnder?, DeclaredKey.rowUnder?,
        DeclaredKey.resolve_of_referenced? hreferenced,
        DeclaredKey.resolve_of_referenced? (referenced?_of_without h hreferenced hstays),
        row_of_without h hstays]
    | true =>
      -- An excluded table is referred to, so the declaration is listed under an excluded table.
      rw [rowUnder?_of_referenced? htable hreferenced hlive]
      cases hreferenced' : k.referenced? c'.tableNames with
      | some other =>
        apply rowUnder?_of_referenced? htable hreferenced'
        rw [(DeclaredKey.refersTo_of_referenced? hreferenced').excludes_eq, ← hrefers.excludes_eq]
        exact hlive
      | none =>
        -- Only removed tables had the name, so the table that refers is not one of the user's.
        apply rowUnder?_of_excluded htable
        rw [DeclaredKey.resolve_of_none hreferenced', ← Bool.not_eq_false]
        intro hreferring
        refine hin ⟨k.table, k.record, hk, hreferring, ⟨target, hrefers⟩, fun other hother => ?_⟩
        by_contra hstays
        exact DeclaredKey.referenced?_eq_none_iff.1 hreferenced' other
          ((refersTo_of_without h).2 ⟨hother, hstays⟩)

theorem keysListedUnder_of_without (h : c.Without removed c')
    (hout : ¬c.LeadsOut options removed) (hin : ¬c.LeadsIn options removed) :
    c'.keysListedUnder table = c.keysListedUnder table := by
  rw [keysListedUnder_eq_filterMap, keysListedUnder_eq_filterMap, declaredKeys_of_without h,
    List.filterMap_filter]
  refine List.filterMap_congr fun k hk => ?_
  have hdeclares := Catalog.mem_declaredKeys.1 hk
  -- either the declaration is gone with its table, or it is listed as before
  by_cases hmem : k.table ∈ removed
  · rw [if_neg (by simpa using hmem), rowUnder?_of_removed hremoved htable hout hdeclares hmem]
  · rw [if_pos (by simpa using hmem), rowUnder?_of_without hremoved htable h hin hdeclares]

end Listing

/-! ### The result -/

section Result

variable {c c' : Catalog} {options : Options} {removed : List String}

theorem filter_objectRows_of_without (h : c.Without removed c') {p : ObjectRow → Bool}
    (hp : ∀ r : Relation, p r.objectRow = true → r.name ∉ removed) :
    c'.objectRows.filter p = c.objectRows.filter p := by
  rw [Catalog.objectRows, Catalog.objectRows, List.filter_map, List.filter_map]
  exact congrArg (List.map _)
    (filter_relationList_of_without h fun r hr => Catalog.stays_of_not_mem (hp r hr))

theorem viewDefinition_of_without (h : c.Without removed c') (name : String) :
    (c'.metadata options).viewDefinition name = (c.metadata options).viewDefinition name := by
  have hviews : c'.relationList.filter (fun r => r.isView && r.name == name) =
      c.relationList.filter fun r => r.isView && r.name == name := by
    refine filter_relationList_of_without h fun r hr => ?_
    obtain ⟨kind, _, _⟩ := r
    cases kind with
    | table => cases hr
    | view => rfl
  exact congrArg (fun views : List Relation => views.getLast?.bind (·.sql)) hviews

/-- `c` and `c'` report the same about the user's objects, `SameForUser`, if no foreign key leads
from the removed tables to the user's or from the user's to these. -/
theorem sameForUser_of_without (h : c.Without removed c')
    (hremoved : ∀ name ∈ removed, c.HasTable name ∧ options.excludes name = true)
    (hout : ¬c.LeadsOut options removed) (hin : ¬c.LeadsIn options removed) (scope : Scope) :
    (c.metadata options).source.SameForUser (c'.metadata options).source scope where
  label := rfl
  supportsSequences := rfl
  supportsDeferrable := rfl
  isSystem := rfl
  isBookkeeping := rfl
  objects := by
    refine congrArg Except.ok ?_
    split
    · refine (filter_objectRows_of_without h fun r hr => ?_).symm
      have hlive : (!options.excludes r.name) = true := hr
      exact not_mem_of_live hremoved (by simpa using hlive)
    · rfl
  columns := by
    refine congrArg Except.ok ?_
    split
    · refine (filter_rows_of_without h (fun r records => records.map (·.columnRow r))
        (q := fun r => !options.excludes r.name) ?_ fun r hr => ?_).symm
      · intro r records row hrow
        obtain ⟨record, -, rfl⟩ := List.mem_map.1 hrow
        rfl
      · exact not_mem_of_live hremoved (by simpa using hr)
    · rfl
  viewDefinition name _ := congrArg Except.ok (viewDefinition_of_without h name).symm
  foreignKeysTo := by
    rintro table ⟨scope, hlive⟩
    exact congrArg Except.ok (keysListedUnder_of_without hremoved hlive h hout hin).symm
  primaryKeys := by
    rintro table ⟨scope, hlive⟩
    exact congrArg Except.ok
      (filter_primaryKeyRows_of_without h (not_mem_of_live hremoved hlive)).symm
  indexInfo := by
    rintro table ⟨scope, hlive⟩
    exact congrArg Except.ok (filter_indexRows_of_without h (not_mem_of_live hremoved hlive)).symm
  sequenceNames := rfl

/-- With `c.LeadsOut options removed` a run on `c` fails with `e.kind = .referentialIntegrity`. -/
theorem referentialIntegrity_of_leadsOut {r : Reader}
    (hremoved : ∀ name ∈ removed, c.HasTable name ∧ options.excludes name = true)
    (hr : r.source = (c.metadata options).source) (hapart : c.NamesApart)
    (hscope : Metadata.inScope r.scope = true) (hout : c.LeadsOut options removed) :
    ∃ e, r.read.outcome = .error e ∧ e.kind = .referentialIntegrity := by
  obtain ⟨table, hmem, key, hkey, target, htarget, hlive⟩ := hout
  exact (referentialIntegrity_iff hr hapart hscope).2
    ⟨table, key, hkey, .inr ⟨(hremoved table hmem).2, target, htarget, hlive⟩⟩

/-- With `c.LeadsIn options removed` a run on `c'` fails with `e.kind = .referentialIntegrity`. -/
theorem referentialIntegrity_of_leadsIn {r : Reader} (h : c.Without removed c')
    (hremoved : ∀ name ∈ removed, c.HasTable name ∧ options.excludes name = true)
    (hr : r.source = (c'.metadata options).source) (hapart : c.NamesApart)
    (hscope : Metadata.inScope r.scope = true) (hin : c.LeadsIn options removed) :
    ∃ e, r.read.outcome = .error e ∧ e.kind = .referentialIntegrity := by
  obtain ⟨table, key, ⟨htable, hkeys⟩, hlive, -, hall⟩ := hin
  have hstays := not_mem_of_live hremoved hlive
  -- the tables that stay have their names from `c`
  have hapart' : c'.NamesApart := by
    refine List.Nodup.sublist ?_ hapart
    rw [relationList_of_without h]
    exact List.filter_sublist.map _
  have hdeclares : c'.Declares table key := by
    refine ⟨(hasTable_of_without h).2 ⟨htable, hstays⟩, ?_⟩
    rwa [h.foreignKeyList table hstays]
  refine (referentialIntegrity_iff hr hapart' hscope).2 ⟨table, key, hdeclares, .inl ⟨hlive, ?_⟩⟩
  intro target htarget
  obtain ⟨htarget, hkept⟩ := (refersTo_of_without h).1 htarget
  exact hkept (hall target htarget)

end Result

/-- **Excluded tables have no part in a snapshot,** apart from references between them and the
user's tables. Take a catalog and the same catalog without some of its tables, whose names are
excluded, both of which can be loaded; and two readers that are given the one and the other, with
the same dialect and configuration. If none of these tables refers to a table of the user's, and no
table of the user's refers to these tables and to no other, the runs end alike: with the same
snapshot, or with the same error. If the names of the catalog are different and the schema is the
one that is read, both conditions are needed: in the first case the run on the catalog with the
tables fails for a reference, in the second case the run on the catalog without them does. -/
theorem exclusion_of_catalog {c c' : Catalog} {options : Options} {removed : List String}
    {m m' : Metadata} {r r' : Reader} (hm : (load c options).outcome = .ok m)
    (hm' : (load c' options).outcome = .ok m') (hr : r.source = m.source)
    (hr' : r'.source = m'.source) (hdialect : r.dialect = r'.dialect)
    (hconfig : r.config = r'.config) (h : c.Without removed c')
    (hremoved : ∀ name ∈ removed, c.HasTable name ∧ options.excludes name = true) :
    (¬c.LeadsOut options removed → ¬c.LeadsIn options removed →
      r.read.outcome = r'.read.outcome) ∧
    (c.NamesApart → Metadata.inScope r.scope = true →
      (c.LeadsOut options removed →
        ∃ e, r.read.outcome = .error e ∧ e.kind = .referentialIntegrity) ∧
      (c.LeadsIn options removed →
        ∃ e, r'.read.outcome = .error e ∧ e.kind = .referentialIntegrity)) := by
  obtain ⟨-, rfl⟩ := load_eq_ok_iff.1 hm
  obtain ⟨-, rfl⟩ := load_eq_ok_iff.1 hm'
  constructor
  · intro hout hin
    refine Reader.read_of_sameForUser ?_ hdialect hconfig
    rw [hr, hr']
    exact sameForUser_of_without h hremoved hout hin _
  · intro hapart hscope
    have hscope' : Metadata.inScope r'.scope = true := by
      rwa [show r'.scope = r.scope from congrArg Config.scope hconfig.symm]
    exact ⟨referentialIntegrity_of_leadsOut hremoved hr hapart hscope,
      referentialIntegrity_of_leadsIn h hremoved hr' hapart hscope'⟩

/-- An office with users and a change log, and some foreign keys. The primary key of the change log
has a gap, for which a run would fail that came to it. -/
def office (keys : String → List ForeignKeyRecord) : Catalog where
  objects := .ok [⟨"table", "users", none⟩, ⟨"table", "DATABASECHANGELOG", none⟩]
  tableInfo name :=
    if name = "users" then .ok [⟨0, "id", "INTEGER", 0, none, 1⟩]
    else .ok [⟨0, "id", "TEXT", 0, none, 7⟩]
  indexList _ := .ok []
  indexInfo _ := .ok []
  foreignKeyList name := .ok (keys name)

/-- The table that is removed from the office. -/
def changeLog : List String := ["DATABASECHANGELOG"]

/-- A change log that refers to itself. -/
def keysInside (name : String) : List ForeignKeyRecord :=
  if name = "DATABASECHANGELOG" then [⟨0, 0, "databasechangelog", "previous", none⟩] else []

/-- A change log that refers to users. -/
def keysOut (name : String) : List ForeignKeyRecord :=
  if name = "DATABASECHANGELOG" then [⟨0, 0, "users", "author", some "id"⟩] else []

/-- Users that refer to the change log. -/
def keysIn (name : String) : List ForeignKeyRecord :=
  if name = "users" then [⟨0, 0, "databasechangelog", "change", none⟩] else []

section Office

variable (keys : String → List ForeignKeyRecord)

theorem load_office : (load (office keys) {}).outcome = .ok ((office keys).metadata {}) := rfl

theorem load_office_without :
    (load ((office keys).without changeLog) {}).outcome =
      .ok (((office keys).without changeLog).metadata {}) := rfl

theorem changeLog_excluded :
    ∀ name ∈ changeLog, (office keys).HasTable name ∧ ({} : Options).excludes name = true := by
  intro name hname
  obtain rfl := List.mem_singleton.1 hname
  exact ⟨⟨_, none, rfl, by decide⟩, by decide⟩

end Office

theorem exclusion_of_catalog_office :
    (readerOf (office keysInside)).read.outcome =
        (readerOf ((office keysInside).without changeLog)).read.outcome ∧
      ∃ e, (readerOf (office keysOut)).read.outcome = .error e ∧
        e.kind = .referentialIntegrity := by
  have hinside := exclusion_of_catalog (load_office keysInside) (load_office_without keysInside)
    (rfl : (readerOf (office keysInside)).source = _)
    (rfl : (readerOf ((office keysInside).without changeLog)).source = _) rfl rfl
    ((office keysInside).without_spec changeLog) (changeLog_excluded keysInside)
  have hout := exclusion_of_catalog (load_office keysOut) (load_office_without keysOut)
    (rfl : (readerOf (office keysOut)).source = _)
    (rfl : (readerOf ((office keysOut).without changeLog)).source = _) rfl rfl
    ((office keysOut).without_spec changeLog) (changeLog_excluded keysOut)
  constructor
  · apply hinside.1
    · -- The change log refers to itself only, and is excluded.
      rintro ⟨table, htable, key, ⟨-, _, hkeys, hkey⟩, target, htarget, hlive⟩
      obtain rfl := List.mem_singleton.1 htable
      obtain rfl := Except.ok.inj hkeys
      obtain rfl := List.mem_singleton.1 hkey
      rw [htarget.excludes_eq] at hlive
      revert hlive
      decide
    · -- Nothing else has a foreign key.
      rintro ⟨table, key, ⟨-, _, hkeys, hkey⟩, hlive, -⟩
      obtain rfl := Except.ok.inj hkeys
      unfold keysInside at hkey
      split at hkey
      · rename_i htable
        rw [htable] at hlive
        revert hlive
        decide
      · cases hkey
  · refine (hout.2 (by decide) rfl).1 ?_
    refine ⟨"DATABASECHANGELOG", by decide, ⟨0, 0, "users", "author", some "id"⟩, ?_,
      "users", ?_, by decide⟩
    · exact ⟨⟨_, none, rfl, by decide⟩, _, rfl, by decide⟩
    · exact ⟨⟨_, none, rfl, by decide⟩, by decide⟩

/-- **A change log that refers to users,** or to which users refer, does have a part in a run. Both
catalogs can be loaded with it and without it; with it a run fails that takes a snapshot without it,
or the other way round. -/
theorem changeLog_matters :
    (∀ keys, (office keys).Without changeLog ((office keys).without changeLog) ∧
      (∀ name ∈ changeLog, (office keys).HasTable name ∧ ({} : Options).excludes name = true) ∧
      (load (office keys) {}).outcome = .ok ((office keys).metadata {}) ∧
      (load ((office keys).without changeLog) {}).outcome =
        .ok (((office keys).without changeLog).metadata {})) ∧
    ((readerOf (office keysOut)).read.outcome =
        .error (.referentialIntegrity "DATABASECHANGELOG" "author") ∧
      ∃ s, (readerOf ((office keysOut).without changeLog)).read.outcome = .ok s) ∧
    (∃ s, (readerOf (office keysIn)).read.outcome = .ok s) ∧
      (readerOf ((office keysIn).without changeLog)).read.outcome =
        .error (.referentialIntegrity "databasechangelog" "rowid") :=
  ⟨fun keys => ⟨Catalog.without_spec _ _, changeLog_excluded keys, load_office keys,
    load_office_without keys⟩, ⟨rfl, _, rfl⟩, ⟨_, rfl⟩, rfl⟩

end SchemaSnapshot.Sqlite

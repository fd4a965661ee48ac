import SchemaSnapshot.Proofs.Sqlite.Loading

/-!
# Which query ends the loading

Loading puts queries to a catalog in a fixed order, and the answers to some of them decide which
come next. Here the queries are written down as one list (`Catalog.queries`). Each of them has an
error with which loading ends there, if the query fails and is not about the columns of a view
(`Query.error?`). Every part of loading has the error of the first of its queries that has one,
hence so has the whole (`error?_load`). A view whose columns cannot be listed is loaded as one
without columns (`load_withoutColumns`).
-/

namespace SchemaSnapshot.Sqlite

variable {c : Catalog} {options : Options}

/-! ### The queries in their order -/

/-- The queries that are put to a catalog. -/
inductive Query where
  | objects
  /-- The columns of a table or view. -/
  | tableInfo (r : Relation)
  /-- The indexes of a table. -/
  | indexList (table : String)
  /-- The columns of an index. -/
  | indexInfo (index : String)
  /-- The foreign keys of a table. -/
  | foreignKeyList (table : String)
deriving DecidableEq, Inhabited

namespace Query

/-- The operation in the course of which a query is put. -/
def operation : Query → Operation
  | .objects => .objects
  | .tableInfo _ => .columns
  | .indexList _ => .indexInfo
  | .indexInfo _ => .indexInfo
  | .foreignKeyList _ => .foreignKeysTo

/-- The failure with which `c` answers the query, `none` if it answers with rows. -/
def failure? (c : Catalog) : Query → Option QueryFailure
  | .objects => Except.error? c.objects
  | .tableInfo r => Except.error? (c.tableInfo r.name)
  | .indexList table => Except.error? (c.indexList table)
  | .indexInfo index => Except.error? (c.indexInfo index)
  | .foreignKeyList table => Except.error? (c.foreignKeyList table)

/-- Whether loading depends on the query. Views need not be described. -/
def isFatal : Query → Bool
  | .tableInfo r => r.isTable
  | _ => true

/-- The error with which loading ends at `q`, `none` if it goes on. -/
def error? (c : Catalog) (q : Query) : Option SourceError :=
  if q.isFatal then (q.failure? c).map fun failure => ⟨q.operation, failure.message⟩ else none

theorem error?_eq_some_iff {q : Query} {e : SourceError} :
    q.error? c = some e ↔ q.isFatal = true ∧
      ∃ failure, q.failure? c = some failure ∧ e = ⟨q.operation, failure.message⟩ := by
  unfold error?
  split
  · rename_i hfatal
    simp only [hfatal, true_and, Option.map_eq_some_iff, eq_comm (a := e)]
  · rename_i hfatal
    simp [hfatal]

theorem error?_eq_none_iff {q : Query} :
    q.error? c = none ↔ (q.isFatal = true → q.failure? c = none) := by
  unfold error?
  cases q.isFatal <;> simp

end Query

namespace Catalog

/-- The tables and views among the listed objects, in the order of their names. There are none if
the objects cannot be listed. -/
def relationsByName (c : Catalog) : List Relation :=
  orderedBy (·.name) ((rowsOf c.objects).filterMap (·.relation?))

/-- The names of the listed indexes of `table`, in the order of their places. -/
def indexesByPlace (c : Catalog) (table : String) : List String :=
  (orderedBy (·.place) (rowsOf (c.indexList table))).map (·.name)

/-- The queries about `table` once its columns are known: its indexes, the columns of each index,
and its foreign keys. -/
def queriesOn (c : Catalog) (table : String) : List Query :=
  .indexList table :: ((c.indexesByPlace table).map Query.indexInfo ++ [.foreignKeyList table])

/-- The queries by which `c` is loaded: the objects, the columns of all tables and views by name,
and then `queriesOn` table by table. -/
def queries (c : Catalog) : List Query :=
  .objects :: (c.relationsByName.map Query.tableInfo ++
    ((c.relationsByName.filter (·.isTable)).map (·.name)).flatMap c.queriesOn)

theorem rowsOf_indexesOn (c : Catalog) (table : String) :
    rowsOf (c.indexesOn table) = c.indexesByPlace table :=
  rowsOf_map (c.indexList table) _ rfl

/-- `queries` goes through the tables and views, and through the tables, as loading does. -/
theorem queries_eq (c : Catalog) :
    c.queries =
      .objects :: (c.relationList.map Query.tableInfo ++ c.tableNames.flatMap c.queriesOn) := by
  rw [queries, relationsByName, tableNames, relationList_eq]

end Catalog

/-! ### The errors of the parts -/

theorem findSome?_cons_eq_or {α β : Type} (f : α → Option β) (a : α) (l : List α) :
    (a :: l).findSome? f = (f a).or (l.findSome? f) := by
  rw [List.findSome?_cons]
  cases f a <;> rfl

/-- `(l.flatMap g).findSome? f = l.findSome? fun a => (g a).findSome? f`. -/
theorem findSome?_flatMap {α β γ : Type} (f : β → Option γ) (g : α → List β) (l : List α) :
    (l.flatMap g).findSome? f = l.findSome? fun a => (g a).findSome? f := by
  induction l with
  | nil => rfl
  | cons a rest ih =>
    rw [List.flatMap_cons, List.findSome?_append, ih, findSome?_cons_eq_or]

theorem error?_query {α : Type} (operation : Operation) (answer : Except QueryFailure α) :
    Except.error? (query operation answer).outcome =
      (Except.error? answer).map fun failure => ⟨operation, failure.message⟩ :=
  Except.error?_mapError answer _

theorem error?_loadColumns (r : Relation) :
    Except.error? (loadColumns c r).outcome = (Query.tableInfo r).error? c := by
  have hquery : (Query.tableInfo r).error? c =
      if r.kind == .table then
        (Except.error? (c.tableInfo r.name)).map fun failure => ⟨.columns, failure.message⟩
      else none := rfl
  rw [hquery, loadColumns, Catalog.columnsOf]
  cases c.tableInfo r.name with
  | ok rows => cases r.kind <;> rfl
  | error failure => cases r.kind <;> rfl

theorem error?_describe (r : Relation) :
    Except.error? (do
        let columns ← loadColumns c r
        return (r, columns) : Traced SourceError _).outcome =
      (Query.tableInfo r).error? c := by
  simp only [Traced.outcome_bind, Traced.outcome_pure, Except.error?_bind_ok, error?_loadColumns]

theorem error?_loadIndex (table index : String) :
    Except.error? (loadIndex c table index).outcome = (Query.indexInfo index).error? c := by
  have hrows (columns : List IndexColumnRecord) :
      Except.error? (if columns.any (·.name.isNone) then do
          Traced.log (.expressionIndexSkipped table index)
          return []
        else return columns.map (·.indexRow table index) : Traced SourceError _).outcome =
      none := by
    split <;> rfl
  rw [loadIndex, Traced.outcome_bind, Except.error?_bind fun columns _ => hrows columns,
    Option.or_none, error?_query, Catalog.indexColumnsOf, Except.error?_map]
  rfl

theorem error?_loadIndexes (table : String) :
    Except.error? (loadIndexes c table).outcome = ((Query.indexList table).error? c).or
      (((c.indexesByPlace table).map Query.indexInfo).findSome? (Query.error? c)) := by
  have hlisted (indexes : List String)
      (h : (query .indexInfo (c.indexesOn table)).outcome = .ok indexes) :
      Except.error? (do
          let rows ← indexes.mapM (loadIndex c table)
          return rows.flatten : Traced SourceError _).outcome =
        ((c.indexesByPlace table).map Query.indexInfo).findSome? (Query.error? c) := by
    obtain ⟨-, rfl⟩ := outcome_query_eq_ok_iff.1 h
    rw [← Catalog.rowsOf_indexesOn]
    simp only [Traced.outcome_bind, Traced.outcome_mapM, Traced.outcome_pure,
      Except.error?_bind_ok, Except.error?_mapM, error?_loadIndex, List.findSome?_map]
    rfl
  rw [loadIndexes, Traced.outcome_bind, Except.error?_bind hlisted, error?_query,
    Catalog.indexesOn, Except.error?_map]
  rfl

theorem error?_loadForeignKeys (table : String) :
    Except.error? (loadForeignKeys c table).outcome = (Query.foreignKeyList table).error? c := by
  simp only [loadForeignKeys, Traced.outcome_bind, Traced.outcome_pure, Except.error?_bind_ok,
    error?_query, Catalog.foreignKeysOf, Except.error?_map]
  rfl

/-- `loadTable c table` ends with the error of the first of the `queriesOn` the table that has
one. -/
theorem error?_loadTable (table : String) :
    Except.error? (loadTable c table).outcome = (c.queriesOn table).findSome? (Query.error? c) := by
  have hkeys (rows : List IndexRow) :
      Except.error? (do
          let keys ← loadForeignKeys c table
          return (rows, keys) : Traced SourceError _).outcome =
        (Query.foreignKeyList table).error? c := by
    simp only [Traced.outcome_bind, Traced.outcome_pure, Except.error?_bind_ok,
      error?_loadForeignKeys]
  rw [loadTable, Traced.outcome_bind, Except.error?_bind fun rows _ => hkeys rows,
    error?_loadIndexes, Catalog.queriesOn, findSome?_cons_eq_or, List.findSome?_append,
    List.findSome?_singleton, Option.or_assoc]

/-- `load c options` ends with the error of the first of the `queries` that has one. -/
theorem error?_load :
    Except.error? (load c options).outcome = c.queries.findSome? (Query.error? c) := by
  have htables (described : List (Relation × List ColumnRecord)) :
      Except.error? (do
          let tables ← c.tableNames.mapM (loadTable c)
          let metadata := Metadata.ofRecords options described tables
          Traced.log (.catalogLoaded metadata.relations.length metadata.columns.length)
          return metadata : Traced SourceError _).outcome =
        (c.tableNames.flatMap c.queriesOn).findSome? (Query.error? c) := by
    rw [Traced.outcome_bind, Traced.outcome_mapM, findSome?_flatMap]
    simp only [← error?_loadTable, ← Except.error?_mapM]
    exact Except.error?_bind_ok _ _
  have hrelations (relations : List Relation)
      (h : (query .objects c.relations).outcome = .ok relations) :
      Except.error? (do
          let described ← relations.mapM fun r => do
            let columns ← loadColumns c r
            return (r, columns)
          let tables ← ((relations.filter (·.isTable)).map (·.name)).mapM (loadTable c)
          let metadata := Metadata.ofRecords options described tables
          Traced.log (.catalogLoaded metadata.relations.length metadata.columns.length)
          return metadata : Traced SourceError _).outcome =
        (c.relationList.map Query.tableInfo ++ c.tableNames.flatMap c.queriesOn).findSome?
          (Query.error? c) := by
    obtain ⟨-, rfl⟩ := outcome_query_eq_ok_iff.1 h
    rw [Traced.outcome_bind]
    refine (Except.error?_bind fun described _ => htables described).trans ?_
    rw [Traced.outcome_mapM, Except.error?_mapM, List.findSome?_append, List.findSome?_map]
    simp only [error?_describe]
    rfl
  rw [load, Traced.outcome_bind, Except.error?_bind hrelations, error?_query, Catalog.relations,
    Except.error?_map, Catalog.queries_eq, findSome?_cons_eq_or]
  rfl

/-! ### Views that cannot be described -/

/-- The catalog `c`, except that the table or view `name` has no columns, which it says when
asked. -/
def Catalog.withoutColumns (c : Catalog) (name : String) : Catalog :=
  { c with tableInfo := fun other => if other = name then .ok [] else c.tableInfo other }

theorem tableInfo_withoutColumns (c : Catalog) (name other : String) :
    (c.withoutColumns name).tableInfo other =
      if other = name then .ok [] else c.tableInfo other := rfl

section Undescribed

variable {name : String} {failure : QueryFailure} (h : c.tableInfo name = .error failure)
include h

theorem records_withoutColumns : (c.withoutColumns name).records = c.records := by
  funext other
  rw [Catalog.records_eq, Catalog.records_eq, tableInfo_withoutColumns]
  split
  · rename_i hother
    rw [hother, h]
    rfl
  · rfl

/-- `(c.withoutColumns name).metadata options = c.metadata options`: a query that failed is not told
from one that was answered with no rows. -/
theorem metadata_withoutColumns :
    (c.withoutColumns name).metadata options = c.metadata options := by
  have hcolumns : (c.withoutColumns name).columnRows = c.columnRows := by
    unfold Catalog.columnRows
    rw [records_withoutColumns h]
    rfl
  have hkeys : (c.withoutColumns name).primaryKeyRows = c.primaryKeyRows := by
    unfold Catalog.primaryKeyRows
    rw [records_withoutColumns h]
    rfl
  unfold Catalog.metadata
  rw [hcolumns, hkeys]
  rfl

/-- If `c` is loaded although the columns of `name` cannot be listed, then `c.withoutColumns name`
is loaded alike. -/
theorem load_withoutColumns {m : Metadata} (hm : (load c options).outcome = .ok m) :
    (load (c.withoutColumns name) options).outcome = .ok m := by
  obtain ⟨hanswers, rfl⟩ := load_eq_ok_iff.1 hm
  refine load_eq_ok_iff.2
    ⟨⟨hanswers.objects, ?_, hanswers.tables⟩, (metadata_withoutColumns h).symm⟩
  intro r hr htable
  rw [tableInfo_withoutColumns]
  split
  · exact ⟨_, rfl⟩
  · exact hanswers.columns r hr htable

theorem not_mem_records (record : ColumnRecord) : record ∉ c.records name := by
  intro hrecord
  obtain ⟨records, hrecords, -⟩ := Catalog.mem_records.1 hrecord
  rw [h] at hrecords
  cases hrecords

/-- `row.table ≠ name` for every column row, as the columns of `name` cannot be listed. -/
theorem table_ne_of_mem_columnRows {row : ColumnRow} (hrow : row ∈ c.columnRows) :
    row.table ≠ name := by
  obtain ⟨r, -, record, hrecord, rfl⟩ := Catalog.mem_columnRows.1 hrow
  rintro rfl
  exact not_mem_records h record hrecord

/-- `row.table ≠ name` for every primary key row too. -/
theorem table_ne_of_mem_primaryKeyRows {row : PrimaryKeyRow} (hrow : row ∈ c.primaryKeyRows) :
    row.table ≠ name := by
  obtain ⟨r, -, record, hrecord, hkey⟩ := Catalog.mem_primaryKeyRows.1 hrow
  obtain ⟨-, rfl⟩ := ColumnRecord.primaryKeyRow?_eq_some_iff.1 hkey
  rintro rfl
  exact not_mem_records h record hrecord

end Undescribed

/-! ### The result -/

/-- **Loading fails exactly on its first fatal query.** It ends with an error exactly if some query
fails that is not about the columns of a view. The error is that of the first such query: the
operation in the course of which it was put, and the words of the failure. A view whose columns
cannot be listed is loaded all the same. It is listed with the statement that made it, no row of a
column or of a primary key is about it, and everything is loaded as if it had no columns. -/
theorem failure_of_catalog (c : Catalog) (options : Options) :
    ((∃ e, (load c options).outcome = .error e) ↔
      ∃ q ∈ c.queries, q.isFatal = true ∧ ∃ failure, q.failure? c = some failure) ∧
    (∀ e, (load c options).outcome = .error e ↔
      ∃ before q after failure, c.queries = before ++ q :: after ∧
        (∀ other ∈ before, other.isFatal = true → other.failure? c = none) ∧
        q.isFatal = true ∧ q.failure? c = some failure ∧
        e = ⟨q.operation, failure.message⟩) ∧
    ∀ view sql, c.HasView view sql → ∀ failure, c.tableInfo view = .error failure →
      ∀ m, (load c options).outcome = .ok m →
        ⟨.view, view, sql⟩ ∈ m.relations ∧
        ((∀ other, c.HasView view other → other = sql) → m.viewDefinition view = sql) ∧
        (∀ row ∈ m.columns, row.table ≠ view) ∧
        (∀ row ∈ m.primaryKeys, row.table ≠ view) ∧
        (load (c.withoutColumns view) options).outcome = .ok m := by
  have hload (e : SourceError) : (load c options).outcome = .error e ↔
      c.queries.findSome? (Query.error? c) = some e := by
    rw [← Except.error?_eq_some_iff, error?_load]
  refine ⟨?_, ?_, ?_⟩
  · simp only [hload, ← Option.isSome_iff_exists, List.findSome?_isSome_iff]
    refine exists_congr fun q => and_congr_right fun _ => ?_
    simp only [Option.isSome_iff_exists, Query.error?_eq_some_iff, exists_and_left]
    refine and_congr_right fun _ => ⟨?_, ?_⟩
    · rintro ⟨_, failure, hfailure, -⟩
      exact ⟨failure, hfailure⟩
    · rintro ⟨failure, hfailure⟩
      exact ⟨_, failure, hfailure, rfl⟩
  · intro e
    rw [hload, List.findSome?_eq_some_iff]
    simp only [Query.error?_eq_some_iff, Query.error?_eq_none_iff]
    constructor
    · rintro ⟨before, q, after, hqueries, ⟨hfatal, failure, hfailure, he⟩, hbefore⟩
      exact ⟨before, q, after, failure, hqueries, hbefore, hfatal, hfailure, he⟩
    · rintro ⟨before, q, after, failure, hqueries, hbefore, hfatal, hfailure, he⟩
      exact ⟨before, q, after, hqueries, ⟨hfatal, failure, hfailure, he⟩, hbefore⟩
  · intro view sql hview failure hfailure m hm
    have hsame := load_withoutColumns hfailure hm
    obtain ⟨-, rfl⟩ := load_eq_ok_iff.1 hm
    have hmem := Catalog.hasView_iff.1 hview
    refine ⟨hmem, fun honly => ?_, fun _ => table_ne_of_mem_columnRows hfailure,
      fun _ => table_ne_of_mem_primaryKeyRows hfailure, hsame⟩
    refine viewDefinition_of_mem options hmem rfl ?_
    rintro ⟨kind, name, other⟩ hother hkind rfl
    obtain rfl : kind = .view := eq_of_beq hkind
    exact honly other (Catalog.hasView_iff.2 hother)

/-- An observatory with two tables, and with a view that has outlived the table it looked at.
Neither the objects nor the indexes of `stars` are listed in the order in which they are gone
through. What is known of the columns of an index and of the foreign keys of `stars` may vary. -/
def observatory (indexColumns : String → Except QueryFailure (List IndexColumnRecord))
    (foreignKeys : Except QueryFailure (List ForeignKeyRecord)) : Catalog where
  objects := .ok
    [⟨"table", "stars", none⟩, ⟨"index", "by_size", none⟩, ⟨"table", "moons", none⟩,
      ⟨"view", "comets", some "SELECT * FROM sightings"⟩]
  tableInfo name :=
    if name = "comets" then .error (.refused "no such table: main.sightings")
    else .ok [⟨0, "name", "TEXT", 1, none, 1⟩, ⟨1, "size", "REAL", 0, none, 0⟩]
  indexList table := .ok (if table = "stars" then [⟨1, "by_size"⟩, ⟨0, "by_name"⟩] else [])
  indexInfo := indexColumns
  foreignKeyList table := if table = "stars" then foreignKeys else .ok []

/-- What is known of the two indexes of the observatory in a bad hour: nothing. -/
def observatoryFailures : String → Except QueryFailure (List IndexColumnRecord)
  | "by_name" => .error (.refused "disk I/O error")
  | _ => .error .poolClosed

theorem failure_of_catalog_observatory :
    (load (observatory observatoryFailures (.error .poolClosed)) {}).outcome =
        .error ⟨.indexInfo, "error returned from database: (code: 1) disk I/O error"⟩ ∧
      ∃ m, (load (observatory (fun _ => .ok [⟨0, some "name"⟩]) (.ok [])) {}).outcome = .ok m ∧
        m.viewDefinition "comets" = some "SELECT * FROM sightings" ∧
        ∀ row ∈ m.columns, row.table ≠ "comets" := by
  constructor
  · refine ((failure_of_catalog _ _).2.1 _).2 ⟨[.objects, .tableInfo ⟨.view, "comets", _⟩,
      .tableInfo ⟨.table, "moons", _⟩, .tableInfo ⟨.table, "stars", _⟩, .indexList "moons",
      .foreignKeyList "moons", .indexList "stars"], .indexInfo "by_name",
      [.indexInfo "by_size", .foreignKeyList "stars"], _, rfl, ?_, rfl, rfl, rfl⟩
    decide
  · obtain ⟨-, hdefinition, hcolumns, -, -⟩ :=
      (failure_of_catalog (observatory (fun _ => .ok [⟨0, some "name"⟩]) (.ok [])) {}).2.2
        "comets" (some "SELECT * FROM sightings") (Catalog.hasView_iff.2 (by decide)) _ rfl _ rfl
    refine ⟨_, rfl, hdefinition ?_, hcolumns⟩
    rintro other ⟨objects, hobjects, hmem⟩
    obtain rfl := Except.ok.inj hobjects
    simpa using hmem

end SchemaSnapshot.Sqlite

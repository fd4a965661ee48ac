import SchemaSnapshot.Proofs.Positions
import SchemaSnapshot.Sqlite.Loading

/-!
# What loading a catalog comes to

Loading puts one query after another and ends at the first that fails. Here its result is said
without going through the queries: a catalog can be loaded exactly if all queries about its tables
are answered (`Catalog.Answers`), and what is loaded is then made of the rows of the answers
(`Catalog.metadata`, `load_eq_ok_iff`). The statements after that take the loaded rows back to the
records of the catalog.
-/

namespace SchemaSnapshot.Sqlite

/-- The rows of `answer`, which are `[]` if the query failed. -/
def rowsOf {α : Type} (answer : Except QueryFailure (List α)) : List α :=
  answer.toOption.getD []

@[simp] theorem rowsOf_ok {α : Type} (rows : List α) : rowsOf (.ok rows) = rows := rfl

@[simp] theorem rowsOf_error {α : Type} (failure : QueryFailure) :
    rowsOf (.error failure : Except QueryFailure (List α)) = [] := rfl

theorem rowsOf_map {α β : Type} (answer : Except QueryFailure (List α)) (f : List α → List β)
    (hf : f [] = []) : rowsOf (answer.map f) = f (rowsOf answer) := by
  cases answer with
  | ok rows => rfl
  | error failure => exact hf.symm

theorem mem_rowsOf {α : Type} {answer : Except QueryFailure (List α)} {row : α} :
    row ∈ rowsOf answer ↔ ∃ rows, answer = .ok rows ∧ row ∈ rows := by
  cases answer <;> simp

namespace Catalog

/-! ### The rows that are loaded -/

/-- The tables and views of `c` by name, `[]` if the objects cannot be listed. -/
def relationList (c : Catalog) : List Relation :=
  rowsOf c.relations

/-- The names of the tables of `c` in ascending order. -/
def tableNames (c : Catalog) : List String :=
  (c.relationList.filter (·.isTable)).map (·.name)

/-- The records of the columns of the table or view `name`, by place. -/
def records (c : Catalog) (name : String) : List ColumnRecord :=
  rowsOf (c.columnsOf name)

/-- The column rows that are loaded: `columnRow` of each of the `records` of each table and view. -/
def columnRows (c : Catalog) : List ColumnRow :=
  c.relationList.flatMap fun r => (c.records r.name).map (·.columnRow r)

/-- The primary key rows that are loaded: the records with a `primaryKeyRow?`, of each table and
view. -/
def primaryKeyRows (c : Catalog) : List PrimaryKeyRow :=
  c.relationList.flatMap fun r => (c.records r.name).filterMap (·.primaryKeyRow? r.name)

/-- The rows that are loaded for `index`: `[]` if one of its columns has no name, being an
expression. -/
def rowsOfIndex (c : Catalog) (table index : String) : List IndexRow :=
  if (rowsOf (c.indexColumnsOf index)).any (·.name.isNone) then []
  else (rowsOf (c.indexColumnsOf index)).map (·.indexRow table index)

/-- The rows that are loaded for the indexes of `table`, as `indexesOn` lists them. -/
def indexRowsOn (c : Catalog) (table : String) : List IndexRow :=
  (rowsOf (c.indexesOn table)).flatMap (c.rowsOfIndex table)

/-- The foreign keys that `table` declares, each with `table` as the one that refers. -/
def declaredOn (c : Catalog) (table : String) : List DeclaredKey :=
  (rowsOf (c.foreignKeysOf table)).map (⟨table, ·⟩)

/-- The foreign keys that the tables of `c` declare, table by table. -/
def declaredKeys (c : Catalog) : List DeclaredKey :=
  c.tableNames.flatMap c.declaredOn

/-- What is loaded from `c` if all queries are answered. -/
def metadata (c : Catalog) (options : Options) : Metadata where
  options := options
  relations := c.relationList
  columns := c.columnRows
  primaryKeys := c.primaryKeyRows
  indexRows := c.tableNames.flatMap c.indexRowsOn
  foreignKeys := c.declaredKeys.map (·.resolve c.tableNames c.primaryKeyRows)

end Catalog

/-! ### One query after another -/

variable {c : Catalog} {options : Options}

/-- `answer` is some list of rows, not a failure. -/
def Answered {α : Type} (answer : Except QueryFailure (List α)) : Prop :=
  ∃ rows, answer = .ok rows

/-- `answer.map f` is an answer exactly if `answer` is: how the rows are ordered does not matter. -/
@[simp] theorem answered_map {α β : Type} {answer : Except QueryFailure (List α)}
    {f : List α → List β} : Answered (answer.map f) ↔ Answered answer := by
  cases answer <;> simp [Answered, Except.map]

theorem outcome_query_eq_ok_iff {α : Type} {operation : Operation}
    {answer : Except QueryFailure (List α)} {rows : List α} :
    (query operation answer).outcome = .ok rows ↔ Answered answer ∧ rows = rowsOf answer := by
  show answer.mapError _ = _ ↔ _
  rw [Except.mapError_eq_ok_iff]
  cases answer <;> simp [Answered, eq_comm]

theorem loadColumns_eq_ok_iff {r : Relation} {columns : List ColumnRecord} :
    (loadColumns c r).outcome = .ok columns ↔
      (r.isTable = true → Answered (c.tableInfo r.name)) ∧ columns = c.records r.name := by
  unfold loadColumns Catalog.records Catalog.columnsOf Relation.isTable Answered
  cases c.tableInfo r.name with
  | ok rows =>
    show (pure _ : Except SourceError _) = _ ↔ _
    simp [Except.map, Except.pure_eq_ok_iff, eq_comm (b := columns)]
  | error failure =>
    cases r.kind with
    | table => simp [Except.map, outcome_query_eq_ok_iff, Answered]
    | view =>
      show (pure [] : Except SourceError _) = _ ↔ _
      simp [Except.map, Except.pure_eq_ok_iff, eq_comm (b := columns)]

theorem loadIndex_eq_ok_iff {table index : String} {rows : List IndexRow} :
    (loadIndex c table index).outcome = .ok rows ↔
      Answered (c.indexInfo index) ∧ rows = c.rowsOfIndex table index := by
  have hrows (columns : List IndexColumnRecord) :
      (if columns.any (·.name.isNone) then do
          Traced.log (.expressionIndexSkipped table index)
          return []
        else return columns.map (·.indexRow table index) : Traced SourceError _).outcome =
      .ok (if columns.any (·.name.isNone) then [] else columns.map (·.indexRow table index)) := by
    split <;> rfl
  rw [loadIndex, Traced.outcome_bind, Except.bind_eq_ok_iff_of fun _ => outcome_query_eq_ok_iff,
    hrows, Except.ok.injEq, eq_comm (b := rows), Catalog.indexColumnsOf, answered_map]
  rfl

/-- The indexes of `table` and the columns of each of them are listed. -/
def Catalog.AnswersIndexes (c : Catalog) (table : String) : Prop :=
  Answered (c.indexList table) ∧ ∀ index ∈ rowsOf (c.indexesOn table), Answered (c.indexInfo index)

theorem loadIndexes_eq_ok_iff {table : String} {rows : List IndexRow} :
    (loadIndexes c table).outcome = .ok rows ↔
      c.AnswersIndexes table ∧ rows = c.indexRowsOn table := by
  rw [loadIndexes, Traced.outcome_bind, Except.bind_eq_ok_iff_of fun _ => outcome_query_eq_ok_iff,
    Traced.outcome_bind, Traced.outcome_mapM, Except.bind_eq_ok_iff_of fun _ =>
      Except.mapM_eq_ok_iff_of fun _ _ => loadIndex_eq_ok_iff,
    Traced.outcome_pure, Except.ok.injEq, eq_comm (b := rows), ← and_assoc, Catalog.AnswersIndexes,
    Catalog.indexesOn, answered_map]
  rfl

theorem loadForeignKeys_eq_ok_iff {table : String} {keys : List DeclaredKey} :
    (loadForeignKeys c table).outcome = .ok keys ↔
      Answered (c.foreignKeyList table) ∧ keys = c.declaredOn table := by
  rw [loadForeignKeys, Traced.outcome_bind,
    Except.bind_eq_ok_iff_of fun _ => outcome_query_eq_ok_iff, Traced.outcome_pure,
    Except.ok.injEq, eq_comm (b := keys), Catalog.foreignKeysOf, answered_map]
  rfl

theorem loadTable_eq_ok_iff {table : String} {rows : List IndexRow × List DeclaredKey} :
    (loadTable c table).outcome = .ok rows ↔
      (c.AnswersIndexes table ∧ Answered (c.foreignKeyList table)) ∧
        rows = (c.indexRowsOn table, c.declaredOn table) := by
  rw [loadTable, Traced.outcome_bind, Except.bind_eq_ok_iff_of fun _ => loadIndexes_eq_ok_iff,
    Traced.outcome_bind, Except.bind_eq_ok_iff_of fun _ => loadForeignKeys_eq_ok_iff,
    Traced.outcome_pure, Except.ok.injEq, eq_comm (b := rows), ← and_assoc]

/-! ### The whole catalog -/

namespace Catalog

/-- All queries are answered that loading depends on. The columns of a view need not be listed. -/
structure Answers (c : Catalog) : Prop where
  objects : Answered c.objects
  columns : ∀ r ∈ c.relationList, r.isTable = true → Answered (c.tableInfo r.name)
  tables : ∀ table ∈ c.tableNames, c.AnswersIndexes table ∧ Answered (c.foreignKeyList table)

theorem ofRecords_eq_metadata :
    Metadata.ofRecords options (c.relationList.map fun r => (r, c.records r.name))
      (c.tableNames.map fun table => (c.indexRowsOn table, c.declaredOn table)) =
    c.metadata options := by
  simp only [Metadata.ofRecords, metadata, columnRows, primaryKeyRows, declaredKeys, tableNames,
    List.flatMap_map, List.map_map, Function.comp_def, List.map_id']

end Catalog

theorem describe_eq_ok_iff {r : Relation} {described : Relation × List ColumnRecord} :
    (do let columns ← loadColumns c r; return (r, columns) : Traced SourceError _).outcome =
        .ok described ↔
      (r.isTable = true → Answered (c.tableInfo r.name)) ∧
        described = (r, c.records r.name) := by
  rw [Traced.outcome_bind, Except.bind_eq_ok_iff_of fun _ => loadColumns_eq_ok_iff,
    Traced.outcome_pure, Except.ok.injEq, eq_comm (b := described)]

/-- `load c options` ends with `m` exactly if `c.Answers` and `m = c.metadata options`. -/
theorem load_eq_ok_iff {m : Metadata} :
    (load c options).outcome = .ok m ↔ c.Answers ∧ m = c.metadata options := by
  have hlast (described : List (Relation × List ColumnRecord))
      (tables : List (List IndexRow × List DeclaredKey)) :
      (do
        let metadata := Metadata.ofRecords options described tables
        Traced.log (.catalogLoaded metadata.relations.length metadata.columns.length)
        return metadata : Traced SourceError Metadata).outcome =
      .ok (Metadata.ofRecords options described tables) := rfl
  -- The objects are listed, then all relations are described, then the tables are gone through.
  rw [load, Traced.outcome_bind, Except.bind_eq_ok_iff_of fun _ => outcome_query_eq_ok_iff,
    Traced.outcome_bind, Traced.outcome_mapM, Except.bind_eq_ok_iff_of fun _ =>
      Except.mapM_eq_ok_iff_of fun _ _ => describe_eq_ok_iff,
    Traced.outcome_bind, Traced.outcome_mapM, Except.bind_eq_ok_iff_of fun _ =>
      Except.mapM_eq_ok_iff_of fun _ _ => loadTable_eq_ok_iff,
    hlast, Except.ok.injEq, Catalog.relations, answered_map]
  show _ ∧ _ ∧ _ ∧ Metadata.ofRecords options (c.relationList.map fun r => (r, c.records r.name))
    (c.tableNames.map fun table => (c.indexRowsOn table, c.declaredOn table)) = m ↔ _
  rw [Catalog.ofRecords_eq_metadata, eq_comm (b := m)]
  constructor
  · rintro ⟨hobjects, hcolumns, htables, hm⟩
    exact ⟨⟨hobjects, hcolumns, htables⟩, hm⟩
  · rintro ⟨⟨hobjects, hcolumns, htables⟩, hm⟩
    exact ⟨hobjects, hcolumns, htables, hm⟩

/-- `viewDefinition view.name = view.sql` for a view of the catalog, unless views of one name were
made by different statements. -/
theorem viewDefinition_of_mem (options : Options) {view : Relation} (hview : view ∈ c.relationList)
    (hkind : view.isView = true)
    (hsame : ∀ other ∈ c.relationList, other.isView = true → other.name = view.name →
      other.sql = view.sql) : (c.metadata options).viewDefinition view.name = view.sql := by
  show (c.relationList.filter fun r => r.isView && r.name == view.name).getLast?.bind (·.sql) = _
  have hne : (c.relationList.filter fun r => r.isView && r.name == view.name) ≠ [] :=
    List.ne_nil_of_mem (List.mem_filter.2 ⟨hview, by simp [hkind]⟩)
  rw [List.getLast?_eq_some_getLast hne, Option.bind_some]
  obtain ⟨hlast, hview'⟩ := List.mem_filter.1 (List.getLast_mem hne)
  rw [Bool.and_eq_true, beq_iff_eq] at hview'
  exact hsame _ hlast hview'.1 hview'.2

/-! ### What the records say -/

/-- The word by which a listed object is known to be a table or a view. -/
def RelationKind.typeName : RelationKind → String
  | .table => "table"
  | .view => "view"

theorem ObjectRecord.relation?_eq_some_iff {o : ObjectRecord} {r : Relation} :
    o.relation? = some r ↔ o = ⟨r.kind.typeName, r.name, r.sql⟩ := by
  obtain ⟨type, name, sql⟩ := o
  obtain ⟨kind, name', sql'⟩ := r
  unfold ObjectRecord.relation?
  by_cases htable : type = "table"
  · cases kind <;> simp [htable, RelationKind.typeName]
  · by_cases hview : type = "view"
    · cases kind <;> simp [hview, RelationKind.typeName]
    · cases kind <;> simp [htable, hview, RelationKind.typeName]

theorem ColumnRecord.primaryKeyRow?_eq_some_iff {record : ColumnRecord} {owner : String}
    {row : PrimaryKeyRow} :
    record.primaryKeyRow? owner = some row ↔
      0 < record.keyPlace ∧
        row =
          { table := owner
            column := record.name
            position := placeWord record.keyPlace
            constraintName := none } := by
  unfold ColumnRecord.primaryKeyRow?
  split
  · rename_i hplace
    rw [Option.some.injEq, eq_comm]
    exact (and_iff_right hplace).symm
  · rename_i hplace
    constructor
    · intro hnone
      cases hnone
    · rintro ⟨hplace', -⟩
      exact absurd hplace' hplace

namespace Catalog

/-- A table `name` is among the listed objects. -/
def HasTable (c : Catalog) (name : String) : Prop :=
  ∃ objects sql, c.objects = .ok objects ∧ ⟨"table", name, sql⟩ ∈ objects

/-- A view `name` made by the statement `sql` is among the listed objects. -/
def HasView (c : Catalog) (name : String) (sql : Option String) : Prop :=
  ∃ objects, c.objects = .ok objects ∧ ⟨"view", name, sql⟩ ∈ objects

/-- `key` is among the foreign keys of the table `table`. -/
def Declares (c : Catalog) (table : String) (key : ForeignKeyRecord) : Prop :=
  c.HasTable table ∧ ∃ keys, c.foreignKeyList table = .ok keys ∧ key ∈ keys

theorem relationList_eq :
    c.relationList = orderedBy (·.name) ((rowsOf c.objects).filterMap (·.relation?)) :=
  rowsOf_map c.objects _ rfl

theorem mem_relationList {r : Relation} :
    r ∈ c.relationList ↔
      ∃ objects, c.objects = .ok objects ∧ ⟨r.kind.typeName, r.name, r.sql⟩ ∈ objects := by
  rw [relationList_eq, (orderedBy_perm _ _).mem_iff, List.mem_filterMap, ← mem_rowsOf]
  simp only [ObjectRecord.relation?_eq_some_iff, exists_eq_right]

theorem hasTable_iff {name : String} :
    c.HasTable name ↔ ∃ sql, ⟨.table, name, sql⟩ ∈ c.relationList := by
  unfold HasTable
  rw [exists_comm]
  simp only [mem_relationList, RelationKind.typeName]

theorem hasView_iff {name : String} {sql : Option String} :
    c.HasView name sql ↔ ⟨.view, name, sql⟩ ∈ c.relationList := by
  rw [mem_relationList]
  rfl

theorem mem_tableNames {name : String} : name ∈ c.tableNames ↔ c.HasTable name := by
  unfold tableNames
  simp only [hasTable_iff, List.mem_map, List.mem_filter]
  constructor
  · rintro ⟨⟨kind, _, sql⟩, ⟨hmem, hkind⟩, rfl⟩
    obtain rfl : kind = .table := by simpa [Relation.isTable] using hkind
    exact ⟨sql, hmem⟩
  · rintro ⟨sql, hmem⟩
    exact ⟨_, ⟨hmem, rfl⟩, rfl⟩

theorem records_eq {name : String} :
    c.records name = orderedBy (·.place) (rowsOf (c.tableInfo name)) :=
  rowsOf_map (c.tableInfo name) _ rfl

theorem mem_records {name : String} {record : ColumnRecord} :
    record ∈ c.records name ↔ ∃ records, c.tableInfo name = .ok records ∧ record ∈ records := by
  rw [records_eq, (orderedBy_perm _ _).mem_iff, mem_rowsOf]

theorem mem_columnRows {row : ColumnRow} :
    row ∈ c.columnRows ↔
      ∃ r ∈ c.relationList, ∃ record ∈ c.records r.name, record.columnRow r = row := by
  simp only [columnRows, List.mem_flatMap, List.mem_map]

theorem mem_primaryKeyRows {row : PrimaryKeyRow} :
    row ∈ c.primaryKeyRows ↔
      ∃ r ∈ c.relationList, ∃ record ∈ c.records r.name,
        record.primaryKeyRow? r.name = some row := by
  simp only [primaryKeyRows, List.mem_flatMap, List.mem_filterMap]

theorem mem_declaredKeys {key : DeclaredKey} :
    key ∈ c.declaredKeys ↔ c.Declares key.table key.record := by
  have hrows (table : String) : rowsOf (c.foreignKeysOf table) =
      orderedBy (·.key) (orderedBy (·.place) (rowsOf (c.foreignKeyList table))) :=
    rowsOf_map (c.foreignKeyList table) _ rfl
  have hmem (table : String) (record : ForeignKeyRecord) :
      record ∈ rowsOf (c.foreignKeysOf table) ↔
        ∃ records, c.foreignKeyList table = .ok records ∧ record ∈ records := by
    rw [hrows, (orderedBy_perm _ _).mem_iff, (orderedBy_perm _ _).mem_iff, mem_rowsOf]
  simp only [declaredKeys, declaredOn, List.mem_flatMap, List.mem_map, mem_tableNames, hmem,
    Declares]
  constructor
  · rintro ⟨table, htable, record, hrecord, rfl⟩
    exact ⟨htable, hrecord⟩
  · rintro ⟨htable, hrecord⟩
    exact ⟨key.table, htable, key.record, hrecord, rfl⟩

end Catalog

/-! ### Places that do not fit into a word

SQLite tells the places of columns as large numbers, and a place that does not fit into a word is
read as the greatest word. Several places can become one in this way, and a negative one can become
positive. It does no harm: among fewer columns than there are words the greatest word is not a place
without a gap, so places are 1, 2, … after reading exactly if they were before
(`wellPlaced_placeWord_iff`). -/

theorem toInt_placeWord {place : Int} (h : 0 < place) :
    (placeWord place).toInt = min place Int32.maxValue.toInt := by
  have hmin : Int32.minValue.toInt ≤ 0 := by decide
  unfold placeWord int32?
  by_cases hmax : place ≤ Int32.maxValue.toInt
  · rw [dif_pos ⟨by omega, hmax⟩, Option.getD_some, Int32.toInt_ofIntLE]
    omega
  · rw [dif_neg fun h => hmax h.2, Option.getD_none]
    omega

/-- `(placeWord place).toInt = place` if the word is below `Int32.maxValue`, so that nothing has
been capped. -/
theorem toInt_placeWord_of_lt {place : Int} (h : (placeWord place).toInt < Int32.maxValue.toInt) :
    (placeWord place).toInt = place := by
  unfold placeWord at h ⊢
  cases hword : int32? place with
  | none =>
    rw [hword] at h
    exact absurd h (Int.lt_irrefl _)
  | some word => exact toInt_of_int32? hword

/-- `(placeWord place).toInt = place` for the places of a list that is `WellPlaced`, there being
fewer than `Int32.maxValue` of them. -/
theorem toInt_placeWord_of_wellPlaced {l : List Int}
    (hfew : (l.length : Int) < Int32.maxValue.toInt) (hwell : WellPlaced l) {place : Int}
    (hplace : place ∈ l) : (placeWord place).toInt = place := by
  have hone := hwell.one_le hplace
  have hle := hwell.le_length hplace
  rw [toInt_placeWord (by omega)]
  omega

/-- A list of places is `WellPlaced` exactly if the words for them are. -/
theorem wellPlaced_placeWord_iff {l : List Int} (hfew : (l.length : Int) < Int32.maxValue.toInt) :
    WellPlaced (l.map fun place => (placeWord place).toInt) ↔ WellPlaced l := by
  have hsame (h : ∀ place ∈ l, (placeWord place).toInt = place) :
      (l.map fun place => (placeWord place).toInt) = l :=
    (List.map_congr_left h).trans (List.map_id l)
  constructor
  · intro hwell
    -- A word that is at most the number of places is not the greatest word.
    rwa [hsame] at hwell
    intro place hplace
    have hle := hwell.le_length (List.mem_map_of_mem hplace)
    rw [List.length_map] at hle
    exact toInt_placeWord_of_lt (by omega)
  · intro hwell
    rwa [hsame fun place hplace => toInt_placeWord_of_wellPlaced hfew hwell hplace]

end SchemaSnapshot.Sqlite

import SchemaSnapshot.Sqlite.Metadata
import SchemaSnapshot.Traced

/-!
# Loading the catalog of a SQLite database

`load` puts every query to a catalog once and turns the records into the rows of a metadata source.
The order of the queries is fixed: the objects; the columns of each table and view; then for each
table its indexes, the columns of each index, and its foreign keys. The first query that fails ends
the loading, except that a view whose columns cannot be listed is kept without columns.

A foreign key is declared on the table that refers, and listed under the table referred to. SQLite
keeps the name of that table as it was written, so the table is looked for without regard to case; a
name that no table has is listed under the table that refers, where whoever reads it will find that
it leads nowhere.
-/

namespace SchemaSnapshot.Sqlite

/-- Puts a query to the catalog in the course of `operation`, which is blamed if it fails. -/
def query {α : Type} (operation : Operation) (answer : Except QueryFailure α) :
    Traced SourceError α :=
  Traced.ofExcept (answer.mapError fun failure => ⟨operation, failure.message⟩)

/-! ### Columns and primary keys -/

/-- The columns of `r`. A view that cannot be described has none: it may have outlived the table
that it looks at. -/
def loadColumns (c : Catalog) (r : Relation) : Traced SourceError (List ColumnRecord) :=
  match c.columnsOf r.name, r.kind with
  | .ok columns, _ => return columns
  | .error failure, .view => do
    Traced.log (.viewUnreadable r.name failure.message)
    return []
  | .error failure, .table => query .columns (.error failure)

/-- The code for whether a column takes nulls. Views say nothing about nulls. -/
def ColumnRecord.nullableCode (kind : RelationKind) (c : ColumnRecord) : Int32 :=
  match kind with
  | .view => 2
  | .table => if c.notNull = 0 then 1 else 0

/-- The row that reports a column of `r`. -/
def ColumnRecord.columnRow (r : Relation) (c : ColumnRecord) : ColumnRow where
  table := r.name
  schema := some mainSchema
  catalog := none
  column := c.name
  typeCode := (Affinity.ofDeclared c.declared).code
  size := (TypeArguments.ofDeclared c.declared).size
  digits := (TypeArguments.ofDeclared c.declared).digits
  typeName := c.declared
  rawDefault := c.rawDefault
  nullableCode := c.nullableCode r.kind

/-- `place` as a word. A place that does not fit becomes `Int32.maxValue`, which is no place of a
list that has fewer columns. -/
def placeWord (place : Int) : Int32 :=
  (int32? place).getD Int32.maxValue

/-- The row that reports a column of the primary key of `owner`, `none` if the column is no part of
it. -/
def ColumnRecord.primaryKeyRow? (owner : String) (c : ColumnRecord) : Option PrimaryKeyRow :=
  if c.keyPlace > 0 then
    some
      { table := owner
        column := c.name
        position := placeWord c.keyPlace
        constraintName := none }
  else
    none

/-! ### Indexes -/

/-- The row that reports a column of `index`. Places count from 0, positions from 1. -/
def IndexColumnRecord.indexRow (table index : String) (c : IndexColumnRecord) : IndexRow where
  indexName := some index
  typeCode := IndexRow.ordinaryCode
  table := table
  column := c.name
  position := placeWord (c.place + 1)

/-- The rows of `index`. An index that covers an expression cannot be described by columns, and has
no rows. -/
def loadIndex (c : Catalog) (table index : String) : Traced SourceError (List IndexRow) := do
  let columns ← query .indexInfo (c.indexColumnsOf index)
  if columns.any (·.name.isNone) then
    Traced.log (.expressionIndexSkipped table index)
    return []
  else
    return columns.map (·.indexRow table index)

/-- The rows of the indexes of `table`. -/
def loadIndexes (c : Catalog) (table : String) : Traced SourceError (List IndexRow) := do
  let indexes ← query .indexInfo (c.indexesOn table)
  let rows ← indexes.mapM (loadIndex c table)
  return rows.flatten

/-! ### Foreign keys -/

/-- A column of a foreign key as it is declared on `table`, which refers to another. -/
structure DeclaredKey where
  table : String
  record : ForeignKeyRecord
deriving DecidableEq, Inhabited

/-- The column that is referred to where none is written and the table has no primary key column at
the place. -/
def rowIdentifier : String := "rowid"

/-- The column at `place` of the primary key of `table`. -/
def keyColumn? (keys : List PrimaryKeyRow) (table : String) (place : Int) : Option String :=
  (keys.find? fun k => k.table == table && k.position.toInt == place).map (·.column)

namespace DeclaredKey

/-- The first of `tables` that `k` refers to, whatever the case of the name in it. -/
def referenced? (tables : List String) (k : DeclaredKey) : Option String :=
  tables.find? (Text.sameIgnoringCase · k.record.target)

/-- The table under which `k` is listed, with its row. -/
def resolve (tables : List String) (keys : List PrimaryKeyRow) (k : DeclaredKey) :
    String × ForeignKeyRow :=
  let referenced := k.referenced? tables
  let target := referenced.getD k.record.target
  let column := (k.record.targetColumn.or
    (keyColumn? keys target (k.record.place + 1))).getD rowIdentifier
  (referenced.getD k.table,
    { referencedTable := target
      referencedColumn := column
      table := k.table
      column := k.record.column
      constraintName := none
      deferrabilityCode := 7 })

end DeclaredKey

/-- The foreign keys declared on `table`. -/
def loadForeignKeys (c : Catalog) (table : String) : Traced SourceError (List DeclaredKey) := do
  let records ← query .foreignKeysTo (c.foreignKeysOf table)
  return records.map (⟨table, ·⟩)

/-! ### The whole catalog -/

/-- The indexes and the declared foreign keys of `table`. -/
def loadTable (c : Catalog) (table : String) :
    Traced SourceError (List IndexRow × List DeclaredKey) := do
  let indexRows ← loadIndexes c table
  let keys ← loadForeignKeys c table
  return (indexRows, keys)

/-- The rows of everything that was loaded. -/
def Metadata.ofRecords (options : Options) (relations : List (Relation × List ColumnRecord))
    (tables : List (List IndexRow × List DeclaredKey)) : Metadata :=
  let names := ((relations.map (·.1)).filter (·.isTable)).map (·.name)
  let primaryKeys := relations.flatMap fun (r, columns) =>
    columns.filterMap (·.primaryKeyRow? r.name)
  { options := options
    relations := relations.map (·.1)
    columns := relations.flatMap fun (r, columns) => columns.map (·.columnRow r)
    primaryKeys := primaryKeys
    indexRows := tables.flatMap (·.1)
    foreignKeys := (tables.flatMap (·.2)).map (·.resolve names primaryKeys) }

/-- Loads the catalog `c` of a SQLite database. -/
def load (c : Catalog) (options : Options) : Traced SourceError Metadata := do
  let relations ← query .objects c.relations
  let described ← relations.mapM fun r => do
    let columns ← loadColumns c r
    return (r, columns)
  let tables ← ((relations.filter (·.isTable)).map (·.name)).mapM (loadTable c)
  let metadata := Metadata.ofRecords options described tables
  Traced.log (.catalogLoaded metadata.relations.length metadata.columns.length)
  return metadata

end SchemaSnapshot.Sqlite

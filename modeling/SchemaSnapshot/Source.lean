import SchemaSnapshot.Json
import SchemaSnapshot.Text.Case

/-!
# Metadata sources

A `MetadataSource` is a database as far as its structure goes: what it answers to each call, what it
is able to do, and which of its objects are not the user's. A `Call` is one of seven questions with
its arguments, and it is answered with flat rows of names, codes and optional fields, or with a
`SourceError`. An answer depends on the arguments of the call alone, so asking twice makes no
difference.
-/

namespace SchemaSnapshot

/-! ### Calls -/

/-- The seven questions that a metadata source can be asked. -/
inductive Operation where
  | objects
  | viewDefinition
  | columns
  | foreignKeysTo
  | primaryKeys
  | indexInfo
  | sequenceNames
deriving DecidableEq, Inhabited

/-- The name of an operation, as messages show it. -/
def Operation.name : Operation → String
  | .objects => "list_tables_and_views"
  | .viewDefinition => "view_definition"
  | .columns => "list_columns"
  | .foreignKeysTo => "list_exported_foreign_keys"
  | .primaryKeys => "list_primary_keys"
  | .indexInfo => "list_index_info"
  | .sequenceNames => "list_sequence_names"

/-- The part of a database that is asked about. `none` for the catalog or the schema means all of
them. -/
structure Scope where
  catalog : Option String
  schema : Option String
deriving DecidableEq, Inhabited

/-- A question with its arguments. -/
inductive Call where
  | objects (scope : Scope)
  | viewDefinition (name : String)
  | columns (scope : Scope)
  | foreignKeysTo (scope : Scope) (table : String)
  | primaryKeys (scope : Scope) (table : String)
  | indexInfo (scope : Scope) (table : String)
  | sequenceNames
deriving DecidableEq, Inhabited

namespace Call

/-- The question that a call puts. -/
def operation : Call → Operation
  | .objects _ => .objects
  | .viewDefinition _ => .viewDefinition
  | .columns _ => .columns
  | .foreignKeysTo _ _ => .foreignKeysTo
  | .primaryKeys _ _ => .primaryKeys
  | .indexInfo _ _ => .indexInfo
  | .sequenceNames => .sequenceNames

/-- The arguments of a call, catalog and schema first. -/
def arguments : Call → List (Option String)
  | .objects scope => [scope.catalog, scope.schema]
  | .viewDefinition name => [some name]
  | .columns scope => [scope.catalog, scope.schema]
  | .foreignKeysTo scope table => [scope.catalog, scope.schema, some table]
  | .primaryKeys scope table => [scope.catalog, scope.schema, some table]
  | .indexInfo scope table => [scope.catalog, scope.schema, some table]
  | .sequenceNames => []

end Call

/-- A question that could not be answered. -/
structure SourceError where
  operation : Operation
  /-- What went wrong, in the source's own words. -/
  cause : String
deriving DecidableEq, Inhabited

/-- The wording of `e`, with the name of the operation and the cause. -/
def SourceError.message (e : SourceError) : String :=
  "Metadata provider failed during " ++ e.operation.name ++ ": " ++ e.cause

/-! ### Rows

Rows are not checked: a column row may belong to nothing, positions may have gaps. Making sense of
them is left to whoever reads them. Each kind of row is a record in JSON. -/

/-- The kind of a reported object. -/
inductive ObjectKind where
  | table
  | view
  /-- A kind that is neither, by its reported name. -/
  | other (name : String)
deriving DecidableEq, Inhabited

namespace ObjectKind

/-- The kind that a reported type name stands for. `TABLE` and `VIEW` are known in any case; any
other name is kept as it is. -/
def ofTypeName (typeName : String) : ObjectKind :=
  if Text.sameIgnoringCase typeName "TABLE" then .table
  else if Text.sameIgnoringCase typeName "VIEW" then .view
  else .other typeName

instance : JsonForm ObjectKind where
  encode
    | .table => .str "Table"
    | .view => .str "View"
    | .other name => .obj [("Other", encode name)]
  decode? j := do
    match ← j.choice? with
    | ("Table", .null) => some .table
    | ("View", .null) => some .view
    | ("Other", content) => (decode? content).map .other
    | _ => none

end ObjectKind

/-- A reported table, view or other object. -/
structure ObjectRow where
  kind : ObjectKind
  name : String
  schema : Option String
  catalog : Option String
deriving DecidableEq, Inhabited

instance : JsonForm ObjectRow where
  encode r := .obj
    [("kind", encode r.kind), ("name", encode r.name), ("schema", encode r.schema),
     ("catalog", encode r.catalog)]
  decode? j := do
    let r ← j.record? ["kind", "name", "schema", "catalog"]
    some
      { kind := ← r.required "kind"
        name := ← r.required "name"
        schema := ← r.optional "schema"
        catalog := ← r.optional "catalog" }

/-- A reported column of the table or view named `table`. -/
structure ColumnRow where
  table : String
  schema : Option String
  catalog : Option String
  column : String
  typeCode : Int32
  size : Int32
  digits : Int32
  typeName : String
  /-- The default as the database writes it. -/
  rawDefault : Option String
  nullableCode : Int32
deriving DecidableEq, Inhabited

/-- The fields of a column row, in the order of its JSON form. -/
def ColumnRow.fieldNames : List String :=
  ["table", "schema", "catalog", "column", "data_type", "size", "decimal_digits", "type_name",
    "raw_default", "nullable_code"]

instance : JsonForm ColumnRow where
  encode r := .obj
    [("table", encode r.table), ("schema", encode r.schema), ("catalog", encode r.catalog),
     ("column", encode r.column), ("data_type", encode r.typeCode), ("size", encode r.size),
     ("decimal_digits", encode r.digits), ("type_name", encode r.typeName),
     ("raw_default", encode r.rawDefault), ("nullable_code", encode r.nullableCode)]
  decode? j := do
    let r ← j.record? ColumnRow.fieldNames
    some
      { table := ← r.required "table"
        schema := ← r.optional "schema"
        catalog := ← r.optional "catalog"
        column := ← r.required "column"
        typeCode := ← r.required "data_type"
        size := ← r.required "size"
        digits := ← r.required "decimal_digits"
        typeName := ← r.required "type_name"
        rawDefault := ← r.optional "raw_default"
        nullableCode := ← r.required "nullable_code" }

/-- A reported column of a foreign key: `table.column` refers to
`referencedTable.referencedColumn`. -/
structure ForeignKeyRow where
  referencedTable : String
  referencedColumn : String
  /-- The table that refers to the other. -/
  table : String
  column : String
  constraintName : Option String
  deferrabilityCode : Int16
deriving DecidableEq, Inhabited

/-- The fields of a foreign key row, in the order of its JSON form. -/
def ForeignKeyRow.fieldNames : List String :=
  ["pk_table", "pk_column", "fk_table", "fk_column", "constraint_name", "deferrability_code"]

instance : JsonForm ForeignKeyRow where
  encode r := .obj
    [("pk_table", encode r.referencedTable), ("pk_column", encode r.referencedColumn),
     ("fk_table", encode r.table), ("fk_column", encode r.column),
     ("constraint_name", encode r.constraintName),
     ("deferrability_code", encode r.deferrabilityCode)]
  decode? j := do
    let r ← j.record? ForeignKeyRow.fieldNames
    some
      { referencedTable := ← r.required "pk_table"
        referencedColumn := ← r.required "pk_column"
        table := ← r.required "fk_table"
        column := ← r.required "fk_column"
        constraintName := ← r.optional "constraint_name"
        deferrabilityCode := ← r.required "deferrability_code" }

/-- A reported column of an index. Rows with statistics on a table come among these; their
`typeCode` is `0` and they describe no index. -/
structure IndexRow where
  indexName : Option String
  typeCode : Int16
  table : String
  /-- Missing where the index covers an expression. -/
  column : Option String
  position : Int32
deriving DecidableEq, Inhabited

/-- The fields of an index row, in the order of its JSON form. -/
def IndexRow.fieldNames : List String :=
  ["index_name", "type_code", "table", "column", "ordinal_position"]

/-- The `typeCode` of a row with statistics. -/
def IndexRow.statisticCode : Int16 := 0

/-- The `typeCode` of a row of an ordinary index. -/
def IndexRow.ordinaryCode : Int16 := 3

instance : JsonForm IndexRow where
  encode r := .obj
    [("index_name", encode r.indexName), ("type_code", encode r.typeCode),
     ("table", encode r.table), ("column", encode r.column),
     ("ordinal_position", encode r.position)]
  decode? j := do
    let r ← j.record? IndexRow.fieldNames
    some
      { indexName := ← r.optional "index_name"
        typeCode := ← r.required "type_code"
        table := ← r.required "table"
        column := ← r.optional "column"
        position := ← r.required "ordinal_position" }

/-- A reported column of a primary key, with its `position` in the key. -/
structure PrimaryKeyRow where
  table : String
  column : String
  position : Int32
  constraintName : Option String
deriving DecidableEq, Inhabited

instance : JsonForm PrimaryKeyRow where
  encode r := .obj
    [("table", encode r.table), ("column", encode r.column),
     ("key_sequence", encode r.position), ("constraint_name", encode r.constraintName)]
  decode? j := do
    let r ← j.record? ["table", "column", "key_sequence", "constraint_name"]
    some
      { table := ← r.required "table"
        column := ← r.required "column"
        position := ← r.required "key_sequence"
        constraintName := ← r.optional "constraint_name" }

/-! ### Sources -/

/-- What a call is answered with. -/
abbrev Call.Answer : Call → Type
  | .objects _ => List ObjectRow
  | .viewDefinition _ => Option String
  | .columns _ => List ColumnRow
  | .foreignKeysTo _ _ => List ForeignKeyRow
  | .primaryKeys _ _ => List PrimaryKeyRow
  | .indexInfo _ _ => List IndexRow
  | .sequenceNames => List String

/-- A database that can be asked about its structure. -/
structure MetadataSource where
  /-- What the database is called where no other label is given. -/
  label : String := "database"
  /-- What a call is answered with, or why it is not. -/
  answer : (call : Call) → Except SourceError call.Answer
  /-- Whether the database has sequences. -/
  supportsSequences : Bool
  /-- Whether the check of a foreign key can be deferred. -/
  supportsDeferrable : Bool
  /-- Whether an object in a catalog and schema belongs to the database itself. -/
  isSystem : Scope → String → Bool
  /-- Whether an object belongs to a tool that keeps its books in the database. -/
  isBookkeeping : String → Bool

/-- Whether the object `name` is left out of every snapshot, being no object of the user's. `scope`
is that of the object. -/
def MetadataSource.excludes (source : MetadataSource) (scope : Scope) (name : String) : Bool :=
  source.isSystem scope name || source.isBookkeeping name

/-! ### Databases given by their rows

A `Listing` is a database written down: all the rows there are, in the order in which they are
reported. A call about one table is answered with the rows of that table. -/

/-- A row about a column of numbers with `size` digits. -/
def ColumnRow.ofNumber (table column : String) (size : Int32) : ColumnRow where
  table := table
  schema := none
  catalog := none
  column := column
  typeCode := 4
  size := size
  digits := 0
  typeName := "INTEGER"
  rawDefault := none
  nullableCode := 1

/-- All rows of a database, in the order in which they are reported. -/
structure Listing where
  objects : List ObjectRow := []
  columns : List ColumnRow := []
  foreignKeys : List ForeignKeyRow := []
  primaryKeys : List PrimaryKeyRow := []
  indexes : List IndexRow := []
  sequences : List String := []
  /-- The queries behind the views, by the name of the view. -/
  queries : List (String × String) := []
  /-- Objects of a tool that keeps its books in the database. -/
  bookkeeping : List String := []

namespace Listing

/-- The rows that `call` is about. -/
def answer (l : Listing) : (call : Call) → call.Answer
  | .objects _ => l.objects
  | .viewDefinition name => l.queries.lookup name
  | .columns _ => l.columns
  | .foreignKeysTo _ table => l.foreignKeys.filter (·.referencedTable = table)
  | .primaryKeys _ table => l.primaryKeys.filter (·.table = table)
  | .indexInfo _ table => l.indexes.filter (·.table = table)
  | .sequenceNames => l.sequences

/-- The database as a source, which answers every call. -/
def source (l : Listing) : MetadataSource where
  answer call := .ok (l.answer call)
  supportsSequences := true
  supportsDeferrable := true
  isSystem _ _ := false
  isBookkeeping name := l.bookkeeping.contains name

end Listing

end SchemaSnapshot

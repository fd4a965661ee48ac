import SchemaSnapshot.Source
import SchemaSnapshot.Sqlite.Catalog

/-!
# SQLite as a metadata source

`Metadata` is what has been read from the catalog of a SQLite database, in the form of the rows that
a metadata source reports. `Metadata.source` answers from these rows and never fails. SQLite has one
schema of its own, `main`; a question about any other schema finds nothing. Which tables are
bookkeeping, and what the database is called, is up to the `Options`.
-/

namespace SchemaSnapshot.Sqlite

/-! ### Options -/

/-- Options for reading a SQLite database. -/
structure Options where
  /-- Tables of tools that keep their books in the database, in any ASCII case. -/
  bookkeepingTables : List String := ["DATABASECHANGELOG", "DATABASECHANGELOGLOCK"]
  /-- What the database is called. -/
  label : String := "sqlite"
deriving DecidableEq, Inhabited

namespace Options

/-- `o` with one more bookkeeping table. -/
def addBookkeepingTable (o : Options) (name : String) : Options :=
  { o with bookkeepingTables := o.bookkeepingTables ++ [name] }

/-- `o` with another name for the database. -/
def withLabel (o : Options) (label : String) : Options :=
  { o with label := label }

/-- The fields of the options, in the order of their JSON form. -/
def fieldNames : List String :=
  ["bookkeeping_tables", "label"]

/-- A field that is left out has its default; `null` is no value of either. -/
instance : JsonForm Options where
  encode o := .obj
    [("bookkeeping_tables", encode o.bookkeepingTables), ("label", encode o.label)]
  decode? j := do
    let r ← j.partialRecord? fieldNames
    let standard : Options := {}
    some
      { bookkeepingTables := ← r.withDefault "bookkeeping_tables" standard.bookkeepingTables
        label := ← r.withDefault "label" standard.label }

end Options

/-! ### What was read -/

/-- The schema that is read. -/
def mainSchema : String := "main"

/-- The structure of a SQLite database. -/
structure Metadata where
  options : Options
  relations : List Relation
  columns : List ColumnRow
  primaryKeys : List PrimaryKeyRow
  indexRows : List IndexRow
  /-- Foreign keys, each with the table under which it is listed. -/
  foreignKeys : List (String × ForeignKeyRow)
deriving DecidableEq, Inhabited

namespace Relation

/-- The kind of `r` as a metadata source reports it. -/
def objectKind (r : Relation) : ObjectKind :=
  match r.kind with
  | .table => .table
  | .view => .view

/-- The row that reports `r`. -/
def objectRow (r : Relation) : ObjectRow where
  kind := r.objectKind
  name := r.name
  schema := some mainSchema
  catalog := none

/-- Whether `r` is a table. -/
def isTable (r : Relation) : Bool := r.kind == .table

/-- Whether `r` is a view. -/
def isView (r : Relation) : Bool := r.kind == .view

end Relation

namespace Metadata

/-- Whether a call with `scope` is about the schema that is read. Catalogs do not matter. -/
def inScope (scope : Scope) : Bool :=
  scope.schema.all (Text.sameIgnoringCase · mainSchema)

/-- The statement that made the view `name`, the last one if there are several of the name. -/
def viewDefinition (m : Metadata) (name : String) : Option String :=
  (m.relations.filter fun r => r.isView && r.name == name).getLast?.bind (·.sql)

/-- How the names begin that SQLite keeps for itself, in any ASCII case. -/
def systemOpening : String := "sqlite_"

/-- What SQLite reports about its structure. It has no sequences, and its catalog does not say
whether the check of a foreign key is deferred. -/
def source (m : Metadata) : MetadataSource where
  label := m.options.label
  answer
    | .objects scope => .ok (if inScope scope then m.relations.map (·.objectRow) else [])
    | .viewDefinition name => .ok (m.viewDefinition name)
    | .columns scope => .ok (if inScope scope then m.columns else [])
    | .foreignKeysTo _ table =>
      .ok ((m.foreignKeys.filter (·.1 == table)).map (·.2))
    | .primaryKeys _ table => .ok (m.primaryKeys.filter (·.table == table))
    | .indexInfo _ table => .ok (m.indexRows.filter (·.table == table))
    | .sequenceNames => .ok []
  supportsSequences := false
  supportsDeferrable := false
  isSystem _ name := Text.opensIgnoringCase systemOpening name
  isBookkeeping name := m.options.bookkeepingTables.any (Text.sameIgnoringCase · name)

end Metadata

end SchemaSnapshot.Sqlite

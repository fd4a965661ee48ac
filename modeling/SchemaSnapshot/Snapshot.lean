import SchemaSnapshot.Collection.OrderedMap
import SchemaSnapshot.Entity
import SchemaSnapshot.Json

/-!
# Snapshots

A `Snapshot` is the structure of a database at one time: tables and views by name with their
columns, keys, indexes and sequences as sets, and the warnings in the order in which they came up.
Everything in it refers to everything else by name, so a snapshot is a plain value and two of them
are compared with `=`. The functions here look things up in a snapshot.
-/

namespace SchemaSnapshot

/-! ### Warnings

A warning tells about rows that could not be taken as they were. None of it keeps the snapshot from
being taken. -/

/-- A row that was not taken as it was. -/
inductive Warning where
  /-- A column of neither a table nor a view. -/
  | unresolvedColumnOwner (owner column : String)
  /-- A column that took the place of an earlier one of the same name. -/
  | duplicateColumn (owner column : String)
  /-- A name that had already gone to the other kind of container. -/
  | nameClaimedTwice (name : String)
deriving DecidableEq, Inhabited

namespace Warning

/-- The wording of a warning. -/
def message : Warning → String
  | .unresolvedColumnOwner owner column =>
    "Could not find table or view " ++ owner ++ " for column " ++ column
  | .duplicateColumn owner column =>
    "Column " ++ owner ++ "." ++ column ++ " was reported more than once"
  | .nameClaimedTwice name => name ++ " was reported as both a table and a view"

/-- The name of a warning's cause and what it is about. -/
def form : Warning → String × List (String × Json)
  | .unresolvedColumnOwner owner column =>
    ("UnresolvedColumnOwner", [("owner", encode owner), ("column", encode column)])
  | .duplicateColumn owner column =>
    ("DuplicateColumn", [("owner", encode owner), ("column", encode column)])
  | .nameClaimedTwice name => ("NameClaimedTwice", [("name", encode name)])

instance : JsonForm Warning where
  encode w := .obj [(w.form.1, .obj w.form.2)]
  decode? j := do
    match ← j.choice? with
    | ("UnresolvedColumnOwner", content) =>
      let r ← content.record? ["owner", "column"]
      some (.unresolvedColumnOwner (← r.required "owner") (← r.required "column"))
    | ("DuplicateColumn", content) =>
      let r ← content.record? ["owner", "column"]
      some (.duplicateColumn (← r.required "owner") (← r.required "column"))
    | ("NameClaimedTwice", content) =>
      let r ← content.record? ["name"]
      some (.nameClaimedTwice (← r.required "name"))
    | _ => none

end Warning

/-! ### The structure of a database -/

/-- How many entities of each kind a snapshot holds, and how many warnings. -/
structure Tally where
  tables : Nat
  views : Nat
  foreignKeys : Nat
  indexes : Nat
  primaryKeys : Nat
  sequences : Nat
  warnings : Nat
deriving DecidableEq, Inhabited

/-- The structure of a database. -/
structure Snapshot where
  label : String
  /-- The catalog that was asked for. -/
  catalog : Option String
  /-- The schema that was asked for. -/
  schema : Option String
  tables : OrderedMap String Table
  views : OrderedMap String View
  foreignKeys : OrderedSet ForeignKey
  indexes : OrderedSet Index
  primaryKeys : OrderedSet PrimaryKey
  sequences : OrderedSet Sequence
  warnings : List Warning
deriving DecidableEq, Inhabited

namespace Snapshot

/-- All columns of `s`, those of the tables before those of the views, each by the name of the table
or view. -/
def columns (s : Snapshot) : List Column :=
  s.tables.values.flatMap (·.columns) ++ s.views.values.flatMap (·.columns)

/-- The table called `name`. -/
def table? (s : Snapshot) (name : String) : Option Table :=
  s.tables.get? name

/-- The view called `name`. -/
def view? (s : Snapshot) (name : String) : Option View :=
  s.views.get? name

/-- The column called `column` of the table or view `container`. A table of the name is searched
even where it lacks the column and a view of the same name has it. -/
def column? (s : Snapshot) (container column : String) : Option Column :=
  match s.table? container with
  | some table => table.column? column
  | none => (s.view? container).bind (·.column? column)

/-- The column of `s` in the place of `column`, which may be of another snapshot: the one with the
same owner's name and name. -/
def counterpart? (s : Snapshot) (column : Column) : Option Column :=
  s.column? column.owner.name column.name

/-- The primary key of `table`. -/
def primaryKey? (s : Snapshot) (table : String) : Option PrimaryKey :=
  s.primaryKeys.toList.find? (·.table == table)

/-- The indexes on `table`, ascending. -/
def indexesOn (s : Snapshot) (table : String) : List Index :=
  s.indexes.toList.filter (·.table == table)

/-- The foreign keys by which `table` refers to others, ascending. -/
def foreignKeysOf (s : Snapshot) (table : String) : List ForeignKey :=
  s.foreignKeys.toList.filter (·.table == table)

/-- How much `s` holds. -/
def tally (s : Snapshot) : Tally where
  tables := s.tables.size
  views := s.views.size
  foreignKeys := s.foreignKeys.size
  indexes := s.indexes.size
  primaryKeys := s.primaryKeys.size
  sequences := s.sequences.size
  warnings := s.warnings.length

end Snapshot

end SchemaSnapshot

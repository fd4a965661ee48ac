import SchemaSnapshot.Reading.Containers

/-!
# Taking a snapshot

`Reader.read` reads a database in six phases, each of which builds on what the ones before it found:
tables and views, columns (both in `Reading.Containers`), foreign keys, primary keys, indexes,
sequences. The first thing that cannot be read ends the run. The phases here go table by table, in
the order of the names.
-/

namespace SchemaSnapshot

/-! ### Foreign keys

The third phase asks for the foreign keys that refer to each table. Both ends of a foreign key have
to be tables of the snapshot; the first end that is not puts an end to reading, the table referred
to being looked at first. Foreign keys that come out alike are one foreign key. -/

/-- The foreign key that `row` describes. The deferrability code counts only if the source can defer
checks. -/
def ForeignKey.ofRow (deferrable : Bool) (row : ForeignKeyRow) : ForeignKey where
  name := row.constraintName
  referencedTable := row.referencedTable
  referencedColumn := row.referencedColumn
  table := row.table
  column := row.column
  deferrability := if deferrable then Deferrability.ofCode? row.deferrabilityCode else none

namespace Containers

/-- Checks that `table`, one end of a foreign key, is a table of `c`. -/
def requireTable (c : Containers) (table column : String) : Except ReadError Unit :=
  if c.tables.contains table then .ok () else .error (.referentialIntegrity table column)

/-- Takes `row` into account: `keys` with its foreign key, if both ends are tables of `c`. -/
def addForeignKey (c : Containers) (deferrable : Bool) (keys : OrderedSet ForeignKey)
    (row : ForeignKeyRow) : Except ReadError (OrderedSet ForeignKey) := do
  c.requireTable row.referencedTable row.referencedColumn
  c.requireTable row.table row.column
  return keys.insert (.ofRow deferrable row)

end Containers

namespace Reader

/-- Asks for the foreign keys that refer to `table` and adds them to `keys`. -/
def addForeignKeysTo (r : Reader) (c : Containers) (keys : OrderedSet ForeignKey) (table : String) :
    Traced ReadError (OrderedSet ForeignKey) := do
  let rows ← r.ask (.foreignKeysTo r.scope table)
  Traced.ofExcept (rows.foldlM (c.addForeignKey r.source.supportsDeferrable) keys)

/-- The third phase: the foreign keys among the tables of `c`. -/
def readForeignKeys (r : Reader) (c : Containers) : Traced ReadError (OrderedSet ForeignKey) := do
  r.announce .foreignKeys
  c.tables.keys.foldlM (r.addForeignKeysTo c) ∅

end Reader

/-! ### Column names by position

The columns of a key or an index are reported one by one, in any order, each with its position.
`Slots` collects them: `place` puts a column at a position that is free, and `finish` lists the
columns by position once the positions are known to be 1, 2, … without a gap. Anything else is a
`PositionFault`. -/

/-- What is wrong with the positions of the columns of a key or index. -/
inductive PositionFault where
  /-- A position that is 0 or negative. -/
  | belowOne (position : Int)
  /-- A second column at a position. -/
  | taken (position : Int) (holder : String)
  /-- No column at a position, though there is one at a later position. -/
  | gap (position next : Int)
deriving DecidableEq, Inhabited

namespace PositionFault

/-- The position at fault. -/
def position : PositionFault → Int
  | .belowOne position => position
  | .taken position _ => position
  | .gap position _ => position

/-- The wording of a fault. -/
def reason : PositionFault → String
  | .belowOne _ => "positions start at 1"
  | .taken _ holder => "slot already holds column " ++ holder
  | .gap _ next => "no column at this position (next is " ++ Text.decimal next ++ ")"

/-- The fault as the end of a run, about the key or index called `object`. -/
def toError (object : String) (fault : PositionFault) : ReadError :=
  .invalidColumnPosition object fault.position fault.reason

end PositionFault

/-- Column names by position. -/
abbrev Slots := OrderedMap Int String

namespace Slots

/-- `slots` with `column` at `position`, which has to be positive and free. -/
def place (slots : Slots) (position : Int) (column : String) : Except PositionFault Slots :=
  if position < 1 then
    .error (.belowOne position)
  else
    match slots.get? position with
    | some holder => .error (.taken position holder)
    | none => .ok (slots.insert position column)

/-- The first gap in ascending positions that ought to be `expected`, `expected + 1`, …. -/
def firstGap? (expected : Int) : List Int → Option PositionFault
  | [] => none
  | position :: rest =>
    if position = expected then firstGap? (expected + 1) rest else some (.gap expected position)

/-- The columns by position, or the fault that `firstGap?` finds in the positions. -/
def finish (slots : Slots) : Except PositionFault (List String) :=
  match firstGap? 1 slots.keys with
  | some fault => .error fault
  | none => .ok slots.values

end Slots

/-! ### Primary keys

The fourth phase asks for the primary key of each table. A row belongs to the table that it
names, whichever table was asked about, so keys are put together from all rows and checked for
gaps when the last table has answered. -/

/-- A primary key whose columns are still coming in. -/
structure PartialKey where
  /-- The first name that was reported. -/
  name : Option String := none
  columns : Slots := ∅
deriving DecidableEq, Inhabited

/-- Primary keys that are still coming in, by table. -/
abbrev PartialKeys := OrderedMap String PartialKey

/-- How messages call the primary key of `table`. -/
def PrimaryKey.title (table : String) : String :=
  table ++ " primary key"

/-- The primary key of `table` once all its columns are in. -/
def PartialKey.finish (table : String) (key : PartialKey) : Except ReadError PrimaryKey := do
  let columns ← key.columns.finish.mapError (PositionFault.toError (PrimaryKey.title table))
  return { table := table, columns := columns, name := key.name }

namespace PartialKeys

/-- Takes `row` into account: its column is placed in the key of its table, which keeps its first
name. -/
def addRow (keys : PartialKeys) (row : PrimaryKeyRow) : Except ReadError PartialKeys := do
  let key := (keys.get? row.table).getD {}
  let columns ← (key.columns.place row.position.toInt row.column).mapError
    (PositionFault.toError (PrimaryKey.title row.table))
  return keys.insert row.table { name := key.name.or row.constraintName, columns := columns }

/-- The primary keys once all rows are in, in the order of the tables. -/
def finish (keys : PartialKeys) : Except ReadError (List PrimaryKey) :=
  keys.entries.mapM fun entry => entry.2.finish entry.1

end PartialKeys

namespace Reader

/-- Asks for the primary key of `table` and adds the rows to `keys`. -/
def addPrimaryKeysOf (r : Reader) (keys : PartialKeys) (table : String) :
    Traced ReadError PartialKeys := do
  let rows ← r.ask (.primaryKeys r.scope table)
  Traced.ofExcept (rows.foldlM PartialKeys.addRow keys)

/-- The fourth phase: the primary keys of the tables of `c`. -/
def readPrimaryKeys (r : Reader) (c : Containers) : Traced ReadError (OrderedSet PrimaryKey) := do
  r.announce .primaryKeys
  let keys ← c.tables.keys.foldlM r.addPrimaryKeysOf ∅
  let finished ← Traced.ofExcept keys.finish
  return .ofList finished

end Reader

/-! ### Indexes

The fifth phase asks for the indexes of each table. The indexes of one answer are put together and
checked for gaps before the next table is asked about. Rows with statistics, and rows that lack the
name of the index or of the column, describe no column of an index. An index that only keeps a
primary key of the snapshot is dropped. -/

/-- An index whose columns are still coming in. -/
structure PartialIndex where
  /-- The table that its first row named. -/
  table : String
  columns : Slots := ∅
deriving DecidableEq, Inhabited

/-- Indexes that are still coming in, by name. -/
abbrev PartialIndexes := OrderedMap String PartialIndex

/-- How messages call the index `name` of `table`. -/
def Index.title (table name : String) : String :=
  table ++ "." ++ name

/-- The index called `name` once all its columns are in. -/
def PartialIndex.finish (name : String) (index : PartialIndex) : Except ReadError Index := do
  let columns ← index.columns.finish.mapError (PositionFault.toError (Index.title index.table name))
  return { table := index.table, name := name, columns := columns }

namespace PartialIndexes

/-- Puts `column` at `position` in the index `name`, which is begun if it is new. -/
def place (indexes : PartialIndexes) (table name column : String) (position : Int) :
    Except ReadError PartialIndexes := do
  let index := (indexes.get? name).getD { table := table }
  let columns ← (index.columns.place position column).mapError
    (PositionFault.toError (Index.title table name))
  return indexes.insert name { index with columns := columns }

/-- Takes an index row into account. -/
def addRow (indexes : PartialIndexes) (row : IndexRow) : Traced ReadError PartialIndexes :=
  if row.typeCode = IndexRow.statisticCode then
    return indexes
  else
    match row.indexName, row.column with
    | some name, some column =>
      Traced.ofExcept (indexes.place row.table name column row.position.toInt)
    | _, _ => do
      Traced.log (.indexRowSkipped row.table)
      return indexes

/-- The indexes once all rows are in, in the order of their names. -/
def finish (indexes : PartialIndexes) : Except ReadError (List Index) :=
  indexes.entries.mapM fun entry => entry.2.finish entry.1

end PartialIndexes

/-- Whether `index` only keeps one of `keys`. -/
def Index.backsSome (keys : OrderedSet PrimaryKey) (index : Index) : Bool :=
  keys.toList.any index.backs

namespace Reader

/-- Asks for the indexes of `table` and puts them together. -/
def readIndexesOf (r : Reader) (table : String) : Traced ReadError (List Index) := do
  let rows ← r.ask (.indexInfo r.scope table)
  let indexes ← rows.foldlM PartialIndexes.addRow ∅
  Traced.ofExcept indexes.finish

/-- The fifth phase: the indexes on the tables of `c`, less those that only keep one of `keys`. -/
def readIndexes (r : Reader) (c : Containers) (keys : OrderedSet PrimaryKey) :
    Traced ReadError (OrderedSet Index) := do
  r.announce .indexes
  let perTable ← c.tables.keys.mapM r.readIndexesOf
  let (dropped, kept) := perTable.flatten.partition (Index.backsSome keys)
  Traced.emit (dropped.map fun index => .logged (.keyIndexDropped index.table index.name))
  return .ofList kept

end Reader

/-! ### The whole run -/

namespace Reader

/-- The sixth phase: the sequences, none where the database has no sequences. -/
def readSequences (r : Reader) : Traced ReadError (OrderedSet Sequence) := do
  r.announce .sequences
  if r.source.supportsSequences then
    let names ← r.ask .sequenceNames
    return .ofList (names.map Sequence.mk)
  else
    return ∅

/-- The snapshot of what the phases have found. -/
def snapshotOf (r : Reader) (found : Inventory) (foreignKeys : OrderedSet ForeignKey)
    (primaryKeys : OrderedSet PrimaryKey) (indexes : OrderedSet Index)
    (sequences : OrderedSet Sequence) : Snapshot where
  label := r.label
  catalog := r.config.catalog
  schema := r.config.schema
  tables := found.containers.tables
  views := found.containers.views
  foreignKeys := foreignKeys
  indexes := indexes
  primaryKeys := primaryKeys
  sequences := sequences
  warnings := found.warnings

/-- Reads the database of `r`, phase by phase. -/
def read (r : Reader) : Traced ReadError Snapshot := do
  Traced.emit [.opened r.label r.dialect.name]
  let listed ← r.readContainers
  let found ← r.readColumns listed
  let foreignKeys ← r.readForeignKeys found.containers
  let primaryKeys ← r.readPrimaryKeys found.containers
  let indexes ← r.readIndexes found.containers primaryKeys
  let sequences ← r.readSequences
  let snapshot := r.snapshotOf found foreignKeys primaryKeys indexes sequences
  Traced.log (.snapshotComplete snapshot.tally)
  return snapshot

end Reader

end SchemaSnapshot

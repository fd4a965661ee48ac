import SchemaSnapshot.Reading.Reader

/-!
# Reading the tables, the views and their columns

The first phase fixes which names are tables and which are views. The first row of a name decides: a
later row of the same kind adds nothing, and one of the other kind is warned about. The query behind
a view is asked for once, when the view is found.

The second phase puts every column into its table or view. A column goes to the table of the
reported name, or else to the view of that name; with neither it is only warned about. A second
column of the same name takes the place of the first, which is warned about too. Columns of objects
that are not the user's are passed over.
-/

namespace SchemaSnapshot

/-! ### Tables and views -/

/-- The tables and views of a database, by name. -/
structure Containers where
  tables : OrderedMap String Table := ∅
  views : OrderedMap String View := ∅
deriving DecidableEq, Inhabited

/-- The tables and views found so far, and what there was to warn about. -/
structure Inventory where
  containers : Containers := {}
  warnings : List Warning := []
deriving DecidableEq, Inhabited

namespace Inventory

/-- Notes `warning`, in the inventory and in the log. -/
def warn (found : Inventory) (warning : Warning) : Traced ReadError Inventory := do
  Traced.log (.warned warning)
  return { found with warnings := found.warnings ++ [warning] }

/-- Notes the table `name`. A table that is there already keeps what it has. -/
def addTable (found : Inventory) (name : String) : Inventory :=
  { found with
    containers.tables := found.containers.tables.insertIfNew name { name := name } }

/-- Notes the view `name`, as yet without columns. -/
def addView (found : Inventory) (name : String) (definition : Option String) : Inventory :=
  { found with
    containers.views :=
      found.containers.views.insert name { name := name, definition := definition } }

end Inventory

namespace Reader

/-- Takes an object row into account. -/
def addObject (r : Reader) (found : Inventory) (row : ObjectRow) : Traced ReadError Inventory :=
  if r.source.excludes ⟨row.catalog, row.schema⟩ row.name then do
    Traced.log (.objectExcluded row.name)
    return found
  else
    match row.kind with
    | .table =>
      if found.containers.views.contains row.name then
        found.warn (.nameClaimedTwice row.name)
      else
        return found.addTable row.name
    | .view =>
      if found.containers.tables.contains row.name then
        found.warn (.nameClaimedTwice row.name)
      else if found.containers.views.contains row.name then
        return found
      else do
        let definition ← r.ask (.viewDefinition row.name)
        return found.addView row.name definition
    | .other kind => do
      Traced.log (.objectIgnored row.name kind)
      return found

/-- The first phase: the tables and views, as yet without columns. -/
def readContainers (r : Reader) : Traced ReadError Inventory := do
  r.announce .tables
  let rows ← r.ask (.objects r.scope)
  let found ← rows.foldlM r.addObject {}
  Traced.log (.containersRead found.containers.tables.size found.containers.views.size)
  return found

end Reader

/-! ### Columns -/

namespace Containers

/-- The table or, failing that, the view called `name`. -/
def owner? (c : Containers) (name : String) : Option ColumnOwner :=
  if c.tables.contains name then some (.table name)
  else if c.views.contains name then some (.view name)
  else none

/-- The columns of a table or view, `[]` if it is not there. -/
def columnsOf (c : Containers) : ColumnOwner → List Column
  | .table name => (c.tables.get? name).elim [] (·.columns)
  | .view name => (c.views.get? name).elim [] (·.columns)

/-- `c` with `column` in the table or view that it names as its owner. -/
def putColumn (c : Containers) (column : Column) : Containers :=
  match column.owner with
  | .table name =>
    { c with
      tables := c.tables.modify name fun t =>
        { t with columns := SchemaSnapshot.putColumn column t.columns } }
  | .view name =>
    { c with
      views := c.views.modify name fun v =>
        { v with columns := SchemaSnapshot.putColumn column v.columns } }

end Containers

/-- The column of `owner` that `row` describes, its default as `dialect` reads it. -/
def Dialect.columnOfRow (dialect : Dialect) (owner : ColumnOwner) (row : ColumnRow) : Column where
  name := row.column
  owner := owner
  typeCode := row.typeCode
  size := row.size
  digits := row.digits
  typeName := row.typeName
  nullability := .ofCode row.nullableCode
  autoIncrement := dialect.numbersRows row.rawDefault
  defaultValue := dialect.portable row.rawDefault

@[simp] theorem Dialect.name_columnOfRow (dialect : Dialect) (owner : ColumnOwner)
    (row : ColumnRow) : (dialect.columnOfRow owner row).name = row.column := rfl

@[simp] theorem Dialect.owner_columnOfRow (dialect : Dialect) (owner : ColumnOwner)
    (row : ColumnRow) : (dialect.columnOfRow owner row).owner = owner := rfl

namespace Containers

/-- Takes a column row into account, with the warnings that it gives rise to. -/
def addRow (dialect : Dialect) (c : Containers) (row : ColumnRow) : Containers × List Warning :=
  match c.owner? row.table with
  | none => (c, [.unresolvedColumnOwner row.table row.column])
  | some owner =>
    (c.putColumn (dialect.columnOfRow owner row),
      if (findColumn? (c.columnsOf owner) row.column).isSome then
        [.duplicateColumn row.table row.column]
      else
        [])

/-- Takes column rows into account, one after another. -/
def addRows (dialect : Dialect) : Containers → List ColumnRow → Containers × List Warning
  | c, [] => (c, [])
  | c, row :: rows =>
    let (c, warnings) := c.addRow dialect row
    let (c, later) := c.addRows dialect rows
    (c, warnings ++ later)

end Containers

namespace Reader

/-- Whether `row` is about an object of the user's. -/
def isLive (r : Reader) (row : ColumnRow) : Bool :=
  !r.source.excludes ⟨row.catalog, row.schema⟩ row.table

/-- The second phase: the columns of the tables and views in `found`. -/
def readColumns (r : Reader) (found : Inventory) : Traced ReadError Inventory := do
  r.announce .columns
  let rows ← r.ask (.columns r.scope)
  let (containers, warnings) := found.containers.addRows r.dialect (rows.filter r.isLive)
  Traced.emit (warnings.map (.logged <| .warned ·))
  return { containers := containers, warnings := found.warnings ++ warnings }

end Reader

end SchemaSnapshot

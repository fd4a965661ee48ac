import SchemaSnapshot.Collection.OrderedSet
import SchemaSnapshot.Text

/-!
# The catalog of a SQLite database

A SQLite database describes itself by the rows of five queries: the objects of its schema, and the
columns, indexes, index columns and foreign keys of each. A `Catalog` holds the rows of every query
in no particular order, or the failure of the query. The queries at the end put the rows into the
order in which they are read.

The type of a column is kept as the text of its declaration. The text determines an affinity, by
keywords that occur anywhere in it (`Affinity.ofDeclared`), and may carry a size and a number of
digits in parentheses (`TypeArguments.ofDeclared`).
-/

namespace SchemaSnapshot.Sqlite

/-! ### Records -/

/-- An object of the schema. -/
structure ObjectRecord where
  /-- What the object is, in small letters for tables and views. -/
  type : String
  name : String
  /-- The statement that made the object. -/
  sql : Option String
deriving DecidableEq, Inhabited

/-- A column of a table or view. -/
structure ColumnRecord where
  /-- The place among the columns. -/
  place : Int
  name : String
  /-- The type as it was declared. -/
  declared : String
  /-- Other than 0 for a column that takes no nulls. -/
  notNull : Int
  rawDefault : Option String
  /-- The place among the columns of the primary key, counted from 1. -/
  keyPlace : Int
deriving DecidableEq, Inhabited

/-- An index of a table. -/
structure IndexRecord where
  /-- The place among the indexes. -/
  place : Int
  name : String
deriving DecidableEq, Inhabited

/-- A column of an index. -/
structure IndexColumnRecord where
  /-- The place among the columns of the index, counted from 0. -/
  place : Int
  /-- Missing where the index covers an expression. -/
  name : Option String
deriving DecidableEq, Inhabited

/-- A column of a foreign key, listed with the table that refers to another. -/
structure ForeignKeyRecord where
  /-- The place of the foreign key among those of the table. -/
  key : Int
  /-- The place among the columns of the foreign key, counted from 0. -/
  place : Int
  /-- The table referred to, as it was written. -/
  target : String
  /-- The column that refers. -/
  column : String
  /-- The column referred to, where it was written. -/
  targetColumn : Option String
deriving DecidableEq, Inhabited

/-- Why a query has no rows to give. -/
inductive QueryFailure where
  /-- The database refused the query, with these words. -/
  | refused (text : String)
  /-- There is no connection to put the query to. -/
  | poolClosed
deriving DecidableEq, Inhabited

/-- The wording of a failure. -/
def QueryFailure.message : QueryFailure → String
  | .refused text => "error returned from database: (code: 1) " ++ text
  | .poolClosed => "attempted to acquire a connection on a closed pool"

/-- What a SQLite database tells about itself: the answer to each query, rows in no particular
order. -/
structure Catalog where
  objects : Except QueryFailure (List ObjectRecord)
  /-- The columns of a table or view. -/
  tableInfo : String → Except QueryFailure (List ColumnRecord)
  /-- The indexes of a table. -/
  indexList : String → Except QueryFailure (List IndexRecord)
  /-- The columns of an index. -/
  indexInfo : String → Except QueryFailure (List IndexColumnRecord)
  /-- The foreign keys of a table. -/
  foreignKeyList : String → Except QueryFailure (List ForeignKeyRecord)

/-! ### Tables and views -/

/-- The two kinds of object that have columns. -/
inductive RelationKind where
  | table
  | view
deriving DecidableEq, Inhabited

/-- A table or view of the schema. -/
structure Relation where
  kind : RelationKind
  name : String
  /-- The statement that made it. -/
  sql : Option String
deriving DecidableEq, Inhabited

/-- The table or view that `o` is. The type is compared as it is, case included. -/
def ObjectRecord.relation? (o : ObjectRecord) : Option Relation :=
  if o.type = "table" then some ⟨.table, o.name, o.sql⟩
  else if o.type = "view" then some ⟨.view, o.name, o.sql⟩
  else none

/-! ### Rows in the order in which they are read -/

namespace Catalog

/-- The tables and views, by name. -/
def relations (c : Catalog) : Except QueryFailure (List Relation) :=
  c.objects.map fun rows => orderedBy (·.name) (rows.filterMap (·.relation?))

/-- The columns of a table or view, by place. -/
def columnsOf (c : Catalog) (relation : String) : Except QueryFailure (List ColumnRecord) :=
  (c.tableInfo relation).map (orderedBy (·.place))

/-- The names of the indexes of `table`, by place. -/
def indexesOn (c : Catalog) (table : String) : Except QueryFailure (List String) :=
  (c.indexList table).map fun rows => (orderedBy (·.place) rows).map (·.name)

/-- The columns of `index`, by place. -/
def indexColumnsOf (c : Catalog) (index : String) : Except QueryFailure (List IndexColumnRecord) :=
  (c.indexInfo index).map (orderedBy (·.place))

/-- The foreign keys of `table` by key, and within a key by place. -/
def foreignKeysOf (c : Catalog) (table : String) : Except QueryFailure (List ForeignKeyRecord) :=
  (c.foreignKeyList table).map fun rows => orderedBy (·.key) (orderedBy (·.place) rows)

end Catalog

/-! ### Declared types: affinity -/

/-- What a column prefers to store. -/
inductive Affinity where
  | integer
  | text
  | blob
  | real
  | numeric
deriving DecidableEq, Inhabited

namespace Affinity

/-- The type code of an affinity, shared with other products. -/
def code : Affinity → Int32
  | .integer => 4
  | .text => 12
  | .blob => 2004
  | .real => 8
  | .numeric => 2

/-- The affinity of a declared type. The keywords are tried in a fixed order, so `CHARINT` is an
integer type. A column without a declared type is a blob, and what has no keyword is numeric. -/
def ofDeclared (declared : String) : Affinity :=
  let text := declared.toList
  let has := Text.mentions text
  if has "INT" then .integer
  else if has "CHAR" || has "CLOB" || has "TEXT" then .text
  else if has "BLOB" || text.all Text.isBlank then .blob
  else if has "REAL" || has "FLOA" || has "DOUB" then .real
  else .numeric

end Affinity

/-! ### Declared types: size and digits -/

/-- The text before and after the first `mark`, `none` where there is no `mark`. -/
def splitAtFirst? (mark : Char) : List Char → Option (List Char × List Char)
  | [] => none
  | c :: rest =>
    if c = mark then some ([], rest)
    else (splitAtFirst? mark rest).map fun (before, after) => (c :: before, after)

/-- What stands between the first `(` and the first `)` after it. -/
def arguments? (declared : List Char) : Option (List Char) := do
  let (_, rest) ← splitAtFirst? '(' declared
  let (arguments, _) ← splitAtFirst? ')' rest
  return arguments

/-- The number that `argument` is, `0` if it is none or does not fit. -/
def argumentValue (argument : List Char) : Int32 :=
  (Text.readInt? (Text.trim argument) >>= int32?).getD 0

/-- The size and the number of digits of a declared type, `0` where they are not given. -/
structure TypeArguments where
  size : Int32 := 0
  digits : Int32 := 0
deriving DecidableEq, Inhabited

namespace TypeArguments

/-- The values of the first two arguments, commas standing between arguments. -/
def ofArguments (arguments : List Char) : TypeArguments :=
  match splitAtFirst? ',' arguments with
  | none => { size := argumentValue arguments }
  | some (first, rest) =>
    match splitAtFirst? ',' rest with
    | none => { size := argumentValue first, digits := argumentValue rest }
    | some (second, _) => { size := argumentValue first, digits := argumentValue second }

/-- The size and the number of digits of a declared type, read off its parenthesis. -/
def ofDeclared (declared : String) : TypeArguments :=
  (arguments? declared.toList).elim {} ofArguments

end TypeArguments

end SchemaSnapshot.Sqlite

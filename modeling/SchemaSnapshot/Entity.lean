import SchemaSnapshot.Collection.OrderedSet
import SchemaSnapshot.Text.Case

/-!
# The entities of a schema

Tables and views with their columns, primary and foreign keys, indexes and sequences. They refer to
each other by name. A primary key lists the columns of one table; a foreign key ties one column of a
table to one column of the table it refers to, so a key over several columns is several of these.
What is kept in sets is ordered field by field, and the order is total with equality as its equality
(the `Std.TransOrd` and `Std.LawfulEqOrd` instances).
-/

namespace SchemaSnapshot

/-! ### Columns

A column has the codes that describe its type, whether it takes nulls, and how its default is to be
read. -/

/-- Whether a column takes nulls. -/
inductive Nullability where
  | notNull
  | nullable
  | unknown
deriving DecidableEq, Inhabited

namespace Nullability

/-- The meaning of a nullability code: `0` is `notNull`, `1` is `nullable`, and any other code says
nothing. -/
def ofCode (code : Int32) : Nullability :=
  if code = 0 then .notNull else if code = 1 then .nullable else .unknown

/-- Whether nulls are allowed, `none` where that is unknown. -/
def allowsNull? : Nullability → Option Bool
  | .notNull => some false
  | .nullable => some true
  | .unknown => none

/-- The place among the alternatives, by which they are compared. -/
def rank : Nullability → Nat
  | .notNull => 0
  | .nullable => 1
  | .unknown => 2

instance : Ord Nullability := ⟨compareOn rank⟩

instance : Std.TransOrd Nullability := inferInstanceAs (Std.TransCmp (compareOn rank))

instance : Std.LawfulEqOrd Nullability where
  eq_of_compare {a b} h := by
    replace h : compareOn rank a b = .eq := h
    rw [compareOn_eq_eq_iff] at h
    cases a <;> cases b <;> simp_all [rank]

end Nullability

/-- What a column belongs to, by name. -/
inductive ColumnOwner where
  | table (name : String)
  | view (name : String)
deriving DecidableEq, Inhabited

namespace ColumnOwner

/-- The name of the table or view. -/
def name : ColumnOwner → String
  | .table name => name
  | .view name => name

/-- The name of a table, `none` for a view. -/
def table? : ColumnOwner → Option String
  | .table name => some name
  | .view _ => none

/-- The name of a view, `none` for a table. -/
def view? : ColumnOwner → Option String
  | .view name => some name
  | .table _ => none

/-- Whether the owner is a view. -/
def isView : ColumnOwner → Bool
  | .table _ => false
  | .view _ => true

/-- Tables before views, then by `name`. -/
def order : ColumnOwner → ColumnOwner → Ordering :=
  compareLex (compareOn isView) (compareOn name)

instance : Ord ColumnOwner := ⟨order⟩

instance : Std.TransOrd ColumnOwner :=
  inferInstanceAs (Std.TransCmp (compareLex (compareOn isView) (compareOn name)))

instance : Std.LawfulEqOrd ColumnOwner where
  eq_of_compare {a b} h := by
    replace h : order a b = .eq := h
    simp only [order, compareLex_eq_eq_iff, compareOn_eq_eq_iff] at h
    cases a <;> cases b <;> simp_all [isView, name]

end ColumnOwner

/-- A column of a table or view. -/
structure Column where
  name : String
  owner : ColumnOwner
  /-- The code of the column's type. -/
  typeCode : Int32
  /-- The length or precision, 0 if there is none. -/
  size : Int32
  /-- The digits behind the decimal point. -/
  digits : Int32
  /-- The type as it was declared. -/
  typeName : String
  nullability : Nullability
  autoIncrement : Bool
  /-- The default as the dialect reads it. -/
  defaultValue : Option String
deriving DecidableEq, Inhabited

namespace Column

/-- The text `owner.name`, for messages and as a key: the two names with a point between them. -/
def qualifiedName (c : Column) : String :=
  c.owner.name ++ "." ++ c.name

/-- Field by field, beginning with `name` and `owner`. -/
def order : Column → Column → Ordering :=
  compareLex (compareOn name) <| compareLex (compareOn owner) <|
  compareLex (compareOn typeCode) <| compareLex (compareOn size) <|
  compareLex (compareOn digits) <| compareLex (compareOn typeName) <|
  compareLex (compareOn nullability) <| compareLex (compareOn autoIncrement) <|
  compareOn defaultValue

instance : Ord Column := ⟨order⟩

instance : Std.TransCmp order := by unfold order; infer_instance

instance : Std.TransOrd Column := inferInstanceAs (Std.TransCmp order)

instance : Std.LawfulEqOrd Column where
  eq_of_compare {a b} h := by
    replace h : order a b = .eq := h
    simp only [order, compareLex_eq_eq_iff, compareOn_eq_eq_iff] at h
    cases a; cases b
    simp_all

end Column

/-! ### Tables and views

The columns of a container keep the order in which they were first reported, and a container is
searched by column name. -/

/-- The first of `columns` that is called `name`. -/
def findColumn? (columns : List Column) (name : String) : Option Column :=
  columns.find? (·.name == name)

/-- `columns` with `column` in it. A column of the same name gives up its place to it; a column with
a new name goes to the end. -/
def putColumn (column : Column) : List Column → List Column
  | [] => [column]
  | existing :: rest =>
    if existing.name = column.name then column :: rest else existing :: putColumn column rest

/-- A table with its columns. -/
structure Table where
  name : String
  columns : List Column := []
deriving DecidableEq, Inhabited

/-- The column of `t` that is called `name`. -/
def Table.column? (t : Table) (name : String) : Option Column :=
  findColumn? t.columns name

/-- A view with its columns. -/
structure View where
  name : String
  /-- The query behind the view, where the database tells it. -/
  definition : Option String
  columns : List Column := []
deriving DecidableEq, Inhabited

/-- The column of `v` that is called `name`. -/
def View.column? (v : View) (name : String) : Option Column :=
  findColumn? v.columns name

/-! ### Keys -/

/-- When a foreign key is checked. -/
inductive Deferrability where
  | notDeferrable
  | initiallyDeferred
  | initiallyImmediate
deriving DecidableEq, Inhabited

namespace Deferrability

/-- The meaning of a deferrability code: `5`, `6` and `7` are the three alternatives, and all other
codes mean nothing. -/
def ofCode? (code : Int16) : Option Deferrability :=
  if code = 5 then some .initiallyDeferred
  else if code = 6 then some .initiallyImmediate
  else if code = 7 then some .notDeferrable
  else none

/-- Whether the check can wait for the end of a transaction. -/
def isDeferrable : Deferrability → Bool
  | .notDeferrable => false
  | _ => true

/-- Whether the check waits unless told otherwise. -/
def isInitiallyDeferred : Deferrability → Bool
  | .initiallyDeferred => true
  | _ => false

/-- The place among the alternatives, by which they are compared. -/
def rank : Deferrability → Nat
  | .notDeferrable => 0
  | .initiallyDeferred => 1
  | .initiallyImmediate => 2

instance : Ord Deferrability := ⟨compareOn rank⟩

instance : Std.TransOrd Deferrability := inferInstanceAs (Std.TransCmp (compareOn rank))

instance : Std.LawfulEqOrd Deferrability where
  eq_of_compare {a b} h := by
    replace h : compareOn rank a b = .eq := h
    rw [compareOn_eq_eq_iff] at h
    cases a <;> cases b <;> simp_all [rank]

end Deferrability

/-- The primary key of `table`, its columns in the order of the key. -/
structure PrimaryKey where
  table : String
  columns : List String
  name : Option String
deriving DecidableEq, Inhabited

namespace PrimaryKey

/-- Field by field: `table`, `columns`, `name`. -/
def order : PrimaryKey → PrimaryKey → Ordering :=
  compareLex (compareOn table) <| compareLex (compareOn columns) <| compareOn name

instance : Ord PrimaryKey := ⟨order⟩

instance : Std.TransCmp order := by unfold order; infer_instance

instance : Std.TransOrd PrimaryKey := inferInstanceAs (Std.TransCmp order)

instance : Std.LawfulEqOrd PrimaryKey where
  eq_of_compare {a b} h := by
    replace h : order a b = .eq := h
    simp only [order, compareLex_eq_eq_iff, compareOn_eq_eq_iff] at h
    cases a; cases b
    simp_all

end PrimaryKey

/-- One column of a foreign key: `table.column` refers to `referencedTable.referencedColumn`. -/
structure ForeignKey where
  name : Option String
  /-- The table that is referred to. -/
  referencedTable : String
  referencedColumn : String
  /-- The table that refers to it. -/
  table : String
  column : String
  deferrability : Option Deferrability
deriving DecidableEq, Inhabited

namespace ForeignKey

/-- Field by field: `name`, the column referred to, the column that refers, `deferrability`. -/
def order : ForeignKey → ForeignKey → Ordering :=
  compareLex (compareOn name) <| compareLex (compareOn referencedTable) <|
  compareLex (compareOn referencedColumn) <| compareLex (compareOn table) <|
  compareLex (compareOn column) <| compareOn deferrability

instance : Ord ForeignKey := ⟨order⟩

instance : Std.TransCmp order := by unfold order; infer_instance

instance : Std.TransOrd ForeignKey := inferInstanceAs (Std.TransCmp order)

instance : Std.LawfulEqOrd ForeignKey where
  eq_of_compare {a b} h := by
    replace h : order a b = .eq := h
    simp only [order, compareLex_eq_eq_iff, compareOn_eq_eq_iff] at h
    cases a; cases b
    simp_all

end ForeignKey

/-! ### Indexes and sequences

Databases keep a primary key by means of an index, and report that index among the others;
`Index.backs` recognises it. -/

/-- An index of `table`, its columns in the order of the index. -/
structure Index where
  table : String
  name : String
  columns : List String
deriving DecidableEq, Inhabited

namespace Index

/-- Whether `index` is the one behind `key`: it covers the same columns in the same order, on a
table whose name differs in case at most. -/
def backs (index : Index) (key : PrimaryKey) : Bool :=
  Text.lowercaseText index.table == Text.lowercaseText key.table &&
    index.columns == key.columns

/-- Field by field: `table`, `name`, `columns`. -/
def order : Index → Index → Ordering :=
  compareLex (compareOn table) <| compareLex (compareOn name) <| compareOn columns

instance : Ord Index := ⟨order⟩

instance : Std.TransCmp order := by unfold order; infer_instance

instance : Std.TransOrd Index := inferInstanceAs (Std.TransCmp order)

instance : Std.LawfulEqOrd Index where
  eq_of_compare {a b} h := by
    replace h : order a b = .eq := h
    simp only [order, compareLex_eq_eq_iff, compareOn_eq_eq_iff] at h
    cases a; cases b
    simp_all

end Index

/-- A sequence, which hands out numbers. -/
structure Sequence where
  name : String
deriving DecidableEq, Inhabited

namespace Sequence

instance : Ord Sequence := ⟨compareOn name⟩

instance : Std.TransOrd Sequence := inferInstanceAs (Std.TransCmp (compareOn name))

instance : Std.LawfulEqOrd Sequence where
  eq_of_compare {a b} h := by
    replace h : compareOn name a b = .eq := h
    rw [compareOn_eq_eq_iff] at h
    cases a; cases b
    simp_all

end Sequence

end SchemaSnapshot

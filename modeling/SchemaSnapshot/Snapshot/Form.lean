import SchemaSnapshot.Snapshot

/-!
# The JSON form and the text of a snapshot

Entities are records with their fields under the names below, in this order. The owner of a column
is a choice with the owner's name as content; nullability and deferrability are bare choices. A
snapshot is written as an object: tables and views as objects by name, the sets as lists in
ascending order, the warnings as a list in their order. `Snapshot.text` is the compact text of that
object.
-/

namespace SchemaSnapshot

/-! ### Entities -/

/-- The name of a nullability in JSON. -/
def Nullability.label : Nullability → String
  | .notNull => "NotNull"
  | .nullable => "Nullable"
  | .unknown => "Unknown"

/-- The nullability called `label`: `ofLabel? n.label = some n`. -/
def Nullability.ofLabel? (label : String) : Option Nullability :=
  if label = "NotNull" then some .notNull
  else if label = "Nullable" then some .nullable
  else if label = "Unknown" then some .unknown
  else none

instance : JsonForm Nullability where
  encode n := .str n.label
  decode? j := j.bareChoice? >>= Nullability.ofLabel?

/-- The name of a deferrability in JSON. -/
def Deferrability.label : Deferrability → String
  | .notDeferrable => "NotDeferrable"
  | .initiallyDeferred => "InitiallyDeferred"
  | .initiallyImmediate => "InitiallyImmediate"

/-- The deferrability called `label`: `ofLabel? d.label = some d`. -/
def Deferrability.ofLabel? (label : String) : Option Deferrability :=
  if label = "NotDeferrable" then some .notDeferrable
  else if label = "InitiallyDeferred" then some .initiallyDeferred
  else if label = "InitiallyImmediate" then some .initiallyImmediate
  else none

instance : JsonForm Deferrability where
  encode d := .str d.label
  decode? j := j.bareChoice? >>= Deferrability.ofLabel?

instance : JsonForm ColumnOwner where
  encode
    | .table name => .obj [("Table", encode name)]
    | .view name => .obj [("View", encode name)]
  decode? j := do
    let (kind, content) ← j.choice?
    let name ← decode? content
    if kind = "Table" then some (.table name)
    else if kind = "View" then some (.view name)
    else none

/-- The fields of a column, in the order of its JSON form. -/
def Column.fieldNames : List String :=
  ["name", "owner", "data_type", "size", "decimal_digits", "type_name", "nullability",
    "auto_increment", "default_value"]

instance : JsonForm Column where
  encode c := .obj
    [("name", encode c.name), ("owner", encode c.owner), ("data_type", encode c.typeCode),
     ("size", encode c.size), ("decimal_digits", encode c.digits),
     ("type_name", encode c.typeName), ("nullability", encode c.nullability),
     ("auto_increment", encode c.autoIncrement), ("default_value", encode c.defaultValue)]
  decode? j := do
    let r ← j.record? Column.fieldNames
    some
      { name := ← r.required "name"
        owner := ← r.required "owner"
        typeCode := ← r.required "data_type"
        size := ← r.required "size"
        digits := ← r.required "decimal_digits"
        typeName := ← r.required "type_name"
        nullability := ← r.required "nullability"
        autoIncrement := ← r.required "auto_increment"
        defaultValue := ← r.optional "default_value" }

instance : JsonForm Table where
  encode t := .obj [("name", encode t.name), ("columns", encode t.columns)]
  decode? j := do
    let r ← j.record? ["name", "columns"]
    some { name := ← r.required "name", columns := ← r.required "columns" }

instance : JsonForm View where
  encode v := .obj
    [("name", encode v.name), ("definition", encode v.definition), ("columns", encode v.columns)]
  decode? j := do
    let r ← j.record? ["name", "definition", "columns"]
    some
      { name := ← r.required "name"
        definition := ← r.optional "definition"
        columns := ← r.required "columns" }

instance : JsonForm PrimaryKey where
  encode k := .obj
    [("table_name", encode k.table), ("column_names", encode k.columns),
     ("name", encode k.name)]
  decode? j := do
    let r ← j.record? ["table_name", "column_names", "name"]
    some
      { table := ← r.required "table_name"
        columns := ← r.required "column_names"
        name := ← r.optional "name" }

/-- The fields of a foreign key, in the order of its JSON form. -/
def ForeignKey.fieldNames : List String :=
  ["name", "primary_key_table", "primary_key_column", "foreign_key_table", "foreign_key_column",
    "deferrability"]

instance : JsonForm ForeignKey where
  encode k := .obj
    [("name", encode k.name), ("primary_key_table", encode k.referencedTable),
     ("primary_key_column", encode k.referencedColumn),
     ("foreign_key_table", encode k.table),
     ("foreign_key_column", encode k.column), ("deferrability", encode k.deferrability)]
  decode? j := do
    let r ← j.record? ForeignKey.fieldNames
    some
      { name := ← r.optional "name"
        referencedTable := ← r.required "primary_key_table"
        referencedColumn := ← r.required "primary_key_column"
        table := ← r.required "foreign_key_table"
        column := ← r.required "foreign_key_column"
        deferrability := ← r.optional "deferrability" }

instance : JsonForm Index where
  encode i := .obj
    [("table_name", encode i.table), ("name", encode i.name),
     ("column_names", encode i.columns)]
  decode? j := do
    let r ← j.record? ["table_name", "name", "column_names"]
    some
      { table := ← r.required "table_name"
        name := ← r.required "name"
        columns := ← r.required "column_names" }

instance : JsonForm Sequence where
  encode s := .obj [("name", encode s.name)]
  decode? j := do
    let r ← j.record? ["name"]
    some { name := ← r.required "name" }

/-! ### Snapshots -/

/-- A map from names as an object with the names as fields, in ascending order. -/
def OrderedMap.encodeByName {β : Type} [JsonForm β] (m : OrderedMap String β) : Json :=
  .obj (m.entries.map fun entry => (entry.1, encode entry.2))

namespace Snapshot

/-- The JSON form of `s`. -/
def toJson (s : Snapshot) : Json :=
  .obj
    [("label", encode s.label), ("catalog", encode s.catalog), ("schema", encode s.schema),
     ("tables", s.tables.encodeByName), ("views", s.views.encodeByName),
     ("foreign_keys", encode s.foreignKeys.toList), ("indexes", encode s.indexes.toList),
     ("primary_keys", encode s.primaryKeys.toList), ("sequences", encode s.sequences.toList),
     ("warnings", encode s.warnings)]

/-- The compact text of `s.toJson`. -/
def text (s : Snapshot) : String :=
  s.toJson.render

end Snapshot

end SchemaSnapshot

import SchemaSnapshot.Dialect
import SchemaSnapshot.Traced

/-!
# Readers

A `Reader` is everything that stays the same while a database is read: the source, the dialect of
the product, what is to be read (a `Config`), and who hears about it. Two of its actions are shared
by the phases of reading: `announce` tells the listeners that a phase begins, and `ask` puts a call
to the source.
-/

namespace SchemaSnapshot

/-! ### What a snapshot is taken of -/

/-- The part of the database to read, and the label of the snapshot. Everything may be left out. -/
structure Config where
  catalog : Option String := none
  schema : Option String := none
  /-- Stands in for the label of the source. -/
  label : Option String := none
deriving DecidableEq, Inhabited

namespace Config

/-- The catalog and schema of `c`, as the scope of calls. -/
def scope (c : Config) : Scope :=
  ⟨c.catalog, c.schema⟩

/-- `c` for one catalog only. -/
def withCatalog (c : Config) (catalog : String) : Config :=
  { c with catalog := some catalog }

/-- `c` for one schema only. -/
def withSchema (c : Config) (schema : String) : Config :=
  { c with schema := some schema }

/-- `c` with a label for the snapshot. -/
def withLabel (c : Config) (label : String) : Config :=
  { c with label := some label }

/-- The fields of a configuration, in the order of its JSON form. -/
def fieldNames : List String :=
  ["catalog", "schema", "label"]

instance : JsonForm Config where
  encode c := .obj
    [("catalog", encode c.catalog), ("schema", encode c.schema), ("label", encode c.label)]
  decode? j := do
    let r ← j.partialRecord? fieldNames
    some
      { catalog := ← r.optional "catalog"
        schema := ← r.optional "schema"
        label := ← r.optional "label" }

end Config

/-! ### Readers -/

/-- What does not change while a database is read. -/
structure Reader where
  source : MetadataSource
  dialect : Dialect := .generic
  config : Config := {}
  /-- Who hears the status messages, in the order in which they hear them. -/
  listeners : List Listener := []

namespace Reader

/-- The label of the snapshot: the one configured, or else that of the source. -/
def label (r : Reader) : String :=
  r.config.label.getD r.source.label

/-- The scope of the calls of `r`. -/
def scope (r : Reader) : Scope :=
  r.config.scope

/-- Tells every listener that `phase` begins. -/
def announce (r : Reader) (phase : Phase) : Traced ReadError Unit :=
  .emit (r.listeners.map (Listener.hear (phase.message r.label)))

/-- Puts `call` to the source. The call is an event before it is answered, and a call that is not
answered ends reading with `connectivity`. -/
def ask (r : Reader) (call : Call) : Traced ReadError call.Answer :=
  ⟨[.asked call], (r.source.answer call).mapError .connectivity⟩

end Reader

end SchemaSnapshot

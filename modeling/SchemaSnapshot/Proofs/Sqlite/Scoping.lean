import SchemaSnapshot.Proofs.Exclusion
import SchemaSnapshot.Proofs.Sqlite.Containers

/-!
# The schema that a SQLite database is read for

A SQLite database is read for its schema `main`, for every schema, or for a schema that it does not
have (`ReadsMain`). Only the tables, views and columns are asked for by schema: keys and indexes are
reported about any table that is asked about. `scoping_of_metadata` says what comes of it. Readers
that read `main` in one way or the other end alike, whatever catalog they name. A reader of another
schema finds no table to ask about, so it takes an empty snapshot, even of a database for which the
others fail.
-/

namespace SchemaSnapshot

/-- A run that is told of no object and no column takes an empty snapshot, if
`supportsSequences = false`. -/
theorem Reader.read_of_nothing {r : Reader} (hobjects : r.source.answer (.objects r.scope) = .ok [])
    (hcolumns : r.source.answer (.columns r.scope) = .ok [])
    (hsequences : r.source.supportsSequences = false) :
    r.read.outcome = .ok (r.snapshotOf {} ∅ ∅ ∅ ∅) := by
  have hnone : r.readSequences.outcome = .ok ∅ := by
    rw [outcome_readSequences, hsequences]
    rfl
  exact read_eq_ok_iff.2 ⟨{}, {}, readContainers_eq_ok_iff.2 ⟨[], hobjects, rfl⟩,
    readColumns_eq_ok_iff.2 ⟨[], hcolumns, rfl⟩, ∅, ∅, ∅, ∅, rfl, rfl, rfl, hnone, rfl⟩

namespace Sqlite

/-- `config` has `main` read: it names no schema, or that one in any case. -/
def ReadsMain (config : Config) : Prop :=
  ∀ schema, config.schema = some schema → Text.sameIgnoringCase schema "main" = true

instance (config : Config) : Decidable (ReadsMain config) :=
  decidable_of_iff (config.schema.all (Text.sameIgnoringCase · "main") = true)
    (Option.all_eq_true _ _)

theorem inScope_iff {r : Reader} : Metadata.inScope r.scope = true ↔ ReadsMain r.config :=
  Option.all_eq_true _ _

section Scope

variable {m : Metadata} {r r' : Reader}

/-- `r'.read.outcome = r.read.outcome.map r'.relabel` if both read `main`, in whatever way this is
said. -/
theorem read_of_readsMain (hr : r.source = m.source) (hr' : r'.source = m.source)
    (hdialect : r.dialect = r'.dialect) (hmain : ReadsMain r.config)
    (hmain' : ReadsMain r'.config) :
    r'.read.outcome = r.read.outcome.map r'.relabel := by
  have hsource : r.source = r'.source := hr.trans hr'.symm
  have hscope := inScope_iff.2 hmain
  have hscope' := inScope_iff.2 hmain'
  have hobjects : r.source.answer (.objects r.scope) = r'.source.answer (.objects r'.scope) := by
    rw [Metadata.answer_objects hr, Metadata.answer_objects hr', if_pos hscope, if_pos hscope']
  have hlive : r.isLive = r'.isLive := by
    funext row
    rw [Reader.isLive, Reader.isLive, hsource]
  have hcolumns : r.source.answer (.columns r.scope) = r'.source.answer (.columns r'.scope) := by
    rw [Metadata.answer_columns hr, Metadata.answer_columns hr', if_pos hscope, if_pos hscope']
  -- objects and columns are asked for by schema, keys and indexes are not
  apply Reader.read_congr
  · rw [Reader.outcome_readContainers, Reader.outcome_readContainers, hobjects]
    simp only [Reader.outcome_objects_congr (congrArg MetadataSource.excludes hsource)
      fun name _ => congrArg (fun source => source.answer (.viewDefinition name)) hsource]
  · intro listed
    rw [Reader.outcome_readColumns, Reader.outcome_readColumns, hcolumns]
    simp only [Reader.columnsAdded, hlive, hdialect]
  · intro c _
    refine Reader.readForeignKeys_congr (by rw [hsource]) fun table _ => ?_
    rw [hr, hr']
    rfl
  · intro c _
    refine Reader.readPrimaryKeys_congr fun table _ => ?_
    rw [hr, hr']
    rfl
  · intro c keys _
    refine Reader.readIndexes_congr (fun table _ => ?_) keys
    rw [hr, hr']
    rfl
  · exact Reader.readSequences_congr (by rw [hsource]) (by rw [hsource])

/-- `r.read.outcome = .ok (r.snapshotOf {} ∅ ∅ ∅ ∅)` unless `ReadsMain r.config`. -/
theorem read_of_not_readsMain (hr : r.source = m.source) (hother : ¬ReadsMain r.config) :
    r.read.outcome = .ok (r.snapshotOf {} ∅ ∅ ∅ ∅) := by
  have hscope : ¬Metadata.inScope r.scope = true := fun hscope => hother (inScope_iff.1 hscope)
  apply Reader.read_of_nothing
  · rw [Metadata.answer_objects hr, if_neg hscope]
  · rw [Metadata.answer_columns hr, if_neg hscope]
  · rw [hr]
    rfl

/-- **What the schema decides.** Take two readers of the same database. If both read `main` and for
the same product, they end alike: with the same error, or with snapshots that differ in nothing but
the label and in what the readers were to read. If a reader is to read a schema that the database
does not have, it takes a snapshot, and there is nothing in it, however the other reader fares. -/
theorem scoping_of_metadata (hr : r.source = m.source) (hr' : r'.source = m.source) :
    (r.dialect = r'.dialect → ReadsMain r.config → ReadsMain r'.config →
      r'.read.outcome = r.read.outcome.map fun s =>
        { s with label := r'.label, catalog := r'.config.catalog, schema := r'.config.schema }) ∧
    (¬ReadsMain r'.config →
      ∃ s, r'.read.outcome = .ok s ∧ s.tables = ∅ ∧ s.views = ∅ ∧ s.columns = [] ∧
        s.foreignKeys = ∅ ∧ s.primaryKeys = ∅ ∧ s.indexes = ∅ ∧ s.sequences = ∅ ∧
        s.warnings = []) :=
  ⟨read_of_readsMain hr hr', fun hother =>
    ⟨_, read_of_not_readsMain hr' hother, rfl, rfl, rfl, rfl, rfl, rfl, rfl, rfl⟩⟩

end Scope

/-- A museum with numbered rooms, where the numbers are at some place of the primary key. -/
def museum (place : Int) (keys : List ForeignKeyRecord) : Catalog where
  objects := .ok [⟨"table", "rooms", none⟩]
  tableInfo _ := .ok [⟨0, "number", "INTEGER", 0, none, place⟩]
  indexList _ := .ok []
  indexInfo _ := .ok []
  foreignKeyList _ := .ok keys

/-- A reader of a schema of the museum. -/
def museumReader (place : Int) (keys : List ForeignKeyRecord) (schema : Option String) :
    Reader where
  source := ((museum place keys).metadata {}).source
  config := { schema := schema }

/-- Rooms that refer to a hall, of which there is none. -/
def missingHall : ForeignKeyRecord := ⟨0, 0, "halls", "hall", none⟩

theorem scoping_of_metadata_museum :
    (∃ s s', (museumReader 1 [] none).read.outcome = .ok s ∧
      (museumReader 1 [] (some "MAIN")).read.outcome = .ok s' ∧ s'.tables = s.tables) ∧
    ((museumReader 1 [missingHall] none).read.outcome =
        .error (.referentialIntegrity "halls" "rowid") ∧
      (museumReader 1 [missingHall] (some "MAIN")).read.outcome =
        .error (.referentialIntegrity "halls" "rowid") ∧
      ∃ s, (museumReader 1 [missingHall] (some "temp")).read.outcome = .ok s ∧ s.columns = []) ∧
    ∃ e, (museumReader 2 [] none).read.outcome = .error e ∧ e.kind = .invalidColumnPosition ∧
      (museumReader 2 [] (some "MAIN")).read.outcome = .error e ∧
      ∃ s, (museumReader 2 [] (some "temp")).read.outcome = .ok s ∧ s.columns = [] := by
  -- the museum is read for `main` in two ways, and for another schema
  have hr (place : Int) (keys : List ForeignKeyRecord) (schema : Option String) :
      (museumReader place keys schema).source = ((museum place keys).metadata {}).source := rfl
  have hmain (place : Int) (keys : List ForeignKeyRecord) :=
    (scoping_of_metadata (hr place keys none) (hr place keys (some "MAIN"))).1 rfl
      (show ReadsMain {} by decide) (show ReadsMain { schema := some "MAIN" } by decide)
  have hother (place : Int) (keys : List ForeignKeyRecord) :
      ∃ s, (museumReader place keys (some "temp")).read.outcome = .ok s ∧ s.columns = [] := by
    obtain ⟨s, hs, -, -, hcolumns, -⟩ :=
      (scoping_of_metadata (hr place keys none) (hr place keys (some "temp"))).2
        (show ¬ReadsMain { schema := some "temp" } by decide)
    exact ⟨s, hs, hcolumns⟩
  obtain ⟨s, hs⟩ : ∃ s, (museumReader 1 [] none).read.outcome = .ok s := ⟨_, rfl⟩
  have hhall : (museumReader 1 [missingHall] none).read.outcome =
      .error (.referentialIntegrity "halls" "rowid") := rfl
  obtain ⟨e, he, hkind⟩ : ∃ e, (museumReader 2 [] none).read.outcome = .error e ∧
      e.kind = .invalidColumnPosition := ⟨_, rfl, rfl⟩
  have hmainOk := hmain 1 []
  have hmainHall := hmain 1 [missingHall]
  have hmainGap := hmain 2 []
  rw [hs] at hmainOk
  rw [hhall] at hmainHall
  rw [he] at hmainGap
  exact ⟨⟨s, _, hs, hmainOk, rfl⟩, ⟨hhall, hmainHall, hother 1 [missingHall]⟩, e, he, hkind,
    hmainGap, hother 2 []⟩

end Sqlite

end SchemaSnapshot

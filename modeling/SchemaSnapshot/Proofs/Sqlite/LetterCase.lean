import SchemaSnapshot.Proofs.Bookkeeping
import SchemaSnapshot.Proofs.Sqlite.ForeignKeys

/-!
# The case of the letters in a name

SQLite takes names that differ in the case of their ASCII letters for one name, and in a declaration
a table may be written in any of these ways. Three questions about a name have to agree with this:
which table is meant, whether the table is SQLite's own, and whether it is a bookkeeping table.
They do, although the second looks at bytes where the others look at characters
(`Metadata.isSystem_iff`). So the name in a declaration tells whether the table that is meant is
left out of a snapshot (`letterCase_of_metadata`).
-/

namespace SchemaSnapshot.Sqlite

/-! ### One name at a time -/

namespace Metadata

variable (m : Metadata) (scope : Scope)

/-- SQLite's own names are those whose first seven characters are `sqlite_`, in any case. -/
theorem isSystem_iff {name : String} :
    m.source.isSystem scope name = true ↔
      ∃ first rest, name = first ++ rest ∧ first.length = 7 ∧
        Text.sameIgnoringCase first "sqlite_" = true := by
  -- folding the case keeps the number of characters
  have hlength {first : String} (hsame : Text.sameIgnoringCase first "sqlite_" = true) :
      first.length = 7 := by
    have hfold := congrArg List.length (Text.sameIgnoringCase_iff.1 hsame)
    rwa [Text.foldCase, Text.foldCase, List.length_map, List.length_map,
      String.length_toList] at hfold
  refine Text.opensIgnoringCase_iff.trans ?_
  refine exists_congr fun first => exists_congr fun rest => and_congr_right fun _ => ?_
  exact ⟨fun hsame => ⟨hlength hsame, hsame⟩, And.right⟩

/-- `isSystem scope name = false` if `name` cannot be cut after seven bytes, because it ends before
or because a character runs on. -/
theorem isSystem_of_not_isValid {name : String} (h : ¬String.Pos.Raw.IsValid name ⟨7⟩) :
    m.source.isSystem scope name = false := by
  show (Text.firstBytes? name 7).any _ = false
  rw [Text.firstBytes?, dif_neg h]
  rfl

variable {m scope} {name other : String} (h : Text.sameIgnoringCase name other = true)
include h

theorem isSystem_congr : m.source.isSystem scope name = m.source.isSystem scope other :=
  Text.opensIgnoringCase_congr (Text.sameIgnoringCase_iff.1 h)

theorem isBookkeeping_congr : m.source.isBookkeeping name = m.source.isBookkeeping other := by
  show m.options.bookkeepingTables.any _ = m.options.bookkeepingTables.any _
  simp only [Text.sameIgnoringCase, Text.sameIgnoringCase_iff.1 h]

end Metadata

/-! ### Names in declarations -/

/-- A table of the catalog is left out of a snapshot exactly if `options.excludes name`. -/
theorem absent_iff_excludes {c : Catalog} {options : Options} {r : Reader}
    (hr : r.source = (c.metadata options).source) (hscope : Metadata.inScope r.scope = true)
    {s : Snapshot} (hs : r.read.outcome = .ok s) {name : String} (htable : c.HasTable name) :
    (s.tables.contains name = false ∧ s.views.contains name = false) ↔
      options.excludes name = true := by
  constructor
  · rintro ⟨htables, hviews⟩
    cases hlive : options.excludes name with
    | true => rfl
    | false =>
      -- The row of the table claims the name, so the table has it, or a view of the same name.
      obtain ⟨sql, hmem⟩ := Catalog.hasTable_iff.1 htable
      have hclaim : r.isClaim (Relation.objectRow ⟨.table, name, sql⟩) = true := by
        rw [isClaim_objectRow hr, hlive]
        rfl
      obtain ⟨kind, hkind⟩ := Reader.exists_claim? (List.mem_map_of_mem hmem) hclaim
      have hcontents :=
        Reader.contents_of_read (answer_objects hr hscope) (answer_columns hr hscope) hs
      rcases hcontents.contains_of_claim? (hr ▸ Metadata.answersAll _) hkind with hfound | hfound
      · exact absurd (htables.symm.trans hfound) Bool.false_ne_true
      · exact absurd (hviews.symm.trans hfound) Bool.false_ne_true
  · intro hexcluded
    -- all that a snapshot has is shown, and `name` is not
    have hhidden : ¬r.source.Shows name := by
      rintro ⟨scope, hlive⟩
      rw [hr] at hlive
      exact absurd (hlive.symm.trans hexcluded) Bool.false_ne_true
    constructor
    · exact Bool.eq_false_iff.2 fun hfound => hhidden (Reader.shows_of_table hs hfound)
    · exact Bool.eq_false_iff.2 fun hfound => hhidden (Reader.shows_of_view hs hfound)

/-! ### The result -/

/-- **What the case of letters does not matter for.** Names that differ in the case of ASCII letters
only are SQLite's own together, and bookkeeping names together. A name is SQLite's own exactly if
its first seven characters are the mark of such names, in any case; this holds of short names too,
and of those in which a character runs over the seventh byte. So it can be told from the name that
is written in a declaration whether the table that it is found to refer to is excluded, whatever
tables there are to choose from. A snapshot of a catalog that was loaded lacks that table exactly if
the written name is excluded. -/
theorem letterCase_of_metadata (m : Metadata) :
    (∀ scope name other, Text.sameIgnoringCase name other = true →
      m.source.isSystem scope name = m.source.isSystem scope other ∧
        m.source.isBookkeeping name = m.source.isBookkeeping other) ∧
    (∀ scope name,
      (m.source.isSystem scope name = true ↔
        ∃ first rest, name = first ++ rest ∧ first.length = 7 ∧
          Text.sameIgnoringCase first "sqlite_" = true) ∧
      (¬String.Pos.Raw.IsValid name ⟨7⟩ → m.source.isSystem scope name = false)) ∧
    (∀ (k : DeclaredKey) tables target, k.referenced? tables = some target → ∀ scope,
      m.source.excludes scope target = m.source.excludes scope k.record.target) ∧
    ∀ c options, (load c options).outcome = .ok m → ∀ r : Reader, r.source = m.source →
      Metadata.inScope r.scope = true → ∀ s, r.read.outcome = .ok s →
        ∀ (k : DeclaredKey) target, k.referenced? c.tableNames = some target → ∀ scope,
          ((s.tables.contains target = false ∧ s.views.contains target = false) ↔
            m.source.excludes scope k.record.target = true) := by
  have hwritten (k : DeclaredKey) (tables : List String) (target : String)
      (hreferenced : k.referenced? tables = some target) (scope : Scope) :
      m.source.excludes scope target = m.source.excludes scope k.record.target :=
    m.options.excludes_congr (DeclaredKey.sameIgnoringCase_of_referenced? hreferenced)
  refine ⟨?_, ?_, hwritten, ?_⟩
  · intro scope name other hsame
    exact ⟨Metadata.isSystem_congr hsame, Metadata.isBookkeeping_congr hsame⟩
  · intro scope name
    exact ⟨m.isSystem_iff scope, m.isSystem_of_not_isValid scope⟩
  · intro c options hm r hr hscope s hs k target hreferenced scope
    rw [← hwritten k _ target hreferenced scope]
    obtain ⟨-, rfl⟩ := load_eq_ok_iff.1 hm
    have htable : c.HasTable target := (DeclaredKey.refersTo_of_referenced? hreferenced).1
    exact absent_iff_excludes hr hscope hs htable

/-- An aquarium. Its tanks refer to a table of SQLite's own, to one whose name only comes close to
such a name, and to the bookkeeping table, each written in another case than it has. -/
def aquarium : Catalog where
  objects := .ok
    [⟨"table", "tanks", none⟩, ⟨"table", "SQLite_ü", none⟩, ⟨"table", "sqliteü", none⟩,
      ⟨"table", "DataBaseChangeLog", none⟩]
  tableInfo _ := .ok [⟨0, "number", "INTEGER", 0, none, 1⟩]
  indexList _ := .ok []
  indexInfo _ := .ok []
  foreignKeyList name :=
    if name = "tanks" then
      .ok [⟨0, 0, "sqlite_ü", "pump", none⟩, ⟨1, 0, "SQLITEü", "fish", none⟩,
        ⟨2, 0, "databasechangelog", "author", none⟩]
    else .ok []

theorem letterCase_of_metadata_aquarium :
    ∃ m, (load aquarium {}).outcome = .ok m ∧
      (∀ scope, m.source.isSystem scope "SQLite_ü" = m.source.isSystem scope "sqlite_ü" ∧
        m.source.isSystem scope "SQLite_ü" = true ∧ m.source.isSystem scope "sqliteü" = false ∧
        m.source.isBookkeeping "DataBaseChangeLog" = m.source.isBookkeeping "databasechangelog" ∧
        m.source.excludes scope "sqliteü" = m.source.excludes scope "SQLITEü") ∧
      ∃ s, (readerOf aquarium).read.outcome = .ok s ∧ s.tables.contains "SQLite_ü" = false ∧
        s.tables.contains "DataBaseChangeLog" = false ∧
        ¬(s.tables.contains "sqliteü" = false ∧ s.views.contains "sqliteü" = false) := by
  have hm : (load aquarium {}).outcome = .ok (aquarium.metadata {}) := rfl
  obtain ⟨s, hs⟩ : ∃ s, (readerOf aquarium).read.outcome = .ok s := ⟨_, rfl⟩
  obtain ⟨hcase, hsystem, hwritten, hsnapshot⟩ := letterCase_of_metadata (aquarium.metadata {})
  have hmissing := hsnapshot aquarium {} hm (readerOf aquarium) rfl rfl s hs
  have hpump := hmissing ⟨"tanks", 0, 0, "sqlite_ü", "pump", none⟩ "SQLite_ü" (by decide)
    ⟨none, some "main"⟩
  have hfish := hmissing ⟨"tanks", 1, 0, "SQLITEü", "fish", none⟩ "sqliteü" (by decide)
    ⟨none, some "main"⟩
  have hauthor := hmissing ⟨"tanks", 2, 0, "databasechangelog", "author", none⟩ "DataBaseChangeLog"
    (by decide) ⟨none, some "main"⟩
  refine ⟨_, hm, fun scope => ⟨?_, ?_, ?_, ?_, ?_⟩, s, hs, ?_, ?_, ?_⟩
  · exact (hcase scope "SQLite_ü" "sqlite_ü" (by decide)).1
  · exact (hsystem scope "SQLite_ü").1.2 ⟨"SQLite_", "ü", rfl, rfl, by decide⟩
  · exact (hsystem scope "sqliteü").2 (by decide)
  · exact (hcase scope "DataBaseChangeLog" "databasechangelog" (by decide)).2
  · exact hwritten ⟨"tanks", 1, 0, "SQLITEü", "fish", none⟩ ["tanks", "sqliteü"] "sqliteü"
      (by decide) scope
  · exact (hpump.2 (by decide)).1
  · exact (hauthor.2 (by decide)).1
  · rw [hfish]
    decide

end SchemaSnapshot.Sqlite

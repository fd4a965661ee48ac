import SchemaSnapshot.Proofs.Contents
import SchemaSnapshot.Proofs.Sqlite.Loading

/-!
# The tables and views of a SQLite snapshot

A reader that is given a loaded catalog finds the tables and views of the catalog, less those whose
names are excluded (`Options.excludes`). The rows that it is told about columns are those that the
records of the tables and views make, so the columns of a snapshot can be said in terms of the
records (`ColumnRecord.column`, `columnsOfRecords`).
-/

namespace SchemaSnapshot.Sqlite

/-! ### Names -/

/-- Whether the table or view `name` is left out of every snapshot: it is SQLite's own, or one of
the `bookkeepingTables`. -/
def Options.excludes (options : Options) (name : String) : Bool :=
  Text.opensIgnoringCase Metadata.systemOpening name ||
    options.bookkeepingTables.any (Text.sameIgnoringCase · name)

/-- `options.excludes name = options.excludes other` if the names differ in case only. -/
theorem Options.excludes_congr (options : Options) {name other : String}
    (h : Text.sameIgnoringCase name other = true) :
    options.excludes name = options.excludes other := by
  have hfold := Text.sameIgnoringCase_iff.1 h
  simp only [Options.excludes, Text.opensIgnoringCase_congr hfold, Text.sameIgnoringCase, hfold]

/-- No two tables or views have the same name. -/
def Catalog.NamesApart (c : Catalog) : Prop :=
  (c.relationList.map (·.name)).Nodup

/-- No two tables or views have the same name but for the case of its letters. -/
def Catalog.NamesApartIgnoringCase (c : Catalog) : Prop :=
  (c.relationList.map (Text.foldCase ·.name)).Nodup

instance (c : Catalog) : Decidable c.NamesApart :=
  inferInstanceAs (Decidable (List.Nodup _))

instance (c : Catalog) : Decidable c.NamesApartIgnoringCase :=
  inferInstanceAs (Decidable (List.Nodup _))

theorem Catalog.NamesApartIgnoringCase.namesApart {c : Catalog} (h : c.NamesApartIgnoringCase) :
    c.NamesApart := by
  refine List.Nodup.of_map Text.foldCase ?_
  rw [List.map_map]
  exact h

/-- `name = other` for two tables whose names differ in case only. -/
theorem Catalog.NamesApartIgnoringCase.eq_of_sameIgnoringCase {c : Catalog}
    (h : c.NamesApartIgnoringCase) {name other : String} (hname : c.HasTable name)
    (hother : c.HasTable other) (hsame : Text.sameIgnoringCase name other = true) :
    name = other := by
  obtain ⟨sql, hmem⟩ := Catalog.hasTable_iff.1 hname
  obtain ⟨sql', hmem'⟩ := Catalog.hasTable_iff.1 hother
  exact congrArg Relation.name
    (List.inj_on_of_nodup_map h hmem hmem' (Text.sameIgnoringCase_iff.1 hsame))

/-! ### Columns -/

/-- Whether a column of the owner takes nulls, `.unknown` for the columns of views. -/
def ColumnRecord.nullability (record : ColumnRecord) : ColumnOwner → Nullability
  | .view _ => .unknown
  | .table _ => if record.notNull = 0 then .nullable else .notNull

/-- The column that `record` describes, its default as `dialect` reads it. -/
def ColumnRecord.column (record : ColumnRecord) (dialect : Dialect) (owner : ColumnOwner) :
    Column where
  name := record.name
  owner := owner
  typeCode := (Affinity.ofDeclared record.declared).code
  size := (TypeArguments.ofDeclared record.declared).size
  digits := (TypeArguments.ofDeclared record.declared).digits
  typeName := record.declared
  nullability := record.nullability owner
  autoIncrement := dialect.numbersRows record.rawDefault
  defaultValue := dialect.portable record.rawDefault

/-- The columns that `records` describe. The first record of a name decides on the place of the
column, the last one on its content. -/
def columnsOfRecords (dialect : Dialect) (owner : ColumnOwner) (records : List ColumnRecord) :
    List Column :=
  (records.map (·.name)).eraseDups.filterMap fun name =>
    (records.filter (·.name == name)).getLast?.map (·.column dialect owner)

/-- The table or view as the owner of columns. -/
def Relation.owner (r : Relation) : ColumnOwner :=
  match r.kind with
  | .table => .table r.name
  | .view => .view r.name

theorem described_columnRow (dialect : Dialect) (r : Relation) (record : ColumnRecord) :
    (record.columnRow r).described dialect r.owner = record.column dialect r.owner := by
  have hnull : Nullability.ofCode (record.nullableCode r.kind) = record.nullability r.owner := by
    unfold ColumnRecord.nullableCode Relation.owner
    cases r.kind with
    | view => rfl
    | table =>
      dsimp only [ColumnRecord.nullability]
      split <;> rfl
  rw [← columnOfRow_eq_described]
  simp only [Dialect.columnOfRow, ColumnRecord.columnRow, ColumnRecord.column, hnull]

theorem columnsOfRows_columnRow (dialect : Dialect) (r : Relation) (records : List ColumnRecord) :
    dialect.columnsOfRows r.owner (records.map (·.columnRow r)) =
      columnsOfRecords dialect r.owner records := by
  -- the last row comes from the last record of the name
  have hlast (name : String) : lastRow? (records.map (·.columnRow r)) name =
      (records.filter (·.name == name)).getLast?.map (·.columnRow r) := by
    rw [lastRow?, List.filter_map, List.getLast?_map]
    rfl
  simp only [Dialect.columnsOfRows, columnsOfRecords, hlast, List.map_map, Option.map_map]
  have hcolumn : ((·.described dialect r.owner) ∘
      fun record : ColumnRecord => record.columnRow r) =
      fun record => record.column dialect r.owner :=
    funext (described_columnRow dialect r)
  rw [hcolumn]
  rfl

/-! ### Reading a catalog -/

/-- A reader of `c`, with nothing else said. -/
def readerOf (c : Catalog) : Reader where
  source := (c.metadata {}).source

theorem Metadata.answersAll (m : Metadata) : m.source.AnswersAll := by
  intro call
  cases call <;> exact ⟨_, rfl⟩

/-- The objects that are reported are those of the catalog if `inScope r.scope`, and else none. -/
theorem Metadata.answer_objects {m : Metadata} {r : Reader} (hr : r.source = m.source) :
    r.source.answer (.objects r.scope) =
      .ok (if inScope r.scope then m.relations.map (·.objectRow) else []) := by
  rw [hr]
  rfl

/-- The columns that are reported are those of the catalog if `inScope r.scope`, and else none. -/
theorem Metadata.answer_columns {m : Metadata} {r : Reader} (hr : r.source = m.source) :
    r.source.answer (.columns r.scope) = .ok (if inScope r.scope then m.columns else []) := by
  rw [hr]
  rfl

section Reading

variable {c : Catalog} {options : Options} {r : Reader}

theorem isLive_columnRow (hr : r.source = (c.metadata options).source) (relation : Relation)
    (record : ColumnRecord) :
    r.isLive (record.columnRow relation) = !options.excludes relation.name := by
  rw [Reader.isLive, hr]
  rfl

theorem isClaim_objectRow (hr : r.source = (c.metadata options).source) (relation : Relation) :
    r.isClaim relation.objectRow = !options.excludes relation.name := by
  have hkind : (relation.objectKind == .table || relation.objectKind == .view) = true := by
    unfold Relation.objectKind
    cases relation.kind <;> rfl
  rw [Reader.isClaim, hr, show relation.objectRow.kind = relation.objectKind from rfl, hkind,
    Bool.and_true]
  rfl

/-- The object rows that are reported, one for each of `c.relationList`. -/
def Catalog.objectRows (c : Catalog) : List ObjectRow :=
  c.relationList.map (·.objectRow)

theorem answer_objects (hr : r.source = (c.metadata options).source)
    (hscope : Metadata.inScope r.scope = true) :
    r.source.answer (.objects r.scope) = .ok c.objectRows := by
  rw [Metadata.answer_objects hr, if_pos hscope]
  rfl

theorem answer_columns (hr : r.source = (c.metadata options).source)
    (hscope : Metadata.inScope r.scope = true) :
    r.source.answer (.columns r.scope) = .ok c.columnRows := by
  rw [Metadata.answer_columns hr, if_pos hscope]
  rfl

theorem answer_primaryKeys (hr : r.source = (c.metadata options).source) (table : String) :
    r.source.answer (.primaryKeys r.scope table) =
      .ok (c.primaryKeyRows.filter (·.table == table)) := by
  rw [hr]
  rfl

theorem claimsApart_objectRows (hapart : c.NamesApart) : r.ClaimsApart c.objectRows := by
  intro row hrow other hother _ _ hname
  obtain ⟨relation, hrelation, rfl⟩ := List.mem_map.1 hrow
  obtain ⟨relation', hrelation', rfl⟩ := List.mem_map.1 hother
  rw [List.inj_on_of_nodup_map hapart hrelation hrelation' hname]

theorem claim?_objectRows (hr : r.source = (c.metadata options).source) (hapart : c.NamesApart)
    {name : String} {kind : ObjectKind} :
    r.claim? c.objectRows name = some kind ↔
      ∃ relation ∈ c.relationList, options.excludes name = false ∧ relation.name = name ∧
        relation.objectKind = kind := by
  rw [Reader.claim?_eq_some_iff (claimsApart_objectRows hapart)]
  constructor
  · rintro ⟨row, hrow, hclaim, rfl, rfl⟩
    obtain ⟨relation, hrelation, rfl⟩ := List.mem_map.1 hrow
    rw [isClaim_objectRow hr, Bool.not_eq_true'] at hclaim
    exact ⟨relation, hrelation, hclaim, rfl, rfl⟩
  · rintro ⟨relation, hrelation, hlive, rfl, rfl⟩
    refine ⟨_, List.mem_map.2 ⟨relation, hrelation, rfl⟩, ?_, rfl, rfl⟩
    rw [isClaim_objectRow hr, hlive]
    rfl

theorem claim?_table_iff (hr : r.source = (c.metadata options).source) (hapart : c.NamesApart)
    {name : String} :
    r.claim? c.objectRows name = some .table ↔
      c.HasTable name ∧ options.excludes name = false := by
  rw [claim?_objectRows hr hapart, Catalog.hasTable_iff]
  constructor
  · rintro ⟨⟨kind, _, sql⟩, hmem, hlive, rfl, hkind⟩
    cases kind with
    | table => exact ⟨⟨sql, hmem⟩, hlive⟩
    | view => cases hkind
  · rintro ⟨⟨sql, hmem⟩, hlive⟩
    exact ⟨_, hmem, hlive, rfl, rfl⟩

theorem claim?_view_iff (hr : r.source = (c.metadata options).source) (hapart : c.NamesApart)
    {name : String} :
    r.claim? c.objectRows name = some .view ↔
      (∃ sql, c.HasView name sql) ∧ options.excludes name = false := by
  rw [claim?_objectRows hr hapart]
  simp only [Catalog.hasView_iff]
  constructor
  · rintro ⟨⟨kind, _, sql⟩, hmem, hlive, rfl, hkind⟩
    cases kind with
    | table => cases hkind
    | view => exact ⟨⟨sql, hmem⟩, hlive⟩
  · rintro ⟨⟨sql, hmem⟩, hlive⟩
    exact ⟨_, hmem, hlive, rfl, rfl⟩

/-- The tables with which a run comes to the third phase are those of `c`, less those that `options`
excludes. -/
theorem contains_tables_iff (hr : r.source = (c.metadata options).source) (hapart : c.NamesApart)
    (hscope : Metadata.inScope r.scope = true) {found : Containers} (h : r.ReachesForeignKeys found)
    (name : String) :
    found.tables.contains name = true ↔ c.HasTable name ∧ options.excludes name = false := by
  have hcontents := Reader.contents_of_reachesForeignKeys (answer_objects hr hscope)
    (answer_columns hr hscope) h
  rw [hcontents.contains_table, claim?_table_iff hr hapart]

/-- The live rows about `relation` are `columnRow` of its own records. -/
theorem rowsAbout_columnRows (hr : r.source = (c.metadata options).source) (hapart : c.NamesApart)
    {relation : Relation} (hmem : relation ∈ c.relationList)
    (hlive : options.excludes relation.name = false) :
    r.rowsAbout c.columnRows relation.name =
      (c.records relation.name).map (·.columnRow relation) := by
  -- of all the groups of rows, one is about `relation`
  have hgroup : c.columnRows.filter (·.table == relation.name) =
      (c.records relation.name).map (·.columnRow relation) := by
    refine filter_flatMap_of_nodup hapart ?_ hmem
    intro relation _ row hrow
    obtain ⟨record, -, rfl⟩ := List.mem_map.1 hrow
    rfl
  have hcomm : r.rowsAbout c.columnRows relation.name =
      (c.columnRows.filter (·.table == relation.name)).filter r.isLive := by
    simp only [Reader.rowsAbout, List.filter_filter, Bool.and_comm]
  rw [hcomm, hgroup, List.filter_eq_self]
  intro row hrow
  obtain ⟨record, -, rfl⟩ := List.mem_map.1 hrow
  rw [isLive_columnRow hr, hlive]
  rfl

/-- `(c.metadata options).viewDefinition name = sql` for a view of the catalog, as
`c.NamesApart`. -/
theorem viewDefinition_metadata (options : Options) (hapart : c.NamesApart) {name : String}
    {sql : Option String} (h : c.HasView name sql) :
    (c.metadata options).viewDefinition name = sql := by
  have hmem := Catalog.hasView_iff.1 h
  refine viewDefinition_of_mem options hmem rfl fun other hother _ hname => ?_
  rw [List.inj_on_of_nodup_map hapart hother hmem hname]

/-- The tables that are found are those of `c`, less those that `options` excludes, each with the
columns that its records describe. -/
theorem get?_tables_iff (hanswers : c.Answers) (hr : r.source = (c.metadata options).source)
    (hapart : c.NamesApart) {found : Containers}
    (h : r.Contents c.objectRows c.columnRows found) {name : String} {table : Table} :
    found.tables.get? name = some table ↔
      c.HasTable name ∧ options.excludes name = false ∧ ∃ records, c.tableInfo name = .ok records ∧
        table =
          { name := name
            columns :=
              columnsOfRecords r.dialect (.table name) (orderedBy (·.place) records) } := by
  rw [h.table]
  by_cases hclaim : r.claim? c.objectRows name = some .table
  · obtain ⟨htable, hlive⟩ := (claim?_table_iff hr hapart).1 hclaim
    obtain ⟨sql, hmem⟩ := Catalog.hasTable_iff.1 htable
    obtain ⟨records, hrecords⟩ := hanswers.columns _ hmem rfl
    have hcolumns : r.dialect.columnsOfRows (.table name) (r.rowsAbout c.columnRows name) =
        columnsOfRecords r.dialect (.table name) (orderedBy (·.place) records) := by
      rw [rowsAbout_columnRows hr hapart hmem hlive, Catalog.records_eq, hrecords]
      exact columnsOfRows_columnRow r.dialect ⟨.table, name, sql⟩ _
    rw [if_pos hclaim, hcolumns, Option.some.injEq]
    constructor
    · rintro rfl
      exact ⟨htable, hlive, records, hrecords, rfl⟩
    · rintro ⟨-, -, records', hrecords', rfl⟩
      obtain rfl := Except.ok.inj (hrecords.symm.trans hrecords')
      rfl
  · rw [if_neg hclaim]
    constructor
    · intro hnone
      cases hnone
    · rintro ⟨htable, hlive, -⟩
      exact absurd ((claim?_table_iff hr hapart).2 ⟨htable, hlive⟩) hclaim

theorem get?_views_iff (hr : r.source = (c.metadata options).source) (hapart : c.NamesApart)
    {found : Containers} (h : r.Contents c.objectRows c.columnRows found) {name : String}
    {view : View} :
    found.views.get? name = some view ↔
      ∃ sql, c.HasView name sql ∧ options.excludes name = false ∧
        view =
          { name := name
            definition := sql
            columns :=
              columnsOfRecords r.dialect (.view name)
                (orderedBy (·.place) (rowsOf (c.tableInfo name))) } := by
  rw [h.view]
  by_cases hclaim : r.claim? c.objectRows name = some .view
  · obtain ⟨⟨sql, hview⟩, hlive⟩ := (claim?_view_iff hr hapart).1 hclaim
    have hmem := Catalog.hasView_iff.1 hview
    -- the rows about the view are those of its records, if it can be described
    have hcolumns : r.dialect.columnsOfRows (.view name) (r.rowsAbout c.columnRows name) =
        columnsOfRecords r.dialect (.view name)
          (orderedBy (·.place) (rowsOf (c.tableInfo name))) := by
      rw [rowsAbout_columnRows hr hapart hmem hlive, Catalog.records_eq]
      exact columnsOfRows_columnRow r.dialect ⟨.view, name, sql⟩ _
    have hdefinition : r.source.answer (.viewDefinition name) = .ok sql := by
      rw [hr, ← viewDefinition_metadata options hapart hview]
      rfl
    rw [if_pos hclaim, hcolumns, hdefinition]
    show some _ = some view ↔ _
    rw [Option.some.injEq]
    constructor
    · rintro rfl
      exact ⟨sql, hview, hlive, rfl⟩
    · rintro ⟨sql', hview', -, rfl⟩
      rw [← viewDefinition_metadata options hapart hview,
        viewDefinition_metadata options hapart hview']
  · rw [if_neg hclaim]
    constructor
    · intro hnone
      cases hnone
    · rintro ⟨sql, hview, hlive, -⟩
      exact absurd ((claim?_view_iff hr hapart).2 ⟨⟨sql, hview⟩, hlive⟩) hclaim

/-- `row.table` has a `claim?` for every live row. -/
theorem exists_claim?_of_isLive (hr : r.source = (c.metadata options).source) {row : ColumnRow}
    (hrow : row ∈ c.columnRows) (hlive : r.isLive row = true) :
    ∃ kind, r.claim? c.objectRows row.table = some kind := by
  obtain ⟨relation, hrelation, record, -, rfl⟩ := Catalog.mem_columnRows.1 hrow
  rw [isLive_columnRow hr] at hlive
  have hclaim : r.isClaim relation.objectRow = true := by
    rw [isClaim_objectRow hr]
    exact hlive
  exact Reader.exists_claim? (List.mem_map.2 ⟨relation, hrelation, rfl⟩) hclaim

theorem warning_of_catalog (hr : r.source = (c.metadata options).source) (hapart : c.NamesApart)
    (hscope : Metadata.inScope r.scope = true) {s : Snapshot} (hs : r.read.outcome = .ok s)
    {warning : Warning} (hwarning : warning ∈ s.warnings) :
    ∃ owner column, warning = .duplicateColumn owner column := by
  obtain hlate | hduplicate | ⟨row, hrow, hlive, hnone⟩ :=
    Reader.warning_of_read (answer_objects hr hscope) (answer_columns hr hscope) hs hwarning
  · rw [Reader.claimWarnings_eq_nil (claimsApart_objectRows hapart)] at hlate
    cases hlate
  · exact hduplicate
  · obtain ⟨kind, hkind⟩ := exists_claim?_of_isLive hr hrow hlive
    rw [hnone] at hkind
    cases hkind

end Reading

/-! ### The result -/

/-- **The tables and views of a SQLite snapshot.** Take a catalog that can be loaded, and a reader
that is given what is loaded. If no two tables or views of the catalog have the same name, the
schema is the one that is read, and a snapshot is taken, then the tables of the snapshot are the
tables of the catalog whose names are not excluded, and its views are the views of that sort, with
the statements that made them. The columns are those that the records describe, by place; a view
that cannot be described has none. The warnings are all about columns that come twice. Whatever the
scope, a run does not fail for the source. -/
theorem containers_of_catalog {c : Catalog} {options : Options} {m : Metadata} {r : Reader}
    (hm : (load c options).outcome = .ok m) (hr : r.source = m.source) :
    (c.NamesApart → Metadata.inScope r.scope = true → ∀ s, r.read.outcome = .ok s →
      (∀ name table, s.tables.get? name = some table ↔
        c.HasTable name ∧ options.excludes name = false ∧
          ∃ records, c.tableInfo name = .ok records ∧
            table =
              { name := name
                columns :=
                  columnsOfRecords r.dialect (.table name) (orderedBy (·.place) records) }) ∧
      (∀ name view, s.views.get? name = some view ↔
        ∃ sql, c.HasView name sql ∧ options.excludes name = false ∧
          view =
            { name := name
              definition := sql
              columns :=
                columnsOfRecords r.dialect (.view name)
                  (orderedBy (·.place) (rowsOf (c.tableInfo name))) }) ∧
      ∀ warning ∈ s.warnings, ∃ owner column, warning = .duplicateColumn owner column) ∧
    ∀ e, r.read.outcome = .error e → e.kind ≠ .connectivity := by
  obtain ⟨hanswers, rfl⟩ := load_eq_ok_iff.1 hm
  refine ⟨?_, ?_⟩
  · intro hapart hscope s hs
    have hcontents :=
      Reader.contents_of_read (answer_objects hr hscope) (answer_columns hr hscope) hs
    exact ⟨fun name table => get?_tables_iff hanswers hr hapart hcontents,
      fun name view => get?_views_iff hr hapart hcontents,
      fun warning hwarning => warning_of_catalog hr hapart hscope hs hwarning⟩
  · -- what a run fails for is a reference or a position
    intro e he hkind
    obtain ⟨found, -, ⟨hkind', -⟩ | ⟨hkind', -⟩⟩ :=
      Reader.error_of_read (hr ▸ Metadata.answersAll _) he
    · rw [hkind] at hkind'
      cases hkind'
    · rw [hkind] at hkind'
      cases hkind'

/-- A cinema with a table, a view, a view that outlived its table, and a bookkeeping table. -/
def cinema : Catalog where
  objects := .ok
    [⟨"view", "tonight", some "SELECT title FROM films"⟩, ⟨"table", "films", none⟩,
      ⟨"index", "by_title", none⟩, ⟨"table", "databasechangelog", none⟩,
      ⟨"view", "archive", some "SELECT * FROM reels"⟩]
  tableInfo name :=
    if name = "films" then
      .ok [⟨1, "title", "VARCHAR(80)", 1, none, 0⟩, ⟨0, "id", "INTEGER", 0, none, 1⟩]
    else if name = "tonight" then .ok [⟨0, "title", "VARCHAR(80)", 0, none, 0⟩]
    else if name = "archive" then .error (.refused "no such table: main.reels")
    else .ok [⟨0, "author", "TEXT", 0, none, 0⟩]
  indexList _ := .ok []
  indexInfo _ := .ok []
  foreignKeyList _ := .ok []

theorem containers_of_catalog_cinema :
    ∃ s, (readerOf cinema).read.outcome = .ok s ∧
      s.tables.get? "films" = some
        { name := "films"
          columns :=
            [⟨"id", .table "films", 4, 0, 0, "INTEGER", .nullable, false, none⟩,
              ⟨"title", .table "films", 12, 80, 0, "VARCHAR(80)", .notNull, false, none⟩] } ∧
      s.views.get? "archive" = some
        { name := "archive", definition := some "SELECT * FROM reels", columns := [] } ∧
      s.tables.get? "databasechangelog" = none := by
  have hm : (load cinema {}).outcome = .ok (cinema.metadata {}) := rfl
  obtain ⟨s, hs⟩ : ∃ s, (readerOf cinema).read.outcome = .ok s := ⟨_, rfl⟩
  obtain ⟨htables, hviews, -⟩ :=
    (containers_of_catalog (r := readerOf cinema) hm rfl).1 (by decide) rfl s hs
  refine ⟨s, hs, (htables _ _).2 ?_, (hviews _ _).2 ?_, ?_⟩
  · have hfilms : cinema.HasTable "films" := ⟨_, none, rfl, by decide⟩
    exact ⟨hfilms, by decide, _, rfl, by decide⟩
  · have harchive : cinema.HasView "archive" (some "SELECT * FROM reels") := ⟨_, rfl, by decide⟩
    exact ⟨_, harchive, by decide, by decide⟩
  · rw [Option.eq_none_iff_forall_ne_some]
    intro table htable
    have hexcluded := ((htables _ _).1 htable).2.1
    revert hexcluded
    decide

end SchemaSnapshot.Sqlite

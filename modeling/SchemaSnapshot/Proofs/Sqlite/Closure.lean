import SchemaSnapshot.Proofs.Sqlite.ForeignKeys

/-!
# SQLite snapshots refer to nothing outside themselves

A reader takes the table names of key and index rows as they come. From SQLite they come with the
rows of the table that was asked about, and only tables that have been found are asked about; so
primary keys, indexes and both ends of foreign keys belong to tables of the snapshot, and primary
keys consist of columns of theirs (`closure_of_catalog`). Hence going through the tables of a
snapshot meets every key and every index once.
-/

namespace SchemaSnapshot.Sqlite

variable {c : Catalog} {options : Options} {r : Reader}

/-! ### Tables that have been found -/

/-- Where a table has been found, `Metadata.inScope r.scope`: the schema is the one that is read. -/
theorem inScope_of_contains (hr : r.source = (c.metadata options).source) {found : Containers}
    (h : r.ReachesForeignKeys found) {name : String} (hname : found.tables.contains name = true) :
    Metadata.inScope r.scope = true := by
  by_contra hscope
  -- Nothing is reported about another schema, so nobody claims the name.
  have hobjects : r.source.answer (.objects r.scope) = .ok [] := by
    rw [Metadata.answer_objects hr, if_neg hscope]
  have hcolumns : r.source.answer (.columns r.scope) = .ok [] := by
    rw [Metadata.answer_columns hr, if_neg hscope]
  have hclaim := (Reader.contents_of_reachesForeignKeys hobjects hcolumns h).contains_table.1 hname
  cases hclaim

/-- `row.column ∈ table.columns.map (·.name)` for the table that has been found for `row.table`. -/
theorem mem_columns_of_primaryKeyRow (hr : r.source = (c.metadata options).source)
    {found : Containers} (h : r.ReachesForeignKeys found) {row : PrimaryKeyRow}
    (hrow : row ∈ c.primaryKeyRows) {table : Table}
    (htable : found.tables.get? row.table = some table) :
    row.column ∈ table.columns.map (·.name) := by
  have hcontains := OrderedMap.contains_iff.2 ⟨table, htable⟩
  have hscope := inScope_of_contains hr h hcontains
  have hcontents := Reader.contents_of_reachesForeignKeys (answer_objects hr hscope)
    (answer_columns hr hscope) h
  have hclaim := hcontents.contains_table.1 hcontains
  rw [hcontents.table, if_pos hclaim, Option.some.injEq] at htable
  subst htable
  -- The record of the key column is also the record of a live column row.
  obtain ⟨relation, hrelation, record, hrecord, hkey⟩ := Catalog.mem_primaryKeyRows.1 hrow
  obtain ⟨-, rfl⟩ := ColumnRecord.primaryKeyRow?_eq_some_iff.1 hkey
  -- the row of `relation` claims its name, so the name is live
  have hlive : r.isLive (record.columnRow relation) = true := by
    obtain ⟨_, hobject, hisClaim, hname, -⟩ := Reader.claim?_eq_some hclaim
    obtain ⟨relation', -, rfl⟩ := List.mem_map.1 hobject
    obtain hname : relation'.name = relation.name := hname
    rw [isLive_columnRow hr, ← hname, ← isClaim_objectRow hr, hisClaim]
  rw [map_name_columnsOfRows, List.mem_eraseDups]
  refine List.mem_map.2 ⟨record.columnRow relation, ?_, rfl⟩
  refine List.mem_filter.2 ⟨List.mem_filter.2 ⟨?_, hlive⟩, beq_self_eq_true _⟩
  exact Catalog.mem_columnRows.2 ⟨relation, hrelation, record, hrecord, rfl⟩

/-! ### Primary keys -/

/-- A primary key that is found is that of a table that was asked about, and its columns are those
of rows with this `table`. -/
theorem rows_of_readPrimaryKeys (hr : r.source = (c.metadata options).source) {found : Containers}
    {keys : OrderedSet PrimaryKey} (h : (r.readPrimaryKeys found).outcome = .ok keys)
    {key : PrimaryKey} (hkey : key ∈ keys) :
    found.tables.contains key.table = true ∧
      ∀ column ∈ key.columns, ∃ row ∈ c.primaryKeyRows, row.table = key.table ∧
        row.column = column := by
  have hanswers (table : String) (_ : table ∈ found.tables.keys) := answer_primaryKeys hr table
  obtain ⟨hmem, hrows⟩ := (Reader.mem_of_readPrimaryKeys hanswers h key).1 hkey
  constructor
  · obtain ⟨row, hrow, htable⟩ := List.mem_map.1 hmem
    obtain ⟨table, hasked, hrow⟩ := List.mem_flatMap.1 hrow
    -- the row that names the table is in the answer about it
    have hsame : row.table = table := by simpa using (List.mem_filter.1 hrow).2
    rw [← htable, hsame]
    exact OrderedMap.mem_keys_iff.1 hasked
  · intro column hcolumn
    rw [hrows] at hcolumn
    obtain ⟨row, hrow, rfl⟩ := List.mem_map.1 hcolumn
    obtain ⟨hrow, htable⟩ := List.mem_filter.1 ((orderedBy_perm _ _).mem_iff.1 hrow)
    obtain ⟨table, -, hrow⟩ := List.mem_flatMap.1 hrow
    exact ⟨row, (List.mem_filter.1 hrow).1, by simpa using htable, rfl⟩

/-! ### Indexes -/

theorem table_of_part? {row : IndexRow} {part : IndexPart} (h : row.part? = some part) :
    part.table = row.table := by
  unfold IndexRow.part? at h
  split at h
  · cases h
  · split at h
    · obtain rfl := Option.some.inj h
      rfl
    · cases h

theorem answer_indexInfo (hr : r.source = (c.metadata options).source) (table : String) :
    r.source.answer (.indexInfo r.scope table) =
      .ok ((c.metadata options).indexRows.filter (·.table == table)) := by
  rw [hr]
  rfl

/-- `index.table` has been found for every index that is found. -/
theorem contains_of_readIndexes (hr : r.source = (c.metadata options).source) {found : Containers}
    {keys : OrderedSet PrimaryKey} {indexes : OrderedSet Index}
    (h : (r.readIndexes found keys).outcome = .ok indexes) {index : Index}
    (hindex : index ∈ indexes) : found.tables.contains index.table = true := by
  have hanswers (table : String) (_ : table ∈ found.tables.keys) := answer_indexInfo hr table
  obtain ⟨⟨table, hasked, first, rest, hparts, rfl⟩, -⟩ :=
    (Reader.mem_of_readIndexes hanswers h index).1 hindex
  -- the first part comes from a row of the answer about `table`
  obtain ⟨row, hrow, hpart⟩ := List.mem_filterMap.1 (first_of_partsNamed hparts).1
  have hsame : row.table = table := by simpa using (List.mem_filter.1 hrow).2
  rw [show (Index.ofParts first rest).table = first.table from rfl, table_of_part? hpart, hsame]
  exact OrderedMap.mem_keys_iff.1 hasked

/-! ### The result -/

/-- **A SQLite snapshot refers to nothing outside itself.** Take a catalog that can be loaded, a
reader that is given what is loaded, and a snapshot that it takes. Every primary key is that of a
table of the snapshot and consists of columns of the table, every index is on a table of the
snapshot, and so are both ends of every foreign key. So the primary keys, the indexes and the
foreign keys of the tables of the snapshot are all there are, each once. -/
theorem closure_of_catalog {m : Metadata} {s : Snapshot} (hm : (load c options).outcome = .ok m)
    (hr : r.source = m.source) (hs : r.read.outcome = .ok s) :
    (∀ key ∈ s.primaryKeys, ∃ table, s.tables.get? key.table = some table ∧
      ∀ column ∈ key.columns, column ∈ table.columns.map (·.name)) ∧
    (∀ index ∈ s.indexes, s.tables.contains index.table = true) ∧
    (∀ key ∈ s.foreignKeys, s.tables.contains key.referencedTable = true ∧
      s.tables.contains key.table = true) ∧
    (s.primaryKeys.toList.Nodup ∧
      (s.tables.values.filterMap fun table => s.primaryKey? table.name).Perm
        s.primaryKeys.toList) ∧
    (s.indexes.toList.Nodup ∧
      (s.tables.values.flatMap fun table => s.indexesOn table.name).Perm s.indexes.toList) ∧
    s.foreignKeys.toList.Nodup ∧
      (s.tables.values.flatMap fun table => s.foreignKeysOf table.name).Perm
        s.foreignKeys.toList := by
  obtain ⟨-, rfl⟩ := load_eq_ok_iff.1 hm
  have hreaches := Reader.reachesForeignKeys_of_read hs
  obtain ⟨-, hfks, hkeys⟩ := hreaches.of_read hs
  have hprimary {key : PrimaryKey} (hkey : key ∈ s.primaryKeys) :=
    rows_of_readPrimaryKeys hr hkeys hkey
  have hindexes {index : Index} (hindex : index ∈ s.indexes) :
      s.tables.contains index.table = true := by
    obtain ⟨_, _, -, -, _, _, _, _, -, -, hread, -, rfl⟩ := Reader.read_eq_ok_iff.1 hs
    exact contains_of_readIndexes hr hread hindex
  have hends {key : ForeignKey} (hkey : key ∈ s.foreignKeys) :=
    Reader.ends_of_readForeignKeys hfks hkey
  refine ⟨?_, fun _ => hindexes, fun _ => hends, ⟨s.primaryKeys.nodup, ?_⟩,
    ⟨s.indexes.nodup, ?_⟩, s.foreignKeys.nodup, ?_⟩
  · intro key hkey
    obtain ⟨table, htable⟩ := OrderedMap.contains_iff.1 (hprimary hkey).1
    refine ⟨table, htable, fun column hcolumn => ?_⟩
    obtain ⟨row, hrow, hsame, rfl⟩ := (hprimary hkey).2 column hcolumn
    exact mem_columns_of_primaryKeyRow hr hreaches hrow (hsame ▸ htable)
  · -- No two primary keys are those of one table, so a search finds all there are.
    rw [List.filterMap_eq_flatMap_toList]
    simp only [Snapshot.primaryKey?,
      toList_find?_key PrimaryKey.table (Reader.nodup_table_primaryKeys hs)]
    exact Reader.flatMap_tables_perm hs PrimaryKey.table fun key hkey => (hprimary hkey).1
  · exact Reader.flatMap_tables_perm hs Index.table fun index hindex => hindexes hindex
  · exact Reader.foreignKeysOf_tables_perm hs fun key hkey => (hends hkey).2

/-- A bakery with orders of customers, an index on the days, and a table of SQLite's own. -/
def bakery : Catalog where
  objects := .ok
    [⟨"table", "orders", none⟩, ⟨"table", "sqlite_sequence", none⟩, ⟨"table", "customers", none⟩,
      ⟨"index", "by_day", none⟩]
  tableInfo name :=
    if name = "orders" then
      .ok [⟨0, "day", "INTEGER", 1, none, 2⟩, ⟨1, "customer", "INTEGER", 1, none, 1⟩]
    else .ok [⟨0, "id", "INTEGER", 1, none, 1⟩]
  indexList name := .ok (if name = "orders" then [⟨0, "by_day"⟩] else [])
  indexInfo _ := .ok [⟨0, some "day"⟩]
  foreignKeyList name :=
    .ok (if name = "orders" then [⟨0, 0, "customers", "customer", none⟩] else [])

/-- The snapshot of the bakery. -/
def bakerySnapshot : Snapshot :=
  (readerOf bakery).read.outcome.toOption.getD default

theorem closure_of_catalog_bakery :
    bakerySnapshot.primaryKeys.toList =
      [⟨"customers", ["id"], none⟩, ⟨"orders", ["customer", "day"], none⟩] ∧
    (∃ table, bakerySnapshot.tables.get? "orders" = some table ∧
      "customer" ∈ table.columns.map (·.name)) ∧
    (bakerySnapshot.tables.values.flatMap fun table => bakerySnapshot.indexesOn table.name).Perm
      [⟨"orders", "by_day", ["day"]⟩] := by
  have hm : (load bakery {}).outcome = .ok (bakery.metadata {}) := rfl
  have hs : (readerOf bakery).read.outcome = .ok bakerySnapshot := rfl
  have hkeys : bakerySnapshot.primaryKeys.toList =
      [⟨"customers", ["id"], none⟩, ⟨"orders", ["customer", "day"], none⟩] := rfl
  obtain ⟨hprimary, -, -, -, ⟨-, hindexes⟩, -⟩ := closure_of_catalog hm rfl hs
  refine ⟨hkeys, ?_, hindexes⟩
  obtain ⟨table, htable, hcolumns⟩ := hprimary ⟨"orders", ["customer", "day"], none⟩ (by
    show _ ∈ bakerySnapshot.primaryKeys.toList
    rw [hkeys]
    decide)
  exact ⟨table, htable, hcolumns "customer" (by decide)⟩

end SchemaSnapshot.Sqlite

import SchemaSnapshot.Proofs.Exclusion
import SchemaSnapshot.Proofs.Sqlite.Containers
import SchemaSnapshot.Proofs.Sqlite.Loading

/-!
# The primary keys of a SQLite snapshot

SQLite tells with every column its place in the primary key, counted from 1, or a number that is not
positive where the column is not part of the key. What counts are the key columns of a table
(`keyColumns`), each with its place as SQLite has it. The rows that are loaded say the same with
words for places (`keyRow`), and they are loaded for views and excluded tables as well, about which
the fourth phase never asks. It succeeds exactly if the places in every table of the user's are 1,
2, … in some order, and finds the keys that the key columns make (`primaryKeys_of_catalog`).
-/

namespace SchemaSnapshot.Sqlite

/-! ### Key columns -/

/-- The columns with a positive place in the key, each with this place, in the order of
`records`. -/
def keyColumns (records : List ColumnRecord) : List (Int × String) :=
  (records.filter (0 < ·.keyPlace)).map fun record => (record.keyPlace, record.name)

/-- The primary key that the records of `table` describe. Its columns come by their places in the
key, wherever they stand in the table. -/
def keyOfRecords (table : String) (records : List ColumnRecord) : PrimaryKey where
  table := table
  columns := (orderedBy (·.1) (keyColumns records)).map (·.2)
  name := none

/-- The row that is loaded for a column of the primary key of `table`. -/
def keyRow (table : String) (column : Int × String) : PrimaryKeyRow where
  table := table
  column := column.2
  position := placeWord column.1
  constraintName := none

theorem filterMap_primaryKeyRow? (table : String) (records : List ColumnRecord) :
    records.filterMap (·.primaryKeyRow? table) = (keyColumns records).map (keyRow table) := by
  rw [keyColumns, List.map_map, ← List.filterMap_eq_map, List.filterMap_filter]
  refine List.filterMap_congr fun record _ => ?_
  unfold ColumnRecord.primaryKeyRow?
  by_cases hplace : 0 < record.keyPlace
  · rw [if_pos hplace, if_pos (decide_eq_true hplace)]
    rfl
  · rw [if_neg hplace, if_neg (by simpa using hplace)]

section KeyColumns

variable {records records' : List ColumnRecord} {table : String}

theorem keyColumns_perm (h : records.Perm records') :
    (keyColumns records).Perm (keyColumns records') :=
  (h.filter _).map _

theorem length_keyColumns_le (records : List ColumnRecord) :
    (keyColumns records).length ≤ records.length := by
  rw [keyColumns, List.length_map]
  exact List.length_filter_le ..

theorem wellPlaced_keyColumns_perm (h : records.Perm records') :
    WellPlaced ((keyColumns records).map (·.1)) ↔ WellPlaced ((keyColumns records').map (·.1)) :=
  WellPlaced.congr ((keyColumns_perm h).map _)

/-- `keyOfRecords table records = keyOfRecords table records'` if the lists are permutations of each
other and the places are `WellPlaced`. -/
theorem keyOfRecords_perm (h : records.Perm records')
    (hwell : WellPlaced ((keyColumns records).map (·.1))) :
    keyOfRecords table records = keyOfRecords table records' := by
  rw [keyOfRecords, keyOfRecords, orderedBy_eq_of_perm (keyColumns_perm h) hwell.nodup]

variable (hfew : (records.length : Int) < Int32.maxValue.toInt)
include hfew

theorem length_places_lt :
    (((keyColumns records).map (·.1)).length : Int) < Int32.maxValue.toInt := by
  have hlength := length_keyColumns_le records
  rw [List.length_map]
  omega

/-- The positions in the rows are `WellPlaced` exactly if the places in the records are. -/
theorem wellPlaced_keyRow_iff :
    WellPlaced (((keyColumns records).map (keyRow table)).map (·.position.toInt)) ↔
      WellPlaced ((keyColumns records).map (·.1)) := by
  have hplaces : ((keyColumns records).map (keyRow table)).map (·.position.toInt) =
      ((keyColumns records).map (·.1)).map fun place => (placeWord place).toInt := by
    rw [List.map_map, List.map_map]
    rfl
  rw [hplaces, wellPlaced_placeWord_iff (length_places_lt hfew)]

/-- `PrimaryKey.ofRows` makes `keyOfRecords` of the rows of the key columns. -/
theorem ofRows_keyRow (hwell : WellPlaced ((keyColumns records).map (·.1))) :
    PrimaryKey.ofRows table ((keyColumns records).map (keyRow table)) =
      keyOfRecords table records := by
  have hposition {column : Int × String} (hcolumn : column ∈ keyColumns records) :
      (keyRow table column).position.toInt = column.1 :=
    toInt_placeWord_of_wellPlaced (length_places_lt hfew) hwell (List.mem_map_of_mem hcolumn)
  -- The words ascend as the places do, so that columns come in the same order by either.
  have hsame : orderedBy (fun column => (keyRow table column).position.toInt) (keyColumns records) =
      orderedBy (·.1) (keyColumns records) := by
    refine orderedBy_eq_of_isLE (.refl _) hwell.nodup fun a ha b hb hle => ?_
    rwa [hposition ha, hposition hb] at hle
  have hname : ((keyColumns records).map (keyRow table)).findSome? (·.constraintName) = none := by
    rw [List.findSome?_eq_none_iff]
    intro row hrow
    obtain ⟨column, -, rfl⟩ := List.mem_map.1 hrow
    rfl
  rw [PrimaryKey.ofRows, hname, orderedBy_map, hsame, List.map_map]
  rfl

end KeyColumns

/-! ### The tables that are asked about -/

namespace Catalog

/-- No table has as many columns as there are positive words. -/
def TablesShort (c : Catalog) : Prop :=
  ∀ table records, c.HasTable table → c.tableInfo table = .ok records →
    (records.length : Int) < Int32.maxValue.toInt

/-- `table` is a table of the user's, and `records` are its columns. -/
structure Holds (c : Catalog) (options : Options) (table : String) (records : List ColumnRecord) :
    Prop where
  isTable : c.HasTable table
  isLive : options.excludes table = false
  answered : c.tableInfo table = .ok records

namespace Holds

variable {c : Catalog} {options : Options} {table : String} {records : List ColumnRecord}

theorem records_perm (h : c.Holds options table records) : (c.records table).Perm records := by
  rw [records_eq, h.answered]
  exact orderedBy_perm _ _

theorem length_records_lt (h : c.Holds options table records) (hshort : c.TablesShort) :
    ((c.records table).length : Int) < Int32.maxValue.toInt := by
  rw [h.records_perm.length_eq]
  exact hshort table records h.isTable h.answered

/-- The rows of `table` are `WellPlaced` exactly if the key columns of `records` are. -/
theorem wellPlaced_iff (h : c.Holds options table records) (hshort : c.TablesShort) :
    WellPlaced (((keyColumns (c.records table)).map (keyRow table)).map (·.position.toInt)) ↔
      WellPlaced ((keyColumns records).map (·.1)) := by
  rw [wellPlaced_keyRow_iff (h.length_records_lt hshort), wellPlaced_keyColumns_perm h.records_perm]

/-- The rows of `table` make `keyOfRecords table records`. -/
theorem ofRows_eq (h : c.Holds options table records) (hshort : c.TablesShort)
    (hwell : WellPlaced ((keyColumns records).map (·.1))) :
    PrimaryKey.ofRows table ((keyColumns (c.records table)).map (keyRow table)) =
      keyOfRecords table records := by
  have hwell' := (wellPlaced_keyColumns_perm h.records_perm).2 hwell
  rw [ofRows_keyRow (h.length_records_lt hshort) hwell', keyOfRecords_perm h.records_perm hwell']

theorem keyColumns_eq_nil_iff (h : c.Holds options table records) :
    keyColumns (c.records table) = [] ↔ keyColumns records = [] := by
  rw [← List.length_eq_zero_iff, (keyColumns_perm h.records_perm).length_eq,
    List.length_eq_zero_iff]

end Holds

end Catalog

section Rows

variable {c : Catalog}

/-- The primary key rows about `table` are `keyRow table` of the key columns of its own records. -/
theorem filter_primaryKeyRows (hapart : c.NamesApart) {table : String} (htable : c.HasTable table) :
    c.primaryKeyRows.filter (·.table == table) =
      (keyColumns (c.records table)).map (keyRow table) := by
  obtain ⟨sql, hmem⟩ := Catalog.hasTable_iff.1 htable
  rw [← filterMap_primaryKeyRow?]
  refine filter_flatMap_of_nodup hapart ?_ hmem
  intro relation _ row hrow
  obtain ⟨record, -, hrow⟩ := List.mem_filterMap.1 hrow
  obtain ⟨-, rfl⟩ := ColumnRecord.primaryKeyRow?_eq_some_iff.1 hrow
  rfl

/-- The rows of all answers to questions about the primary keys of `tables`. -/
def keyRowsOf (c : Catalog) (tables : List String) : List PrimaryKeyRow :=
  tables.flatMap fun table => c.primaryKeyRows.filter (·.table == table)

theorem filter_keyRowsOf (hapart : c.NamesApart) {tables : List String} (hnodup : tables.Nodup)
    {table : String} (htable : c.HasTable table) (hmem : table ∈ tables) :
    (keyRowsOf c tables).filter (·.table = table) =
      (keyColumns (c.records table)).map (keyRow table) := by
  rw [← filter_primaryKeyRows hapart htable]
  -- Every answer is about the table that was asked about, and no table is asked about twice.
  rw [← List.map_id tables] at hnodup
  refine filter_flatMap_of_nodup hnodup (fun name _ row hrow => ?_) hmem
  simpa using (List.mem_filter.1 hrow).2

/-- `table` is named by a row exactly if it is among `tables` and has key columns. -/
theorem mem_table_keyRowsOf (hapart : c.NamesApart) {tables : List String} (hnodup : tables.Nodup)
    (hasTable : ∀ table ∈ tables, c.HasTable table) {table : String} :
    table ∈ (keyRowsOf c tables).map (·.table) ↔
      table ∈ tables ∧ keyColumns (c.records table) ≠ [] := by
  have hasked (hmem : table ∈ (keyRowsOf c tables).map (·.table)) : table ∈ tables := by
    obtain ⟨row, hrow, rfl⟩ := List.mem_map.1 hmem
    obtain ⟨name, hname, hrow⟩ := List.mem_flatMap.1 hrow
    obtain rfl : row.table = name := by simpa using (List.mem_filter.1 hrow).2
    exact hname
  have hrows (hmem : table ∈ tables) :
      table ∈ (keyRowsOf c tables).map (·.table) ↔ keyColumns (c.records table) ≠ [] := by
    rw [← OrderedMap.group_ne_nil_iff, filter_keyRowsOf hapart hnodup (hasTable table hmem) hmem,
      Ne, List.map_eq_nil_iff]
  exact ⟨fun h => ⟨hasked h, (hrows (hasked h)).1 h⟩, fun h => (hrows h.1).2 h.2⟩

end Rows

/-! ### The primary keys of a run -/

section Run

variable {c : Catalog} {options : Options} {r : Reader} {found : Containers}
  (hanswers : c.Answers) (hr : r.source = (c.metadata options).source) (hapart : c.NamesApart)
  (hshort : c.TablesShort) (hscope : Metadata.inScope r.scope = true)
  (hreaches : r.ReachesForeignKeys found)
include hanswers hr hapart hscope hreaches

/-- `table ∈ found.tables.keys ↔ ∃ records, c.Holds options table records`. -/
theorem mem_keys_iff_holds {table : String} :
    table ∈ found.tables.keys ↔ ∃ records, c.Holds options table records := by
  rw [OrderedMap.mem_keys_iff, contains_tables_iff hr hapart hscope hreaches]
  constructor
  · rintro ⟨htable, hlive⟩
    obtain ⟨sql, hmem⟩ := Catalog.hasTable_iff.1 htable
    obtain ⟨records, hrecords⟩ := hanswers.columns _ hmem rfl
    exact ⟨records, htable, hlive, hrecords⟩
  · rintro ⟨records, h⟩
    exact ⟨h.isTable, h.isLive⟩

/-- Among the rows of all answers those about `table` are `keyRow table` of its key columns. -/
theorem filter_keyRowsOf_keys {table : String} {records : List ColumnRecord}
    (h : c.Holds options table records) :
    (keyRowsOf c found.tables.keys).filter (·.table = table) =
      (keyColumns (c.records table)).map (keyRow table) :=
  filter_keyRowsOf hapart found.tables.nodup_keys h.isTable
    ((mem_keys_iff_holds hanswers hr hapart hscope hreaches).2 ⟨records, h⟩)

theorem mem_table_keyRowsOf_keys {table : String} :
    table ∈ (keyRowsOf c found.tables.keys).map (·.table) ↔
      ∃ records, c.Holds options table records ∧ keyColumns records ≠ [] := by
  have hasked {table : String} : table ∈ found.tables.keys ↔ _ :=
    mem_keys_iff_holds hanswers hr hapart hscope hreaches
  have hasTable : ∀ table ∈ found.tables.keys, c.HasTable table := by
    intro table hmem
    obtain ⟨records, h⟩ := hasked.1 hmem
    exact h.isTable
  rw [mem_table_keyRowsOf hapart found.tables.nodup_keys hasTable, hasked, ← exists_and_right]
  exact exists_congr fun records => and_congr_right fun h => not_congr h.keyColumns_eq_nil_iff

include hshort

/-- The fourth phase succeeds exactly if the places of the key columns are `WellPlaced` in every
table of the user's. -/
theorem exists_readPrimaryKeys_iff_holds :
    (∃ keys, (r.readPrimaryKeys found).outcome = .ok keys) ↔
      ∀ table records, c.Holds options table records →
        WellPlaced ((keyColumns records).map (·.1)) := by
  have hgroup {table : String} {records : List ColumnRecord}
      (h : c.Holds options table records) :
      WellPlaced (((keyRowsOf c found.tables.keys).filter (·.table = table)).map
        (·.position.toInt)) ↔ WellPlaced ((keyColumns records).map (·.1)) := by
    rw [filter_keyRowsOf_keys hanswers hr hapart hscope hreaches h, h.wellPlaced_iff hshort]
  have hnamed {table : String} : table ∈ (keyRowsOf c found.tables.keys).map (·.table) ↔ _ :=
    mem_table_keyRowsOf_keys hanswers hr hapart hscope hreaches
  rw [Reader.exists_readPrimaryKeys_iff fun table _ => answer_primaryKeys hr table]
  constructor
  · intro hwell table records h
    by_cases hnil : keyColumns records = []
    · -- No row names the table, and there is no place to be wrong.
      rw [hnil]
      exact .refl _
    · exact (hgroup h).1 (hwell table (hnamed.2 ⟨records, h, hnil⟩))
  · intro hwell table htable
    obtain ⟨records, h, -⟩ := hnamed.1 htable
    exact (hgroup h).2 (hwell table records h)

/-- `key` is found exactly if it is `keyOfRecords` of a table of the user's that has key columns. -/
theorem mem_of_readPrimaryKeys_iff_holds {keys : OrderedSet PrimaryKey}
    (hkeys : (r.readPrimaryKeys found).outcome = .ok keys) {key : PrimaryKey} :
    key ∈ keys ↔ ∃ records, c.Holds options key.table records ∧ keyColumns records ≠ [] ∧
      key = keyOfRecords key.table records := by
  have hwell := (exists_readPrimaryKeys_iff_holds hanswers hr hapart hshort hscope hreaches).1
    ⟨keys, hkeys⟩
  have hkey {records : List ColumnRecord} (h : c.Holds options key.table records) :
      .ofRows key.table ((keyRowsOf c found.tables.keys).filter (·.table = key.table)) =
        keyOfRecords key.table records := by
    rw [filter_keyRowsOf_keys hanswers hr hapart hscope hreaches h,
      h.ofRows_eq hshort (hwell key.table records h)]
  rw [Reader.mem_of_readPrimaryKeys (fun table _ => answer_primaryKeys hr table) hkeys]
  show key.table ∈ (keyRowsOf c found.tables.keys).map (·.table) ∧
    key = .ofRows key.table ((keyRowsOf c found.tables.keys).filter (·.table = key.table)) ↔ _
  rw [mem_table_keyRowsOf_keys hanswers hr hapart hscope hreaches, ← exists_and_right]
  refine exists_congr fun records => ?_
  rw [and_assoc]
  exact and_congr_right fun h => and_congr_right fun _ => by rw [hkey h]

omit hanswers hshort in
/-- The fourth phase depends on the `keyColumns` of the user's tables, and on nothing else in the
records. -/
theorem readPrimaryKeys_of_keyColumns {c' : Catalog} {r' : Reader}
    (hr' : r'.source = (c'.metadata options).source) (hobjects : c'.objects = c.objects)
    (hsame : ∀ table, c.HasTable table → options.excludes table = false →
      keyColumns (c'.records table) = keyColumns (c.records table)) :
    (r'.readPrimaryKeys found).outcome = (r.readPrimaryKeys found).outcome := by
  have hapart' : c'.NamesApart := by
    unfold Catalog.NamesApart Catalog.relationList Catalog.relations at hapart ⊢
    rwa [hobjects]
  refine Reader.readPrimaryKeys_congr fun table hmem => ?_
  rw [OrderedMap.mem_keys_iff, contains_tables_iff hr hapart hscope hreaches] at hmem
  have htable' : c'.HasTable table := by
    unfold Catalog.HasTable
    rw [hobjects]
    exact hmem.1
  rw [answer_primaryKeys hr', answer_primaryKeys hr, filter_primaryKeyRows hapart' htable',
    filter_primaryKeyRows hapart hmem.1, hsame table hmem.1 hmem.2]

end Run

/-! ### The result -/

/-- **The primary keys of a SQLite snapshot.** Take a catalog that can be loaded, and a reader that
is given what is loaded. No two tables or views have the same name, no table has as many columns as
there are words, the schema is the one that is read, and the run comes to the fourth phase, all
foreign keys having been read. The phase succeeds exactly if the places in the primary key of every
table of the user's are 1, 2, … in some order, each taken once; else the run fails for a column
position. If the phase succeeds, there is one key without a name for every table of the user's that
has key columns, and for no other; its columns are the key columns by their places in the key. A
snapshot has these keys. Another catalog with the same objects whose tables of the user's have the
same key columns makes the phase end in the same way, whatever it tells about the columns of views
and excluded tables, or about columns whose place in the key is not positive. -/
theorem primaryKeys_of_catalog {c : Catalog} {options : Options} {m : Metadata} {r : Reader}
    {found : Containers} (hm : (load c options).outcome = .ok m) (hr : r.source = m.source)
    (hapart : c.NamesApart) (hshort : c.TablesShort) (hscope : Metadata.inScope r.scope = true)
    (hreaches : r.ReachesPrimaryKeys found) :
    ((∃ keys, (r.readPrimaryKeys found).outcome = .ok keys) ↔
      ∀ table records, c.Holds options table records →
        WellPlaced ((keyColumns records).map (·.1))) ∧
    ((∃ table records, c.Holds options table records ∧
        ¬WellPlaced ((keyColumns records).map (·.1))) →
      ∃ e, r.read.outcome = .error e ∧ e.kind = .invalidColumnPosition) ∧
    (∀ keys, (r.readPrimaryKeys found).outcome = .ok keys →
      (∀ key, key ∈ keys ↔ ∃ records, c.Holds options key.table records ∧
        keyColumns records ≠ [] ∧ key = keyOfRecords key.table records) ∧
      ∀ s, r.read.outcome = .ok s → s.primaryKeys = keys) ∧
    ∀ c' m', (load c' options).outcome = .ok m' → c'.objects = c.objects →
      (∀ table records, c.Holds options table records → ∃ records',
        c'.tableInfo table = .ok records' ∧
          keyColumns (orderedBy (·.place) records') = keyColumns (orderedBy (·.place) records)) →
      ({ r with source := m'.source }.readPrimaryKeys found).outcome =
        (r.readPrimaryKeys found).outcome := by
  obtain ⟨hanswers, rfl⟩ := load_eq_ok_iff.1 hm
  have hiff := exists_readPrimaryKeys_iff_holds hanswers hr hapart hshort hscope hreaches.1
  refine ⟨hiff, ?_, ?_, ?_⟩
  · rintro ⟨table, records, h, hbad⟩
    have hfails : ¬∃ keys, (r.readPrimaryKeys found).outcome = .ok keys :=
      fun hok => hbad (hiff.1 hok table records h)
    obtain ⟨e, he⟩ := (Except.ok_or_error _).resolve_left hfails
    exact ⟨e, hreaches.error he,
      Reader.kind_of_readPrimaryKeys (fun table _ => answer_primaryKeys hr table) he⟩
  · intro keys hkeys
    refine ⟨fun key => mem_of_readPrimaryKeys_iff_holds hanswers hr hapart hshort hscope
      hreaches.1 hkeys, fun s hs => ?_⟩
    obtain ⟨-, -, hkeys'⟩ := hreaches.1.of_read hs
    exact Except.ok.inj (hkeys'.symm.trans hkeys)
  · intro c' m' hm' hobjects hsame
    obtain ⟨-, rfl⟩ := load_eq_ok_iff.1 hm'
    refine readPrimaryKeys_of_keyColumns hr hapart hscope hreaches.1 rfl hobjects ?_
    intro table htable hlive
    obtain ⟨sql, hmem⟩ := Catalog.hasTable_iff.1 htable
    obtain ⟨records, hrecords⟩ := hanswers.columns _ hmem rfl
    obtain ⟨records', hrecords', hcolumns⟩ := hsame table records ⟨htable, hlive, hrecords⟩
    rwa [Catalog.records_eq, Catalog.records_eq, hrecords, hrecords']

/-- The columns of a hotel. Rooms are numbered within wings, and guests are known by `name` if
`place` is positive. The places of the view and of the bookkeeping table are impossible. -/
def hotelColumns (place : Int) (table : String) : List ColumnRecord :=
  if table = "rooms" then
    [⟨0, "number", "INTEGER", 1, none, 2⟩, ⟨1, "wing", "TEXT", 1, none, 1⟩,
      ⟨2, "beds", "INTEGER", 0, none, 0⟩]
  else if table = "guests" then [⟨0, "name", "TEXT", 0, none, place⟩]
  else [⟨0, "number", "INTEGER", 0, none, 7⟩]

/-- A hotel with two tables, a view and a bookkeeping table. -/
def hotel (place : Int) : Catalog where
  objects := .ok
    [⟨"table", "rooms", none⟩, ⟨"view", "vacancies", none⟩, ⟨"table", "guests", none⟩,
      ⟨"table", "DATABASECHANGELOG", none⟩]
  tableInfo table := .ok (hotelColumns place table)
  indexList _ := .ok []
  indexInfo _ := .ok []
  foreignKeyList _ := .ok []

theorem hotel_tablesShort (place : Int) : (hotel place).TablesShort := by
  intro table records _ hrecords
  obtain rfl := Except.ok.inj hrecords
  have hlength : (hotelColumns place table).length ≤ 3 := by
    unfold hotelColumns
    split_ifs <;> simp
  have hmax : (3 : Int) < Int32.maxValue.toInt := by decide
  omega

theorem hotel_holds (place : Int) {table : String} (htable : table ∈ ["rooms", "guests"]) :
    (hotel place).Holds {} table (hotelColumns place table) := by
  have hlive : Options.excludes {} table = false := by
    revert table
    decide
  refine ⟨⟨_, none, rfl, ?_⟩, hlive, rfl⟩
  rcases List.mem_pair.1 htable with rfl | rfl <;> decide

theorem primaryKeys_of_catalog_hotel :
    (∃ s, (readerOf (hotel 0)).read.outcome = .ok s ∧
      ⟨"rooms", ["wing", "number"], none⟩ ∈ s.primaryKeys ∧
      ∀ key ∈ s.primaryKeys, key.table ≠ "guests") ∧
    ∃ e, (readerOf (hotel 4294967296)).read.outcome = .error e ∧
      e.kind = .invalidColumnPosition := by
  have hresult (place : Int) {found : Containers}
      (hreaches : (readerOf (hotel place)).ReachesPrimaryKeys found) :=
    primaryKeys_of_catalog (rfl : (load (hotel place) {}).outcome = .ok ((hotel place).metadata {}))
      rfl (show List.Nodup ["DATABASECHANGELOG", "guests", "rooms", "vacancies"] by decide)
      (hotel_tablesShort place) rfl hreaches
  constructor
  · obtain ⟨-, -, hkeys, -⟩ := hresult 0 ⟨⟨_, _, rfl, rfl, rfl⟩, _, rfl⟩
    obtain ⟨hmem, hsnapshot⟩ := hkeys _ rfl
    refine ⟨_, rfl, ?_, ?_⟩
    · rw [hsnapshot _ rfl, hmem]
      exact ⟨_, hotel_holds 0 (by decide), by decide, by decide⟩
    · intro key hkey htable
      rw [hsnapshot _ rfl, hmem] at hkey
      obtain ⟨records, h, hne, -⟩ := hkey
      rw [htable] at h
      obtain rfl := Except.ok.inj h.answered
      exact hne rfl
  · obtain ⟨-, hfails, -⟩ := hresult 4294967296 ⟨⟨_, _, rfl, rfl, rfl⟩, _, rfl⟩
    exact hfails ⟨"guests", _, hotel_holds _ (by decide), by decide⟩

end SchemaSnapshot.Sqlite

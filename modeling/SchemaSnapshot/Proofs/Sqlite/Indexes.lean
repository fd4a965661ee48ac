import SchemaSnapshot.Proofs.Sqlite.Closure
import SchemaSnapshot.Proofs.Sqlite.Exclusion
import Mathlib.Data.List.Perm.Basic

/-!
# The indexes of a SQLite snapshot

SQLite tells the columns of an index with their places, counted from 0, and no name where the index
covers an expression. An index is loaded with all its columns or not at all, and its places are read
as words. Here all this is taken out again: an index that can be described by columns
(`Catalog.Describes`) makes a run fail exactly if its places are not 0, 1, … in some order
(`Counted`), and otherwise it is in the snapshot with all its columns by place, unless it backs a
primary key (`indexes_of_catalog`). An index that covers an expression is never seen, whatever its
places are.
-/

namespace SchemaSnapshot.Sqlite

/-! ### What the records say about indexes -/

namespace Catalog

/-- The index `index` is listed for the table `table`. -/
def HasIndex (c : Catalog) (table index : String) : Prop :=
  c.HasTable table ∧ ∃ rows, c.indexList table = .ok rows ∧ index ∈ rows.map (·.name)

/-- The names of the indexes of `table`, once for each time that the table is listed. -/
def indexNames (c : Catalog) (table : String) : List String :=
  (c.tableNames.filter (· == table)).flatMap fun name => rowsOf (c.indexesOn name)

/-- No table has two indexes of the same name. -/
def IndexesApart (c : Catalog) : Prop :=
  ∀ table ∈ c.tableNames, (c.indexNames table).Nodup

instance (c : Catalog) : Decidable c.IndexesApart :=
  inferInstanceAs (Decidable (∀ table ∈ c.tableNames, _))

/-- No index has as many columns as there are positive words. -/
def IndexesShort (c : Catalog) : Prop :=
  ∀ table index records, c.HasIndex table index → c.indexInfo index = .ok records →
    (records.length : Int) < Int32.maxValue.toInt

/-- The index rows about `table`. -/
def indexRowsAbout (c : Catalog) (table : String) : List IndexRow :=
  (c.tableNames.flatMap c.indexRowsOn).filter (·.table == table)

/-- `name` is that of a table of the user's. If several tables and views have the name, the first of
them decides. -/
def UserTable (c : Catalog) (options : Options) (name : String) : Prop :=
  options.excludes name = false ∧
    ∃ relation, c.relationList.find? (·.name == name) = some relation ∧ relation.isTable = true

/-- The index can be described by `records`: it belongs to a table of the user's, has columns at
all, and all of them have names. -/
structure Describes (c : Catalog) (options : Options) (table index : String)
    (records : List IndexColumnRecord) : Prop where
  isTable : c.UserTable options table
  isListed : c.HasIndex table index
  answered : c.indexInfo index = .ok records
  nonempty : records ≠ []
  named : ∀ record ∈ records, record.name ≠ none

end Catalog

/-- The places of `records` are 0, 1, … in some order, each once. -/
def Counted (records : List IndexColumnRecord) : Prop :=
  (records.map (·.place)).Perm ((List.range records.length).map Int.ofNat)

instance (records : List IndexColumnRecord) : Decidable (Counted records) :=
  inferInstanceAs (Decidable (List.Perm _ _))

theorem counted_iff {records : List IndexColumnRecord} :
    Counted records ↔ WellPlaced (records.map fun record => record.place + 1) := by
  have hplaces : (records.map fun record => record.place + 1) =
      (records.map (·.place)).map (· + 1) := by
    rw [List.map_map]
    rfl
  have hpositions : positions records.length =
      ((List.range records.length).map Int.ofNat).map (· + 1) := by
    rw [positions, List.map_map]
    exact List.map_congr_left fun i _ => Int.add_comm 1 i
  have hinjective : Function.Injective fun place : Int => place + 1 := by
    intro place place' heq
    simpa using heq
  rw [WellPlaced, List.length_map, hplaces, hpositions, List.map_perm_map_iff hinjective]
  rfl

/-- `0 ≤ record.place` and `record.place < records.length` if the records are `Counted`. -/
theorem Counted.bounds {records : List IndexColumnRecord} (h : Counted records)
    {record : IndexColumnRecord} (hrecord : record ∈ records) :
    0 ≤ record.place ∧ record.place < records.length := by
  obtain ⟨i, hi, hplace⟩ := List.mem_map.1 (h.mem_iff.1 (List.mem_map_of_mem hrecord))
  have hlt := List.mem_range.1 hi
  have hcast : (i : Int) = record.place := hplace
  omega

section Names

variable {c : Catalog} {options : Options} {table index : String}

theorem mem_rowsOf_indexesOn : index ∈ rowsOf (c.indexesOn table) ↔
    ∃ rows, c.indexList table = .ok rows ∧ index ∈ rows.map (·.name) := by
  unfold Catalog.indexesOn
  cases c.indexList table with
  | error failure => simp [Except.map]
  | ok rows => simp [Except.map, ((orderedBy_perm IndexRecord.place rows).map _).mem_iff]

theorem mem_indexNames : index ∈ c.indexNames table ↔ c.HasIndex table index := by
  unfold Catalog.indexNames Catalog.HasIndex
  simp only [List.mem_flatMap, List.mem_filter, beq_iff_eq, mem_rowsOf_indexesOn,
    Catalog.mem_tableNames]
  constructor
  · rintro ⟨_, ⟨htable, rfl⟩, hindex⟩
    exact ⟨htable, hindex⟩
  · rintro ⟨htable, hindex⟩
    exact ⟨table, ⟨htable, rfl⟩, hindex⟩

theorem indexNames_of_nodup (hapart : c.NamesApart) (htable : c.HasTable table) :
    c.indexNames table = rowsOf (c.indexesOn table) := by
  have hnodup : c.tableNames.Nodup := hapart.sublist (List.filter_sublist.map _)
  -- the table is listed once, as no other table or view has its name
  have honce : c.tableNames.filter (· == table) = [table] := by
    rw [List.filter_beq, List.count_eq_one_of_mem hnodup (Catalog.mem_tableNames.2 htable)]
    rfl
  rw [Catalog.indexNames, honce, List.flatMap_singleton]

/-- If `c.NamesApart`, only the indexes that are listed for one table have to have different
names. -/
theorem indexesApart_iff (hapart : c.NamesApart) :
    c.IndexesApart ↔ ∀ table rows, c.HasTable table → c.indexList table = .ok rows →
      (rows.map (·.name)).Nodup := by
  have hrows {table : String} {rows : List IndexRecord} (hlist : c.indexList table = .ok rows) :
      (rowsOf (c.indexesOn table)).Nodup ↔ (rows.map (·.name)).Nodup := by
    rw [Catalog.indexesOn, hlist]
    exact ((orderedBy_perm _ rows).map _).nodup_iff
  constructor
  · intro h table rows htable hlist
    have hnodup := h table (Catalog.mem_tableNames.2 htable)
    -- the names of a table are those of its one listing
    rwa [indexNames_of_nodup hapart htable, hrows hlist] at hnodup
  · intro h table htable
    rw [indexNames_of_nodup hapart (Catalog.mem_tableNames.1 htable)]
    cases hlist : c.indexList table with
    | error failure =>
      rw [Catalog.indexesOn, hlist]
      exact .nil
    | ok rows => exact (hrows hlist).2 (h table rows (Catalog.mem_tableNames.1 htable) hlist)

/-- If `c.NamesApart`, the tables of the user's are those that `options` does not exclude. -/
theorem userTable_iff (hapart : c.NamesApart) :
    c.UserTable options table ↔ c.HasTable table ∧ options.excludes table = false := by
  rw [Catalog.UserTable, Catalog.hasTable_iff, and_comm]
  refine and_congr_left fun _ => ?_
  simp only [find?_key_eq_some_iff Relation.name hapart]
  constructor
  · rintro ⟨⟨kind, _, sql⟩, ⟨hmem, rfl⟩, hkind⟩
    obtain rfl : kind = .table := by simpa [Relation.isTable] using hkind
    exact ⟨sql, hmem⟩
  · rintro ⟨sql, hmem⟩
    exact ⟨_, ⟨hmem, rfl⟩, rfl⟩

end Names

/-! ### The columns of one index -/

/-- A column of `index`, as it is read. A column without a name is not read at all. -/
def IndexColumnRecord.part (table index : String) (record : IndexColumnRecord) : IndexPart where
  table := table
  name := index
  column := record.name.getD ""
  position := (placeWord (record.place + 1)).toInt

theorem part?_indexRow {table index : String} {record : IndexColumnRecord}
    (hnamed : record.name ≠ none) :
    (record.indexRow table index).part? = some (record.part table index) := by
  obtain ⟨column, hcolumn⟩ := Option.ne_none_iff_exists'.1 hnamed
  unfold IndexRow.part? IndexColumnRecord.indexRow IndexColumnRecord.part
  rw [hcolumn]
  rfl

theorem indexName_of_part? {row : IndexRow} {part : IndexPart} (h : row.part? = some part) :
    row.indexName = some part.name := by
  unfold IndexRow.part? at h
  split at h
  · cases h
  · split at h
    · obtain rfl := Option.some.inj h
      assumption
    · cases h

section Parts

variable {c : Catalog} {options : Options} {table index : String}
  {records : List IndexColumnRecord}

theorem indexColumnsOf_eq (hrecords : c.indexInfo index = .ok records) :
    rowsOf (c.indexColumnsOf index) = orderedBy (·.place) records := by
  rw [Catalog.indexColumnsOf, hrecords]
  rfl

theorem indexParts_rowsOfIndex_of_named (hrecords : c.indexInfo index = .ok records)
    (hnamed : ∀ record ∈ records, record.name ≠ none) :
    indexParts (c.rowsOfIndex table index) =
      (orderedBy (·.place) records).map (·.part table index) := by
  have hnamed' : ∀ record ∈ orderedBy (·.place) records, record.name ≠ none :=
    fun record hrecord => hnamed record ((orderedBy_perm _ _).mem_iff.1 hrecord)
  -- no column is an expression, so the index is loaded
  have hnone : (orderedBy (·.place) records).any (·.name.isNone) = false := by
    rw [List.any_eq_false]
    exact fun record hrecord => by simpa using hnamed' record hrecord
  rw [Catalog.rowsOfIndex, indexColumnsOf_eq hrecords, hnone, if_neg Bool.false_ne_true,
    indexParts, List.filterMap_map, ← List.filterMap_eq_map]
  exact List.filterMap_congr fun record hrecord => part?_indexRow (hnamed' record hrecord)

/-- `c.rowsOfIndex table index = []` for an index that covers an expression. -/
theorem rowsOfIndex_of_unnamed (hrecords : c.indexInfo index = .ok records)
    (hunnamed : ¬∀ record ∈ records, record.name ≠ none) : c.rowsOfIndex table index = [] := by
  have hsome : (orderedBy (·.place) records).any (·.name.isNone) = true := by
    rw [List.any_eq_true]
    push Not at hunnamed
    obtain ⟨record, hrecord, hname⟩ := hunnamed
    exact ⟨record, (orderedBy_perm _ _).mem_iff.2 hrecord, by simp [hname]⟩
  rw [Catalog.rowsOfIndex, indexColumnsOf_eq hrecords, if_pos hsome]

theorem name_of_mem_indexParts {part : IndexPart}
    (hpart : part ∈ indexParts (c.rowsOfIndex table index)) : part.name = index := by
  obtain ⟨row, hrow, hpart⟩ := List.mem_filterMap.1 hpart
  have hname := indexName_of_part? hpart
  unfold Catalog.rowsOfIndex at hrow
  split at hrow
  · cases hrow
  · obtain ⟨record, -, rfl⟩ := List.mem_map.1 hrow
    exact (Option.some.inj hname).symm

theorem indexRowsAbout_eq (c : Catalog) (table : String) :
    c.indexRowsAbout table = (c.indexNames table).flatMap (c.rowsOfIndex table) := by
  have hgroup : ∀ name ∈ c.tableNames, ∀ row ∈ c.indexRowsOn name,
      (row.table == table) = (name == table) := by
    intro name _ row hrow
    rw [table_of_mem_indexRowsOn hrow]
  rw [Catalog.indexRowsAbout, filter_flatMap_of_groups hgroup, Catalog.indexNames,
    List.flatMap_assoc]
  refine List.flatMap_congr fun name hname => ?_
  rw [beq_iff_eq.1 (List.mem_filter.1 hname).2]
  rfl

/-- The columns named `index` among all that are reported about `table` are those of the index, if
it is one of the table. -/
theorem partsNamed_indexRowsAbout (hapart : c.IndexesApart) :
    partsNamed index (indexParts (c.indexRowsAbout table)) =
      if index ∈ c.indexNames table then indexParts (c.rowsOfIndex table index) else [] := by
  have hparts : indexParts ((c.indexNames table).flatMap (c.rowsOfIndex table)) =
      (c.indexNames table).flatMap fun name => indexParts (c.rowsOfIndex table name) :=
    List.filterMap_flatMap
  rw [indexRowsAbout_eq, hparts]
  split
  · -- Each index has columns of its own name only, and no other index has the name.
    rename_i hindex
    have hnodup := hapart table (Catalog.mem_tableNames.2 (mem_indexNames.1 hindex).1)
    rw [← List.map_id (c.indexNames table)] at hnodup
    exact filter_flatMap_of_nodup hnodup (fun name _ part hpart => name_of_mem_indexParts hpart)
      hindex
  · -- the name is not listed, so no row has it
    rename_i hindex
    rw [partsNamed, List.filter_eq_nil_iff]
    intro part hpart hname
    obtain ⟨name, hmem, hpart⟩ := List.mem_flatMap.1 hpart
    rw [← of_decide_eq_true hname, name_of_mem_indexParts hpart] at hindex
    exact hindex hmem

/-- The places of an index are `WellPlaced` after reading exactly if the records are `Counted`. -/
theorem wellPlaced_places_iff (hfew : (records.length : Int) < Int32.maxValue.toInt) :
    WellPlaced (places ((orderedBy (·.place) records).map (·.part table index))) ↔
      Counted records := by
  have hplaces : places ((orderedBy (·.place) records).map (·.part table index)) =
      ((orderedBy (·.place) records).map (·.place + 1)).map
        fun place => (placeWord place).toInt := by
    rw [places, List.map_map, List.map_map]
    rfl
  have hperm := orderedBy_perm IndexColumnRecord.place records
  rw [hplaces, wellPlaced_placeWord_iff (by rwa [List.length_map, hperm.length_eq]),
    WellPlaced.congr (hperm.map _), counted_iff]

/-- The columns of `Counted` records come by place. -/
theorem columns_of_counted (hfew : (records.length : Int) < Int32.maxValue.toInt)
    (hcounted : Counted records) :
    (orderedBy (·.position) ((orderedBy (·.place) records).map (·.part table index))).map
      (·.column) = (orderedBy (·.place) records).map (·.name.getD "") := by
  have hposition {record : IndexColumnRecord} (hrecord : record ∈ records) :
      (record.part table index).position = record.place + 1 :=
    toInt_placeWord_of_wellPlaced (by rwa [List.length_map]) (counted_iff.1 hcounted)
      (List.mem_map_of_mem hrecord)
  have hkeys : (records.map (·.place)).Nodup :=
    hcounted.nodup_iff.2 (List.nodup_range.map fun _ _ => Int.ofNat.inj)
  -- The positions ascend with the places, so the second ordering changes nothing.
  have hsame : orderedBy (fun record => (record.part table index).position)
      (orderedBy (·.place) records) = orderedBy (·.place) records := by
    refine orderedBy_eq_of_isLE (orderedBy_perm _ _) hkeys fun a ha b hb hle => ?_
    rw [hposition ha, hposition hb, Std.isLE_compare] at hle
    rw [Std.isLE_compare]
    omega
  rw [orderedBy_map, hsame, List.map_map]
  rfl

/-- The columns that are reported for an index with `c.Describes` are its records by place. -/
theorem partsNamed_of_describes (hapart : c.IndexesApart)
    (h : c.Describes options table index records) :
    partsNamed index (indexParts (c.indexRowsAbout table)) =
      (orderedBy (·.place) records).map (·.part table index) := by
  rw [partsNamed_indexRowsAbout hapart, if_pos (mem_indexNames.2 h.isListed),
    indexParts_rowsOfIndex_of_named h.answered h.named]

/-- Where columns are reported for `index`, some records have `c.Describes`. -/
theorem exists_describes (hanswers : c.Answers) (hapart : c.IndexesApart)
    (htable : c.UserTable options table)
    (hne : partsNamed index (indexParts (c.indexRowsAbout table)) ≠ []) :
    ∃ records, c.Describes options table index records := by
  rw [partsNamed_indexRowsAbout hapart] at hne
  by_cases hmem : index ∈ c.indexNames table
  · rw [if_pos hmem] at hne
    have hlisted := mem_indexNames.1 hmem
    obtain ⟨records, hrecords⟩ := (hanswers.tables table
      (Catalog.mem_tableNames.2 hlisted.1)).1.2 index (mem_rowsOf_indexesOn.2 hlisted.2)
    -- An index that covers an expression would have been left out as a whole.
    have hnamed : ∀ record ∈ records, record.name ≠ none := by
      by_contra hunnamed
      rw [rowsOfIndex_of_unnamed hrecords hunnamed] at hne
      exact hne rfl
    refine ⟨records, htable, hlisted, hrecords, ?_, hnamed⟩
    rintro rfl
    rw [indexParts_rowsOfIndex_of_named hrecords hnamed] at hne
    exact hne rfl
  · rw [if_neg hmem] at hne
    exact absurd rfl hne

theorem first_of_parts {l : List IndexColumnRecord} {first : IndexPart} {rest : List IndexPart}
    (h : l.map (·.part table index) = first :: rest) :
    first.table = table ∧ first.name = index := by
  have hfirst : first ∈ l.map (·.part table index) := by
    rw [h]
    exact List.mem_cons_self
  obtain ⟨record, -, rfl⟩ := List.mem_map.1 hfirst
  exact ⟨rfl, rfl⟩

/-- `names` are all the names of the records by place, every record having one. -/
theorem map_some_eq_iff (hnamed : ∀ record ∈ records, record.name ≠ none) {names : List String} :
    names.map some = (orderedBy (·.place) records).map (·.name) ↔
      names = (orderedBy (·.place) records).map (·.name.getD "") := by
  have hnames : (orderedBy (·.place) records).map (·.name) =
      ((orderedBy (·.place) records).map (·.name.getD "")).map some := by
    rw [List.map_map]
    refine List.map_congr_left fun record hrecord => ?_
    obtain ⟨name, hname⟩ :=
      Option.ne_none_iff_exists'.1 (hnamed record ((orderedBy_perm _ _).mem_iff.1 hrecord))
    simp [hname]
  rw [hnames, (List.map_injective_iff.2 fun _ _ => Option.some.inj).eq_iff]

end Parts

/-! ### The indexes of a run -/

section Run

variable {c : Catalog} {options : Options} {r : Reader}

theorem claim?_objectRows_eq_table_iff (hr : r.source = (c.metadata options).source)
    {name : String} :
    r.claim? c.objectRows name = some .table ↔ c.UserTable options name := by
  have hkind (relation : Relation) : relation.objectKind = .table ↔ relation.isTable = true := by
    unfold Relation.objectKind Relation.isTable
    cases relation.kind <;> decide
  have hfind : r.claim? c.objectRows name =
      (c.relationList.find? fun relation =>
        !options.excludes relation.name && relation.name == name).map (·.objectKind) := by
    rw [Reader.claim?, Catalog.objectRows, List.find?_map, Option.map_map]
    simp only [Function.comp_def, isClaim_objectRow hr]
    rfl
  rw [hfind, Catalog.UserTable]
  -- an excluded name is claimed by nobody
  cases hexcluded : options.excludes name with
  | true =>
    have hnone : (c.relationList.find? fun relation =>
        !options.excludes relation.name && relation.name == name) = none := by
      rw [List.find?_eq_none]
      intro relation _ hrelation
      rw [Bool.and_eq_true, beq_iff_eq] at hrelation
      rw [hrelation.2, hexcluded] at hrelation
      exact Bool.false_ne_true hrelation.1
    simp [hnone]
  | false =>
    have hpredicate : (fun relation : Relation =>
        !options.excludes relation.name && relation.name == name) = (·.name == name) := by
      funext relation
      by_cases hname : relation.name = name
      · simp [hname, hexcluded]
      · simp [hname]
    rw [hpredicate, Option.map_eq_some_iff]
    simp only [hkind, true_and]

/-- `table ∈ found.tables.keys ↔ c.UserTable options table`: the tables of the user's are asked
about. -/
theorem mem_keys_iff_userTable (hr : r.source = (c.metadata options).source)
    (hscope : Metadata.inScope r.scope = true) {found : Containers}
    (h : r.ReachesForeignKeys found) {table : String} :
    table ∈ found.tables.keys ↔ c.UserTable options table := by
  have hcontents := Reader.contents_of_reachesForeignKeys (answer_objects hr hscope)
    (answer_columns hr hscope) h
  rw [hcontents.mem_keys, claim?_objectRows_eq_table_iff hr]

variable (hanswers : c.Answers) (hapart : c.IndexesApart) (hshort : c.IndexesShort)
include hanswers hapart hshort

/-- All indexes are `WellPlaced` exactly if the records that `c.Describes` are `Counted`. -/
theorem wellPlaced_iff_counted :
    (∀ table, c.UserTable options table → ∀ index,
        WellPlaced (places (partsNamed index (indexParts (c.indexRowsAbout table))))) ↔
      ∀ table index records, c.Describes options table index records → Counted records := by
  have hplaces {table index : String} {records : List IndexColumnRecord}
      (h : c.Describes options table index records) :
      WellPlaced (places (partsNamed index (indexParts (c.indexRowsAbout table)))) ↔
        Counted records := by
    rw [partsNamed_of_describes hapart h,
      wellPlaced_places_iff (hshort _ _ _ h.isListed h.answered)]
  constructor
  · intro hwell table index records h
    exact (hplaces h).1 (hwell table h.isTable index)
  · intro hcounted table htable index
    by_cases hnil : partsNamed index (indexParts (c.indexRowsAbout table)) = []
    · -- Nothing is reported about the index, and there is no place to be wrong.
      rw [hnil]
      exact .refl _
    · obtain ⟨records, h⟩ := exists_describes hanswers hapart htable hnil
      exact (hplaces h).2 (hcounted table index records h)

/-- The indexes that are put together are those that `c.Describes`, with all their columns by
place. -/
theorem exists_ofParts_iff
    (hcounted : ∀ table index records, c.Describes options table index records → Counted records)
    {index : Index} :
    (∃ table, c.UserTable options table ∧ ∃ first rest,
        partsNamed first.name (indexParts (c.indexRowsAbout table)) = first :: rest ∧
          index = .ofParts first rest) ↔
      ∃ records, c.Describes options index.table index.name records ∧
        index.columns.map some = (orderedBy (·.place) records).map (·.name) := by
  have hcolumns {table index : String} {records : List IndexColumnRecord} {first : IndexPart}
      {rest : List IndexPart} (h : c.Describes options table index records)
      (hparts : (orderedBy (·.place) records).map (·.part table index) = first :: rest) :
      (Index.ofParts first rest).columns = (orderedBy (·.place) records).map (·.name.getD "") := by
    rw [← columns_of_counted (hshort _ _ _ h.isListed h.answered) (hcounted _ _ _ h), hparts]
    rfl
  constructor
  · rintro ⟨table, htable, first, rest, hparts, rfl⟩
    obtain ⟨records, h⟩ := exists_describes hanswers hapart htable (by rw [hparts]; simp)
    rw [partsNamed_of_describes hapart h] at hparts
    obtain ⟨rfl, -⟩ := first_of_parts hparts
    exact ⟨records, h, (map_some_eq_iff h.named).2 (hcolumns h hparts)⟩
  · rintro ⟨records, h, hnames⟩
    -- an index that can be described has a column, so a first one
    have hne : (orderedBy (·.place) records).map (·.part index.table index.name) ≠ [] := by
      rw [Ne, List.map_eq_nil_iff]
      intro hnil
      exact h.nonempty (hnil ▸ orderedBy_perm _ records).symm.eq_nil
    obtain ⟨first, rest, hparts⟩ := List.exists_cons_of_ne_nil hne
    obtain ⟨htable, hname⟩ := first_of_parts hparts
    refine ⟨index.table, h.isTable, first, rest, ?_, ?_⟩
    · rw [hname, partsNamed_of_describes hapart h, hparts]
    · rw [map_some_eq_iff h.named, ← hcolumns h hparts] at hnames
      cases index
      simp_all [Index.ofParts]

variable {found : Containers} {keys : OrderedSet PrimaryKey}
  (hr : r.source = (c.metadata options).source) (hscope : Metadata.inScope r.scope = true)
  (hreaches : r.ReachesIndexes found keys)
include hr hscope hreaches

/-- A run that comes to the indexes takes a snapshot exactly if the records that `c.Describes` are
`Counted`. -/
theorem exists_read_iff_counted :
    (∃ s, r.read.outcome = .ok s) ↔
      ∀ table index records, c.Describes options table index records → Counted records := by
  -- the phase asks about the tables of the user's
  have hasked (table : String) : table ∈ found.tables.keys ↔ c.UserTable options table :=
    mem_keys_iff_userTable hr hscope hreaches.reachesPrimaryKeys.1
  have hphase := Reader.exists_readIndexes_iff keys fun table (_ : table ∈ found.tables.keys) =>
    answer_indexInfo hr table
  simp only [hasked] at hphase
  rw [← wellPlaced_iff_counted hanswers hapart hshort]
  refine Iff.trans ?_ hphase
  constructor
  · rintro ⟨s, hs⟩
    exact ⟨s.indexes, (hreaches.of_read hs).1⟩
  · rintro ⟨indexes, hindexes⟩
    exact hreaches.exists_read (hr ▸ Metadata.answersAll _) hindexes

/-- `index ∈ s.indexes` exactly if `c.Describes` it and it backs no key of `s.primaryKeys`. -/
theorem mem_indexes_of_read {s : Snapshot} (hs : r.read.outcome = .ok s) {index : Index} :
    index ∈ s.indexes ↔
      (∃ records, c.Describes options index.table index.name records ∧
        index.columns.map some = (orderedBy (·.place) records).map (·.name)) ∧
      ¬∃ key ∈ s.primaryKeys, Text.lowercaseText index.table = Text.lowercaseText key.table ∧
        index.columns = key.columns := by
  have hasked (table : String) : table ∈ found.tables.keys ↔ c.UserTable options table :=
    mem_keys_iff_userTable hr hscope hreaches.reachesPrimaryKeys.1
  obtain ⟨hindexes, rfl⟩ := hreaches.of_read hs
  have hmem := Reader.mem_of_readIndexes (fun table (_ : table ∈ found.tables.keys) =>
    answer_indexInfo hr table) hindexes index
  have hcounted := (exists_read_iff_counted hanswers hapart hshort hr hscope hreaches).1 ⟨s, hs⟩
  simp only [hasked] at hmem
  rw [← exists_ofParts_iff hanswers hapart hshort hcounted, ← Index.backsSome_eq_false_iff]
  exact hmem

end Run

/-! ### The result -/

/-- **The indexes of a SQLite snapshot are complete or absent.** Take a catalog that can be loaded,
and a reader that is given what is loaded; no table has two indexes of the same name, no index has
as many columns as there are words, the schema is the one that is read, and the run comes to the
indexes. It fails exactly if some index that can be described is not counted, and then for a column
position; an index that has no columns, or covers an expression, is no reason to fail. If a snapshot
is taken, its indexes are those that can be described and are counted, each with the names of all
its columns by place, less those that have the columns of a primary key on a table whose name
differs in case at most. No place that is negative or does not fit into a word is taken for a place
of a column. -/
theorem indexes_of_catalog {c : Catalog} {options : Options} {m : Metadata} {r : Reader}
    {found : Containers} {keys : OrderedSet PrimaryKey} (hm : (load c options).outcome = .ok m)
    (hr : r.source = m.source) (hapart : c.IndexesApart) (hshort : c.IndexesShort)
    (hscope : Metadata.inScope r.scope = true) (hreaches : r.ReachesIndexes found keys) :
    ((∃ e, r.read.outcome = .error e) ↔
      ∃ table index records, c.Describes options table index records ∧ ¬Counted records) ∧
    (∀ e, r.read.outcome = .error e → e.kind = .invalidColumnPosition) ∧
    (∀ s, r.read.outcome = .ok s → ∀ index, index ∈ s.indexes ↔
      (∃ records, c.Describes options index.table index.name records ∧ Counted records ∧
        index.columns.map some = (orderedBy (·.place) records).map (·.name)) ∧
      ¬∃ key ∈ s.primaryKeys, Text.lowercaseText index.table = Text.lowercaseText key.table ∧
        index.columns = key.columns) ∧
    ∀ table index records, c.Describes options table index records → ∀ record ∈ records,
      record.place < 0 ∨ Int32.maxValue.toInt ≤ record.place → ∃ e, r.read.outcome = .error e := by
  obtain ⟨hanswers, rfl⟩ := load_eq_ok_iff.1 hm
  have hall : r.source.AnswersAll := hr ▸ Metadata.answersAll _
  have hiff := exists_read_iff_counted hanswers hapart hshort hr hscope hreaches
  have herror : (∃ e, r.read.outcome = .error e) ↔
      ∃ table index records, c.Describes options table index records ∧ ¬Counted records := by
    have hnot : (∃ e, r.read.outcome = .error e) ↔ ¬∃ s, r.read.outcome = .ok s := by
      cases r.read.outcome <;> simp
    rw [hnot, hiff]
    push Not
    rfl
  refine ⟨herror, fun e he => Reader.kind_of_later hall hreaches.reachesPrimaryKeys he, ?_, ?_⟩
  · intro s hs index
    have hcounted := hiff.1 ⟨s, hs⟩
    rw [mem_indexes_of_read hanswers hapart hshort hr hscope hreaches hs]
    refine and_congr_left fun _ => exists_congr fun records => and_congr_right fun h => ?_
    exact (and_iff_right (hcounted _ _ _ h)).symm
  · intro table index records h record hrecord hplace
    refine herror.2 ⟨table, index, records, h, fun hcounted => ?_⟩
    have hbounds := hcounted.bounds hrecord
    have hfew := hshort _ _ _ h.isListed h.answered
    omega

/-- The columns of the indexes of a garage: two columns that are listed the wrong way round, an
expression at an impossible place, the column of the primary key, and a column at some place. -/
def garageColumns (place : Int) (index : String) : List IndexColumnRecord :=
  if index = "by_brand" then [⟨1, some "year"⟩, ⟨0, some "brand"⟩]
  else if index = "by_age" then [⟨-7, none⟩]
  else if index = "by_plate" then [⟨0, some "plate"⟩]
  else [⟨place, some "year"⟩]

/-- A garage with cars and some indexes on them, the last of which has its column at some place.
Vans have a primary key with the columns of an index on cars. -/
def garage (place : Int) : Catalog where
  objects := .ok [⟨"table", "vans", none⟩, ⟨"table", "cars", none⟩]
  tableInfo table :=
    .ok (if table = "cars" then
      [⟨0, "plate", "TEXT", 1, none, 1⟩, ⟨1, "brand", "TEXT", 0, none, 0⟩,
        ⟨2, "year", "INTEGER", 0, none, 0⟩]
    else
      [⟨0, "brand", "TEXT", 1, none, 1⟩, ⟨1, "year", "INTEGER", 1, none, 2⟩])
  indexList table :=
    .ok (if table = "cars" then
      [⟨0, "by_brand"⟩, ⟨1, "by_age"⟩, ⟨2, "by_plate"⟩, ⟨3, "by_year"⟩]
    else
      [])
  indexInfo index := .ok (garageColumns place index)
  foreignKeyList _ := .ok []

theorem garage_indexesShort (place : Int) : (garage place).IndexesShort := by
  intro table index records _ hrecords
  obtain rfl := Except.ok.inj hrecords
  have hlength : (garageColumns place index).length ≤ 2 := by
    unfold garageColumns
    split_ifs <;> simp
  have hmax : (2 : Int) < Int32.maxValue.toInt := by decide
  omega

theorem garage_describes (place : Int) {index : String}
    (hindex : index ∈ ["by_brand", "by_age", "by_plate", "by_year"])
    (hnamed : ∀ record ∈ garageColumns place index, record.name ≠ none) :
    (garage place).Describes {} "cars" index (garageColumns place index) where
  isTable := ⟨by decide, _, rfl, rfl⟩
  isListed := ⟨⟨_, none, rfl, by decide⟩, _, rfl, hindex⟩
  answered := rfl
  nonempty := by
    unfold garageColumns
    split_ifs <;> simp
  named := hnamed

theorem indexes_of_catalog_garage :
    (∃ s, (readerOf (garage 0)).read.outcome = .ok s ∧
      ⟨"vans", ["brand", "year"], none⟩ ∈ s.primaryKeys ∧
      ⟨"cars", "by_brand", ["brand", "year"]⟩ ∈ s.indexes ∧
      ⟨"cars", "by_plate", ["plate"]⟩ ∉ s.indexes ∧
      ∀ index ∈ s.indexes, index.name ≠ "by_age") ∧
    ∃ e, (readerOf (garage 4294967296)).read.outcome = .error e ∧
      e.kind = .invalidColumnPosition := by
  have hresult (place : Int) (hapart : (garage place).IndexesApart) {found : Containers}
      {keys : OrderedSet PrimaryKey}
      (hreaches : (readerOf (garage place)).ReachesIndexes found keys) :=
    indexes_of_catalog (rfl : (load (garage place) {}).outcome = .ok ((garage place).metadata {}))
      rfl hapart (garage_indexesShort place) rfl hreaches
  constructor
  · obtain ⟨-, -, hmem, -⟩ := hresult 0 (by decide) ⟨_, _, _, rfl, rfl, rfl, rfl, rfl⟩
    obtain ⟨s, hs, hkeys⟩ : ∃ s, (readerOf (garage 0)).read.outcome = .ok s ∧
        s.primaryKeys.toList =
          [⟨"cars", ["plate"], none⟩, ⟨"vans", ["brand", "year"], none⟩] := ⟨_, rfl, rfl⟩
    have hkey (key : PrimaryKey) : key ∈ s.primaryKeys ↔
        key ∈ [⟨"cars", ["plate"], none⟩, ⟨"vans", ["brand", "year"], none⟩] :=
      hkeys ▸ Iff.rfl
    refine ⟨s, hs, (hkey _).2 (by decide), ?_, ?_, ?_⟩
    · refine (hmem s hs _).2
        ⟨⟨_, garage_describes 0 (by decide) (by decide), by decide, rfl⟩, ?_⟩
      simp only [hkey]
      decide
    · rw [hmem s hs]
      rintro ⟨-, hbacks⟩
      exact hbacks ⟨⟨"cars", ["plate"], none⟩, (hkey _).2 List.mem_cons_self, rfl, rfl⟩
    · intro index hindex hname
      obtain ⟨⟨records, h, -⟩, -⟩ := (hmem s hs _).1 hindex
      have hrecords := Except.ok.inj h.answered
      rw [hname] at hrecords
      exact h.named ⟨-7, none⟩ (hrecords ▸ List.mem_cons_self) rfl
  · obtain ⟨-, hkind, -, hfails⟩ :=
      hresult 4294967296 (by decide) ⟨_, _, _, rfl, rfl, rfl, rfl, rfl⟩
    obtain ⟨e, he⟩ := hfails "cars" "by_year" _ (garage_describes _ (by decide) (by decide))
      ⟨4294967296, some "year"⟩ (by decide) (.inr (by decide))
    exact ⟨e, he, hkind e he⟩

end SchemaSnapshot.Sqlite

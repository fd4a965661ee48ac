import SchemaSnapshot.Proofs.Exclusion
import SchemaSnapshot.Proofs.Lookup

/-!
# Where a bookkeeping name can turn up

Object rows and column rows about excluded objects are passed over, and both ends of a foreign key
have to be tables that have been found. So the tables, the views, the columns and the foreign keys
of a snapshot are about objects of the user's alone (`Reader.shows_of_table`,
`Reader.shows_of_view`). The rows of primary keys and indexes are not looked at in this way: they
count for the table that they name, whichever it is (`Reader.exists_primaryKey_iff`,
`Reader.exists_index_iff`). A bookkeeping name is kept out of these exactly as long as no row about
a table of the snapshot names it (`Reader.bookkeeping_of_read`).
-/

namespace SchemaSnapshot

/-- `¬source.Shows name` for a bookkeeping name, in whichever catalog and schema. -/
theorem MetadataSource.not_shows_of_isBookkeeping {source : MetadataSource} {name : String}
    (h : source.isBookkeeping name = true) : ¬source.Shows name := by
  rintro ⟨scope, hshows⟩
  simp [excludes, h] at hshows

namespace Reader

variable {r : Reader} {s : Snapshot} {name : String}

/-! ### Tables, views and columns -/

/-- `r.source.Shows name` for every table of a snapshot: it is one of the user's. -/
theorem shows_of_table (hs : r.read.outcome = .ok s) (h : s.tables.contains name = true) :
    r.source.Shows name :=
  shows_of_reachesForeignKeys (reachesForeignKeys_of_read hs) (OrderedMap.mem_keys_iff.2 h)

/-- `r.source.Shows name` for every view of a snapshot. -/
theorem shows_of_view (hs : r.read.outcome = .ok s) (h : s.views.contains name = true) :
    r.source.Shows name := by
  obtain ⟨listed, found, hlisted, hfound, _⟩ := reachesForeignKeys_of_read hs
  obtain ⟨objects, hobjects, -⟩ := readContainers_eq_ok_iff.1 hlisted
  obtain ⟨columns, hcolumns, -⟩ := readColumns_eq_ok_iff.1 hfound
  -- a view has claimed its name by a row of the user's
  have hclaim := (contents_of_read hobjects hcolumns hs).claim?_of_view h
  obtain ⟨row, -, hisClaim, rfl, -⟩ := claim?_eq_some hclaim
  exact ⟨_, (isClaim_iff.1 hisClaim).1⟩

/-- The owner of a column is a table or a view of the snapshot, so `r.source.Shows` its name. -/
theorem shows_of_column (hs : r.read.outcome = .ok s) {column : Column}
    (h : column ∈ s.columns) : r.source.Shows column.owner.name := by
  obtain ⟨hholds, -⟩ := (wellFormed_of_read hs).mem_columns_iff.1 h
  cases howner : column.owner with
  | table name =>
    rw [howner] at hholds
    exact shows_of_table hs hholds
  | view name =>
    rw [howner] at hholds
    exact shows_of_view hs hholds

/-! ### Foreign keys -/

/-- Both ends of a foreign key are tables of the snapshot: `r.source.Shows` of `key.referencedTable`
and of `key.table`. -/
theorem shows_of_foreignKey (hs : r.read.outcome = .ok s) {key : ForeignKey}
    (h : key ∈ s.foreignKeys) :
    r.source.Shows key.referencedTable ∧ r.source.Shows key.table := by
  obtain ⟨-, hkeys, -⟩ := (reachesForeignKeys_of_read hs).of_read hs
  obtain ⟨hreferenced, htable⟩ := ends_of_readForeignKeys hkeys h
  exact ⟨shows_of_table hs hreferenced, shows_of_table hs htable⟩

/-! ### Primary keys -/

/-- The table `name` has a primary key exactly if a row of some answer names it, whichever table of
the snapshot the answer is about. -/
theorem exists_primaryKey_iff (hs : r.read.outcome = .ok s) (name : String) :
    (∃ key ∈ s.primaryKeys, key.table = name) ↔
      ∃ table ∈ s.tables.keys, ∃ rows, r.source.answer (.primaryKeys r.scope table) = .ok rows ∧
        ∃ row ∈ rows, row.table = name := by
  obtain ⟨-, -, hkeys⟩ := (reachesForeignKeys_of_read hs).of_read hs
  choose! answers hanswers using fun table (htable : table ∈ s.tables.keys) =>
    answered_of_readPrimaryKeys hkeys htable
  have hmem := mem_of_readPrimaryKeys hanswers hkeys
  constructor
  · rintro ⟨key, hkey, rfl⟩
    obtain ⟨row, hrow, hname⟩ := List.mem_map.1 ((hmem key).1 hkey).1
    obtain ⟨table, htable, hrow⟩ := List.mem_flatMap.1 hrow
    exact ⟨table, htable, _, hanswers table htable, row, hrow, hname⟩
  · rintro ⟨table, htable, rows, hrows, row, hrow, rfl⟩
    obtain rfl := Except.ok.inj ((hanswers table htable).symm.trans hrows)
    -- the key is made of all the rows that name its table
    have hnamed : row.table ∈ (s.tables.keys.flatMap answers).map (·.table) :=
      List.mem_map_of_mem (List.mem_flatMap.2 ⟨table, htable, hrow⟩)
    refine ⟨.ofRows row.table ((s.tables.keys.flatMap answers).filter (·.table = row.table)), ?_,
      rfl⟩
    exact (hmem _).2 ⟨hnamed, rfl⟩

/-! ### Indexes -/

/-- `s.indexes` are the indexes that the answers about the tables of `s` make, less those that back
a primary key. -/
theorem mem_indexes_iff (hs : r.read.outcome = .ok s) {index : Index} :
    index ∈ s.indexes ↔
      (∃ table ∈ s.tables.keys, ∃ rows, r.source.answer (.indexInfo r.scope table) = .ok rows ∧
        ∃ first rest, partsNamed first.name (indexParts rows) = first :: rest ∧
          index = .ofParts first rest) ∧
      index.backsSome s.primaryKeys = false := by
  obtain ⟨_, found, -, -, _, _, _, _, -, -, hindexes, -, rfl⟩ := read_eq_ok_iff.1 hs
  have hanswered (table : String) (htable : table ∈ found.containers.tables.keys) :=
    answered_of_readIndexes hindexes htable
  choose! answers hanswers using hanswered
  refine (mem_of_readIndexes hanswers hindexes index).trans ?_
  refine and_congr_left fun _ => exists_congr fun table => and_congr_right fun htable => ?_
  -- The answer about a table is the one that there is.
  rw [hanswers table htable]
  simp

/-- The table `name` has an index exactly if `name` is in the first row of one that backs no primary
key, in the answer about whichever table of the snapshot. -/
theorem exists_index_iff (hs : r.read.outcome = .ok s) (name : String) :
    (∃ index ∈ s.indexes, index.table = name) ↔
      ∃ table ∈ s.tables.keys, ∃ rows, r.source.answer (.indexInfo r.scope table) = .ok rows ∧
        ∃ first rest, partsNamed first.name (indexParts rows) = first :: rest ∧
          first.table = name ∧ (Index.ofParts first rest).backsSome s.primaryKeys = false := by
  constructor
  · rintro ⟨index, hindex, rfl⟩
    obtain ⟨⟨table, htable, rows, hrows, first, rest, hparts, rfl⟩, hbacks⟩ :=
      (mem_indexes_iff hs).1 hindex
    exact ⟨table, htable, rows, hrows, first, rest, hparts, rfl, hbacks⟩
  · rintro ⟨table, htable, rows, hrows, first, rest, hparts, rfl, hbacks⟩
    exact ⟨.ofParts first rest, (mem_indexes_iff hs).2
      ⟨⟨table, htable, rows, hrows, first, rest, hparts, rfl⟩, hbacks⟩, rfl⟩

/-! ### The result -/

/-- **Where a bookkeeping name can turn up.** In a snapshot it is no table, no view, the owner of no
column and no end of a foreign key. No primary key is on it exactly as long as no row about a
primary key names it, of all the rows with which the source answers about the tables of the
snapshot. No index is on it exactly as long as every index of these answers whose first row names it
backs a primary key. -/
theorem bookkeeping_of_read (hs : r.read.outcome = .ok s)
    (hname : r.source.isBookkeeping name = true) :
    s.tables.contains name = false ∧ s.views.contains name = false ∧
    (∀ column ∈ s.columns, column.owner.name ≠ name) ∧
    (∀ key ∈ s.foreignKeys, key.referencedTable ≠ name ∧ key.table ≠ name) ∧
    ((∀ key ∈ s.primaryKeys, key.table ≠ name) ↔
      ∀ table ∈ s.tables.keys, ∀ rows,
        r.source.answer (.primaryKeys r.scope table) = .ok rows → ∀ row ∈ rows, row.table ≠ name) ∧
    ((∀ index ∈ s.indexes, index.table ≠ name) ↔
      ∀ table ∈ s.tables.keys, ∀ rows,
        r.source.answer (.indexInfo r.scope table) = .ok rows →
          ∀ first rest, partsNamed first.name (indexParts rows) = first :: rest →
            first.table = name → (Index.ofParts first rest).backsSome s.primaryKeys = true) := by
  have hhidden := MetadataSource.not_shows_of_isBookkeeping hname
  refine ⟨?_, ?_, ?_, ?_, ?_, ?_⟩
  · exact Bool.not_eq_true _ ▸ fun h => hhidden (shows_of_table hs h)
  · exact Bool.not_eq_true _ ▸ fun h => hhidden (shows_of_view hs h)
  · rintro column hcolumn rfl
    -- an owner is the user's, and a bookkeeping name is not
    exact hhidden (shows_of_column hs hcolumn)
  · intro key hkey
    obtain ⟨hreferenced, htable⟩ := shows_of_foreignKey hs hkey
    exact ⟨fun h => hhidden (h ▸ hreferenced), fun h => hhidden (h ▸ htable)⟩
  · simpa using not_congr (exists_primaryKey_iff hs name)
  · simpa using not_congr (exists_index_iff hs name)

/-- An archive with a table of letters and a log that is kept by a tool. Asked about the letters, it
also tells about the key and an index of the log. -/
def archive : Reader where
  source :=
    { Listing.source { bookkeeping := ["log"] } with
      answer := fun
        | .objects _ => .ok [⟨.table, "letters", none, none⟩, ⟨.table, "log", none, none⟩]
        | .primaryKeys _ _ => .ok [⟨"letters", "id", 1, none⟩, ⟨"log", "entry", 1, none⟩]
        | .indexInfo _ _ => .ok [⟨some "by_day", 3, "log", some "day", 1⟩]
        | call => .ok (Listing.answer {} call) }

theorem bookkeeping_of_read_archive :
    ∃ s, archive.read.outcome = .ok s ∧ s.tables.contains "log" = false ∧
      s.views.contains "log" = false ∧ ¬∀ key ∈ s.primaryKeys, key.table ≠ "log" := by
  obtain ⟨s, hs, hletters⟩ : ∃ s, archive.read.outcome = .ok s ∧ "letters" ∈ s.tables.keys :=
    ⟨_, rfl, by decide⟩
  obtain ⟨htable, hview, -, -, hkeys, -⟩ :=
    bookkeeping_of_read hs (show archive.source.isBookkeeping "log" = true from rfl)
  refine ⟨s, hs, htable, hview, fun hclean => ?_⟩
  exact hkeys.1 hclean "letters" hletters _ rfl ⟨"log", "entry", 1, none⟩ (by decide) rfl

/-- A snapshot of the `archive` has a primary key and an index on `log`, a bookkeeping name. -/
theorem log_in_archive :
    archive.source.isBookkeeping "log" = true ∧
      ∃ s, archive.read.outcome = .ok s ∧
        s.primaryKey? "log" = some ⟨"log", ["entry"], none⟩ ∧
        s.indexesOn "log" = [⟨"log", "by_day", ["day"]⟩] :=
  ⟨rfl, _, rfl, rfl, rfl⟩

end Reader

end SchemaSnapshot

import SchemaSnapshot.Proofs.Sqlite.Containers
import SchemaSnapshot.Proofs.Sqlite.Loading

/-!
# The foreign keys of a SQLite snapshot

SQLite tells about a foreign key with the table that refers, and writes the table referred to as the
declaration has it. Loading turns this around: a foreign key is listed under the table it refers to,
found without regard to case (`DeclaredKey.resolve`), and a reader asks for those that are listed
under the tables it has found. Here the detour is taken out. What the records say about a foreign
key is stated first (`Catalog.RefersTo`, `Catalog.TargetColumn`); a run fails for a reference
exactly if some declaration is unfit (`referentialIntegrity_iff`), and otherwise a snapshot has the
foreign keys between tables of the user's (`foreignKeys_of_catalog`).
-/

namespace SchemaSnapshot.Sqlite

/-! ### What the records say about foreign keys -/

namespace Catalog

/-- `key` refers to the table `target`, whose name it may write in any case. -/
def RefersTo (c : Catalog) (key : ForeignKeyRecord) (target : String) : Prop :=
  c.HasTable target ∧ Text.sameIgnoringCase target key.target = true

/-- `options.excludes target = options.excludes key.target` if `key` refers to `target`. -/
theorem RefersTo.excludes_eq {c : Catalog} {key : ForeignKeyRecord} {target : String}
    (h : c.RefersTo key target) (options : Options) :
    options.excludes target = options.excludes key.target :=
  options.excludes_congr h.2

/-- `column` has `place` in the primary key of `table`. Places count from 1, and those that do not
fit into a word count as the greatest word. -/
def KeyColumn (c : Catalog) (table : String) (place : Int) (column : String) : Prop :=
  ∃ records, c.tableInfo table = .ok records ∧
    ∃ record ∈ records, record.name = column ∧ 0 < record.keyPlace ∧
      min record.keyPlace Int32.maxValue.toInt = place

/-- `column` is what `key` refers to: the column that is written, or else the one at the same place
in the primary key of the table referred to, or else the row identifier. -/
def TargetColumn (c : Catalog) (key : ForeignKeyRecord) (target column : String) : Prop :=
  match key.targetColumn with
  | some written => column = written
  | none =>
    c.KeyColumn target (key.place + 1) column ∨
      (∀ other, ¬c.KeyColumn target (key.place + 1) other) ∧ column = rowIdentifier

/-- A foreign key that no snapshot can have: `table` is the user's and `key` refers to no table, or
`table` is excluded and `key` refers to a table of the user's. -/
def Unfit (c : Catalog) (options : Options) (table : String) (key : ForeignKeyRecord) : Prop :=
  options.excludes table = false ∧ (∀ target, ¬c.RefersTo key target) ∨
    options.excludes table = true ∧
      ∃ target, c.RefersTo key target ∧ options.excludes target = false

end Catalog

/-! ### Places in primary keys -/

variable {c : Catalog} {options : Options} {r : Reader}

/-- `c.KeyColumn table place column` exactly if a row of the primary key columns says so. -/
theorem keyColumn_iff {table : String} (htable : c.HasTable table) {place : Int} {column : String} :
    c.KeyColumn table place column ↔
      ∃ row ∈ c.primaryKeyRows, row.table = table ∧ row.position.toInt = place ∧
        row.column = column := by
  constructor
  · rintro ⟨records, hrecords, record, hrecord, rfl, hplace, rfl⟩
    obtain ⟨sql, hmem⟩ := Catalog.hasTable_iff.1 htable
    -- the row that is made of the record
    have hrow : record.primaryKeyRow? table = some _ :=
      ColumnRecord.primaryKeyRow?_eq_some_iff.2 ⟨hplace, rfl⟩
    refine ⟨_, Catalog.mem_primaryKeyRows.2 ⟨_, hmem, record, ?_, hrow⟩, rfl, ?_, rfl⟩
    · exact Catalog.mem_records.2 ⟨records, hrecords, hrecord⟩
    · exact toInt_placeWord hplace
  · rintro ⟨row, hrow, rfl, rfl, rfl⟩
    obtain ⟨relation, -, record, hrecord, hrow⟩ := Catalog.mem_primaryKeyRows.1 hrow
    obtain ⟨hplace, rfl⟩ := ColumnRecord.primaryKeyRow?_eq_some_iff.1 hrow
    obtain ⟨records, hrecords, hrecord⟩ := Catalog.mem_records.1 hrecord
    exact ⟨records, hrecords, record, hrecord, rfl, hplace, (toInt_placeWord hplace).symm⟩

/-- No two columns of the primary key of `table` are at the same place. -/
def Catalog.PlacesApart (c : Catalog) (table : String) : Prop :=
  ∀ row ∈ c.primaryKeyRows, ∀ other ∈ c.primaryKeyRows, row.table = table → other.table = table →
    row.position = other.position → row = other

theorem keyColumn?_eq_some_iff {table : String} (htable : c.HasTable table)
    (hplaces : c.PlacesApart table) {place : Int} {column : String} :
    keyColumn? c.primaryKeyRows table place = some column ↔ c.KeyColumn table place column := by
  rw [keyColumn_iff htable, keyColumn?, Option.map_eq_some_iff]
  constructor
  · rintro ⟨row, hfind, rfl⟩
    have hrow := List.find?_some hfind
    rw [Bool.and_eq_true, beq_iff_eq, beq_iff_eq] at hrow
    exact ⟨row, List.mem_of_find?_eq_some hfind, hrow.1, hrow.2, rfl⟩
  · rintro ⟨row, hrow, rfl, rfl, rfl⟩
    -- The search ends at some row for this place, and there is no other than this one.
    have hsome : (c.primaryKeyRows.find? fun other =>
        other.table == row.table && other.position.toInt == row.position.toInt).isSome := by
      rw [List.find?_isSome]
      exact ⟨row, hrow, by simp⟩
    obtain ⟨first, hfirst⟩ := Option.isSome_iff_exists.1 hsome
    have hsame := List.find?_some hfirst
    rw [Bool.and_eq_true, beq_iff_eq, beq_iff_eq] at hsame
    refine ⟨first, hfirst, ?_⟩
    rw [hplaces row hrow first (List.mem_of_find?_eq_some hfirst) rfl hsame.1
      (Int32.toInt_inj.1 hsame.2.symm)]

/-! ### Where a declaration is listed -/

namespace DeclaredKey

/-- The column that `k` refers to, once it is known that `target` is the table. -/
def targetColumn (c : Catalog) (k : DeclaredKey) (target : String) : String :=
  (k.record.targetColumn.or
    (keyColumn? c.primaryKeyRows target (k.record.place + 1))).getD rowIdentifier

theorem targetColumn_eq_iff {k : DeclaredKey} {target column : String} (htarget : c.HasTable target)
    (hplaces : c.PlacesApart target) :
    column = k.targetColumn c target ↔ c.TargetColumn k.record target column := by
  unfold targetColumn Catalog.TargetColumn
  cases k.record.targetColumn with
  | some written => rfl
  | none =>
    rw [Option.none_or]
    simp only [← keyColumn?_eq_some_iff htarget hplaces]
    cases keyColumn? c.primaryKeyRows target (k.record.place + 1) <;> simp [eq_comm]

/-- `target` is the name in the declaration, but for the case of its letters. -/
theorem sameIgnoringCase_of_referenced? {k : DeclaredKey} {tables : List String} {target : String}
    (h : k.referenced? tables = some target) :
    Text.sameIgnoringCase target k.record.target = true := by
  unfold referenced? at h
  simpa using List.find?_some h

theorem refersTo_of_referenced? {k : DeclaredKey} {target : String}
    (h : k.referenced? c.tableNames = some target) : c.RefersTo k.record target :=
  ⟨Catalog.mem_tableNames.1 (List.mem_of_find?_eq_some h), sameIgnoringCase_of_referenced? h⟩

theorem referenced?_eq_none_iff {k : DeclaredKey} :
    k.referenced? c.tableNames = none ↔ ∀ target, ¬c.RefersTo k.record target := by
  simp only [referenced?, List.find?_eq_none, Catalog.mem_tableNames, Catalog.RefersTo, not_and]

/-- The row of the declaration `k`, once it is known that it refers to `target`. -/
def row (c : Catalog) (k : DeclaredKey) (target : String) : ForeignKeyRow where
  referencedTable := target
  referencedColumn := k.targetColumn c target
  table := k.table
  column := k.record.column
  constraintName := none
  deferrabilityCode := 7

/-- A declaration that leads to `target` is listed under it. -/
theorem resolve_of_referenced? {k : DeclaredKey} {target : String}
    (h : k.referenced? c.tableNames = some target) :
    k.resolve c.tableNames c.primaryKeyRows = (target, k.row c target) := by
  simp only [resolve, h, Option.getD_some, row, targetColumn]

/-- A declaration that leads nowhere is listed under `k.table`, with the name as it is written. -/
theorem resolve_of_none {k : DeclaredKey} (h : k.referenced? c.tableNames = none) :
    k.resolve c.tableNames c.primaryKeyRows = (k.table, k.row c k.record.target) := by
  simp only [resolve, h, Option.getD_none, row, targetColumn]

theorem joinsTables_row {k : DeclaredKey} {target : String} {found : Containers} :
    found.joinsTables (k.row c target) =
      (found.tables.contains target && found.tables.contains k.table) := rfl

end DeclaredKey

/-- The foreign keys listed under `table`. -/
def Catalog.keysListedUnder (c : Catalog) (table : String) : List ForeignKeyRow :=
  ((c.declaredKeys.map (·.resolve c.tableNames c.primaryKeyRows)).filter (·.1 == table)).map (·.2)

theorem answer_foreignKeysTo (hr : r.source = (c.metadata options).source) (table : String) :
    r.source.answer (.foreignKeysTo r.scope table) = .ok (c.keysListedUnder table) := by
  rw [hr]
  rfl

/-- The rows listed under `table` are those of declarations that lead to it, and of its own
declarations that lead nowhere. -/
theorem mem_keysListedUnder {table : String} {row : ForeignKeyRow} :
    row ∈ c.keysListedUnder table ↔ ∃ k : DeclaredKey, c.Declares k.table k.record ∧
      (k.referenced? c.tableNames = some table ∧ row = k.row c table ∨
        k.referenced? c.tableNames = none ∧ k.table = table ∧ row = k.row c k.record.target) := by
  -- where a declaration is listed, by whether it leads anywhere
  have hresolve (k : DeclaredKey) : k.resolve c.tableNames c.primaryKeyRows = (table, row) ↔
      k.referenced? c.tableNames = some table ∧ row = k.row c table ∨
        k.referenced? c.tableNames = none ∧ k.table = table ∧ row = k.row c k.record.target := by
    cases hreferenced : k.referenced? c.tableNames with
    | none => simp [DeclaredKey.resolve_of_none hreferenced, eq_comm (a := row)]
    | some target =>
      rw [DeclaredKey.resolve_of_referenced? hreferenced, Prod.mk.injEq]
      constructor
      · rintro ⟨rfl, rfl⟩
        exact .inl ⟨rfl, rfl⟩
      · rintro (⟨hsame, rfl⟩ | ⟨hnone, -⟩)
        · obtain rfl := Option.some.inj hsame
          exact ⟨rfl, rfl⟩
        · cases hnone
  simp only [Catalog.keysListedUnder, List.mem_map, List.mem_filter, beq_iff_eq, ← hresolve,
    ← Catalog.mem_declaredKeys]
  constructor
  · rintro ⟨_, ⟨⟨k, hk, rfl⟩, rfl⟩, rfl⟩
    exact ⟨k, hk, rfl⟩
  · rintro ⟨k, hk, hlisted⟩
    exact ⟨_, ⟨⟨k, hk, rfl⟩, by rw [hlisted]⟩, by rw [hlisted]⟩

/-! ### When a run fails for a reference -/

/-- A declaration that refers to `target` leads to some table of this name, but for the case of its
letters. -/
theorem exists_referenced? {k : DeclaredKey} {target : String} (h : c.RefersTo k.record target) :
    ∃ first, k.referenced? c.tableNames = some first ∧
      Text.sameIgnoringCase first target = true := by
  cases hfirst : k.referenced? c.tableNames with
  | none => exact absurd h (DeclaredKey.referenced?_eq_none_iff.1 hfirst target)
  | some first =>
    refine ⟨first, rfl, ?_⟩
    have hsame := (DeclaredKey.refersTo_of_referenced? hfirst).2
    rw [Text.sameIgnoringCase_iff] at hsame ⊢
    exact hsame.trans (Text.sameIgnoringCase_iff.1 h.2).symm

/-- A run fails for a reference exactly if some declaration is `Unfit`. -/
theorem referentialIntegrity_iff (hr : r.source = (c.metadata options).source)
    (hapart : c.NamesApart) (hscope : Metadata.inScope r.scope = true) :
    (∃ e, r.read.outcome = .error e ∧ e.kind = .referentialIntegrity) ↔
      ∃ table key, c.Declares table key ∧ c.Unfit options table key := by
  have hall : r.source.AnswersAll := hr ▸ Metadata.answersAll _
  rw [Reader.exists_referentialIntegrity_iff hall]
  constructor
  · rintro ⟨found, hreaches, listed, hlisted, rows, hrows, row, hrow, hjoins⟩
    have hcontains := contains_tables_iff hr hapart hscope hreaches
    obtain rfl := Except.ok.inj ((answer_foreignKeysTo hr listed).symm.trans hrows)
    have hlisted := OrderedMap.mem_keys_iff.1 hlisted
    have hlive := ((hcontains listed).1 hlisted).2
    obtain ⟨k, hk, ⟨hreferenced, rfl⟩ | ⟨hnone, rfl, -⟩⟩ := mem_keysListedUnder.1 hrow
    · -- The table referred to is there, so it is the table that refers that is not.
      refine ⟨k.table, k.record, hk, .inr ⟨?_, listed,
        DeclaredKey.refersTo_of_referenced? hreferenced, hlive⟩⟩
      rw [DeclaredKey.joinsTables_row, hlisted, Bool.true_and] at hjoins
      rw [← Bool.not_eq_false]
      intro hlive
      rw [(hcontains k.table).2 ⟨hk.1, hlive⟩] at hjoins
      cases hjoins
    · -- the reference leads nowhere, and the table that refers is the user's
      exact ⟨k.table, k.record, hk, .inl ⟨hlive, DeclaredKey.referenced?_eq_none_iff.1 hnone⟩⟩
  · rintro ⟨table, key, hk, hunfit⟩
    obtain ⟨found, hreaches⟩ := Reader.exists_reachesForeignKeys_of_answersAll hall
    have hcontains := contains_tables_iff hr hapart hscope hreaches
    refine ⟨found, hreaches, ?_⟩
    rcases hunfit with ⟨hlive, hnone⟩ | ⟨hexcluded, target, htarget, hlive⟩
    · -- The reference is listed under the table that refers, with a name that no table has.
      have hreferenced := DeclaredKey.referenced?_eq_none_iff (k := ⟨table, key⟩).2 hnone
      have hdangling : found.tables.contains key.target = false := by
        rw [← Bool.not_eq_true, hcontains]
        rintro ⟨htarget, -⟩
        exact hnone key.target ⟨htarget, Text.sameIgnoringCase_iff.2 rfl⟩
      refine ⟨table, OrderedMap.mem_keys_iff.2 ((hcontains table).2 ⟨hk.1, hlive⟩), _,
        answer_foreignKeysTo hr table, _,
        mem_keysListedUnder.2 ⟨_, hk, .inr ⟨hreferenced, rfl, rfl⟩⟩, ?_⟩
      rw [DeclaredKey.joinsTables_row, hdangling, Bool.false_and]
    · -- It is listed under a table of the user's, while the table that refers is not found.
      obtain ⟨first, hfirst, hsame⟩ := exists_referenced? (k := ⟨table, key⟩) htarget
      have hlisted : found.tables.contains first = true := by
        rw [hcontains, options.excludes_congr hsame]
        exact ⟨(DeclaredKey.refersTo_of_referenced? hfirst).1, hlive⟩
      have hreferring : found.tables.contains table = false := by
        rw [← Bool.not_eq_true, hcontains, hexcluded]
        simp
      refine ⟨first, OrderedMap.mem_keys_iff.2 hlisted, _, answer_foreignKeysTo hr first, _,
        mem_keysListedUnder.2 ⟨_, hk, .inl ⟨hfirst, rfl⟩⟩, ?_⟩
      rw [DeclaredKey.joinsTables_row, hreferring, Bool.and_false]

/-! ### The foreign keys of a snapshot -/

/-- `c.PlacesApart table` once the primary keys have been read: no two columns are at the same
place. -/
theorem placesApart_of_read (hr : r.source = (c.metadata options).source) {s : Snapshot}
    (hs : r.read.outcome = .ok s) {table : String} (htable : s.tables.contains table = true) :
    c.PlacesApart table := by
  obtain ⟨-, -, hkeys⟩ := (Reader.reachesForeignKeys_of_read hs).of_read hs
  intro row hrow other hother hrowTable hotherTable hposition
  exact Reader.eq_of_position_of_readPrimaryKeys hkeys (OrderedMap.mem_keys_iff.2 htable)
    (answer_primaryKeys hr table)
    (List.mem_filter.2 ⟨hrow, by simp [hrowTable]⟩)
    (List.mem_filter.2 ⟨hother, by simp [hotherTable]⟩)
    (hrowTable.trans hotherTable.symm) hposition

/-- `key ∈ s.foreignKeys` exactly if a table of the user's declares it on a table of the user's. -/
theorem mem_foreignKeys_of_read (hr : r.source = (c.metadata options).source)
    (hapart : c.NamesApartIgnoringCase) (hscope : Metadata.inScope r.scope = true) {s : Snapshot}
    (hs : r.read.outcome = .ok s) (key : ForeignKey) :
    key ∈ s.foreignKeys ↔ ∃ table declared target column, c.Declares table declared ∧
      options.excludes table = false ∧ c.RefersTo declared target ∧
      options.excludes target = false ∧ c.TargetColumn declared target column ∧
      key =
        { name := none
          referencedTable := target
          referencedColumn := column
          table := table
          column := declared.column
          deferrability := none } := by
  have hreaches := Reader.reachesForeignKeys_of_read hs
  obtain ⟨-, hkeys, -⟩ := hreaches.of_read hs
  have hcontains := contains_tables_iff hr hapart.namesApart hscope hreaches
  have hnotDeferrable : r.source.supportsDeferrable = false := by
    rw [hr]
    rfl
  rw [Reader.mem_of_readForeignKeys hkeys]
  simp only [hnotDeferrable, ForeignKeyRow.describes_iff]
  constructor
  · rintro ⟨row, hseen, rfl⟩
    -- both ends are tables of the snapshot, so both are the user's
    obtain ⟨hreferenced, htable⟩ := Reader.ends_of_readForeignKeys hkeys
      ((Reader.mem_of_readForeignKeys hkeys _).2
        ⟨row, hseen, ForeignKeyRow.describes_iff.2 (by rw [hnotDeferrable])⟩)
    obtain ⟨listed, -, rows, hrows, hrow⟩ := Reader.mem_foreignKeyVisits.1 hseen
    obtain rfl := Except.ok.inj ((answer_foreignKeysTo hr listed).symm.trans hrows)
    obtain ⟨k, hk, ⟨htarget, rfl⟩ | ⟨hnone, -, rfl⟩⟩ := mem_keysListedUnder.1 hrow
    · have hrefers := DeclaredKey.refersTo_of_referenced? htarget
      have hcolumn := (DeclaredKey.targetColumn_eq_iff hrefers.1
        (placesApart_of_read hr hs hreferenced)).1 (rfl : k.targetColumn c listed = _)
      exact ⟨k.table, k.record, listed, _, hk, ((hcontains _).1 htable).2, hrefers,
        ((hcontains _).1 hreferenced).2, hcolumn, rfl⟩
    · -- A reference that leads nowhere would have no table at its end.
      refine absurd ?_ (DeclaredKey.referenced?_eq_none_iff.1 hnone k.record.target)
      exact ⟨((hcontains _).1 hreferenced).1, Text.sameIgnoringCase_iff.2 rfl⟩
  · rintro ⟨table, declared, target, column, hk, hlive, hrefers, htarget, hcolumn, rfl⟩
    -- The search ends at a table of the same name but for case, and there is only one.
    obtain ⟨first, hfirst, hsame⟩ := exists_referenced? (k := ⟨table, declared⟩) hrefers
    obtain rfl := hapart.eq_of_sameIgnoringCase
      (DeclaredKey.refersTo_of_referenced? hfirst).1 hrefers.1 hsame
    have hlisted : s.tables.contains first = true := (hcontains first).2 ⟨hrefers.1, htarget⟩
    have hseen := Reader.mem_foreignKeyVisits.2 ⟨first, OrderedMap.mem_keys_iff.2 hlisted, _,
      answer_foreignKeysTo hr first, mem_keysListedUnder.2 ⟨_, hk, .inl ⟨hfirst, rfl⟩⟩⟩
    obtain rfl := (DeclaredKey.targetColumn_eq_iff (k := ⟨table, declared⟩) hrefers.1
      (placesApart_of_read hr hs hlisted)).2 hcolumn
    exact ⟨_, hseen, rfl⟩

/-- `¬c.RefersTo key target` for a declaration on a view: no table has the name of a view, in
whatever case. -/
theorem not_refersTo_of_hasView (hapart : c.NamesApartIgnoringCase) {key : ForeignKeyRecord}
    {view : String} {sql : Option String} (hview : c.HasView view sql)
    (hkey : Text.sameIgnoringCase view key.target = true) (target : String) :
    ¬c.RefersTo key target := by
  rintro ⟨htable, htarget⟩
  obtain ⟨sql', hmem⟩ := Catalog.hasTable_iff.1 htable
  -- both have the folded name of the declaration
  have hfold : Text.foldCase target = Text.foldCase view :=
    (Text.sameIgnoringCase_iff.1 htarget).trans (Text.sameIgnoringCase_iff.1 hkey).symm
  have hsame := List.inj_on_of_nodup_map hapart hmem (Catalog.hasView_iff.1 hview) hfold
  cases hsame

/-- **The foreign keys of a SQLite snapshot.** Take a catalog that can be loaded, in which no two
tables or views have the same name but for the case of its letters, and a reader that is given what
is loaded and asks about the schema that is read. A run fails for a reference exactly if a foreign
key declared on a table of the user's refers to no table, or one declared on an excluded table
refers to a table of the user's. In particular it fails if a table of the user's refers to a view.
If a snapshot is taken, its foreign keys are those that tables of the user's declare on tables of
the user's. They have no name, and it is not known when they are checked. The column referred to is
the one that is written, or else the one at the same place in the primary key, or else the row
identifier. -/
theorem foreignKeys_of_catalog {m : Metadata} (hm : (load c options).outcome = .ok m)
    (hr : r.source = m.source) (hapart : c.NamesApartIgnoringCase)
    (hscope : Metadata.inScope r.scope = true) :
    ((∃ e, r.read.outcome = .error e ∧ e.kind = .referentialIntegrity) ↔
      ∃ table key, c.Declares table key ∧
        (options.excludes table = false ∧ (∀ target, ¬c.RefersTo key target) ∨
          options.excludes table = true ∧
            ∃ target, c.RefersTo key target ∧ options.excludes target = false)) ∧
    (∀ table key view sql, c.Declares table key → options.excludes table = false →
      c.HasView view sql → Text.sameIgnoringCase view key.target = true →
        ∃ e, r.read.outcome = .error e ∧ e.kind = .referentialIntegrity) ∧
    ∀ s, r.read.outcome = .ok s → ∀ key,
      key ∈ s.foreignKeys ↔ ∃ table declared target column, c.Declares table declared ∧
        options.excludes table = false ∧ c.RefersTo declared target ∧
        options.excludes target = false ∧ c.TargetColumn declared target column ∧
        key =
          { name := none
            referencedTable := target
            referencedColumn := column
            table := table
            column := declared.column
            deferrability := none } := by
  obtain ⟨-, rfl⟩ := load_eq_ok_iff.1 hm
  have hfails := referentialIntegrity_iff hr hapart.namesApart hscope
  refine ⟨hfails, ?_, fun s hs => mem_foreignKeys_of_read hr hapart hscope hs⟩
  intro table key view sql hk hlive hview hsame
  exact hfails.2 ⟨table, key, hk, .inl ⟨hlive, not_refersTo_of_hasView hapart hview hsame⟩⟩

/-- A clinic. Visits refer to patients, whose primary key has two columns: by the second of them
where no column is written, to a doctor by name, and to the bookkeeping table. -/
def clinic : Catalog where
  objects := .ok
    [⟨"table", "visits", none⟩, ⟨"table", "Patients", none⟩, ⟨"table", "doctors", none⟩,
      ⟨"table", "DATABASECHANGELOG", none⟩]
  tableInfo name :=
    if name = "Patients" then
      .ok [⟨0, "number", "INTEGER", 1, none, 2⟩, ⟨1, "ward", "INTEGER", 1, none, 1⟩]
    else .ok [⟨0, "name", "TEXT", 0, none, 0⟩]
  indexList _ := .ok []
  indexInfo _ := .ok []
  foreignKeyList name :=
    if name = "visits" then
      .ok [⟨0, 1, "patients", "patient", none⟩, ⟨1, 0, "doctors", "doctor", some "name"⟩,
        ⟨2, 0, "databasechangelog", "author", none⟩]
    else .ok []

theorem foreignKeys_of_catalog_clinic :
    ∃ s, (readerOf clinic).read.outcome = .ok s ∧
      ⟨none, "Patients", "number", "visits", "patient", none⟩ ∈ s.foreignKeys ∧
      ⟨none, "doctors", "name", "visits", "doctor", none⟩ ∈ s.foreignKeys ∧
      ∀ key ∈ s.foreignKeys, key.referencedTable ≠ "DATABASECHANGELOG" := by
  have hm : (load clinic {}).outcome = .ok (clinic.metadata {}) := rfl
  obtain ⟨s, hs⟩ : ∃ s, (readerOf clinic).read.outcome = .ok s := ⟨_, rfl⟩
  obtain ⟨-, -, hkeys⟩ := foreignKeys_of_catalog (r := readerOf clinic) hm rfl (by decide) rfl
  have hvisits : clinic.HasTable "visits" := ⟨_, none, rfl, by decide⟩
  have hpatients : clinic.HasTable "Patients" := ⟨_, none, rfl, by decide⟩
  have hdoctors : clinic.HasTable "doctors" := ⟨_, none, rfl, by decide⟩
  refine ⟨s, hs, (hkeys s hs _).2 ?_, (hkeys s hs _).2 ?_, ?_⟩
  · refine ⟨"visits", ⟨0, 1, "patients", "patient", none⟩, "Patients", "number",
      ⟨hvisits, _, rfl, by decide⟩, by decide, ⟨hpatients, by decide⟩, by decide, .inl ?_, rfl⟩
    exact ⟨_, rfl, ⟨0, "number", "INTEGER", 1, none, 2⟩, by decide, rfl, by decide, by decide⟩
  · exact ⟨"visits", ⟨1, 0, "doctors", "doctor", some "name"⟩, "doctors", "name",
      ⟨hvisits, _, rfl, by decide⟩, by decide, ⟨hdoctors, by decide⟩, by decide, rfl, rfl⟩
  · intro key hkey hreferenced
    obtain ⟨table, declared, target, column, -, -, -, hlive, -, rfl⟩ := (hkeys s hs key).1 hkey
    obtain rfl : target = "DATABASECHANGELOG" := hreferenced
    revert hlive
    decide

end SchemaSnapshot.Sqlite

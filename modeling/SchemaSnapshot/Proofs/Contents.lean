import SchemaSnapshot.Proofs.Rearrangement

/-!
# What a run comes to where every call is answered

A source that answers every call leaves a run few ways to end. The tables and views are those that
claim their names, each with the columns that the live rows about it describe
(`Reader.contents_of_reachesForeignKeys`), and a run that fails does so for a reference or for a
position (`Reader.error_of_read`). `Reader.exists_referentialIntegrity_iff` says when it fails for a
reference.
-/

namespace SchemaSnapshot

/-- `source` answers every call. -/
def MetadataSource.AnswersAll (source : MetadataSource) : Prop :=
  ∀ call, ∃ answer, source.answer call = .ok answer

namespace Containers

/-- A warning of `c.columnWarnings` is about a column that comes twice or a row with
`c.owner? row.table = none`. -/
theorem mem_columnWarnings {c : Containers} {earlier rows : List ColumnRow} {w : Warning}
    (h : w ∈ c.columnWarnings earlier rows) :
    (∃ owner column, w = .duplicateColumn owner column) ∨
      ∃ row ∈ rows,
        c.owner? row.table = none ∧ w = .unresolvedColumnOwner row.table row.column := by
  induction rows generalizing earlier with
  | nil => cases h
  | cons row later ih =>
    rcases List.mem_append.1 h with h | h
    · unfold rowWarnings at h
      split at h
      · rename_i hnone
        obtain rfl := List.mem_singleton.1 h
        exact .inr ⟨row, List.mem_cons_self, owner?_eq_none_iff.2 hnone, rfl⟩
      · split at h
        · exact .inl ⟨_, _, List.mem_singleton.1 h⟩
        · cases h
    · refine (ih h).imp_right ?_
      rintro ⟨other, hother, hnone⟩
      exact ⟨other, List.mem_cons_of_mem _ hother, hnone⟩

end Containers

namespace Reader

variable {r : Reader} {objects : List ObjectRow} {columns : List ColumnRow}

/-- Where no name is claimed by both kinds, `r.claim? objects name = some kind` as soon as some row
claims it for that kind. -/
theorem claim?_eq_some_iff (hclaims : r.ClaimsApart objects) {name : String} {kind : ObjectKind} :
    r.claim? objects name = some kind ↔
      ∃ row ∈ objects, r.isClaim row = true ∧ row.name = name ∧ row.kind = kind := by
  constructor
  · exact claim?_eq_some
  · rintro ⟨row, hrow, hclaim, rfl, rfl⟩
    obtain ⟨kind, hkind⟩ := exists_claim? hrow hclaim
    -- both rows claim the name, so they are of one kind
    obtain ⟨other, hother, hclaim', hname, rfl⟩ := claim?_eq_some hkind
    rw [hkind, hclaims other hother row hrow hclaim' hclaim hname]

/-! ### Tables and views -/

/-- The live rows of `columns` about the table or view `name`. -/
def rowsAbout (r : Reader) (columns : List ColumnRow) (name : String) : List ColumnRow :=
  (columns.filter r.isLive).filter (·.table == name)

/-- `c` is what the first two phases find in the rows `objects` and `columns`. -/
structure Contents (r : Reader) (objects : List ObjectRow) (columns : List ColumnRow)
    (c : Containers) : Prop where
  table : ∀ name, c.tables.get? name =
    if r.claim? objects name = some .table then
      some
        { name := name
          columns := r.dialect.columnsOfRows (.table name) (r.rowsAbout columns name) }
    else none
  view : ∀ name, c.views.get? name =
    if r.claim? objects name = some .view then
      (r.source.answer (.viewDefinition name)).toOption.map fun definition =>
        { name := name
          definition := definition
          columns := r.dialect.columnsOfRows (.view name) (r.rowsAbout columns name) }
    else none

theorem Contents.contains_table {c : Containers} (h : r.Contents objects columns c)
    {name : String} : c.tables.contains name = true ↔ r.claim? objects name = some .table := by
  rw [OrderedMap.contains, h.table]
  split <;> simp_all

theorem Contents.mem_keys {c : Containers} (h : r.Contents objects columns c) {name : String} :
    name ∈ c.tables.keys ↔ r.claim? objects name = some .table := by
  rw [OrderedMap.mem_keys_iff, h.contains_table]

theorem Contents.claim?_of_view {c : Containers} (h : r.Contents objects columns c) {name : String}
    (hview : c.views.contains name = true) : r.claim? objects name = some .view := by
  rw [OrderedMap.contains, h.view] at hview
  by_contra hclaim
  simp [hclaim] at hview

/-- A claimed name is that of a table or of a view of `c`, if `r.source.AnswersAll`. -/
theorem Contents.contains_of_claim? {c : Containers} (h : r.Contents objects columns c)
    (hall : r.source.AnswersAll) {name : String} {kind : ObjectKind}
    (hclaim : r.claim? objects name = some kind) :
    c.tables.contains name = true ∨ c.views.contains name = true := by
  rcases kind_of_claim? hclaim with rfl | rfl
  · exact .inl (h.contains_table.2 hclaim)
  · -- a view is only there if its query is known
    obtain ⟨definition, hdefinition⟩ := hall (.viewDefinition name)
    right
    rw [OrderedMap.contains, h.view, if_pos hclaim, hdefinition]
    rfl

theorem contents_columnsAdded {listed : Inventory} (h : r.Claimed objects listed)
    (hempty : ∀ owner, listed.containers.columnsOf owner = []) :
    r.Contents objects columns (r.columnsAdded listed columns).containers := by
  have hshape := Containers.columnsApart_addRows r.dialect listed.containers
    (columns.filter r.isLive)
  constructor
  · intro name
    show (listed.containers.addRows r.dialect (columns.filter r.isLive)).1.tables.get? name = _
    rw [hshape.tables, h.table]
    split
    · rename_i htable
      have howner := Containers.owner?_of_table ((h.contains_table name).2 htable)
      rw [Containers.columnsOf_addRows_of_owner? _ howner (hempty _)]
      rfl
    · rfl
  · intro name
    show (listed.containers.addRows r.dialect (columns.filter r.isLive)).1.views.get? name = _
    rw [hshape.views, h.view]
    split
    · rename_i hview
      -- The name goes to the view, so no table has it.
      have htable : listed.containers.tables.contains name = false := by
        rw [← Bool.not_eq_true, h.contains_table, hview]
        simp
      have howner := Containers.owner?_of_view htable ((h.contains_view name).2 hview)
      rw [Containers.columnsOf_addRows_of_owner? _ howner (hempty _), Option.map_map]
      rfl
    · rfl

/-- Where the calls of the first two phases are answered with `objects` and `columns`, these are the
rows to go through. -/
theorem found_of_answers (hobjects : r.source.answer (.objects r.scope) = .ok objects)
    (hcolumns : r.source.answer (.columns r.scope) = .ok columns) {listed found : Inventory}
    (hlisted : r.readContainers.outcome = .ok listed)
    (hfound : (r.readColumns listed).outcome = .ok found) :
    (objects.foldlM r.addObject {}).outcome = .ok listed ∧
      found = r.columnsAdded listed columns := by
  obtain ⟨objects', hobjects', hsteps⟩ := readContainers_eq_ok_iff.1 hlisted
  obtain ⟨columns', hcolumns', rfl⟩ := readColumns_eq_ok_iff.1 hfound
  obtain rfl := Except.ok.inj (hobjects.symm.trans hobjects')
  obtain rfl := Except.ok.inj (hcolumns.symm.trans hcolumns')
  exact ⟨hsteps, rfl⟩

theorem contents_of_reachesForeignKeys (hobjects : r.source.answer (.objects r.scope) = .ok objects)
    (hcolumns : r.source.answer (.columns r.scope) = .ok columns) {c : Containers}
    (h : r.ReachesForeignKeys c) : r.Contents objects columns c := by
  obtain ⟨listed, found, hlisted, hfound, rfl⟩ := h
  obtain ⟨hsteps, rfl⟩ := found_of_answers hobjects hcolumns hlisted hfound
  exact contents_columnsAdded (claimed_of_objects hsteps) (Containers.columnsOf_of_objects hsteps)

/-- A snapshot `s` is taken of the tables and views with which the run comes to the third phase,
`⟨s.tables, s.views⟩`. -/
theorem reachesForeignKeys_of_read {s : Snapshot} (hs : r.read.outcome = .ok s) :
    r.ReachesForeignKeys ⟨s.tables, s.views⟩ := by
  obtain ⟨listed, found, hlisted, hfound, _, _, _, _, -, -, -, -, rfl⟩ := read_eq_ok_iff.1 hs
  exact ⟨listed, found, hlisted, hfound, rfl⟩

theorem contents_of_read (hobjects : r.source.answer (.objects r.scope) = .ok objects)
    (hcolumns : r.source.answer (.columns r.scope) = .ok columns) {s : Snapshot}
    (hs : r.read.outcome = .ok s) : r.Contents objects columns ⟨s.tables, s.views⟩ :=
  contents_of_reachesForeignKeys hobjects hcolumns (reachesForeignKeys_of_read hs)

/-- A warning of a snapshot is one of `r.claimWarnings`, or about a column that comes twice, or
about a live row whose table or view nobody claims. -/
theorem warning_of_read (hobjects : r.source.answer (.objects r.scope) = .ok objects)
    (hcolumns : r.source.answer (.columns r.scope) = .ok columns) {s : Snapshot}
    (hs : r.read.outcome = .ok s) {w : Warning} (hw : w ∈ s.warnings) :
    w ∈ r.claimWarnings objects ∨ (∃ owner column, w = .duplicateColumn owner column) ∨
      ∃ row ∈ columns, r.isLive row = true ∧ r.claim? objects row.table = none := by
  obtain ⟨listed, found, hlisted, hfound, _, _, _, _, -, -, -, -, rfl⟩ := read_eq_ok_iff.1 hs
  obtain ⟨hsteps, rfl⟩ := found_of_answers hobjects hcolumns hlisted hfound
  have hclaimed := claimed_of_objects hsteps
  have hwarnings := Containers.warnings_addRows r.dialect
    (Containers.columnsOf_of_objects hsteps) [] (columns.filter r.isLive)
  rcases List.mem_append.1 hw with hw | hw
  · exact .inl (hclaimed.warnings ▸ hw)
  · rcases Containers.mem_columnWarnings (hwarnings ▸ hw) with hw | ⟨row, hrow, hnone, -⟩
    · exact .inr (.inl hw)
    · refine .inr (.inr ⟨row, (List.mem_filter.1 hrow).1, (List.mem_filter.1 hrow).2, ?_⟩)
      -- A first claim would have made a table or a view.
      rw [Containers.owner?_eq_none_iff] at hnone
      rw [Option.eq_none_iff_forall_ne_some]
      intro kind hkind
      rcases kind_of_claim? hkind with rfl | rfl
      · simp [(hclaimed.contains_table _).2 hkind] at hnone
      · simp [(hclaimed.contains_view _).2 hkind] at hnone

/-! ### Places in primary keys -/

/-- Once the primary keys have been read, `row = other` for two rows of one answer about the same
table with the same `position`. -/
theorem eq_of_position_of_readPrimaryKeys {c : Containers} {keys : OrderedSet PrimaryKey}
    (h : (r.readPrimaryKeys c).outcome = .ok keys) {table : String} (htable : table ∈ c.tables.keys)
    {rows : List PrimaryKeyRow}
    (hrows : r.source.answer (.primaryKeys r.scope table) = .ok rows) {row other : PrimaryKeyRow}
    (hrow : row ∈ rows) (hother : other ∈ rows) (hsame : row.table = other.table)
    (hposition : row.position = other.position) : row = other := by
  choose! answers hanswers using fun table (htable : table ∈ c.tables.keys) =>
    answered_of_readPrimaryKeys h htable
  obtain rfl := Except.ok.inj ((hanswers table htable).symm.trans hrows)
  have hmem {row : PrimaryKeyRow} (hrow : row ∈ answers table) :
      row ∈ c.tables.keys.flatMap answers :=
    List.mem_flatMap.2 ⟨table, htable, hrow⟩
  -- the positions of the rows that name one table are without repetition
  have hwell := (exists_readPrimaryKeys_iff hanswers).1 ⟨keys, h⟩ row.table
    (List.mem_map_of_mem (hmem hrow))
  exact List.inj_on_of_nodup_map hwell.nodup
    (List.mem_filter.2 ⟨hmem hrow, by simp⟩) (List.mem_filter.2 ⟨hmem hother, by simp [hsame]⟩)
    (congrArg Int32.toInt hposition)

/-! ### How a run fails -/

/-- The first two phases succeed if `r.source.AnswersAll`. -/
theorem exists_reachesForeignKeys_of_answersAll (hall : r.source.AnswersAll) :
    ∃ c, r.ReachesForeignKeys c := by
  obtain ⟨objects, hobjects⟩ := hall (.objects r.scope)
  obtain ⟨columns, hcolumns⟩ := hall (.columns r.scope)
  obtain ⟨listed, hlisted⟩ := exists_objects_iff.2 fun name
    (_ : r.claim? objects name = some .view) => hall (.viewDefinition name)
  exact ⟨_, listed, _, readContainers_eq_ok_iff.2 ⟨objects, hobjects, hlisted⟩,
    readColumns_eq_ok_iff.2 ⟨columns, hcolumns, rfl⟩, rfl⟩

theorem kind_of_readIndexes (hall : r.source.AnswersAll) {c : Containers}
    {keys : OrderedSet PrimaryKey} {e : ReadError}
    (h : (r.readIndexes c keys).outcome = .error e) : e.kind = .invalidColumnPosition := by
  rw [outcome_readIndexes] at h
  obtain ⟨table, -, htable⟩ := Except.error_of_mapM (Except.bind_pure_eq_error_iff.1 h)
  obtain ⟨rows, hrows⟩ := hall (.indexInfo r.scope table)
  rw [outcome_readIndexesOf_of_answer hrows] at htable
  exact PartialIndexes.kind_of_ofParts htable

theorem exists_readSequences (hall : r.source.AnswersAll) :
    ∃ sequences, r.readSequences.outcome = .ok sequences := by
  obtain ⟨names, hnames⟩ := hall .sequenceNames
  rw [outcome_readSequences, hnames]
  split
  · exact ⟨_, rfl⟩
  · exact ⟨_, rfl⟩

/-- `∃ s, r.read.outcome = .ok s` for a run that gets past the fifth phase, if
`r.source.AnswersAll`. -/
theorem ReachesIndexes.exists_read (hall : r.source.AnswersAll) {c : Containers}
    {keys : OrderedSet PrimaryKey} {indexes : OrderedSet Index} (h : r.ReachesIndexes c keys)
    (hindexes : (r.readIndexes c keys).outcome = .ok indexes) : ∃ s, r.read.outcome = .ok s := by
  obtain ⟨listed, found, fks, hlisted, hfound, rfl, hfks, hkeys⟩ := h
  obtain ⟨sequences, hsequences⟩ := exists_readSequences hall
  exact ⟨_, read_eq_ok_iff.2 ⟨listed, found, hlisted, hfound, fks, keys, indexes, sequences, hfks,
    hkeys, hindexes, hsequences, rfl⟩⟩

/-- `e.kind = .referentialIntegrity` if the third phase fails with `e`, while
`r.source.AnswersAll`. -/
theorem kind_of_readForeignKeys (hall : r.source.AnswersAll) {c : Containers} {e : ReadError}
    (h : (r.readForeignKeys c).outcome = .error e) : e.kind = .referentialIntegrity := by
  rw [outcome_readForeignKeys] at h
  obtain ⟨keys, table, -, htable⟩ := Except.error_of_foldlM h
  obtain ⟨rows, hrows⟩ := hall (.foreignKeysTo r.scope table)
  rw [outcome_addForeignKeysTo, hrows] at htable
  exact Containers.kind_of_foldlM_addForeignKey htable

/-- `e.kind = .invalidColumnPosition` if the run fails with `e` after the third phase, while
`r.source.AnswersAll`. -/
theorem kind_of_later (hall : r.source.AnswersAll) {c : Containers} {e : ReadError}
    (hreaches : r.ReachesPrimaryKeys c) (h : r.read.outcome = .error e) :
    e.kind = .invalidColumnPosition := by
  choose answers hanswers using fun table => hall (.primaryKeys r.scope table)
  -- the phases from the fourth on, each of which could be the one that fails
  rcases Except.ok_or_error (r.readPrimaryKeys c).outcome with ⟨keys, hkeys⟩ | ⟨e', he'⟩
  · obtain ⟨⟨listed, found, hlisted, hfound, hc⟩, fks, hfks⟩ := hreaches
    have hreaches : r.ReachesIndexes c keys :=
      ⟨listed, found, fks, hlisted, hfound, hc, hfks, hkeys⟩
    rcases Except.ok_or_error (r.readIndexes c keys).outcome with ⟨indexes, hindexes⟩ | ⟨e', he'⟩
    · obtain ⟨s, hs⟩ := hreaches.exists_read hall hindexes
      rw [hs] at h
      cases h
    · obtain rfl := Except.error.inj ((hreaches.error he').symm.trans h)
      exact kind_of_readIndexes hall he'
  · obtain rfl := Except.error.inj ((hreaches.error he').symm.trans h)
    exact kind_of_readPrimaryKeys (fun table _ => hanswers table) he'

/-- **A run that fails** comes to the third phase. It fails there for a reference, or later for a
position. -/
theorem error_of_read (hall : r.source.AnswersAll) {e : ReadError}
    (h : r.read.outcome = .error e) :
    ∃ c, r.ReachesForeignKeys c ∧
      (e.kind = .referentialIntegrity ∧ (r.readForeignKeys c).outcome = .error e ∨
        e.kind = .invalidColumnPosition ∧ ∃ keys, (r.readForeignKeys c).outcome = .ok keys) := by
  obtain ⟨c, hreaches⟩ := exists_reachesForeignKeys_of_answersAll hall
  refine ⟨c, hreaches, ?_⟩
  rcases Except.ok_or_error (r.readForeignKeys c).outcome with ⟨fks, hfks⟩ | ⟨e', he'⟩
  · refine .inr ⟨kind_of_later hall ⟨hreaches, fks, hfks⟩ h, fks, hfks⟩
  · obtain rfl := Except.error.inj ((hreaches.error he').symm.trans h)
    exact .inl ⟨kind_of_readForeignKeys hall he', he'⟩

/-- `.ok row` is among `r.foreignKeyVisits tables` if the answer about one of these tables has
`row`. -/
theorem mem_foreignKeyVisits {tables : List String} {row : ForeignKeyRow} :
    .ok row ∈ r.foreignKeyVisits tables ↔
      ∃ table ∈ tables, ∃ rows, r.source.answer (.foreignKeysTo r.scope table) = .ok rows ∧
        row ∈ rows := by
  simp only [foreignKeyVisits, List.mem_flatMap]
  refine exists_congr fun table => and_congr_right fun _ => ?_
  cases r.source.answer (.foreignKeysTo r.scope table) <;> simp

/-- **A run fails for a reference** exactly if, of the rows that it comes upon in the third phase,
one does not join two tables. -/
theorem exists_referentialIntegrity_iff (hall : r.source.AnswersAll) :
    (∃ e, r.read.outcome = .error e ∧ e.kind = .referentialIntegrity) ↔
      ∃ c, r.ReachesForeignKeys c ∧ ∃ table ∈ c.tables.keys, ∃ rows,
        r.source.answer (.foreignKeysTo r.scope table) = .ok rows ∧
          ∃ row ∈ rows, c.joinsTables row = false := by
  constructor
  · rintro ⟨e, he, hkind⟩
    -- an error for a position is not one for a reference
    obtain ⟨c, hreaches, ⟨-, hfails⟩ | ⟨hkind', -⟩⟩ := error_of_read hall he
    · refine ⟨c, hreaches, ?_⟩
      obtain ⟨seen, hseen, hobstacle⟩ :=
        List.exists_of_findSome?_eq_some (readForeignKeys_eq_error_iff.1 hfails)
      cases seen with
      -- the call itself would have to have failed
      | error cause =>
        obtain rfl := Option.some.inj hobstacle
        cases hkind
      | ok row =>
        obtain ⟨table, htable, rows, hrows, hrow⟩ := mem_foreignKeyVisits.1 hseen
        refine ⟨table, htable, rows, hrows, row, hrow, ?_⟩
        rw [← Bool.not_eq_true, ← Containers.obstacle?_ok_eq_none_iff, hobstacle]
        simp
    · rw [hkind] at hkind'
      cases hkind'
  · rintro ⟨c, hreaches, table, htable, rows, hrows, row, hrow, hjoins⟩
    -- This row is in the way, if no earlier one is.
    have hseen := mem_foreignKeyVisits.2 ⟨table, htable, rows, hrows, hrow⟩
    have hsome : ((r.foreignKeyVisits c.tables.keys).findSome? c.obstacle?).isSome = true := by
      rw [List.findSome?_isSome_iff]
      refine ⟨_, hseen, ?_⟩
      rw [Option.isSome_iff_ne_none, ne_eq, Containers.obstacle?_ok_eq_none_iff, hjoins]
      simp
    obtain ⟨e, he⟩ := Option.isSome_iff_exists.1 hsome
    have hfails := readForeignKeys_eq_error_iff.2 he
    exact ⟨e, hreaches.error hfails, kind_of_readForeignKeys hall hfails⟩

end Reader

end SchemaSnapshot

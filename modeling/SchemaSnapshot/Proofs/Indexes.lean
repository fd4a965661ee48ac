import SchemaSnapshot.Proofs.Grouping
import SchemaSnapshot.Proofs.Positions
import SchemaSnapshot.Source

/-!
# What the index rows amount to

The fifth phase puts the rows of each answer together by the name of the index. Here its result is
said without going through the rows: those rows that describe a column of an index
(`IndexRow.part?`) fall into groups by name, a group whose positions are 1, 2, … in some order
(`WellPlaced`) is the index `Index.ofParts`, and an answer can be read exactly if all its groups are
of that sort (`PartialIndexes.exists_ofParts_iff`). The phase keeps an index exactly if it does not
back a primary key.
-/

namespace SchemaSnapshot

/-! ### The rows that count -/

/-- A column of an index, as a row describes it. -/
structure IndexPart where
  table : String
  /-- The name of the index. -/
  name : String
  column : String
  position : Int
deriving DecidableEq, Inhabited

/-- The column of an index that `row` describes, `none` if the row is about statistics or does not
name both the index and the column. -/
def IndexRow.part? (row : IndexRow) : Option IndexPart :=
  if row.typeCode = statisticCode then
    none
  else
    match row.indexName, row.column with
    | some name, some column =>
      some { table := row.table, name := name, column := column, position := row.position.toInt }
    | _, _ => none

/-- The columns of indexes that `rows` describe, in the order of the rows. -/
def indexParts (rows : List IndexRow) : List IndexPart :=
  rows.filterMap IndexRow.part?

/-- The columns of the index `name`. -/
def partsNamed (name : String) (parts : List IndexPart) : List IndexPart :=
  parts.filter (·.name = name)

/-- `first ∈ parts` and `first.name = name` for the first column of `partsNamed name parts`. -/
theorem first_of_partsNamed {name : String} {parts rest : List IndexPart} {first : IndexPart}
    (h : partsNamed name parts = first :: rest) : first ∈ parts ∧ first.name = name := by
  have hmem : first ∈ partsNamed name parts := by
    rw [h]
    exact List.mem_cons_self
  simpa using List.mem_filter.1 hmem

/-- The positions of `parts`, in their order. -/
def places (parts : List IndexPart) : List Int :=
  parts.map (·.position)

/-- The index that a group of columns makes. `table` and `name` are those of the first, the columns
come in the order of their positions. -/
def Index.ofParts (first : IndexPart) (rest : List IndexPart) : Index where
  table := first.table
  name := first.name
  columns := (orderedBy (·.position) (first :: rest)).map (·.column)

/-! ### One index -/

/-- Takes `part` into account, given what has come in of its index. -/
def PartialIndex.grow (held : Option PartialIndex) (part : IndexPart) :
    Except ReadError PartialIndex := do
  let index := held.getD { table := part.table }
  let columns ← (index.columns.place part.position part.column).mapError
    (PositionFault.toError (Index.title part.table part.name))
  return { index with columns := columns }

namespace PartialIndex

theorem grow_eq_ok_iff {held : Option PartialIndex} {part : IndexPart} {after : PartialIndex} :
    grow held part = .ok after ↔
      ∃ columns, (held.getD { table := part.table }).columns.place part.position part.column =
          .ok columns ∧
        after = { held.getD { table := part.table } with columns := columns } := by
  simp only [grow, Except.bind_eq_ok_iff, Except.mapError_eq_ok_iff, Except.pure_eq_ok_iff,
    eq_comm (b := after)]

theorem kind_of_grow {held : Option PartialIndex} {part : IndexPart} {e : ReadError}
    (h : grow held part = .error e) : e.kind = .invalidColumnPosition := by
  unfold grow at h
  exact PositionFault.kind_of_mapError (Except.bind_pure_eq_error_iff.1 h)

/-- Growing an index by `parts` places their columns one after another, `placeAll`, and the table
stays. -/
theorem foldlM_grow_eq_ok_iff {parts : List IndexPart} {index : PartialIndex}
    {after : Option PartialIndex} :
    parts.foldlM (OrderedMap.growOne grow) (some index) = .ok after ↔
      ∃ columns, index.columns.placeAll (parts.map fun part => (part.position, part.column)) =
          .ok columns ∧ after = some { index with columns := columns } := by
  induction parts generalizing index with
  | nil =>
    show pure (some index) = _ ↔ ∃ columns, pure index.columns = _ ∧ _
    simp only [Except.pure_eq_ok_iff, exists_eq_left', eq_comm (b := after)]
  | cons part rest ih =>
    rw [List.foldlM_cons, Except.bind_eq_ok_iff]
    show _ ↔ ∃ columns, (index.columns.place part.position part.column >>= fun next =>
      next.placeAll (rest.map fun part => (part.position, part.column))) = .ok columns ∧ _
    simp only [OrderedMap.growOne_eq_ok_iff, grow_eq_ok_iff, Option.getD_some,
      Except.bind_eq_ok_iff]
    constructor
    · -- the first column is in, and by the hypothesis the others go on from there
      rintro ⟨-, ⟨-, ⟨next, hnext, rfl⟩, rfl⟩, hrest⟩
      obtain ⟨columns, hcolumns, rfl⟩ := ih.1 hrest
      exact ⟨columns, ⟨next, hnext, hcolumns⟩, rfl⟩
    · rintro ⟨columns, ⟨next, hnext, hcolumns⟩, rfl⟩
      have hrest : rest.foldlM (OrderedMap.growOne grow) (some { index with columns := next }) =
          .ok _ := ih.2 ⟨columns, hcolumns, rfl⟩
      exact ⟨_, ⟨_, ⟨next, hnext, rfl⟩, rfl⟩, hrest⟩

theorem finish_eq_ok_iff {name : String} {index : PartialIndex} {finished : Index} :
    index.finish name = .ok finished ↔
      ∃ columns, index.columns.finish = .ok columns ∧
        finished = { table := index.table, name := name, columns := columns } := by
  simp only [finish, Except.bind_eq_ok_iff, Except.mapError_eq_ok_iff, Except.pure_eq_ok_iff,
    eq_comm (b := finished)]

theorem kind_of_finish {name : String} {index : PartialIndex} {e : ReadError}
    (h : index.finish name = .error e) : e.kind = .invalidColumnPosition := by
  unfold finish at h
  exact PositionFault.kind_of_mapError (Except.bind_pure_eq_error_iff.1 h)

theorem foldlM_grow_none {first : IndexPart} {rest : List IndexPart} :
    (first :: rest).foldlM (OrderedMap.growOne grow) none =
      (first :: rest).foldlM (OrderedMap.growOne grow) (some { table := first.table }) := rfl

/-- A group of columns becomes an index exactly if it is well placed, and then it is
`Index.ofParts first rest`. -/
theorem amountTo_iff {first : IndexPart} {rest : List IndexPart} {finished : Index} :
    OrderedMap.AmountTo grow finish first.name (first :: rest) finished ↔
      WellPlaced (places (first :: rest)) ∧ finished = .ofParts first rest := by
  unfold OrderedMap.AmountTo
  simp only [foldlM_grow_none, foldlM_grow_eq_ok_iff, finish_eq_ok_iff, Option.some.injEq]
  constructor
  · rintro ⟨-, ⟨slots, hslots, rfl⟩, columns, hcolumns, rfl⟩
    obtain ⟨hwell, rfl⟩ := (Slots.finish_of_placeAll_map _ _).1 ⟨slots, hslots, hcolumns⟩
    exact ⟨hwell, rfl⟩
  · rintro ⟨hwell, rfl⟩
    obtain ⟨slots, hslots, hcolumns⟩ :=
      (Slots.finish_of_placeAll_map _ IndexPart.column).2 ⟨hwell, rfl⟩
    exact ⟨_, ⟨slots, hslots, rfl⟩, _, hcolumns, rfl⟩

/-- The columns named `name` amount to an index exactly if there are any and their `places` are
`WellPlaced`. -/
theorem amountTo_partsNamed_iff {name : String} {parts : List IndexPart} {finished : Index} :
    OrderedMap.AmountTo grow finish name (partsNamed name parts) finished ↔
      ∃ first rest, partsNamed name parts = first :: rest ∧ WellPlaced (places (first :: rest)) ∧
        finished = .ofParts first rest := by
  -- without columns nothing is held, so nothing is finished
  cases hparts : partsNamed name parts with
  | nil =>
    constructor
    · rintro ⟨held, hheld, -⟩
      cases hheld
    · rintro ⟨first, rest, hcons, -⟩
      cases hcons
  | cons first rest =>
    obtain ⟨-, rfl⟩ := first_of_partsNamed hparts
    rw [amountTo_iff]
    constructor
    · rintro ⟨hwell, rfl⟩
      exact ⟨first, rest, rfl, hwell, rfl⟩
    · rintro ⟨_, _, hcons, hwell, rfl⟩
      obtain ⟨rfl, rfl⟩ := List.cons.inj hcons
      exact ⟨hwell, rfl⟩

end PartialIndex

/-! ### The indexes of one answer -/

namespace PartialIndexes

theorem place_eq_growAt (indexes : PartialIndexes) (part : IndexPart) :
    indexes.place part.table part.name part.column part.position =
      OrderedMap.growAt (·.name) PartialIndex.grow indexes part := by
  simp only [place, OrderedMap.growAt, PartialIndex.grow, bind_assoc, pure_bind]

theorem outcome_addRow (indexes : PartialIndexes) (row : IndexRow) :
    (indexes.addRow row).outcome =
      row.part?.elim (.ok indexes) (OrderedMap.growAt (·.name) PartialIndex.grow indexes) := by
  unfold addRow IndexRow.part?
  split
  · rfl
  · cases row.indexName with
    | none => rfl
    | some name =>
      cases row.column with
      | none => rfl
      | some column => exact place_eq_growAt indexes ⟨row.table, name, column, row.position.toInt⟩

/-- Of `rows` only those count that describe a column of an index. -/
theorem outcome_addRows (indexes : PartialIndexes) (rows : List IndexRow) :
    (rows.foldlM addRow indexes).outcome =
      (indexParts rows).foldlM (OrderedMap.growAt (·.name) PartialIndex.grow) indexes := by
  rw [Traced.outcome_foldlM]
  induction rows generalizing indexes with
  | nil => rfl
  | cons row rest ih =>
    rw [List.foldlM_cons, outcome_addRow, indexParts]
    cases hpart : row.part? with
    | none =>
      rw [List.filterMap_cons_none hpart]
      exact ih indexes
    | some part =>
      rw [List.filterMap_cons_some hpart, List.foldlM_cons]
      exact congrArg _ (funext ih)

/-- The indexes of one answer: `parts` are put together by name and then finished. -/
def ofParts (parts : List IndexPart) : Except ReadError (List Index) := do
  let indexes ← parts.foldlM (OrderedMap.growAt (·.name) PartialIndex.grow) ∅
  finish indexes

theorem ofParts_eq_gather (parts : List IndexPart) :
    ofParts parts = OrderedMap.gather (·.name) PartialIndex.grow PartialIndex.finish parts := rfl

theorem kind_of_ofParts {parts : List IndexPart} {e : ReadError} (h : ofParts parts = .error e) :
    e.kind = .invalidColumnPosition := by
  rw [ofParts_eq_gather] at h
  rcases OrderedMap.error_of_gather h with ⟨held, part, hpart⟩ | ⟨name, held, hheld⟩
  · exact PartialIndex.kind_of_grow hpart
  · exact PartialIndex.kind_of_finish hheld

/-- `ofParts parts` succeeds exactly if the columns of every one name are `WellPlaced`. -/
theorem exists_ofParts_iff {parts : List IndexPart} :
    (∃ finished, ofParts parts = .ok finished) ↔
      ∀ name, WellPlaced (places (partsNamed name parts)) := by
  simp only [ofParts_eq_gather, OrderedMap.exists_gather_iff]
  constructor
  · intro h name
    cases hparts : partsNamed name parts with
    | nil => exact .refl _
    | cons first rest =>
      -- the group is not empty, so its name is among those of the columns
      have hname : name ∈ parts.map (·.name) := by
        obtain ⟨hmem, rfl⟩ := first_of_partsNamed hparts
        exact List.mem_map_of_mem hmem
      obtain ⟨index, hindex⟩ := h name hname
      obtain ⟨_, _, hcons, hwell, -⟩ := PartialIndex.amountTo_partsNamed_iff.1 hindex
      rwa [← hparts, hcons]
  · intro hwell name hname
    obtain ⟨first, rest, hparts⟩ :=
      List.exists_cons_of_ne_nil (OrderedMap.group_ne_nil_iff.2 hname)
    have hfirst := hwell name
    rw [partsNamed, hparts] at hfirst
    exact ⟨_, PartialIndex.amountTo_partsNamed_iff.2 ⟨first, rest, hparts, hfirst, rfl⟩⟩

/-- `index` is among what `ofParts parts` gives exactly if it is made of the columns of its name. -/
theorem mem_ofParts {parts : List IndexPart} {finished : List Index}
    (h : ofParts parts = .ok finished) (index : Index) :
    index ∈ finished ↔
      ∃ first rest, partsNamed first.name parts = first :: rest ∧ index = .ofParts first rest := by
  have hgather := h
  rw [ofParts_eq_gather] at hgather
  rw [OrderedMap.mem_gather hgather]
  constructor
  · rintro ⟨name, hamount⟩
    obtain ⟨first, rest, hparts, -, rfl⟩ := PartialIndex.amountTo_partsNamed_iff.1 hamount
    obtain ⟨-, rfl⟩ := first_of_partsNamed hparts
    exact ⟨first, rest, hparts, rfl⟩
  · rintro ⟨first, rest, hparts, rfl⟩
    have hwell := exists_ofParts_iff.1 ⟨finished, h⟩ first.name
    rw [hparts] at hwell
    exact ⟨first.name, PartialIndex.amountTo_partsNamed_iff.2 ⟨first, rest, hparts, hwell, rfl⟩⟩

end PartialIndexes

/-! ### The fifth phase -/

/-- `index.backsSome keys` if some key has the columns of `index` and a table whose name differs in
case at most. -/
theorem Index.backsSome_eq_true_iff {keys : OrderedSet PrimaryKey} {index : Index} :
    index.backsSome keys = true ↔
      ∃ key ∈ keys, Text.lowercaseText index.table = Text.lowercaseText key.table ∧
        index.columns = key.columns := by
  simp only [backsSome, List.any_eq_true, backs, Bool.and_eq_true, beq_iff_eq]
  rfl

theorem Index.backsSome_eq_false_iff {keys : OrderedSet PrimaryKey} {index : Index} :
    index.backsSome keys = false ↔
      ¬∃ key ∈ keys, Text.lowercaseText index.table = Text.lowercaseText key.table ∧
        index.columns = key.columns := by
  rw [← backsSome_eq_true_iff, Bool.not_eq_true]

namespace Reader

theorem outcome_readIndexesOf (r : Reader) (table : String) :
    (r.readIndexesOf table).outcome = (do
      let rows ← (r.source.answer (.indexInfo r.scope table)).mapError .connectivity
      PartialIndexes.ofParts (indexParts rows)) := by
  simp only [readIndexesOf, Traced.outcome_bind, outcome_ask, Traced.outcome_ofExcept,
    PartialIndexes.outcome_addRows]
  rfl

theorem outcome_readIndexesOf_of_answer {r : Reader} {table : String} {rows : List IndexRow}
    (h : r.source.answer (.indexInfo r.scope table) = .ok rows) :
    (r.readIndexesOf table).outcome = PartialIndexes.ofParts (indexParts rows) := by
  rw [outcome_readIndexesOf, h]
  rfl

theorem outcome_readIndexes (r : Reader) (c : Containers) (keys : OrderedSet PrimaryKey) :
    (r.readIndexes c keys).outcome = do
      let perTable ← c.tables.keys.mapM fun table => (r.readIndexesOf table).outcome
      return .ofList (perTable.flatten.filter fun index => !index.backsSome keys) := by
  simp only [readIndexes, Traced.outcome_bind, outcome_announce, Traced.outcome_mapM,
    Traced.outcome_emit, Traced.outcome_pure, List.partition_eq_filter_filter]
  rfl

/-- The run comes to the fifth phase with `c` and `keys`. -/
def ReachesIndexes (r : Reader) (c : Containers) (keys : OrderedSet PrimaryKey) : Prop :=
  ∃ listed found foreignKeys, r.readContainers.outcome = .ok listed ∧
    (r.readColumns listed).outcome = .ok found ∧ found.containers = c ∧
    (r.readForeignKeys c).outcome = .ok foreignKeys ∧ (r.readPrimaryKeys c).outcome = .ok keys

theorem ReachesIndexes.reachesPrimaryKeys {r : Reader} {c : Containers}
    {keys : OrderedSet PrimaryKey} (h : r.ReachesIndexes c keys) : r.ReachesPrimaryKeys c := by
  obtain ⟨listed, found, fks, hlisted, hfound, hc, hfks, -⟩ := h
  exact ⟨⟨listed, found, hlisted, hfound, hc⟩, fks, hfks⟩

theorem ReachesIndexes.error {r : Reader} {c : Containers} {keys : OrderedSet PrimaryKey}
    {e : ReadError} (h : r.ReachesIndexes c keys)
    (herror : (r.readIndexes c keys).outcome = .error e) : r.read.outcome = .error e := by
  obtain ⟨listed, found, fks, hlisted, hfound, rfl, hfks, hkeys⟩ := h
  simp [outcome_read, hlisted, hfound, hfks, hkeys, herror, bind, Except.bind]

/-- A run that comes to the fifth phase with `keys` and takes a snapshot `s` has found `s.indexes`
there, and `s.primaryKeys = keys`. -/
theorem ReachesIndexes.of_read {r : Reader} {c : Containers} {keys : OrderedSet PrimaryKey}
    {s : Snapshot} (h : r.ReachesIndexes c keys) (hs : r.read.outcome = .ok s) :
    (r.readIndexes c keys).outcome = .ok s.indexes ∧ s.primaryKeys = keys := by
  obtain ⟨listed, found, fks, hlisted, hfound, rfl, hfks, hkeys⟩ := h
  obtain ⟨_, _, hlisted', hfound', _, _, _, sequences, -, hkeys', hindexes, -, rfl⟩ :=
    read_eq_ok_iff.1 hs
  obtain rfl := Except.ok.inj (hlisted.symm.trans hlisted')
  obtain rfl := Except.ok.inj (hfound.symm.trans hfound')
  obtain rfl := Except.ok.inj (hkeys.symm.trans hkeys')
  exact ⟨hindexes, rfl⟩

section FifthPhase

variable {r : Reader} {c : Containers} {answers : String → List IndexRow}

/-- The indexes of all tables can be put together exactly if the columns of every one name in each
answer are `WellPlaced`. -/
theorem exists_mapM_readIndexesOf_iff
    (hanswers : ∀ table ∈ c.tables.keys,
      r.source.answer (.indexInfo r.scope table) = .ok (answers table)) :
    (∃ perTable, (c.tables.keys.mapM fun table => (r.readIndexesOf table).outcome) =
        .ok perTable) ↔
      ∀ table ∈ c.tables.keys, ∀ name,
        WellPlaced (places (partsNamed name (indexParts (answers table)))) := by
  rw [Except.exists_mapM_iff]
  apply forall₂_congr
  intro table htable
  rw [outcome_readIndexesOf_of_answer (hanswers table htable), PartialIndexes.exists_ofParts_iff]

theorem mem_of_mapM_readIndexesOf
    (hanswers : ∀ table ∈ c.tables.keys,
      r.source.answer (.indexInfo r.scope table) = .ok (answers table))
    {perTable : List (List Index)}
    (h : (c.tables.keys.mapM fun table => (r.readIndexesOf table).outcome) = .ok perTable)
    (index : Index) :
    index ∈ perTable.flatten ↔ ∃ table ∈ c.tables.keys, ∃ first rest,
      partsNamed first.name (indexParts (answers table)) = first :: rest ∧
        index = .ofParts first rest := by
  simp only [List.mem_flatten, Except.mem_of_mapM h]
  constructor
  · rintro ⟨finished, ⟨table, htable, hok⟩, hindex⟩
    rw [outcome_readIndexesOf_of_answer (hanswers table htable)] at hok
    exact ⟨table, htable, (PartialIndexes.mem_ofParts hok index).1 hindex⟩
  · rintro ⟨table, htable, hgroup⟩
    obtain ⟨finished, hok⟩ := Except.exists_mapM_iff.1 ⟨perTable, h⟩ table htable
    refine ⟨finished, ⟨table, htable, hok⟩, ?_⟩
    rw [outcome_readIndexesOf_of_answer (hanswers table htable)] at hok
    exact (PartialIndexes.mem_ofParts hok index).2 hgroup

/-- A fifth phase that succeeds has had rows in answer to every call `.indexInfo`. -/
theorem answered_of_readIndexes {keys : OrderedSet PrimaryKey} {indexes : OrderedSet Index}
    (h : (r.readIndexes c keys).outcome = .ok indexes) {table : String}
    (htable : table ∈ c.tables.keys) :
    ∃ rows, r.source.answer (.indexInfo r.scope table) = .ok rows := by
  rw [outcome_readIndexes, Except.bind_eq_ok_iff] at h
  obtain ⟨perTable, hperTable, -⟩ := h
  obtain ⟨finished, hfinished⟩ := Except.exists_mapM_iff.1 ⟨perTable, hperTable⟩ table htable
  rw [outcome_readIndexesOf, Except.bind_eq_ok_iff] at hfinished
  obtain ⟨rows, hrows, -⟩ := hfinished
  exact ⟨rows, Except.mapError_eq_ok_iff.1 hrows⟩

/-- The fifth phase succeeds exactly if the columns of every one name in each answer are
`WellPlaced`. -/
theorem exists_readIndexes_iff (keys : OrderedSet PrimaryKey)
    (hanswers : ∀ table ∈ c.tables.keys,
      r.source.answer (.indexInfo r.scope table) = .ok (answers table)) :
    (∃ indexes, (r.readIndexes c keys).outcome = .ok indexes) ↔
      ∀ table ∈ c.tables.keys, ∀ name,
        WellPlaced (places (partsNamed name (indexParts (answers table)))) := by
  rw [← exists_mapM_readIndexesOf_iff hanswers, outcome_readIndexes]
  constructor
  · rintro ⟨indexes, hindexes⟩
    obtain ⟨perTable, hperTable, -⟩ := Except.bind_eq_ok_iff.1 hindexes
    exact ⟨perTable, hperTable⟩
  · rintro ⟨perTable, hperTable⟩
    rw [hperTable]
    exact ⟨_, rfl⟩

/-- `index` is found exactly if the columns of its name in some answer make it, and
`index.backsSome keys = false`. -/
theorem mem_of_readIndexes {keys : OrderedSet PrimaryKey}
    (hanswers : ∀ table ∈ c.tables.keys,
      r.source.answer (.indexInfo r.scope table) = .ok (answers table))
    {indexes : OrderedSet Index} (h : (r.readIndexes c keys).outcome = .ok indexes)
    (index : Index) :
    index ∈ indexes ↔
      (∃ table ∈ c.tables.keys, ∃ first rest,
        partsNamed first.name (indexParts (answers table)) = first :: rest ∧
          index = .ofParts first rest) ∧ index.backsSome keys = false := by
  rw [outcome_readIndexes, Except.bind_eq_ok_iff] at h
  obtain ⟨perTable, hperTable, hkept⟩ := h
  obtain rfl := Except.pure_eq_ok_iff.1 hkept
  rw [OrderedSet.mem_ofList, List.mem_filter, mem_of_mapM_readIndexesOf hanswers hperTable,
    Bool.not_eq_true']

/-- **The result of reading the indexes.** If all groups of columns of one name in one answer are
well placed, the phase succeeds, and its indexes are exactly those that the groups make, less those
that have the columns of a primary key on a table whose name differs in case at most. If one group
is not, the phase fails for a column position, and so does the run. -/
theorem readIndexes_result (keys : OrderedSet PrimaryKey)
    (hanswers : ∀ table ∈ c.tables.keys,
      r.source.answer (.indexInfo r.scope table) = .ok (answers table)) :
    ((∀ table ∈ c.tables.keys, ∀ name,
        WellPlaced (places (partsNamed name (indexParts (answers table))))) →
      ∃ indexes, (r.readIndexes c keys).outcome = .ok indexes ∧
        (∀ index, index ∈ indexes ↔
          (∃ table ∈ c.tables.keys, ∃ first rest,
            partsNamed first.name (indexParts (answers table)) = first :: rest ∧
              index = .ofParts first rest) ∧
          ¬∃ key ∈ keys, Text.lowercaseText index.table = Text.lowercaseText key.table ∧
            index.columns = key.columns) ∧
        (r.ReachesIndexes c keys → ∀ s, r.read.outcome = .ok s → s.indexes = indexes)) ∧
    ((∃ table ∈ c.tables.keys, ∃ name,
        ¬WellPlaced (places (partsNamed name (indexParts (answers table))))) →
      ∃ e, e.kind = .invalidColumnPosition ∧ (r.readIndexes c keys).outcome = .error e ∧
        (r.ReachesIndexes c keys → r.read.outcome = .error e)) := by
  have hiff := exists_readIndexes_iff keys hanswers
  constructor
  · intro hwell
    obtain ⟨indexes, hok⟩ := hiff.2 hwell
    refine ⟨indexes, hok, fun index => ?_, fun hreaches s hs => ?_⟩
    · rw [mem_of_readIndexes hanswers hok, Index.backsSome_eq_false_iff]
    · exact Except.ok.inj ((hreaches.of_read hs).1.symm.trans hok)
  · -- One group that is not well placed keeps the phase from succeeding, whichever fails first.
    rintro ⟨table, htable, name, hbad⟩
    have hnone := mt hiff.1 fun hwell => hbad (hwell table htable name)
    obtain ⟨e, herror⟩ := (Except.ok_or_error _).resolve_left hnone
    refine ⟨e, ?_, herror, fun hreaches => hreaches.error herror⟩
    rw [outcome_readIndexes] at herror
    obtain ⟨other, hother, hcause⟩ := Except.error_of_mapM (Except.bind_pure_eq_error_iff.1 herror)
    rw [outcome_readIndexesOf_of_answer (hanswers other hother)] at hcause
    exact PartialIndexes.kind_of_ofParts hcause

/-- Index rows of a library: an index with its columns in reverse, statistics, an index on an
expression, and the index behind the primary key. -/
def libraryIndexRows : List IndexRow :=
  [⟨some "by_title", 3, "books", some "year", 2⟩, ⟨none, 0, "books", none, 0⟩,
    ⟨some "by_length", 3, "books", none, 1⟩, ⟨some "by_title", 3, "books", some "title", 1⟩,
    ⟨some "books_key", 3, "books", some "id", 1⟩]

/-- A library with one table. -/
def library : Reader where
  source := Listing.source
    { objects := [⟨.table, "books", none, none⟩]
      indexes := libraryIndexRows }

/-- Two primary keys beside the library: one of the table of books, its name in capitals, and one of
another table that has the columns of `by_title`. -/
def libraryKeys : OrderedSet PrimaryKey :=
  .ofList [⟨"BOOKS", ["id"], none⟩, ⟨"films", ["title", "year"], none⟩]

theorem readIndexes_result_library :
    ∃ indexes, (library.readIndexes (Inventory.addTable {} "books").containers
        libraryKeys).outcome = .ok indexes ∧
      ⟨"books", "by_title", ["title", "year"]⟩ ∈ indexes ∧
      ⟨"books", "books_key", ["id"]⟩ ∉ indexes := by
  have hanswers : ∀ table ∈ (Inventory.addTable {} "books").containers.tables.keys,
      library.source.answer (.indexInfo library.scope table) = .ok libraryIndexRows := by
    intro table htable
    obtain rfl : table = "books" := List.mem_singleton.1 htable
    rfl
  have hwell : ∀ table ∈ (Inventory.addTable {} "books").containers.tables.keys, ∀ name,
      WellPlaced (places (partsNamed name (indexParts libraryIndexRows))) := by
    intro table _ name
    by_cases htitle : "by_title" = name
    · subst htitle
      decide
    · by_cases hkey : "books_key" = name
      · subst hkey
        decide
      · -- no row has any other name
        have hnone : partsNamed name (indexParts libraryIndexRows) = [] := by
          simp [partsNamed, indexParts, libraryIndexRows, IndexRow.part?, IndexRow.statisticCode,
            htitle, hkey]
        rw [hnone]
        decide
  obtain ⟨indexes, hindexes, hmem, -⟩ := (readIndexes_result libraryKeys hanswers).1 hwell
  refine ⟨indexes, hindexes, (hmem _).2 ⟨⟨"books", List.mem_singleton.2 rfl,
    ⟨"books", "by_title", "year", 2⟩, [⟨"books", "by_title", "title", 1⟩], ?_, ?_⟩, ?_⟩, ?_⟩
  · decide
  · decide
  · -- the key of `books` has another column, and the key of `films` another table
    rintro ⟨key, hkey, hsame, hcolumns⟩
    rcases List.mem_cons.1 (OrderedSet.mem_ofList.1 hkey) with rfl | hkey
    · revert hcolumns
      decide
    · obtain rfl := List.mem_singleton.1 hkey
      revert hsame
      decide
  · intro hin
    refine ((hmem _).1 hin).2 ⟨⟨"BOOKS", ["id"], none⟩, ?_, ?_, rfl⟩
    · exact OrderedSet.mem_ofList.2 List.mem_cons_self
    · decide

end FifthPhase

end Reader

end SchemaSnapshot

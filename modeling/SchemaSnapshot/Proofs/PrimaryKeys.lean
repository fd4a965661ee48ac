import SchemaSnapshot.Proofs.Grouping
import SchemaSnapshot.Proofs.Positions
import SchemaSnapshot.Source

/-!
# What the primary key rows amount to

The fourth phase puts the rows of all answers together by the table that they name. The rows of one
table amount to columns at their positions and to the first name that is reported
(`PartialKey.foldlM_grow_eq_ok_iff`). So their order does not matter as long as no two of them
report different names (`PartialKeys.foldlM_addRow_perm`), and rows whose positions are 1, 2, … in
some order make the key `PrimaryKey.ofRows` (`PartialKey.amountTo_iff`). The phase succeeds exactly
if the rows of every table are of that sort.
-/

namespace SchemaSnapshot

namespace PartialKey

/-- Takes `row` into account, given what has come in of its key. -/
def grow (held : Option PartialKey) (row : PrimaryKeyRow) : Except ReadError PartialKey := do
  let key := held.getD {}
  let columns ← (key.columns.place row.position.toInt row.column).mapError
    (PositionFault.toError (PrimaryKey.title row.table))
  return { name := key.name.or row.constraintName, columns := columns }

theorem grow_eq_ok_iff {held : Option PartialKey} {row : PrimaryKeyRow} {after : PartialKey} :
    grow held row = .ok after ↔
      ∃ columns, (held.getD {}).columns.place row.position.toInt row.column = .ok columns ∧
        after = { name := (held.getD {}).name.or row.constraintName, columns := columns } := by
  simp only [grow, Except.bind_eq_ok_iff, Except.mapError_eq_ok_iff, Except.pure_eq_ok_iff,
    eq_comm (b := after)]

theorem kind_of_grow {held : Option PartialKey} {row : PrimaryKeyRow} {e : ReadError}
    (h : grow held row = .error e) : e.kind = .invalidColumnPosition := by
  unfold grow at h
  exact PositionFault.kind_of_mapError (Except.bind_pure_eq_error_iff.1 h)

/-- The rows of one table place their columns one after another, `placeAll`, and the first name
stays. -/
theorem foldlM_grow_eq_ok_iff {rows : List PrimaryKeyRow} {key : PartialKey}
    {after : Option PartialKey} :
    rows.foldlM (OrderedMap.growOne grow) (some key) = .ok after ↔
      ∃ columns, key.columns.placeAll (rows.map fun row => (row.position.toInt, row.column)) =
          .ok columns ∧
        after = some
          { name := key.name.or (rows.findSome? (·.constraintName)), columns := columns } := by
  induction rows generalizing key with
  | nil =>
    show pure (some key) = _ ↔ ∃ columns, pure key.columns = _ ∧ _
    simp only [Except.pure_eq_ok_iff, exists_eq_left', eq_comm (b := after), List.findSome?_nil,
      Option.or_none]
  | cons row rest ih =>
    rw [List.foldlM_cons, Except.bind_eq_ok_iff]
    show _ ↔ ∃ columns, (key.columns.place row.position.toInt row.column >>= fun next =>
      next.placeAll (rest.map fun row => (row.position.toInt, row.column))) = .ok columns ∧ _
    -- A name that is there already stays; else the first of the rows with a name gives it.
    have hname : (key.name.or row.constraintName).or (rest.findSome? (·.constraintName)) =
        key.name.or ((row :: rest).findSome? (·.constraintName)) := by
      rw [Option.or_assoc, List.findSome?_cons]
      cases row.constraintName <;> rfl
    simp only [OrderedMap.growOne_eq_ok_iff, grow_eq_ok_iff, Option.getD_some,
      Except.bind_eq_ok_iff, ← hname]
    constructor
    · rintro ⟨-, ⟨-, ⟨next, hnext, rfl⟩, rfl⟩, hrest⟩
      obtain ⟨columns, hcolumns, rfl⟩ := ih.1 hrest
      exact ⟨columns, ⟨next, hnext, hcolumns⟩, rfl⟩
    · rintro ⟨columns, ⟨next, hnext, hcolumns⟩, rfl⟩
      have hrest : rest.foldlM (OrderedMap.growOne grow)
          (some { name := key.name.or row.constraintName, columns := next }) = .ok _ :=
        ih.2 ⟨columns, hcolumns, rfl⟩
      exact ⟨_, ⟨_, ⟨next, hnext, rfl⟩, rfl⟩, hrest⟩

/-- Before its first row a key is as good as the key `{}` without a name and columns. -/
theorem foldlM_grow_getD {rows : List PrimaryKeyRow} (h : rows ≠ []) (held : Option PartialKey) :
    rows.foldlM (OrderedMap.growOne grow) held =
      rows.foldlM (OrderedMap.growOne grow) (some (held.getD {})) := by
  cases rows with
  | nil => exact absurd rfl h
  | cons row rest => rfl

theorem finish_eq_ok_iff {table : String} {key : PartialKey} {finished : PrimaryKey} :
    key.finish table = .ok finished ↔
      ∃ columns, key.columns.finish = .ok columns ∧
        finished = { table := table, columns := columns, name := key.name } := by
  simp only [finish, Except.bind_eq_ok_iff, Except.mapError_eq_ok_iff, Except.pure_eq_ok_iff,
    eq_comm (b := finished)]

theorem kind_of_finish {table : String} {key : PartialKey} {e : ReadError}
    (h : key.finish table = .error e) : e.kind = .invalidColumnPosition := by
  unfold finish at h
  exact PositionFault.kind_of_mapError (Except.bind_pure_eq_error_iff.1 h)

end PartialKey

/-- The primary key that `rows` make for `table`. The columns come in the order of their positions,
and the name is the first that is reported. -/
def PrimaryKey.ofRows (table : String) (rows : List PrimaryKeyRow) : PrimaryKey where
  table := table
  columns := (orderedBy (·.position.toInt) rows).map (·.column)
  name := rows.findSome? (·.constraintName)

/-- The rows of a table become its primary key exactly if they are well placed, and then it is
`PrimaryKey.ofRows table rows`. -/
theorem PartialKey.amountTo_iff {table : String} {rows : List PrimaryKeyRow} (hne : rows ≠ [])
    {finished : PrimaryKey} :
    OrderedMap.AmountTo grow finish table rows finished ↔
      WellPlaced (rows.map (·.position.toInt)) ∧ finished = .ofRows table rows := by
  unfold OrderedMap.AmountTo
  rw [foldlM_grow_getD hne]
  simp only [Option.getD_none, foldlM_grow_eq_ok_iff, finish_eq_ok_iff, Option.some.injEq]
  constructor
  · rintro ⟨-, ⟨slots, hslots, rfl⟩, columns, hcolumns, rfl⟩
    obtain ⟨hwell, rfl⟩ := (Slots.finish_of_placeAll_map _ _).1 ⟨slots, hslots, hcolumns⟩
    exact ⟨hwell, rfl⟩
  · rintro ⟨hwell, rfl⟩
    obtain ⟨slots, hslots, hcolumns⟩ :=
      (Slots.finish_of_placeAll_map _ PrimaryKeyRow.column).2 ⟨hwell, rfl⟩
    exact ⟨_, ⟨slots, hslots, rfl⟩, _, hcolumns, rfl⟩

/-- Any two of `rows` about one table that name its primary key give it the same name. -/
def NamesAgree (rows : List PrimaryKeyRow) : Prop :=
  ∀ row ∈ rows, ∀ other ∈ rows, row.table = other.table →
    row.constraintName.isSome = true → other.constraintName.isSome = true →
      row.constraintName = other.constraintName

instance (rows : List PrimaryKeyRow) : Decidable (NamesAgree rows) :=
  inferInstanceAs (Decidable (∀ row ∈ rows, ∀ other ∈ rows, _))

theorem NamesAgree.mono {rows rows' : List PrimaryKeyRow} (h : NamesAgree rows)
    (hsubset : rows' ⊆ rows) : NamesAgree rows' :=
  fun row hrow other hother => h row (hsubset hrow) other (hsubset hother)

theorem findSome?_constraintName_perm {rows rows' : List PrimaryKeyRow} (h : rows.Perm rows')
    {table : String} (htable : ∀ row ∈ rows, row.table = table) (hagree : NamesAgree rows) :
    rows.findSome? (·.constraintName) = rows'.findSome? (·.constraintName) := by
  cases hname : rows.findSome? (·.constraintName) with
  | none =>
    rw [List.findSome?_eq_none_iff] at hname
    refine (List.findSome?_eq_none_iff.2 fun row hrow => ?_).symm
    exact hname row (h.mem_iff.2 hrow)
  | some name =>
    -- the first name on either side is that of some row, and the two rows agree
    obtain ⟨row, hrow, hrowName⟩ := List.exists_of_findSome?_eq_some hname
    have hsome : (rows'.findSome? (·.constraintName)).isSome := by
      rw [List.findSome?_isSome_iff]
      exact ⟨row, h.mem_iff.1 hrow, by rw [hrowName]; rfl⟩
    obtain ⟨name', hname'⟩ := Option.isSome_iff_exists.1 hsome
    obtain ⟨other, hother, hotherName⟩ := List.exists_of_findSome?_eq_some hname'
    have hother := h.mem_iff.2 hother
    have hsame := hagree row hrow other hother ((htable row hrow).trans (htable other hother).symm)
      (by rw [hrowName]; rfl) (by rw [hotherName]; rfl)
    rw [hname', ← hrowName, ← hotherName, hsame]

namespace PartialKeys

theorem addRow_eq_growAt (keys : PartialKeys) (row : PrimaryKeyRow) :
    keys.addRow row = OrderedMap.growAt (·.table) PartialKey.grow keys row := by
  simp only [addRow, OrderedMap.growAt, PartialKey.grow, bind_assoc, pure_bind]

theorem kind_of_foldlM_addRow {keys : PartialKeys} {rows : List PrimaryKeyRow} {e : ReadError}
    (h : rows.foldlM addRow keys = .error e) : e.kind = .invalidColumnPosition := by
  obtain ⟨mid, row, -, hrow⟩ := Except.error_of_foldlM h
  rw [addRow_eq_growAt] at hrow
  exact PartialKey.kind_of_grow (OrderedMap.growAt_eq_error_iff.1 hrow)

/-- The order of the rows does not matter if `NamesAgree rows`. -/
theorem foldlM_addRow_perm {rows rows' : List PrimaryKeyRow} (h : rows.Perm rows')
    (hagree : NamesAgree rows) {keys after : PartialKeys} :
    rows.foldlM addRow keys = .ok after ↔ rows'.foldlM addRow keys = .ok after := by
  have hstep : addRow = OrderedMap.growAt (·.table) PartialKey.grow :=
    funext₂ addRow_eq_growAt
  rw [hstep, OrderedMap.foldlM_growAt_eq_ok_iff, OrderedMap.foldlM_growAt_eq_ok_iff]
  apply forall_congr'
  intro table
  -- table by table, the rows on both sides are the same in some order
  have hgroup := h.filter fun row => decide (row.table = table)
  by_cases hnil : rows.filter (·.table = table) = []
  · rw [hnil] at hgroup
    rw [hnil, hgroup.nil_eq]
  · have hnil' : rows'.filter (·.table = table) ≠ [] := fun hnil' => hnil (hnil' ▸ hgroup).eq_nil
    have htable (row : PrimaryKeyRow) (hrow : row ∈ rows.filter (·.table = table)) :
        row.table = table := by
      simpa using (List.mem_filter.1 hrow).2
    have hname := findSome?_constraintName_perm hgroup htable
      (hagree.mono (List.filter_subset_self _))
    rw [PartialKey.foldlM_grow_getD hnil, PartialKey.foldlM_grow_getD hnil',
      PartialKey.foldlM_grow_eq_ok_iff, PartialKey.foldlM_grow_eq_ok_iff, hname]
    simp only [Slots.placeAll_perm (hgroup.map fun row => (row.position.toInt, row.column))]

end PartialKeys

/-! ### The fourth phase -/

namespace Reader

theorem outcome_addPrimaryKeysOf (r : Reader) (keys : PartialKeys) (table : String) :
    (r.addPrimaryKeysOf keys table).outcome = (do
      let rows ← (r.source.answer (.primaryKeys r.scope table)).mapError .connectivity
      rows.foldlM PartialKeys.addRow keys) := by
  simp only [addPrimaryKeysOf, Traced.outcome_bind, outcome_ask, Traced.outcome_ofExcept]

theorem outcome_readPrimaryKeys (r : Reader) (c : Containers) :
    (r.readPrimaryKeys c).outcome = (do
      let keys ← c.tables.keys.foldlM (fun keys table => (r.addPrimaryKeysOf keys table).outcome) ∅
      let finished ← PartialKeys.finish keys
      return .ofList finished) := by
  simp only [readPrimaryKeys, Traced.outcome_bind, outcome_announce, Traced.outcome_foldlM,
    Traced.outcome_ofExcept, Traced.outcome_pure]
  rfl

section FourthPhase

variable {r : Reader} {c : Containers} {answers : String → List PrimaryKeyRow}

theorem foldlM_addPrimaryKeysOf {tables : List String}
    (hanswers : ∀ table ∈ tables,
      r.source.answer (.primaryKeys r.scope table) = .ok (answers table)) (keys : PartialKeys) :
    tables.foldlM (fun keys table => (r.addPrimaryKeysOf keys table).outcome) keys =
      (tables.flatMap answers).foldlM PartialKeys.addRow keys := by
  induction tables generalizing keys with
  | nil => rfl
  | cons table rest ih =>
    rw [List.foldlM_cons, outcome_addPrimaryKeysOf, hanswers table List.mem_cons_self,
      List.flatMap_cons, List.foldlM_append]
    exact congrArg _ (funext fun keys =>
      ih (fun other hother => hanswers other (List.mem_cons_of_mem _ hother)) keys)

/-- The fourth phase is `OrderedMap.gather` over the rows of all answers, whichever table was asked
about. -/
theorem outcome_readPrimaryKeys_of_answers
    (hanswers : ∀ table ∈ c.tables.keys,
      r.source.answer (.primaryKeys r.scope table) = .ok (answers table)) :
    (r.readPrimaryKeys c).outcome = (do
      let finished ← OrderedMap.gather (·.table) PartialKey.grow PartialKey.finish
        (c.tables.keys.flatMap answers)
      return .ofList finished) := by
  have hstep : PartialKeys.addRow = OrderedMap.growAt (·.table) PartialKey.grow :=
    funext₂ PartialKeys.addRow_eq_growAt
  rw [outcome_readPrimaryKeys, foldlM_addPrimaryKeysOf hanswers, hstep, OrderedMap.gather,
    bind_assoc]
  rfl

/-- A fourth phase that succeeds has had rows in answer to every call `.primaryKeys`. -/
theorem answered_of_readPrimaryKeys {keys : OrderedSet PrimaryKey}
    (h : (r.readPrimaryKeys c).outcome = .ok keys) {table : String}
    (htable : table ∈ c.tables.keys) :
    ∃ rows, r.source.answer (.primaryKeys r.scope table) = .ok rows := by
  rw [outcome_readPrimaryKeys, Except.bind_eq_ok_iff] at h
  obtain ⟨held, hheld, -⟩ := h
  obtain ⟨before, after, hstep⟩ := Except.exists_step_of_foldlM hheld htable
  rw [outcome_addPrimaryKeysOf, Except.bind_eq_ok_iff] at hstep
  obtain ⟨rows, hrows, -⟩ := hstep
  exact ⟨rows, Except.mapError_eq_ok_iff.1 hrows⟩

/-- The fourth phase succeeds exactly if the positions in the rows of every table are
`WellPlaced`. -/
theorem exists_readPrimaryKeys_iff
    (hanswers : ∀ table ∈ c.tables.keys,
      r.source.answer (.primaryKeys r.scope table) = .ok (answers table)) :
    (∃ keys, (r.readPrimaryKeys c).outcome = .ok keys) ↔
      ∀ table ∈ (c.tables.keys.flatMap answers).map (·.table),
        WellPlaced (((c.tables.keys.flatMap answers).filter (·.table = table)).map
          (·.position.toInt)) := by
  have hfinish : (∃ keys, (r.readPrimaryKeys c).outcome = .ok keys) ↔
      ∃ finished, OrderedMap.gather (·.table) PartialKey.grow PartialKey.finish
        (c.tables.keys.flatMap answers) = .ok finished := by
    simp only [outcome_readPrimaryKeys_of_answers hanswers, Except.bind_eq_ok_iff,
      Except.pure_eq_ok_iff]
    constructor
    · rintro ⟨_, finished, hfinished, -⟩
      exact ⟨finished, hfinished⟩
    · rintro ⟨finished, hfinished⟩
      exact ⟨_, finished, hfinished, rfl⟩
  rw [hfinish, OrderedMap.exists_gather_iff]
  apply forall₂_congr
  intro table htable
  simp only [PartialKey.amountTo_iff (OrderedMap.group_ne_nil_iff.2 htable), exists_and_left,
    exists_eq, and_true]

/-- `key` is found exactly if it is `.ofRows` of a table that the rows name. -/
theorem mem_of_readPrimaryKeys
    (hanswers : ∀ table ∈ c.tables.keys,
      r.source.answer (.primaryKeys r.scope table) = .ok (answers table))
    {keys : OrderedSet PrimaryKey} (h : (r.readPrimaryKeys c).outcome = .ok keys)
    (key : PrimaryKey) :
    key ∈ keys ↔ key.table ∈ (c.tables.keys.flatMap answers).map (·.table) ∧
      key = .ofRows key.table ((c.tables.keys.flatMap answers).filter (·.table = key.table)) := by
  have hwell := (exists_readPrimaryKeys_iff hanswers).1 ⟨keys, h⟩
  rw [outcome_readPrimaryKeys_of_answers hanswers, Except.bind_eq_ok_iff] at h
  obtain ⟨finished, hfinished, hkeys⟩ := h
  obtain rfl := Except.pure_eq_ok_iff.1 hkeys
  rw [OrderedSet.mem_ofList, OrderedMap.mem_gather hfinished]
  constructor
  · rintro ⟨table, hamount⟩
    have htable := hamount.mem_keys
    obtain ⟨-, rfl⟩ :=
      (PartialKey.amountTo_iff (OrderedMap.group_ne_nil_iff.2 htable)).1 hamount
    exact ⟨htable, rfl⟩
  · -- a table that is named has rows, and they are well placed
    rintro ⟨htable, hkey⟩
    refine ⟨key.table, ?_⟩
    rw [PartialKey.amountTo_iff (OrderedMap.group_ne_nil_iff.2 htable)]
    exact ⟨hwell key.table htable, hkey⟩

theorem kind_of_readPrimaryKeys
    (hanswers : ∀ table ∈ c.tables.keys,
      r.source.answer (.primaryKeys r.scope table) = .ok (answers table)) {e : ReadError}
    (h : (r.readPrimaryKeys c).outcome = .error e) : e.kind = .invalidColumnPosition := by
  rw [outcome_readPrimaryKeys_of_answers hanswers] at h
  rcases OrderedMap.error_of_gather (Except.bind_pure_eq_error_iff.1 h) with
    ⟨held, row, hrow⟩ | ⟨table, held, hheld⟩
  · exact PartialKey.kind_of_grow hrow
  · exact PartialKey.kind_of_finish hheld

/-- `key = other` for two primary keys that are found for one table. -/
theorem eq_of_table_of_readPrimaryKeys {keys : OrderedSet PrimaryKey}
    (h : (r.readPrimaryKeys c).outcome = .ok keys) {key other : PrimaryKey} (hkey : key ∈ keys)
    (hother : other ∈ keys) (htable : key.table = other.table) : key = other := by
  have hanswered (table : String) (htable : table ∈ c.tables.keys) :=
    answered_of_readPrimaryKeys h htable
  choose! answers hanswers using hanswered
  have hmem := mem_of_readPrimaryKeys hanswers h
  -- both are made of the rows of the same table
  rw [((hmem key).1 hkey).2, ((hmem other).1 hother).2, htable]

end FourthPhase

/-- `(s.primaryKeys.toList.map (·.table)).Nodup`: no table has two primary keys. -/
theorem nodup_table_primaryKeys {r : Reader} {s : Snapshot} (hs : r.read.outcome = .ok s) :
    (s.primaryKeys.toList.map (·.table)).Nodup := by
  obtain ⟨c, hreaches⟩ := exists_reachesForeignKeys hs
  obtain ⟨-, -, hkeys⟩ := hreaches.of_read hs
  exact s.primaryKeys.nodup.map_on fun key hkey other hother =>
    eq_of_table_of_readPrimaryKeys hkeys hkey hother

/-- `s.primaryKey? table = some key ↔ key ∈ s.primaryKeys ∧ key.table = table`. -/
theorem primaryKey?_eq_some_iff {r : Reader} {s : Snapshot} (hs : r.read.outcome = .ok s)
    {table : String} {key : PrimaryKey} :
    s.primaryKey? table = some key ↔ key ∈ s.primaryKeys ∧ key.table = table :=
  find?_key_eq_some_iff PrimaryKey.table (nodup_table_primaryKeys hs)

/-- **The result of reading the primary keys.** Take the rows of all answers, in the order of the
tables that were asked about. The phase succeeds exactly if, for every table that is named, the
positions of its rows are 1, 2, … in some order; else it fails for a column position, and so does
the run. If it succeeds, there is one primary key for every table that is named, with the columns in
the order of their positions and the first name that is reported. So no two primary keys of a
snapshot belong to one table, and looking the table up finds the one there is. -/
theorem readPrimaryKeys_result {r : Reader} {c : Containers} {answers : String → List PrimaryKeyRow}
    {rows : List PrimaryKeyRow}
    (hanswers : ∀ table ∈ c.tables.keys,
      r.source.answer (.primaryKeys r.scope table) = .ok (answers table))
    (hrows : rows = c.tables.keys.flatMap answers) :
    ((∃ keys, (r.readPrimaryKeys c).outcome = .ok keys) ↔
      ∀ table ∈ rows.map (·.table),
        WellPlaced ((rows.filter (·.table = table)).map (·.position.toInt))) ∧
    ((¬∀ table ∈ rows.map (·.table),
        WellPlaced ((rows.filter (·.table = table)).map (·.position.toInt))) →
      ∃ e, e.kind = .invalidColumnPosition ∧ (r.readPrimaryKeys c).outcome = .error e ∧
        (r.ReachesPrimaryKeys c → r.read.outcome = .error e)) ∧
    (∀ keys, (r.readPrimaryKeys c).outcome = .ok keys →
      (∀ key, key ∈ keys ↔ key.table ∈ rows.map (·.table) ∧
        key = .ofRows key.table (rows.filter (·.table = key.table))) ∧
      (r.ReachesPrimaryKeys c → ∀ s, r.read.outcome = .ok s → s.primaryKeys = keys)) ∧
    ∀ s, r.read.outcome = .ok s →
      (∀ key ∈ s.primaryKeys, ∀ other ∈ s.primaryKeys, key.table = other.table → key = other) ∧
      ∀ table key, s.primaryKey? table = some key ↔ key ∈ s.primaryKeys ∧ key.table = table := by
  subst hrows
  refine ⟨exists_readPrimaryKeys_iff hanswers, ?_, ?_, ?_⟩
  · intro hbad
    obtain ⟨e, he⟩ :=
      (Except.ok_or_error _).resolve_left (mt (exists_readPrimaryKeys_iff hanswers).1 hbad)
    exact ⟨e, kind_of_readPrimaryKeys hanswers he, he, fun hreaches => hreaches.error he⟩
  · intro keys hkeys
    refine ⟨mem_of_readPrimaryKeys hanswers hkeys, fun hreaches s hs => ?_⟩
    obtain ⟨-, -, hkeys'⟩ := hreaches.1.of_read hs
    exact Except.ok.inj (hkeys'.symm.trans hkeys)
  · intro s hs
    obtain ⟨c', hreaches⟩ := exists_reachesForeignKeys hs
    obtain ⟨-, -, hkeys⟩ := hreaches.of_read hs
    refine ⟨fun key hkey other hother htable => ?_, fun table key => primaryKey?_eq_some_iff hs⟩
    exact eq_of_table_of_readPrimaryKeys hkeys hkey hother htable

/-- What a warehouse answers about primary keys: asked about its aisles, it also tells about the key
of its bins. -/
def warehouseKeyRows (table : String) : List PrimaryKeyRow :=
  if table = "aisles" then [⟨"bins", "slot", 2, none⟩, ⟨"aisles", "id", 1, some "aisles_key"⟩]
  else if table = "bins" then [⟨"bins", "aisle", 1, some "bins_key"⟩]
  else []

/-- A warehouse with bins in aisles. -/
def warehouse : Reader where
  source :=
    { Listing.source
        { objects := [⟨.table, "bins", none, none⟩, ⟨.table, "aisles", none, none⟩] } with
      answer := fun
        | .objects _ => .ok [⟨.table, "bins", none, none⟩, ⟨.table, "aisles", none, none⟩]
        | .primaryKeys _ table => .ok (warehouseKeyRows table)
        | call => .ok (Listing.answer {} call) }

theorem readPrimaryKeys_result_warehouse :
    ∃ keys, (warehouse.readPrimaryKeys
        ((Inventory.addTable {} "bins").addTable "aisles").containers).outcome = .ok keys ∧
      ⟨"bins", ["aisle", "slot"], some "bins_key"⟩ ∈ keys ∧
      ⟨"aisles", ["id"], some "aisles_key"⟩ ∈ keys := by
  have hanswers : ∀ table ∈
      ((Inventory.addTable {} "bins").addTable "aisles").containers.tables.keys,
      warehouse.source.answer (.primaryKeys warehouse.scope table) = .ok (warehouseKeyRows table) :=
    fun _ _ => rfl
  obtain ⟨hiff, -, hkeys, -⟩ := readPrimaryKeys_result hanswers rfl
  obtain ⟨keys, hok⟩ := hiff.2 (by decide)
  exact ⟨keys, hok, ((hkeys keys hok).1 _).2 (by decide), ((hkeys keys hok).1 _).2 (by decide)⟩

end Reader

end SchemaSnapshot

import SchemaSnapshot.Proofs.Exclusion
import SchemaSnapshot.Proofs.FirstClaim

/-!
# Rows that make no difference

A source may report rows of no use among the others: about excluded objects and about kinds of
objects that are neither tables nor views, claims and foreign keys that it has reported before,
columns of nothing that has been found, statistics, and index rows that lack a name. Here such rows
are put into the answers of a source at any place (`Mixed`, `Mixture`). In each phase they are rows
at which nothing happens (`Mixed.foldlM_whole`), save that a column of nothing is warned about
(`Containers.markedWarnings`). So the run ends as it does without them (`Reader.read_of_noise`).
-/

namespace SchemaSnapshot

/-! ### Rows put in among others -/

/-- Rows with others put in among them. Those on the left (`.inl`) were there, those on the right
(`.inr`) have been put in. -/
abbrev Mixed (α : Type) : Type :=
  List (α ⊕ α)

namespace Mixed

variable {α β ε σ : Type}

/-- The rows that were there, those on the left in `rows`. -/
def kept (rows : Mixed α) : List α :=
  rows.filterMap Sum.getLeft?

/-- All of `rows`, with those that have been put in. -/
def whole (rows : Mixed α) : List α :=
  rows.map (Sum.elim id id)

@[simp] theorem kept_inl (row : α) (later : Mixed α) :
    kept (.inl row :: later) = row :: later.kept := rfl

@[simp] theorem kept_inr (row : α) (later : Mixed α) : kept (.inr row :: later) = later.kept := rfl

@[simp] theorem whole_inl (row : α) (later : Mixed α) :
    whole (.inl row :: later) = row :: later.whole := rfl

@[simp] theorem whole_inr (row : α) (later : Mixed α) :
    whole (.inr row :: later) = row :: later.whole := rfl

@[simp] theorem kept_map_inl_append (rows : List α) (later : Mixed α) :
    kept (rows.map .inl ++ later) = rows ++ later.kept := by
  simp [kept, Function.comp_def]

@[simp] theorem whole_map_inl_append (rows : List α) (later : Mixed α) :
    whole (rows.map .inl ++ later) = rows ++ later.whole := by
  simp [whole, Function.comp_def]

theorem kept_filter (p : α → Bool) (rows : Mixed α) :
    kept (rows.filter (Sum.elim p p)) = rows.kept.filter p := by
  induction rows with
  | nil => rfl
  | cons row later ih =>
    rcases row with row | row <;> cases hp : p row <;> simp [hp, ih]

theorem whole_filter (p : α → Bool) (rows : Mixed α) :
    whole (rows.filter (Sum.elim p p)) = rows.whole.filter p := by
  induction rows with
  | nil => rfl
  | cons row later ih =>
    rcases row with row | row <;> cases hp : p row <;> simp [hp, ih]

/-- `rows.whole.filterMap f = rows.kept.filterMap f` if `f` makes nothing of the rows put in. -/
theorem filterMap_whole {f : α → Option β} {rows : Mixed α}
    (h : ∀ row, .inr row ∈ rows → f row = none) :
    rows.whole.filterMap f = rows.kept.filterMap f := by
  induction rows with
  | nil => rfl
  | cons row later ih =>
    have hlater := ih fun row hrow => h row (List.mem_cons_of_mem _ hrow)
    cases row with
    | inl row => rw [whole_inl, kept_inl, List.filterMap_cons, List.filterMap_cons, hlater]
    | inr row =>
      rw [whole_inr, kept_inr, List.filterMap_cons_none (h row List.mem_cons_self), hlater]

/-- The rows that have been put in are `idle`, each of them given the rows before it. -/
def OnlyIdle (idle : List α → α → Prop) : List α → Mixed α → Prop
  | _, [] => True
  | earlier, .inl row :: later => OnlyIdle idle (earlier ++ [row]) later
  | earlier, .inr row :: later => idle earlier row ∧ OnlyIdle idle (earlier ++ [row]) later

instance decidableOnlyIdle {idle : List α → α → Prop}
    [∀ earlier row, Decidable (idle earlier row)] :
    (earlier : List α) → (rows : Mixed α) → Decidable (rows.OnlyIdle idle earlier)
  | _, [] => isTrue trivial
  | earlier, .inl row :: later => decidableOnlyIdle (earlier ++ [row]) later
  | earlier, .inr row :: later =>
    have : Decidable (OnlyIdle idle (earlier ++ [row]) later) :=
      decidableOnlyIdle (earlier ++ [row]) later
    inferInstanceAs (Decidable (_ ∧ _))

/-- Rows at which nothing happens can be put into a run:
`rows.whole.foldlM f s = rows.kept.foldlM f s`. -/
theorem foldlM_whole {f : σ → α → Except ε σ} {idle : List α → α → Prop} {start : σ}
    (hidle : ∀ earlier row s, earlier.foldlM f start = .ok s → idle earlier row → f s row = .ok s)
    {earlier : List α} {rows : Mixed α} {s : σ} (hearlier : earlier.foldlM f start = .ok s)
    (h : rows.OnlyIdle idle earlier) : rows.whole.foldlM f s = rows.kept.foldlM f s := by
  -- By induction on the rows to come; what is idle depends on all the rows that have been.
  induction rows generalizing earlier s with
  | nil => rfl
  | cons row later ih =>
    -- one step further, the rows that have been include `row`
    have hnext {row : α} {after : σ} (hrow : f s row = .ok after) :
        (earlier ++ [row]).foldlM f start = .ok after := by
      rw [List.foldlM_append, hearlier]
      show [row].foldlM f s = _
      rw [List.foldlM_cons, hrow]
      rfl
    cases row with
    | inl row =>
      rw [whole_inl, kept_inl, List.foldlM_cons, List.foldlM_cons]
      exact Except.bind_congr_of_ok fun after hafter => ih (hnext hafter) h
    | inr row =>
      have hrow := hidle earlier row s hearlier h.1
      rw [whole_inr, kept_inr, List.foldlM_cons, hrow]
      exact ih (hnext hrow) h.2

end Mixed

/-! ### Columns of nothing -/

namespace Containers

variable {c : Containers}

/-- What there is to warn about column rows with others put in. Those that were there are warned
about as they are without the others, and each of the others for itself, as having no table or
view. -/
def markedWarnings (c : Containers) : List ColumnRow → Mixed ColumnRow → Mixed Warning
  | _, [] => []
  | earlier, .inl row :: later =>
    (c.rowWarnings earlier row).map .inl ++ c.markedWarnings (earlier ++ [row]) later
  | earlier, .inr row :: later =>
    .inr (.unresolvedColumnOwner row.table row.column) :: c.markedWarnings earlier later

theorem kept_markedWarnings (earlier : List ColumnRow) (rows : Mixed ColumnRow) :
    (c.markedWarnings earlier rows).kept = c.columnWarnings earlier rows.kept := by
  induction rows generalizing earlier with
  | nil => rfl
  | cons row later ih =>
    cases row with
    | inl row => rw [markedWarnings, Mixed.kept_map_inl_append, ih, Mixed.kept_inl, columnWarnings]
    | inr row => rw [markedWarnings, Mixed.kept_inr, ih, Mixed.kept_inr]

/-- `rowWarnings` depends on what the name of the row resolves to and on the `earlier` rows about
tables and views. -/
theorem rowWarnings_congr {c' : Containers} {earlier earlier' : List ColumnRow} {row : ColumnRow}
    (howner : c.owner? row.table = c'.owner? row.table)
    (h : ∀ e, c.owner? e.table ≠ none → (e ∈ earlier ↔ e ∈ earlier')) :
    c.rowWarnings earlier row = c'.rowWarnings earlier' row := by
  -- only rows about the same name are looked at, and `h` is about those that resolve
  have hseen (hresolved : c.owner? row.table ≠ none) :
      (earlier.any fun e => e.table == row.table && e.column == row.column) =
        earlier'.any fun e => e.table == row.table && e.column == row.column := by
    rw [Bool.eq_iff_iff, List.any_eq_true, List.any_eq_true]
    refine exists_congr fun e => and_congr_left fun hsame => h e ?_
    rw [Bool.and_eq_true, beq_iff_eq] at hsame
    rwa [hsame.1]
  unfold rowWarnings
  by_cases hnone : c.owner? row.table = none
  · rw [if_pos (owner?_eq_none_iff.1 hnone), if_pos (owner?_eq_none_iff.1 (howner ▸ hnone))]
  · rw [if_neg (mt owner?_eq_none_iff.2 hnone), if_neg (mt owner?_eq_none_iff.2 (howner ▸ hnone)),
      hseen hnone]

/-- `(c.markedWarnings earlier rows).whole` are the warnings about all the rows, the ones put in
among them. -/
theorem whole_markedWarnings {rows : Mixed ColumnRow}
    (h : ∀ row, .inr row ∈ rows → c.owner? row.table = none) {earlier earlier' : List ColumnRow}
    (hearlier : ∀ e, c.owner? e.table ≠ none → (e ∈ earlier ↔ e ∈ earlier')) :
    (c.markedWarnings earlier rows).whole = c.columnWarnings earlier' rows.whole := by
  -- The rows put in have no table or view, so they are the earlier rows of no other row.
  induction rows generalizing earlier earlier' with
  | nil => rfl
  | cons row later ih =>
    have hlater : ∀ row, .inr row ∈ later → c.owner? row.table = none :=
      fun row hrow => h row (List.mem_cons_of_mem _ hrow)
    cases row with
    | inl row =>
      -- `row` joins the earlier rows on both sides
      rw [markedWarnings, Mixed.whole_map_inl_append, Mixed.whole_inl, columnWarnings,
        rowWarnings_congr rfl hearlier]
      refine congrArg _ (ih hlater fun e he => ?_)
      rw [List.mem_append, List.mem_append, hearlier e he]
    | inr row =>
      have hnone := h row List.mem_cons_self
      have hwarning : c.rowWarnings earlier' row =
          [.unresolvedColumnOwner row.table row.column] :=
        if_pos (owner?_eq_none_iff.1 hnone)
      rw [markedWarnings, Mixed.whole_inr, Mixed.whole_inr, columnWarnings, hwarning]
      refine congrArg _ (ih hlater fun e he => ?_)
      rw [hearlier e he, List.mem_append, List.mem_singleton, or_iff_left]
      rintro rfl
      exact he hnone

theorem markedWarnings_congr {c' : Containers} (howner : ∀ name, c.owner? name = c'.owner? name)
    (earlier : List ColumnRow) (rows : Mixed ColumnRow) :
    c.markedWarnings earlier rows = c'.markedWarnings earlier rows := by
  induction rows generalizing earlier with
  | nil => rfl
  | cons row later ih =>
    cases row with
    | inl row =>
      rw [markedWarnings, markedWarnings, ih, rowWarnings_congr (howner _) fun _ _ => Iff.rfl]
    | inr row => rw [markedWarnings, markedWarnings, ih]

/-- `rows.whole` and `rows.kept` make the same tables and views if the rows put in resolve to
nothing. -/
theorem addRows_whole (dialect : Dialect) {rows : Mixed ColumnRow}
    (h : ∀ row, .inr row ∈ rows → c.owner? row.table = none) :
    (c.addRows dialect rows.whole).1 = (c.addRows dialect rows.kept).1 := by
  induction rows generalizing c with
  | nil => rfl
  | cons row later ih =>
    cases row with
    | inl row =>
      rw [Mixed.whole_inl, Mixed.kept_inl]
      refine ih fun other hother => ?_
      exact (owner?_addRow dialect c row _).trans (h other (List.mem_cons_of_mem _ hother))
    | inr row =>
      have hrow : (c.addRow dialect row).1 = c := by
        rw [addRow, h row List.mem_cons_self]
      rw [Mixed.whole_inr, Mixed.kept_inr]
      show ((c.addRow dialect row).1.addRows dialect (Mixed.whole later)).1 = _
      rw [hrow]
      exact ih fun other hother => h other (List.mem_cons_of_mem _ hother)

end Containers

/-! ### Sources that report more rows -/

/-- What a source answers, and what is put into its answers. A call that is not answered has nothing
to put into. -/
structure Mixture where
  objects : Except SourceError (Mixed ObjectRow)
  columns : Except SourceError (Mixed ColumnRow)
  foreignKeysTo : String → Except SourceError (Mixed ForeignKeyRow)
  indexInfo : String → Except SourceError (Mixed IndexRow)

/-- `source'` reports the rows put in when `scope` is read, and `source` does not. Otherwise they
answer alike. -/
structure MetadataSource.Padded (source source' : MetadataSource) (scope : Scope)
    (mixture : Mixture) : Prop where
  label : source.label = source'.label
  supportsSequences : source.supportsSequences = source'.supportsSequences
  supportsDeferrable : source.supportsDeferrable = source'.supportsDeferrable
  isSystem : source.isSystem = source'.isSystem
  isBookkeeping : source.isBookkeeping = source'.isBookkeeping
  objects : source.answer (.objects scope) = mixture.objects.map Mixed.kept ∧
    source'.answer (.objects scope) = mixture.objects.map Mixed.whole
  viewDefinition : ∀ name,
    source.answer (.viewDefinition name) = source'.answer (.viewDefinition name)
  columns : source.answer (.columns scope) = mixture.columns.map Mixed.kept ∧
    source'.answer (.columns scope) = mixture.columns.map Mixed.whole
  foreignKeysTo : ∀ table,
    source.answer (.foreignKeysTo scope table) = (mixture.foreignKeysTo table).map Mixed.kept ∧
      source'.answer (.foreignKeysTo scope table) = (mixture.foreignKeysTo table).map Mixed.whole
  primaryKeys : ∀ table,
    source.answer (.primaryKeys scope table) = source'.answer (.primaryKeys scope table)
  indexInfo : ∀ table,
    source.answer (.indexInfo scope table) = (mixture.indexInfo table).map Mixed.kept ∧
      source'.answer (.indexInfo scope table) = (mixture.indexInfo table).map Mixed.whole
  sequenceNames : source.answer .sequenceNames = source'.answer .sequenceNames

theorem MetadataSource.Padded.excludes {source source' : MetadataSource} {scope : Scope}
    {mixture : Mixture} (h : source.Padded source' scope mixture) :
    source.excludes = source'.excludes := by
  funext scope name
  simp only [MetadataSource.excludes, h.isSystem, h.isBookkeeping]

namespace Reader

/-- The rows put in are of no use to `r`. An object row has nothing to say after the rows before it,
a column row is about an object that is excluded or is neither a table nor a view of the run, a
foreign key row has come before in the same answer, and an index row is about statistics or lacks
the name of the index or of the column. -/
structure IsNoise (r : Reader) (mixture : Mixture) : Prop where
  objects : ∀ rows, mixture.objects = .ok rows → rows.OnlyIdle r.IsIdle []
  columns : ∀ rows, mixture.columns = .ok rows → ∀ row, .inr row ∈ rows →
    r.isLive row = false ∨ ∀ listed, r.readContainers.outcome = .ok listed →
      listed.containers.owner? row.table = none
  foreignKeysTo : ∀ table rows, mixture.foreignKeysTo table = .ok rows →
    rows.OnlyIdle (fun earlier row => row ∈ earlier) []
  indexInfo : ∀ table rows, mixture.indexInfo table = .ok rows → ∀ row, .inr row ∈ rows →
    row.typeCode = IndexRow.statisticCode ∨ row.indexName = none ∨ row.column = none

/-- `r'` reads the rows put in, all of them of no use, and `r` does not. -/
structure Padded (r r' : Reader) (mixture : Mixture) : Prop where
  source : r.source.Padded r'.source r.scope mixture
  dialect : r.dialect = r'.dialect
  config : r.config = r'.config
  noise : r.IsNoise mixture

/-- What there is to warn about the live column rows, with others put in. -/
def markedWarnings (r : Reader) (c : Containers) (rows : Mixed ColumnRow) : Mixed Warning :=
  c.markedWarnings [] (rows.filter (Sum.elim r.isLive r.isLive))

variable {r r' : Reader} {mixture : Mixture}

namespace Padded

theorem scope (h : r.Padded r' mixture) : r.scope = r'.scope :=
  congrArg Config.scope h.config

theorem label (h : r.Padded r' mixture) : r.label = r'.label := by
  rw [Reader.label, Reader.label, h.source.label, h.config]

theorem isLive (h : r.Padded r' mixture) : r.isLive = r'.isLive := by
  funext row
  rw [Reader.isLive, Reader.isLive, h.source.excludes]

/-! ### The phases -/

/-- `rows.whole` and `rows.kept` come to the same in the first phase if the rows put in are idle. -/
theorem objects_whole {rows : Mixed ObjectRow} (h : rows.OnlyIdle r.IsIdle []) :
    (rows.whole.foldlM r.addObject {}).outcome = (rows.kept.foldlM r.addObject {}).outcome := by
  rw [Traced.outcome_foldlM, Traced.outcome_foldlM]
  refine Mixed.foldlM_whole (fun earlier row found hfound hidle => ?_) rfl h
  rw [← Traced.outcome_foldlM] at hfound
  exact (claimed_of_objects hfound).outcome_of_idle hidle

/-- `r.readContainers.outcome = r'.readContainers.outcome`: the first phases find the same. -/
theorem readContainers (h : r.Padded r' mixture) :
    r.readContainers.outcome = r'.readContainers.outcome := by
  rw [outcome_readContainers, outcome_readContainers, ← h.scope, h.source.objects.1,
    h.source.objects.2]
  cases hrows : mixture.objects with
  | error cause => rfl
  | ok rows =>
    show (rows.kept.foldlM r.addObject {}).outcome = (rows.whole.foldlM r'.addObject {}).outcome
    rw [← objects_whole (h.noise.objects rows hrows),
      outcome_objects_congr h.source.excludes fun name _ => h.source.viewDefinition name]

/-- The warnings of the first phase are `r.claimWarnings` of the rows that were there,
`objects.kept`. -/
theorem warnings_of_readContainers (h : r.Padded r' mixture) {listed : Inventory}
    (hlisted : r.readContainers.outcome = .ok listed) :
    ∃ objects, mixture.objects = .ok objects ∧ listed.warnings = r.claimWarnings objects.kept := by
  obtain ⟨rows, hrows, hobjects⟩ := readContainers_eq_ok_iff.1 hlisted
  rw [h.source.objects.1] at hrows
  obtain ⟨objects, hmixture, rfl⟩ := Except.map_eq_ok_iff.1 hrows
  exact ⟨objects, hmixture, (claimed_of_objects hobjects).warnings⟩

/-- `owner? row.table = none` for every live row that is put in. -/
theorem owner?_of_live (h : r.Padded r' mixture) {listed : Inventory}
    (hlisted : r.readContainers.outcome = .ok listed) {rows : Mixed ColumnRow}
    (hrows : mixture.columns = .ok rows) (row : ColumnRow)
    (hrow : .inr row ∈ rows.filter (Sum.elim r.isLive r.isLive)) :
    listed.containers.owner? row.table = none := by
  obtain ⟨hmem, hlive⟩ := List.mem_filter.1 hrow
  rcases h.noise.columns rows hrows row hmem with hdead | hnone
  · -- a row that is not live is not among them
    rw [Sum.elim_inr, hdead] at hlive
    cases hlive
  · exact hnone listed hlisted

/-- What the second phases find differs in the warnings that are marked. -/
structure SameColumns (r : Reader) (rows : Mixed ColumnRow) (listed found found' : Inventory) :
    Prop where
  containers : found.containers = found'.containers
  warnings : found.warnings = listed.warnings ++ (r.markedWarnings found.containers rows).kept
  warnings' : found'.warnings = listed.warnings ++ (r.markedWarnings found.containers rows).whole

theorem columnsAdded (h : r.Padded r' mixture) {listed : Inventory}
    (hlisted : r.readContainers.outcome = .ok listed) {rows : Mixed ColumnRow}
    (hrows : mixture.columns = .ok rows) :
    SameColumns r rows listed (r.columnsAdded listed rows.kept)
      (r'.columnsAdded listed rows.whole) := by
  obtain ⟨objects, -, hobjects⟩ := readContainers_eq_ok_iff.1 hlisted
  have hempty := Containers.columnsOf_of_objects hobjects
  have hnone := h.owner?_of_live hlisted hrows
  have hmarked : r.markedWarnings (r.columnsAdded listed rows.kept).containers rows =
      listed.containers.markedWarnings [] (rows.filter (Sum.elim r.isLive r.isLive)) :=
    Containers.markedWarnings_congr (Containers.owner?_addRows _ _ _) _ _
  constructor
  · rw [Reader.columnsAdded, Reader.columnsAdded, ← h.isLive, ← h.dialect, ← Mixed.kept_filter,
      ← Mixed.whole_filter, Containers.addRows_whole _ hnone]
  · rw [hmarked, Containers.kept_markedWarnings, Mixed.kept_filter, Reader.columnsAdded]
    exact congrArg _ (Containers.warnings_addRows r.dialect hempty [] _)
  · rw [hmarked, Containers.whole_markedWarnings hnone fun _ _ => Iff.rfl, Mixed.whole_filter,
      Reader.columnsAdded, ← h.isLive]
    exact congrArg _ (Containers.warnings_addRows r'.dialect hempty [] _)

/-- The second phases agree, and what they find is `SameColumns`: it differs in warnings only. -/
theorem readColumns (h : r.Padded r' mixture) {listed : Inventory}
    (hlisted : r.readContainers.outcome = .ok listed) :
    Except.Agree (· = ·)
      (fun found found' => ∃ rows, mixture.columns = .ok rows ∧
        SameColumns r rows listed found found')
      (r.readColumns listed).outcome (r'.readColumns listed).outcome := by
  rw [outcome_readColumns, outcome_readColumns, ← h.scope, h.source.columns.1, h.source.columns.2]
  cases hrows : mixture.columns with
  | error cause => exact .error rfl
  | ok rows => exact .ok ⟨rows, rfl, h.columnsAdded hlisted hrows⟩

/-- `rows.whole` and `rows.kept` make the same foreign keys if the rows put in have all come
before. -/
theorem foreignKeys_whole {c : Containers} {deferrable : Bool} {keys : OrderedSet ForeignKey}
    {rows : Mixed ForeignKeyRow} (h : rows.OnlyIdle (fun earlier row => row ∈ earlier) []) :
    rows.whole.foldlM (c.addForeignKey deferrable) keys =
      rows.kept.foldlM (c.addForeignKey deferrable) keys := by
  refine Mixed.foldlM_whole (fun earlier row after hafter hrow => ?_) rfl h
  obtain ⟨hjoins, hmem⟩ := Containers.foldlM_addForeignKey_eq_ok_iff.1 hafter
  refine Containers.addForeignKey_eq_ok_iff.2 ⟨hjoins row hrow, OrderedSet.ext_mem fun key => ?_⟩
  -- The row has been taken into account, so its key is there.
  rw [OrderedSet.mem_insert, or_iff_right_of_imp]
  rintro rfl
  exact (hmem _).2 (.inl (List.mem_map_of_mem hrow))

/-- `(r.readForeignKeys c).outcome = (r'.readForeignKeys c).outcome`. -/
theorem readForeignKeys (h : r.Padded r' mixture) (c : Containers) :
    (r.readForeignKeys c).outcome = (r'.readForeignKeys c).outcome := by
  rw [outcome_readForeignKeys, outcome_readForeignKeys]
  refine Except.foldlM_congr (fun table _ keys => ?_) _
  rw [outcome_addForeignKeysTo, outcome_addForeignKeysTo, ← h.scope,
    (h.source.foreignKeysTo table).1, (h.source.foreignKeysTo table).2,
    ← h.source.supportsDeferrable]
  cases hrows : mixture.foreignKeysTo table with
  | error cause => rfl
  | ok rows => exact (foreignKeys_whole (h.noise.foreignKeysTo table rows hrows)).symm

theorem part?_eq_none {row : IndexRow}
    (h : row.typeCode = IndexRow.statisticCode ∨ row.indexName = none ∨ row.column = none) :
    row.part? = none := by
  unfold IndexRow.part?
  split
  · rfl
  · rename_i hcode
    rcases h with h | h | h
    · exact absurd h hcode
    · rw [h]
    · rw [h]
      cases row.indexName <;> rfl

/-- `(r.readIndexes c keys).outcome = (r'.readIndexes c keys).outcome`, as `IndexRow.part?` makes
nothing of the rows put in. -/
theorem readIndexes (h : r.Padded r' mixture) (c : Containers) (keys : OrderedSet PrimaryKey) :
    (r.readIndexes c keys).outcome = (r'.readIndexes c keys).outcome := by
  refine readIndexes_congr (fun table _ => ?_) keys
  rw [← h.scope, (h.source.indexInfo table).1, (h.source.indexInfo table).2]
  cases hrows : mixture.indexInfo table with
  | error cause => rfl
  | ok rows =>
    refine congrArg Except.ok (Mixed.filterMap_whole fun row hrow => ?_).symm
    exact part?_eq_none (h.noise.indexInfo table rows hrows row hrow)

end Padded

/-! ### The result -/

/-- `s'` differs from `s` in warnings only, in those that are marked. -/
structure SameButMarked (r : Reader) (mixture : Mixture) (s s' : Snapshot) : Prop where
  rest : s' = { s with warnings := s'.warnings }
  warnings : ∃ objects columns, mixture.objects = .ok objects ∧ mixture.columns = .ok columns ∧
    s.warnings = r.claimWarnings objects.kept ++
      (r.markedWarnings ⟨s.tables, s.views⟩ columns).kept ∧
    s'.warnings = r.claimWarnings objects.kept ++
      (r.markedWarnings ⟨s.tables, s.views⟩ columns).whole

/-- **Rows of no use are harmless.** Let the second reader read what the first one reads, with rows
put in anywhere that are of no use. If the first reader takes a snapshot, so does the second, and
the snapshots are the same except for the warnings: those of the second are those of the first, with
one about a column of nothing in the place of each live column row that has been put in. If the
first reader fails, the second fails with the same error. -/
theorem read_of_noise {r r' : Reader} {mixture : Mixture} (h : r.Padded r' mixture) :
    (∃ s s', r.read.outcome = .ok s ∧ r'.read.outcome = .ok s' ∧ r.SameButMarked mixture s s') ∨
    ∃ e, r.read.outcome = .error e ∧ r'.read.outcome = .error e := by
  have hprimaryKeys (c : Containers) :
      (r.readPrimaryKeys c).outcome = (r'.readPrimaryKeys c).outcome :=
    readPrimaryKeys_congr fun table _ => h.scope ▸ h.source.primaryKeys table
  have hsequences := readSequences_congr h.source.supportsSequences h.source.sequenceNames
  have hread : Except.Agree (· = ·) (r.SameButMarked mixture) r.read.outcome r'.read.outcome := by
    rw [outcome_read, outcome_read, ← h.readContainers]
    refine .bind_self (fun _ => rfl) fun listed hlisted => ?_
    refine (h.readColumns hlisted).bind fun found found' hfound => ?_
    obtain ⟨columns, hcolumns, hsame⟩ := hfound
    -- From here on both go on from the same tables and views.
    rw [← hsame.containers, ← h.readForeignKeys, ← hprimaryKeys, ← hsequences]
    simp only [← h.readIndexes]
    refine .bind_self (fun _ => rfl) fun foreignKeys _ => ?_
    refine .bind_self (fun _ => rfl) fun primaryKeys _ => ?_
    refine .bind_self (fun _ => rfl) fun indexes _ => ?_
    refine .bind_self (fun _ => rfl) fun sequences _ => .pure ⟨?_, ?_⟩
    · rw [snapshotOf, snapshotOf, h.label, h.config, hsame.containers]
    · obtain ⟨objects, hobjects, hclaims⟩ := h.warnings_of_readContainers hlisted
      refine ⟨objects, columns, hobjects, hcolumns, ?_, ?_⟩
      · rw [← hclaims]
        exact hsame.warnings
      · rw [← hclaims]
        exact hsame.warnings'
  rcases hread.ok_or_error with hok | ⟨e, e', he, he', rfl⟩
  · exact .inl hok
  · exact .inr ⟨e, he, he'⟩

/-- What a fair answers, with rows of every sort put in that are of no use. -/
def fairMixture : Mixture where
  objects := .ok [.inr ⟨.table, "log", none, none⟩, .inl ⟨.table, "stalls", none, none⟩,
    .inr ⟨.other "SYNONYM", "tents", none, none⟩, .inl ⟨.view, "stalls", none, none⟩,
    .inr ⟨.table, "stalls", none, none⟩]
  columns := .ok [.inl (.ofNumber "stalls" "id" 10), .inr (.ofNumber "tents" "id" 10),
    .inr (.ofNumber "log" "id" 10), .inl (.ofNumber "stalls" "id" 10)]
  foreignKeysTo table := .ok
    (if table = "stalls" then
      [.inl ⟨"stalls", "id", "stalls", "next", none, 7⟩,
        .inr ⟨"stalls", "id", "stalls", "next", none, 7⟩]
    else [])
  indexInfo table := .ok
    (if table = "stalls" then
      [.inr ⟨none, 0, "stalls", none, 0⟩, .inl ⟨some "by_next", 3, "stalls", some "next", 1⟩,
        .inr ⟨some "by_next", 3, "stalls", none, 1⟩]
    else [])

/-- A fair, of which either the rows that were there are reported, or all rows. -/
def fair (report : {α : Type} → Mixed α → List α) : Reader where
  source :=
    { Listing.source { bookkeeping := ["log"] } with
      answer := fun
        | .objects _ => fairMixture.objects.map report
        | .columns _ => fairMixture.columns.map report
        | .foreignKeysTo _ table => (fairMixture.foreignKeysTo table).map report
        | .indexInfo _ table => (fairMixture.indexInfo table).map report
        | call => .ok (Listing.answer {} call) }

/-- The rows put in at the `fair` are noise. -/
theorem isNoise_fairMixture : (fair Mixed.kept).IsNoise fairMixture := by
  constructor
  · intro rows hrows
    obtain rfl := Except.ok.inj hrows
    decide
  · intro rows hrows row hrow
    obtain rfl := Except.ok.inj hrows
    have hcases : row = .ofNumber "tents" "id" 10 ∨ row = .ofNumber "log" "id" 10 := by
      simpa using hrow
    -- nobody has the tents, and the log is excluded
    rcases hcases with rfl | rfl
    · refine .inr fun listed hlisted => ?_
      obtain rfl := Except.ok.inj hlisted
      rfl
    · exact .inl rfl
  · intro table rows hrows
    obtain rfl := Except.ok.inj hrows
    split
    · decide
    · trivial
  · intro table rows hrows row hrow
    obtain rfl := Except.ok.inj hrows
    split at hrow
    · have hcases : row = ⟨none, 0, "stalls", none, 0⟩ ∨
          row = ⟨some "by_next", 3, "stalls", none, 1⟩ := by
        simpa using hrow
      rcases hcases with rfl | rfl
      · exact .inl rfl
      · exact .inr (.inr rfl)
    · cases hrow

theorem read_of_noise_fair :
    ∃ s s', (fair Mixed.kept).read.outcome = .ok s ∧ (fair Mixed.whole).read.outcome = .ok s' ∧
      s' = { s with warnings := s'.warnings } ∧
      s.warnings = [.nameClaimedTwice "stalls", .duplicateColumn "stalls" "id"] ∧
      s'.warnings = [.nameClaimedTwice "stalls", .unresolvedColumnOwner "tents" "id",
        .duplicateColumn "stalls" "id"] := by
  have hsource : (fair Mixed.kept).source.Padded (fair Mixed.whole).source
      (fair Mixed.kept).scope fairMixture :=
    ⟨rfl, rfl, rfl, rfl, rfl, ⟨rfl, rfl⟩, fun _ => rfl, ⟨rfl, rfl⟩, fun _ => ⟨rfl, rfl⟩,
      fun _ => rfl, fun _ => ⟨rfl, rfl⟩, rfl⟩
  rcases read_of_noise ⟨hsource, rfl, rfl, isNoise_fairMixture⟩ with
    ⟨s, s', hs, hs', hsame⟩ | ⟨e, he, -⟩
  · refine ⟨s, s', hs, hs', hsame.rest, ?_, ?_⟩
    · obtain rfl := Except.ok.inj hs
      rfl
    · obtain rfl := Except.ok.inj hs'
      rfl
  · cases he

end Reader

end SchemaSnapshot

import SchemaSnapshot.Proofs.Ownership
import SchemaSnapshot.Source
import Mathlib.Data.List.Induction

/-!
# What the column rows amount to

The second phase goes through the column rows one by one, putting each column where it belongs and
replacing one of the same name. Here its result is said without going through the rows: a
container's columns come in the order in which their names first turn up, each as its last row
describes it (`Dialect.columnsOfRows`), and each row gives rise to at most one warning, which
depends on the rows before it only (`Containers.columnWarnings`). Every row ends up either as a
column or as a warning (`Containers.length_addRows`).
-/

namespace SchemaSnapshot

/-! ### Names by first occurrence -/

theorem eraseDups_append_singleton (names : List String) (name : String) :
    (names ++ [name]).eraseDups =
      if name ∈ names then names.eraseDups else names.eraseDups ++ [name] := by
  rw [List.eraseDups_append]
  by_cases h : name ∈ names <;> simp [List.removeAll, List.eraseDups_cons, h]

theorem nodup_eraseDups (names : List String) : names.eraseDups.Nodup := by
  induction names using List.reverseRecOn with
  | nil => exact List.nodup_nil
  | append_singleton names name ih =>
    rw [eraseDups_append_singleton]
    split
    · exact ih
    · rename_i hnew
      rw [List.nodup_append]
      refine ⟨ih, List.pairwise_singleton _ _, ?_⟩
      intro a ha b hb heq
      rw [List.mem_singleton.1 hb] at heq
      -- the last name of the longer list is one of `names`, which it was not
      exact hnew (List.mem_eraseDups.1 (heq ▸ ha))

/-! ### The columns of one container -/

/-- The last of `rows` whose column is `name`, if there is one. -/
def lastRow? (rows : List ColumnRow) (name : String) : Option ColumnRow :=
  (rows.filter (·.column == name)).getLast?

/-- The column of `owner` that `row` describes, each of its fields written out: the codes and the
type name are taken over, the nullability is read off the code, and the `dialect` is only asked
about the raw default. -/
def ColumnRow.described (row : ColumnRow) (dialect : Dialect) (owner : ColumnOwner) : Column where
  name := row.column
  owner := owner
  typeCode := row.typeCode
  size := row.size
  digits := row.digits
  typeName := row.typeName
  nullability :=
    if row.nullableCode = 0 then .notNull
    else if row.nullableCode = 1 then .nullable
    else .unknown
  autoIncrement := dialect.numbersRows row.rawDefault
  defaultValue := dialect.portable row.rawDefault

@[simp] theorem ColumnRow.name_described (row : ColumnRow) (dialect : Dialect)
    (owner : ColumnOwner) : (row.described dialect owner).name = row.column := rfl

/-- What the reader makes of a row is what the row describes: `dialect.columnOfRow owner row =
row.described dialect owner`. -/
theorem columnOfRow_eq_described (dialect : Dialect) (owner : ColumnOwner) (row : ColumnRow) :
    dialect.columnOfRow owner row = row.described dialect owner := rfl

/-- The columns that `rows` describe for `owner`. The first row of a name decides on the place of
the column, the last one (`lastRow?`) on its content (`ColumnRow.described`). -/
def Dialect.columnsOfRows (dialect : Dialect) (owner : ColumnOwner) (rows : List ColumnRow) :
    List Column :=
  (rows.map (·.column)).eraseDups.filterMap fun name =>
    (lastRow? rows name).map (·.described dialect owner)

theorem lastRow?_append_singleton (rows : List ColumnRow) (row : ColumnRow) (name : String) :
    lastRow? (rows ++ [row]) name = if row.column = name then some row else lastRow? rows name := by
  unfold lastRow?
  by_cases h : row.column = name <;> simp [h]

theorem column_of_lastRow? {rows : List ColumnRow} {name : String} {row : ColumnRow}
    (h : lastRow? rows name = some row) : row.column = name := by
  have hmem := List.mem_of_getLast? h
  simpa using (List.mem_filter.1 hmem).2

theorem exists_lastRow? {rows : List ColumnRow} {name : String}
    (h : name ∈ rows.map (·.column)) : ∃ row, lastRow? rows name = some row := by
  obtain ⟨row, hrow, hname⟩ := List.mem_map.1 h
  have hne : rows.filter (·.column == name) ≠ [] :=
    List.ne_nil_of_mem (List.mem_filter.2 ⟨hrow, by simpa using hname⟩)
  exact ⟨_, List.getLast?_eq_some_getLast hne⟩

/-- The names of `dialect.columnsOfRows owner rows` are those of the rows, each once. -/
theorem map_name_columnsOfRows (dialect : Dialect) (owner : ColumnOwner) (rows : List ColumnRow) :
    (dialect.columnsOfRows owner rows).map (·.name) = (rows.map (·.column)).eraseDups := by
  unfold Dialect.columnsOfRows
  rw [List.map_filterMap]
  have hself : ∀ name ∈ (rows.map (·.column)).eraseDups,
      ((lastRow? rows name).map (·.described dialect owner)).map (·.name) = some name := by
    intro name hname
    obtain ⟨row, hrow⟩ := exists_lastRow? (List.mem_eraseDups.1 hname)
    rw [hrow, Option.map_some, Option.map_some, ColumnRow.name_described, column_of_lastRow? hrow]
  rw [List.filterMap_congr hself, List.filterMap_some]

/-- `putColumn column` on a list that is given by names: the column takes the place of its name, or
the end if the name is not among `names`. -/
theorem putColumn_filterMap (column : Column) {names : List String} {f : String → Option Column}
    (hnodup : names.Nodup) (hf : ∀ name ∈ names, ∃ c, f name = some c ∧ c.name = name) :
    putColumn column (names.filterMap f) =
      names.filterMap (fun name => if column.name = name then some column else f name) ++
        if column.name ∈ names then [] else [column] := by
  induction names with
  | nil => rfl
  | cons name rest ih =>
    rw [List.nodup_cons] at hnodup
    obtain ⟨c, hc, hname⟩ := hf name List.mem_cons_self
    rw [List.filterMap_cons_some hc, putColumn, hname]
    by_cases heq : name = column.name
    · -- The name is this one, so it does not turn up again.
      subst heq
      have hrest : rest.filterMap (fun n => if column.name = n then some column else f n) =
          rest.filterMap f := by
        apply List.filterMap_congr
        intro n hn
        rw [if_neg]
        rintro rfl
        exact hnodup.1 hn
      simp [hrest]
    · have hne : column.name ≠ name := Ne.symm heq
      rw [if_neg heq, ih hnodup.2 fun n hn => hf n (List.mem_cons_of_mem _ hn)]
      simp [hc, hne]

/-- One more row puts its column into the columns so far: `columnsOfRows owner (rows ++ [row])` is
`putColumn` of that of `rows`. -/
theorem columnsOfRows_append_singleton (dialect : Dialect) (owner : ColumnOwner)
    (rows : List ColumnRow) (row : ColumnRow) :
    dialect.columnsOfRows owner (rows ++ [row]) =
      putColumn (dialect.columnOfRow owner row) (dialect.columnsOfRows owner rows) := by
  -- The last rows are those of before, except for the name that the new row is about.
  have hnext : (fun name =>
      (lastRow? (rows ++ [row]) name).map (·.described dialect owner)) =
      fun name => if row.column = name then some (row.described dialect owner)
        else (lastRow? rows name).map (·.described dialect owner) := by
    funext name
    rw [lastRow?_append_singleton]
    split <;> rfl
  have hput := putColumn_filterMap (row.described dialect owner)
    (f := fun name => (lastRow? rows name).map (·.described dialect owner))
    (nodup_eraseDups (rows.map (·.column))) (by
      intro name hname
      obtain ⟨last, hlast⟩ := exists_lastRow? (List.mem_eraseDups.1 hname)
      exact ⟨_, by rw [hlast]; rfl, column_of_lastRow? hlast⟩)
  unfold Dialect.columnsOfRows
  rw [columnOfRow_eq_described, hput, hnext, List.map_append, List.map_singleton,
    eraseDups_append_singleton, ColumnRow.name_described]
  simp only [List.mem_eraseDups]
  split <;> simp

/-! ### The columns of all containers -/

namespace Containers

theorem owner?_putColumn (c : Containers) (column : Column) (name : String) :
    (c.putColumn column).owner? name = c.owner? name := by
  unfold putColumn
  cases column.owner <;> simp only [owner?, OrderedMap.contains_modify]

/-- `(c.addRow dialect row).1.owner? name = c.owner? name`: a column row does not change what a name
resolves to. -/
theorem owner?_addRow (dialect : Dialect) (c : Containers) (row : ColumnRow) (name : String) :
    (c.addRow dialect row).1.owner? name = c.owner? name := by
  unfold addRow
  split
  · rfl
  · exact owner?_putColumn c _ name

theorem columnsOf_addRow (dialect : Dialect) (c : Containers) (row : ColumnRow)
    (owner : ColumnOwner) :
    (c.addRow dialect row).1.columnsOf owner =
      if c.owner? row.table = some owner then
        SchemaSnapshot.putColumn (dialect.columnOfRow owner row) (c.columnsOf owner)
      else c.columnsOf owner := by
  unfold addRow
  cases hrow : c.owner? row.table with
  | none => simp
  | some other =>
    dsimp only
    rw [columnsOf_putColumn (holds_of_owner? hrow), Dialect.owner_columnOfRow]
    by_cases heq : owner = other
    · simp [heq]
    · rw [if_neg heq, if_neg fun h => heq (Option.some.inj h).symm]

theorem addRows_append (dialect : Dialect) (c : Containers) (rows more : List ColumnRow) :
    c.addRows dialect (rows ++ more) =
      (((c.addRows dialect rows).1.addRows dialect more).1,
        (c.addRows dialect rows).2 ++ ((c.addRows dialect rows).1.addRows dialect more).2) := by
  induction rows generalizing c with
  | nil => rfl
  | cons row rest ih => simp only [List.cons_append, addRows, ih, List.append_assoc]

theorem owner?_addRows (dialect : Dialect) (c : Containers) (rows : List ColumnRow)
    (name : String) : (c.addRows dialect rows).1.owner? name = c.owner? name := by
  induction rows generalizing c with
  | nil => rfl
  | cons row rest ih => exact (ih _).trans (owner?_addRow dialect c row name)

/-- A container without columns is given `columnsOfRows` of the rows that its name resolves to. -/
theorem columnsOf_addRows (dialect : Dialect) {c : Containers} {owner : ColumnOwner}
    (h : c.columnsOf owner = []) (rows : List ColumnRow) :
    (c.addRows dialect rows).1.columnsOf owner =
      dialect.columnsOfRows owner (rows.filter fun row => c.owner? row.table = some owner) := by
  induction rows using List.reverseRecOn with
  | nil => exact h
  | append_singleton rows row ih =>
    rw [addRows_append]
    show ((c.addRows dialect rows).1.addRow dialect row).1.columnsOf owner = _
    rw [columnsOf_addRow, owner?_addRows, ih, List.filter_append]
    by_cases hrow : c.owner? row.table = some owner
    · -- the new row is the last one about this owner
      rw [if_pos hrow, List.filter_cons_of_pos (by simpa using hrow), List.filter_nil,
        columnsOfRows_append_singleton]
    · rw [if_neg hrow, List.filter_cons_of_neg (by simpa using hrow), List.filter_nil,
        List.append_nil]

/-- `after` differs from `c` in its columns only, if at all. -/
structure ColumnsApart (c after : Containers) : Prop where
  tables : ∀ name, after.tables.get? name = (c.tables.get? name).map fun table =>
    { table with columns := after.columnsOf (.table name) }
  views : ∀ name, after.views.get? name = (c.views.get? name).map fun view =>
    { view with columns := after.columnsOf (.view name) }

theorem ColumnsApart.refl (c : Containers) : c.ColumnsApart c := by
  constructor
  · intro name
    cases hget : c.tables.get? name <;> simp [columnsOf, hget]
  · intro name
    cases hget : c.views.get? name <;> simp [columnsOf, hget]

theorem ColumnsApart.trans {c mid after : Containers} (h₁ : c.ColumnsApart mid)
    (h₂ : mid.ColumnsApart after) : c.ColumnsApart after := by
  constructor
  · intro name
    rw [h₂.tables, h₁.tables, Option.map_map]
    rfl
  · intro name
    rw [h₂.views, h₁.views, Option.map_map]
    rfl

theorem columnsApart_putColumn (c : Containers) (column : Column) :
    c.ColumnsApart (c.putColumn column) := by
  unfold putColumn
  cases column.owner with
  | table other =>
    refine ⟨?_, (ColumnsApart.refl c).views⟩
    intro name
    simp only [columnsOf, OrderedMap.get?_modify]
    by_cases hname : name = other
    · -- the table has been given the column, in its list only
      subst hname
      cases c.tables.get? name <;> simp
    · cases c.tables.get? name <;> simp [hname]
  | view other =>
    refine ⟨(ColumnsApart.refl c).tables, ?_⟩
    intro name
    simp only [columnsOf, OrderedMap.get?_modify]
    by_cases hname : name = other
    · subst hname
      cases c.views.get? name <;> simp
    · cases c.views.get? name <;> simp [hname]

theorem columnsApart_addRow (dialect : Dialect) (c : Containers) (row : ColumnRow) :
    c.ColumnsApart (c.addRow dialect row).1 := by
  unfold addRow
  split
  · exact .refl c
  · exact columnsApart_putColumn c _

/-- Column rows change nothing but columns: `c.ColumnsApart` of what they make of `c`. -/
theorem columnsApart_addRows (dialect : Dialect) (c : Containers) (rows : List ColumnRow) :
    c.ColumnsApart (c.addRows dialect rows).1 := by
  induction rows generalizing c with
  | nil => exact .refl c
  | cons row rest ih => exact (columnsApart_addRow dialect c row).trans (ih _)

/-! ### Warnings -/

/-- What there is to warn about `row` after the rows `earlier`: that no table or view has its name,
or that there was a row about the same column already. -/
def rowWarnings (c : Containers) (earlier : List ColumnRow) (row : ColumnRow) : List Warning :=
  if !(c.tables.contains row.table || c.views.contains row.table) then
    [.unresolvedColumnOwner row.table row.column]
  else if earlier.any fun e => e.table == row.table && e.column == row.column then
    [.duplicateColumn row.table row.column]
  else
    []

/-- The `rowWarnings` of some rows in their order, each after the rows before it. -/
def columnWarnings (c : Containers) : List ColumnRow → List ColumnRow → List Warning
  | _, [] => []
  | earlier, row :: later =>
    c.rowWarnings earlier row ++ c.columnWarnings (earlier ++ [row]) later

theorem owner?_eq_none_iff {c : Containers} {name : String} :
    c.owner? name = none ↔ (!(c.tables.contains name || c.views.contains name)) = true := by
  unfold owner?
  cases c.tables.contains name <;> cases c.views.contains name <;> simp

theorem owner?_eq_owner?_iff {c : Containers} {name other : String} {owner : ColumnOwner}
    (h : c.owner? name = some owner) : c.owner? other = some owner ↔ other = name := by
  constructor
  · intro hother
    rw [← name_of_owner? h, ← name_of_owner? hother]
  · rintro rfl
    exact h

end Containers

theorem isSome_findColumn?_iff {columns : List Column} {name : String} :
    (findColumn? columns name).isSome = true ↔ name ∈ columns.map (·.name) := by
  simp [findColumn?]

namespace Containers

/-- The warnings of `row` in the middle of a run are `c.rowWarnings earlier row`. -/
theorem warnings_addRow (dialect : Dialect) {c : Containers} (h : ∀ owner, c.columnsOf owner = [])
    (earlier : List ColumnRow) (row : ColumnRow) :
    ((c.addRows dialect earlier).1.addRow dialect row).2 = c.rowWarnings earlier row := by
  unfold addRow rowWarnings
  rw [owner?_addRows]
  cases howner : c.owner? row.table with
  | none =>
    rw [if_pos (owner?_eq_none_iff.1 howner)]
  | some owner =>
    have hresolved : ¬(!(c.tables.contains row.table || c.views.contains row.table)) = true := by
      rw [← owner?_eq_none_iff, howner]
      simp
    have hseen : ((findColumn? ((c.addRows dialect earlier).1.columnsOf owner) row.column).isSome =
        true) ↔ (earlier.any fun e => e.table == row.table && e.column == row.column) = true := by
      rw [isSome_findColumn?_iff, columnsOf_addRows dialect (h owner), map_name_columnsOfRows,
        List.mem_eraseDups]
      simp [owner?_eq_owner?_iff howner, and_assoc]
    rw [if_neg hresolved]
    dsimp only
    simp only [hseen]

theorem warnings_addRows (dialect : Dialect) {c : Containers} (h : ∀ owner, c.columnsOf owner = [])
    (earlier rows : List ColumnRow) :
    ((c.addRows dialect earlier).1.addRows dialect rows).2 = c.columnWarnings earlier rows := by
  -- By induction on the rows to come: each of them joins the earlier ones for those after it.
  induction rows generalizing earlier with
  | nil => rfl
  | cons row later ih =>
    have hnext : ((c.addRows dialect earlier).1.addRow dialect row).1 =
        (c.addRows dialect (earlier ++ [row])).1 := by
      rw [addRows_append]
      rfl
    rw [addRows, columnWarnings, ← ih, ← hnext, ← warnings_addRow dialect h]

/-! ### Nothing is lost -/

/-- All columns of `c`, those of the tables before those of the views. -/
def columns (c : Containers) : List Column :=
  c.tables.values.flatMap (·.columns) ++ c.views.values.flatMap (·.columns)

end Containers

theorem length_putColumn (column : Column) (columns : List Column) :
    (putColumn column columns).length +
        (if (findColumn? columns column.name).isSome then 1 else 0) = columns.length + 1 := by
  have hlength := congrArg List.length (map_name_putColumn column columns)
  rw [List.length_map] at hlength
  by_cases h : column.name ∈ columns.map (·.name)
  · rw [if_pos h, List.length_map] at hlength
    rw [if_pos (isSome_findColumn?_iff.2 h), hlength]
  · rw [if_neg h, List.length_append, List.length_map] at hlength
    rw [if_neg (mt isSome_findColumn?_iff.1 h), hlength]
    rfl

namespace Containers

theorem length_columns_putColumn (c : Containers) (column : Column)
    (h : c.holds column.owner = true) :
    (c.putColumn column).columns.length +
        (if (findColumn? (c.columnsOf column.owner) column.name).isSome then 1 else 0) =
      c.columns.length + 1 := by
  unfold putColumn
  cases howner : column.owner with
  | table name =>
    rw [howner] at h
    obtain ⟨table, htable⟩ := OrderedMap.contains_iff.1 h
    obtain ⟨before, after, hold, hnew⟩ := OrderedMap.entries_modify
      (f := fun t => { t with columns := SchemaSnapshot.putColumn column t.columns }) htable
    have hput := length_putColumn column table.columns
    simp only [columns, OrderedMap.values, hold, hnew, columnsOf, htable, Option.elim_some,
      List.map_append, List.map_cons, List.flatMap_append, List.flatMap_cons, List.length_append]
    omega
  | view name =>
    rw [howner] at h
    obtain ⟨view, hview⟩ := OrderedMap.contains_iff.1 h
    obtain ⟨before, after, hold, hnew⟩ := OrderedMap.entries_modify
      (f := fun v => { v with columns := SchemaSnapshot.putColumn column v.columns }) hview
    have hput := length_putColumn column view.columns
    simp only [columns, OrderedMap.values, hold, hnew, columnsOf, hview, Option.elim_some,
      List.map_append, List.map_cons, List.flatMap_append, List.flatMap_cons, List.length_append]
    omega

/-- A row adds one column or one warning, so the two counts grow by `1` together. -/
theorem length_addRow (dialect : Dialect) (c : Containers) (row : ColumnRow) :
    (c.addRow dialect row).1.columns.length + (c.addRow dialect row).2.length =
      c.columns.length + 1 := by
  unfold addRow
  cases howner : c.owner? row.table with
  | none => rfl
  | some owner =>
    have hput := length_columns_putColumn c (dialect.columnOfRow owner row)
      (holds_of_owner? howner)
    rw [Dialect.owner_columnOfRow, Dialect.name_columnOfRow] at hput
    dsimp only
    rw [← hput]
    split <;> rfl

/-- **Every row ends up as a column or as a warning,** and no column or warning comes from
elsewhere. -/
theorem length_addRows (dialect : Dialect) (c : Containers) (rows : List ColumnRow) :
    (c.addRows dialect rows).1.columns.length + (c.addRows dialect rows).2.length =
      c.columns.length + rows.length := by
  induction rows generalizing c with
  | nil => rfl
  | cons row rest ih =>
    have hrow := length_addRow dialect c row
    have hrest := ih (c.addRow dialect row).1
    rw [addRows]
    simp only [List.length_append, List.length_cons]
    omega

end Containers

/-! ### The second phase -/

namespace Containers

theorem columnsOf_addTable (found : Inventory) (name : String) (owner : ColumnOwner) :
    (found.addTable name).containers.columnsOf owner = found.containers.columnsOf owner := by
  cases owner with
  | table other =>
    simp only [Inventory.addTable, columnsOf, OrderedMap.get?_insertIfNew]
    by_cases hother : other = name
    · subst hother
      cases found.containers.tables.get? other <;> simp
    · simp [hother]
  | view other => rfl

theorem columnsOf_addView {found : Inventory} {name : String}
    (h : found.containers.views.contains name = false) (definition : Option String)
    (owner : ColumnOwner) :
    (found.addView name definition).containers.columnsOf owner =
      found.containers.columnsOf owner := by
  cases owner with
  | table other => rfl
  | view other =>
    simp only [Inventory.addView, columnsOf, OrderedMap.get?_insert]
    by_cases hother : other = name
    · subst hother
      have hnone : found.containers.views.get? other = none := by
        simpa [OrderedMap.contains] using h
      simp [hnone]
    · simp [hother]

/-- The first phase leaves the tables and views without columns: `columnsOf owner = []`. -/
theorem columnsOf_of_objects {r : Reader} {objects : List ObjectRow} {listed : Inventory}
    (h : (objects.foldlM r.addObject {}).outcome = .ok listed) (owner : ColumnOwner) :
    listed.containers.columnsOf owner = [] := by
  rw [Traced.outcome_foldlM] at h
  -- A table that is there keeps its columns, and a view is only added where there is none.
  refine Except.foldlM_preserves (fun found => found.containers.columnsOf owner = []) ?_ ?_ h
  · intro found row after hfound hstep
    rcases Reader.containers_of_addObject hstep with hsame | ⟨-, rfl⟩ | ⟨-, hview, d, rfl⟩
    · -- an excluded row, or one that claims nothing new
      rw [hsame, hfound]
    · rw [columnsOf_addTable, hfound]
    · rw [columnsOf_addView hview, hfound]
  · cases owner <;> rfl

theorem columns_eq_nil {c : Containers} (h : ∀ owner, c.columnsOf owner = []) : c.columns = [] := by
  rw [columns, List.append_eq_nil_iff, List.flatMap_eq_nil_iff, List.flatMap_eq_nil_iff]
  constructor
  · intro table htable
    obtain ⟨⟨name, _⟩, hentry, rfl⟩ := List.mem_map.1 htable
    have hget := OrderedMap.mem_entries_iff.1 hentry
    simpa [columnsOf, hget] using h (.table name)
  · intro view hview
    obtain ⟨⟨name, _⟩, hentry, rfl⟩ := List.mem_map.1 hview
    have hget := OrderedMap.mem_entries_iff.1 hentry
    simpa [columnsOf, hget] using h (.view name)

theorem owner?_of_table {c : Containers} {name : String} (h : c.tables.contains name = true) :
    c.owner? name = some (.table name) := by
  rw [owner?, if_pos h]

theorem owner?_of_view {c : Containers} {name : String} (htable : c.tables.contains name = false)
    (h : c.views.contains name = true) : c.owner? name = some (.view name) := by
  rw [owner?, if_neg (by simp [htable]), if_pos h]

/-- `owner` is given the columns of the rows with `row.table == name`, if `name` resolves to it. -/
theorem columnsOf_addRows_of_owner? (dialect : Dialect) {c : Containers} {owner : ColumnOwner}
    {name : String} (howner : c.owner? name = some owner) (h : c.columnsOf owner = [])
    (rows : List ColumnRow) :
    (c.addRows dialect rows).1.columnsOf owner =
      dialect.columnsOfRows owner (rows.filter (·.table == name)) := by
  rw [columnsOf_addRows dialect h]
  refine congrArg _ (List.filter_congr fun row _ => ?_)
  by_cases hrow : row.table = name
  · rw [hrow, howner]
    simp
  · rw [decide_eq_false (mt (owner?_eq_owner?_iff howner).1 hrow)]
    exact (beq_eq_false_iff_ne.2 hrow).symm

end Containers

namespace Reader

/-- **The result of reading the columns.** Once the tables and views are listed, a live row is one
that is about an object of the user's. Each table and each view is given one column for every name
among its live rows, in the order of the first rows and with the content of the last; nothing else
about it changes. The warnings are those about the live rows, in their order, and every live row is
either a column or a warning. A snapshot has these containers and warnings. -/
theorem readColumns_result {r : Reader} {listed : Inventory} {rows live : List ColumnRow}
    (hlisted : r.readContainers.outcome = .ok listed)
    (hrows : r.source.answer (.columns r.scope) = .ok rows) (hlive : live = rows.filter r.isLive) :
    ∃ found, (r.readColumns listed).outcome = .ok found ∧
      (∀ name, found.containers.tables.get? name =
        (listed.containers.tables.get? name).map fun table =>
          { table with
            columns := r.dialect.columnsOfRows (.table name) (live.filter (·.table == name)) }) ∧
      (∀ name, found.containers.views.get? name =
        (listed.containers.views.get? name).map fun view =>
          { view with
            columns := r.dialect.columnsOfRows (.view name) (live.filter (·.table == name)) }) ∧
      found.warnings = listed.warnings ++ listed.containers.columnWarnings [] live ∧
      live.length =
        found.containers.columns.length + (listed.containers.columnWarnings [] live).length ∧
      ∀ s, r.read.outcome = .ok s → s.tables = found.containers.tables ∧
        s.views = found.containers.views ∧ s.columns = found.containers.columns ∧
        s.warnings = found.warnings := by
  obtain ⟨objects, -, hobjects⟩ := readContainers_eq_ok_iff.1 hlisted
  have hempty := Containers.columnsOf_of_objects hobjects
  have hwf := wellFormed_of_objects hobjects
  have hfound : (r.readColumns listed).outcome = .ok (r.columnsAdded listed rows) :=
    readColumns_eq_ok_iff.2 ⟨rows, hrows, rfl⟩
  subst hlive
  unfold columnsAdded at hfound
  set live := rows.filter r.isLive
  have hwarnings := Containers.warnings_addRows r.dialect hempty [] live
  have hshape := Containers.columnsApart_addRows r.dialect listed.containers live
  refine ⟨_, hfound, ?_, ?_, ?_, ?_, ?_⟩
  · intro name
    rw [hshape.tables]
    apply Option.map_congr
    intro table htable
    have howner := Containers.owner?_of_table (OrderedMap.contains_iff.2 ⟨table, htable⟩)
    rw [Containers.columnsOf_addRows_of_owner? _ howner (hempty _)]
  · intro name
    rw [hshape.views]
    apply Option.map_congr
    intro view hview
    have hcontains := OrderedMap.contains_iff.2 ⟨view, hview⟩
    -- A view of the name keeps a table from having it.
    have htable : listed.containers.tables.contains name = false := by
      rw [← Bool.not_eq_true]
      intro htable
      simp [hwf.disjoint name htable] at hcontains
    have howner := Containers.owner?_of_view htable hcontains
    rw [Containers.columnsOf_addRows_of_owner? _ howner (hempty _)]
  · rw [← hwarnings]
    rfl
  · have hlength := Containers.length_addRows r.dialect listed.containers live
    rw [Containers.columns_eq_nil hempty, List.length_nil, Nat.zero_add] at hlength
    rw [← hwarnings, ← hlength]
    rfl
  · intro s hs
    -- a snapshot keeps what the first two phases have found
    obtain ⟨listed', found, hlisted', hfound', fks, keys, indexes, sequences, -, -, -, -, rfl⟩ :=
      read_eq_ok_iff.1 hs
    obtain rfl := Except.ok.inj (hlisted.symm.trans hlisted')
    obtain rfl := Except.ok.inj (hfound.symm.trans hfound')
    exact ⟨rfl, rfl, rfl, rfl⟩

/-- A shop whose product reports defaults as `dialect` reads them. Its column rows repeat one
column, `orders.id`, and there are one row about nothing and one about the books of a tool. -/
def shop (dialect : Dialect) : Reader where
  dialect := dialect
  source := Listing.source
    { objects := [⟨.table, "orders", none, none⟩, ⟨.view, "totals", none, none⟩]
      columns :=
        [⟨"orders", none, none, "id", 4, 10, 0, "INTEGER", none, 1⟩,
          .ofNumber "ghost" "x" 10,
          ⟨"orders", none, none, "note", 12, 80, 0, "VARCHAR", some "\"none\"", 1⟩,
          .ofNumber "log" "entry" 10,
          ⟨"totals", none, none, "sum", 3, 12, 2, "DECIMAL", none, 2⟩,
          ⟨"orders", none, none, "id", -5, 19, 0, "BIGINT",
            some "(NEXT VALUE FOR PUBLIC.SYSTEM_SEQUENCE_7)", 0⟩]
      bookkeeping := ["log"] }

/-- The table and the view of the shop, as yet without columns. -/
def shopListed : Inventory :=
  (Inventory.addTable {} "orders").addView "totals" none

theorem readColumns_result_shop :
    (∃ found, ((shop .h2).readColumns shopListed).outcome = .ok found ∧
      found.containers.tables.get? "orders" = some
        { name := "orders"
          columns :=
            [⟨"id", .table "orders", -5, 19, 0, "BIGINT", .notNull, true, none⟩,
              ⟨"note", .table "orders", 12, 80, 0, "VARCHAR", .nullable, false,
                some "\"none\""⟩] } ∧
      found.containers.views.get? "totals" = some
        { name := "totals", definition := none
          columns := [⟨"sum", .view "totals", 3, 12, 2, "DECIMAL", .unknown, false, none⟩] } ∧
      found.warnings = [.unresolvedColumnOwner "ghost" "x", .duplicateColumn "orders" "id"]) ∧
    ∃ found, ((shop .cache).readColumns shopListed).outcome = .ok found ∧
      found.containers.tables.get? "orders" = some
        { name := "orders"
          columns :=
            [⟨"id", .table "orders", -5, 19, 0, "BIGINT", .notNull, false,
                some "(NEXT VALUE FOR PUBLIC.SYSTEM_SEQUENCE_7)"⟩,
              ⟨"note", .table "orders", 12, 80, 0, "VARCHAR", .nullable, false,
                some "'none'"⟩] } := by
  have hlisted (dialect : Dialect) : (shop dialect).readContainers.outcome = .ok shopListed := by
    rfl
  constructor
  · obtain ⟨found, hfound, htables, hviews, hwarnings, -⟩ :=
      readColumns_result (r := shop .h2) (hlisted _) rfl rfl
    refine ⟨found, hfound, ?_, ?_, ?_⟩
    · rw [htables]
      rfl
    · rw [hviews]
      rfl
    · rw [hwarnings]
      rfl
  · obtain ⟨found, hfound, htables, -⟩ :=
      readColumns_result (r := shop .cache) (hlisted _) rfl rfl
    refine ⟨found, hfound, ?_⟩
    rw [htables]
    rfl

end Reader

end SchemaSnapshot

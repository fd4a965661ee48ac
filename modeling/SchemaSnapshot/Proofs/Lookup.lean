import SchemaSnapshot.Proofs.Columns
import SchemaSnapshot.Proofs.Grouping

/-!
# Columns by name

A column is known by its place (`Column.place`): the name of its table or view, and its own. In
well-formed containers no two columns have one place (`Containers.WellFormed.nodup_places`), so
looking a place up finds the column that is listed there and nothing else
(`Reader.column?_eq_some_iff`). Hence two columns of two snapshots that have one place are
counterparts of each other.
-/

namespace SchemaSnapshot

/-- Where a column belongs: the name of its table or view, and its own. Whether `c.owner` is a table
or a view does not matter. -/
def Column.place (c : Column) : String × String :=
  (c.owner.name, c.name)

/-! ### Columns of one container -/

namespace OwnedBy

variable {owner : ColumnOwner} {columns : List Column}

/-- `findColumn? columns name` finds the column of that name, if there is one. -/
theorem findColumn?_eq_some_iff (h : OwnedBy owner columns) {name : String} {column : Column} :
    findColumn? columns name = some column ↔ column ∈ columns ∧ column.name = name :=
  find?_key_eq_some_iff Column.name h.nodup

theorem nodup_places (h : OwnedBy owner columns) : (columns.map Column.place).Nodup := by
  -- the second halves of the places are the names
  have hnames : ((columns.map Column.place).map Prod.snd).Nodup := by
    rw [List.map_map]
    exact h.nodup
  exact hnames.of_map

theorem fst_of_mem_places (h : OwnedBy owner columns) {place : String × String}
    (hplace : place ∈ columns.map Column.place) : place.1 = owner.name := by
  obtain ⟨column, hcolumn, rfl⟩ := List.mem_map.1 hplace
  rw [Column.place, h.owner_eq column hcolumn]

end OwnedBy

/-! ### Columns of all containers -/

namespace Containers

variable {c : Containers}

/-- The tables and views of `c` with their columns, the tables first. -/
def parts (c : Containers) : List (ColumnOwner × List Column) :=
  c.tables.entries.map (fun entry => (.table entry.1, entry.2.columns)) ++
    c.views.entries.map fun entry => (.view entry.1, entry.2.columns)

theorem columns_eq_flatMap_parts : c.columns = c.parts.flatMap (·.2) := by
  simp only [columns, parts, OrderedMap.values, List.flatMap_append, List.flatMap_map]

/-- `(owner, columns)` is a part of `c` exactly if `c` holds `owner`, with these columns. -/
theorem mem_parts_iff {owner : ColumnOwner} {columns : List Column} :
    (owner, columns) ∈ c.parts ↔ c.holds owner = true ∧ columns = c.columnsOf owner := by
  cases owner with
  | table name =>
    cases hget : c.tables.get? name <;>
      simp [parts, holds, columnsOf, OrderedMap.contains, OrderedMap.mem_entries_iff, hget, eq_comm]
  | view name =>
    cases hget : c.views.get? name <;>
      simp [parts, holds, columnsOf, OrderedMap.contains, OrderedMap.mem_entries_iff, hget, eq_comm]

namespace WellFormed

theorem ownedBy (h : c.WellFormed) (owner : ColumnOwner) : OwnedBy owner (c.columnsOf owner) := by
  cases owner with
  | table name =>
    cases hget : c.tables.get? name with
    | none => simpa [columnsOf, hget] using OwnedBy.nil _
    | some table => simpa [columnsOf, hget] using (h.table name table hget).2
  | view name =>
    cases hget : c.views.get? name with
    | none => simpa [columnsOf, hget] using OwnedBy.nil _
    | some view => simpa [columnsOf, hget] using (h.view name view hget).2

/-- `c.owner? name = some owner` exactly if `c` holds `owner` and `owner.name = name`. -/
theorem owner?_eq_some_iff (h : c.WellFormed) {name : String} {owner : ColumnOwner} :
    c.owner? name = some owner ↔ c.holds owner = true ∧ owner.name = name := by
  constructor
  · intro howner
    exact ⟨holds_of_owner? howner, name_of_owner? howner⟩
  · rintro ⟨hholds, rfl⟩
    cases owner with
    | table name => exact owner?_of_table hholds
    | view name =>
      -- A table of the name would keep the view from having it.
      refine owner?_of_view ?_ hholds
      rw [← Bool.not_eq_true]
      intro htable
      rw [holds, h.disjoint name htable] at hholds
      cases hholds

/-- `(c.parts.map (·.1.name)).Nodup` if `c.WellFormed`: the names of tables and views are all
different. -/
theorem nodup_names_parts (h : c.WellFormed) : (c.parts.map (·.1.name)).Nodup := by
  have hnames : c.parts.map (·.1.name) = c.tables.keys ++ c.views.keys := by
    simp [parts, OrderedMap.keys, Function.comp_def, ColumnOwner.name]
  rw [hnames, List.nodup_append]
  refine ⟨c.tables.nodup_keys, c.views.nodup_keys, ?_⟩
  rintro name hname _ hname' rfl
  -- a table and a view of one name exclude each other
  have hview := h.disjoint name (OrderedMap.mem_keys_iff.1 hname)
  rw [OrderedMap.mem_keys_iff.1 hname'] at hview
  cases hview

/-- `(c.columns.map Column.place).Nodup` if `c.WellFormed`. -/
theorem nodup_places (h : c.WellFormed) : (c.columns.map Column.place).Nodup := by
  have howned (part : ColumnOwner × List Column) (hpart : part ∈ c.parts) :
      OwnedBy part.1 part.2 := by
    rw [(mem_parts_iff.1 hpart).2]
    exact h.ownedBy part.1
  rw [columns_eq_flatMap_parts, List.map_flatMap, List.nodup_flatMap]
  refine ⟨fun part hpart => (howned part hpart).nodup_places, ?_⟩
  -- Columns of different parts have owners of different names.
  refine (List.pairwise_map.1 h.nodup_names_parts).imp_of_mem ?_
  intro part other hpart hother hne place hplace hplace'
  apply hne
  rw [← (howned part hpart).fst_of_mem_places hplace,
    (howned other hother).fst_of_mem_places hplace']

/-- `c.columns` lists a column exactly if the container that owns it does. -/
theorem mem_columns_iff (h : c.WellFormed) {column : Column} :
    column ∈ c.columns ↔ c.holds column.owner = true ∧ column ∈ c.columnsOf column.owner := by
  rw [columns_eq_flatMap_parts, List.mem_flatMap]
  constructor
  · rintro ⟨⟨owner, columns⟩, hpart, hcolumn⟩
    obtain ⟨hholds, rfl⟩ := mem_parts_iff.1 hpart
    obtain rfl := (h.ownedBy owner).owner_eq column hcolumn
    exact ⟨hholds, hcolumn⟩
  · rintro ⟨hholds, hcolumn⟩
    exact ⟨_, mem_parts_iff.2 ⟨hholds, rfl⟩, hcolumn⟩

end WellFormed

end Containers

/-! ### Columns of a snapshot -/

/-- `s.column? container name` resolves `container` and then searches the columns of its owner. -/
theorem Snapshot.column?_eq_bind_owner? (s : Snapshot) (container name : String) :
    s.column? container name =
      (Containers.owner? ⟨s.tables, s.views⟩ container).bind fun owner =>
        findColumn? (Containers.columnsOf ⟨s.tables, s.views⟩ owner) name := by
  unfold Snapshot.column? Snapshot.table? Snapshot.view? Containers.owner? OrderedMap.contains
  cases htable : s.tables.get? container with
  | some table => simp [Containers.columnsOf, htable, Table.column?]
  | none =>
    cases hview : s.views.get? container with
    | some view => simp [Containers.columnsOf, hview, View.column?]
    | none => simp

namespace Reader

variable {r : Reader} {s : Snapshot}

/-- `s.column?` finds exactly the column of the snapshot that has the two names. -/
theorem column?_eq_some_iff (hs : r.read.outcome = .ok s) {container name : String}
    {column : Column} :
    s.column? container name = some column ↔
      column ∈ s.columns ∧ column.owner.name = container ∧ column.name = name := by
  have hwf := wellFormed_of_read hs
  have hcolumns : column ∈ s.columns ↔ _ := hwf.mem_columns_iff
  rw [Snapshot.column?_eq_bind_owner?, Option.bind_eq_some_iff, hcolumns]
  constructor
  · rintro ⟨owner, howner, hfind⟩
    obtain ⟨hholds, rfl⟩ := hwf.owner?_eq_some_iff.1 howner
    obtain ⟨hmem, hname⟩ := (hwf.ownedBy owner).findColumn?_eq_some_iff.1 hfind
    obtain rfl := (hwf.ownedBy owner).owner_eq column hmem
    exact ⟨⟨hholds, hmem⟩, rfl, hname⟩
  · rintro ⟨⟨hholds, hmem⟩, hcontainer, hname⟩
    exact ⟨column.owner, hwf.owner?_eq_some_iff.2 ⟨hholds, hcontainer⟩,
      (hwf.ownedBy _).findColumn?_eq_some_iff.2 ⟨hmem, hname⟩⟩

/-- At most one column of a snapshot belongs to `container` and is called `name`. -/
theorem length_filter_place_le_one (hs : r.read.outcome = .ok s) (container name : String) :
    (s.columns.filter fun column =>
      column.owner.name = container ∧ column.name = name).length ≤ 1 := by
  -- a column with the place is one occurrence of it among the places
  have hnodup : (s.columns.map Column.place).Nodup := (wellFormed_of_read hs).nodup_places
  have hcount : (s.columns.map Column.place).count (container, name) ≤ 1 :=
    List.nodup_iff_count_le_one.1 hnodup _
  rw [List.count_eq_countP, List.countP_map, List.countP_eq_length_filter] at hcount
  refine le_of_eq_of_le (congrArg List.length (List.filter_congr fun column _ => ?_)) hcount
  rw [Bool.eq_iff_iff]
  simp [Column.place]

/-- **Columns are found by name.** In a snapshot that was read, looking up a column by the name of
its table or view and its own finds a column exactly if it is listed under these names, and at most
one is. So every column is its own counterpart; and if a column has a counterpart in another
snapshot, that one is listed there under the same names and has the column for its own counterpart,
whether the owner is a table or a view. -/
theorem columns_found_by_name {r r' : Reader} {a b : Snapshot} (ha : r.read.outcome = .ok a)
    (hb : r'.read.outcome = .ok b) :
    (∀ container name column, a.column? container name = some column ↔
      column ∈ a.columns ∧ column.owner.name = container ∧ column.name = name) ∧
    (∀ container name, (a.columns.filter fun column =>
      column.owner.name = container ∧ column.name = name).length ≤ 1) ∧
    (∀ column ∈ a.columns, a.counterpart? column = some column) ∧
    ∀ column ∈ a.columns, ∀ other, b.counterpart? column = some other →
      other ∈ b.columns ∧ other.owner.name = column.owner.name ∧ other.name = column.name ∧
        a.counterpart? other = some column := by
  refine ⟨fun container name column => column?_eq_some_iff ha, length_filter_place_le_one ha,
    ?_, ?_⟩
  · intro column hcolumn
    exact (column?_eq_some_iff ha).2 ⟨hcolumn, rfl, rfl⟩
  · intro column hcolumn other hother
    obtain ⟨hmem, howner, hname⟩ := (column?_eq_some_iff hb).1 hother
    exact ⟨hmem, howner, hname, (column?_eq_some_iff ha).2 ⟨hcolumn, howner.symm, hname.symm⟩⟩

/-- A hall whose seats are a table. -/
def hall : Reader where
  source := Listing.source
    { objects := [⟨.table, "seats", none, none⟩]
      columns := [.ofNumber "seats" "row" 10, .ofNumber "seats" "number" 10] }

/-- The same hall after its seats have become a view. -/
def refurbishedHall : Reader where
  source := Listing.source
    { objects := [⟨.view, "seats", none, none⟩]
      columns := [.ofNumber "seats" "number" 19] }

theorem columns_found_by_name_hall :
    ∃ a b, hall.read.outcome = .ok a ∧ refurbishedHall.read.outcome = .ok b ∧
      ∃ column ∈ a.columns, ∃ other ∈ b.columns, column.owner = .table "seats" ∧
        other.owner = .view "seats" ∧ b.counterpart? column = some other ∧
        a.counterpart? other = some column := by
  obtain ⟨a, ha, hcolumn⟩ : ∃ a, hall.read.outcome = .ok a ∧
      Dialect.generic.columnOfRow (.table "seats") (.ofNumber "seats" "number" 10) ∈ a.columns :=
    ⟨_, rfl, by decide⟩
  obtain ⟨b, hb, hother⟩ : ∃ b, refurbishedHall.read.outcome = .ok b ∧
      b.counterpart?
          (Dialect.generic.columnOfRow (.table "seats") (.ofNumber "seats" "number" 10)) =
        some (Dialect.generic.columnOfRow (.view "seats") (.ofNumber "seats" "number" 19)) :=
    ⟨_, rfl, rfl⟩
  obtain ⟨-, -, -, hmatch⟩ := columns_found_by_name ha hb
  obtain ⟨hmem, -, -, hback⟩ := hmatch _ hcolumn _ hother
  exact ⟨a, b, ha, hb, _, hcolumn, _, hmem, rfl, rfl, hother, hback⟩

end Reader

end SchemaSnapshot

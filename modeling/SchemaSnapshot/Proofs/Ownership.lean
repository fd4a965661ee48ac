import SchemaSnapshot.Proofs.Outcome
import SchemaSnapshot.Source
import Mathlib.Data.List.Nodup

/-!
# Every column has one owner

While the tables, the views and their columns are read, the containers stay well-formed
(`Containers.WellFormed`): no name is both a table and a view, every container is found under its
own name, and its columns belong to it and have different names. One object row keeps this
(`Containers.WellFormed.of_addObject`) and so does one column row (`Containers.WellFormed.addRow`),
hence it holds at every point of a run (`Reader.wellFormed_of_containersAfter`) and in every
snapshot.
-/

namespace SchemaSnapshot

/-! ### Columns of one container -/

/-- The columns of a container: they belong to `owner`, and no two of them have the same name. -/
structure OwnedBy (owner : ColumnOwner) (columns : List Column) : Prop where
  owner_eq : ∀ column ∈ columns, column.owner = owner
  nodup : (columns.map (·.name)).Nodup

theorem mem_putColumn {column x : Column} {columns : List Column}
    (h : x ∈ putColumn column columns) : x = column ∨ x ∈ columns := by
  induction columns with
  | nil => exact .inl (List.mem_singleton.1 h)
  | cons existing rest ih =>
    rw [putColumn] at h
    split at h
    · rcases List.mem_cons.1 h with rfl | h
      · exact .inl rfl
      · exact .inr (List.mem_cons_of_mem _ h)
    · rcases List.mem_cons.1 h with rfl | h
      · exact .inr List.mem_cons_self
      · exact (ih h).imp_right (List.mem_cons_of_mem _)

/-- `putColumn` adds a name if it is new, at the end, and keeps the names otherwise. -/
theorem map_name_putColumn (column : Column) (columns : List Column) :
    (putColumn column columns).map (·.name) =
      if column.name ∈ columns.map (·.name) then columns.map (·.name)
      else columns.map (·.name) ++ [column.name] := by
  induction columns with
  | nil => simp [putColumn]
  | cons existing rest ih =>
    rw [putColumn]
    by_cases heq : existing.name = column.name
    · simp [heq]
    · -- The first column has another name, so the rest decides.
      rw [if_neg heq, List.map_cons, ih]
      have hne : column.name ≠ existing.name := Ne.symm heq
      by_cases hmem : column.name ∈ rest.map (·.name)
      · rw [if_pos hmem, if_pos (by rw [List.map_cons]; exact List.mem_cons_of_mem _ hmem),
          List.map_cons]
      · have hmem' : column.name ∉ (existing :: rest).map (·.name) := by
          rw [List.map_cons, List.mem_cons]
          exact fun h => h.elim hne hmem
        rw [if_neg hmem, if_neg hmem', List.map_cons, List.cons_append]

theorem OwnedBy.nil (owner : ColumnOwner) : OwnedBy owner [] :=
  ⟨fun _ h => absurd h List.not_mem_nil, List.nodup_nil⟩

theorem OwnedBy.put {owner : ColumnOwner} {columns : List Column} {column : Column}
    (h : OwnedBy owner columns) (hcolumn : column.owner = owner) :
    OwnedBy owner (putColumn column columns) := by
  constructor
  · intro x hx
    rcases mem_putColumn hx with rfl | hx
    · exact hcolumn
    · exact h.owner_eq x hx
  · rw [map_name_putColumn]
    split
    · exact h.nodup
    · rename_i hnew
      -- a new name at the end is different from all before it
      rw [List.nodup_append]
      refine ⟨h.nodup, List.nodup_singleton _, ?_⟩
      intro a ha b hb heq
      rw [List.mem_singleton.1 hb] at heq
      exact hnew (heq ▸ ha)

/-! ### Tables and views together -/

namespace Containers

/-- Containers that refer to themselves consistently. -/
structure WellFormed (c : Containers) : Prop where
  /-- No name is both a table and a view. -/
  disjoint : ∀ name, c.tables.contains name = true → c.views.contains name = false
  /-- A table is found under its name and owns its columns. -/
  table : ∀ name table, c.tables.get? name = some table →
    table.name = name ∧ OwnedBy (.table name) table.columns
  /-- A view is found under its name and owns its columns. -/
  view : ∀ name view, c.views.get? name = some view →
    view.name = name ∧ OwnedBy (.view name) view.columns

/-- `c.tables.values.map (·.name) = c.tables.keys` if `c.WellFormed`. -/
theorem WellFormed.map_name_tables {c : Containers} (h : c.WellFormed) :
    c.tables.values.map (·.name) = c.tables.keys := by
  rw [OrderedMap.values, OrderedMap.keys, List.map_map]
  apply List.map_congr_left
  rintro ⟨name, table⟩ hentry
  exact (h.table name table (OrderedMap.mem_entries_iff.1 hentry)).1

/-- Whether the table or view that an owner names is in `c`. -/
def holds (c : Containers) : ColumnOwner → Bool
  | .table name => c.tables.contains name
  | .view name => c.views.contains name

/-- `c.holds owner = true` if some name resolves to `owner`. -/
theorem holds_of_owner? {c : Containers} {name : String} {owner : ColumnOwner}
    (h : c.owner? name = some owner) : c.holds owner = true := by
  unfold owner? at h
  split at h
  · rename_i htable
    obtain rfl := Option.some.inj h
    exact htable
  · split at h
    · rename_i hview
      obtain rfl := Option.some.inj h
      exact hview
    · simp at h

theorem name_of_owner? {c : Containers} {name : String} {owner : ColumnOwner}
    (h : c.owner? name = some owner) : owner.name = name := by
  unfold owner? at h
  split at h
  · obtain rfl := Option.some.inj h
    rfl
  · split at h
    · obtain rfl := Option.some.inj h
      rfl
    · simp at h

/-- `putColumn column` changes the columns of `column.owner` and of no other container. -/
theorem columnsOf_putColumn {c : Containers} {column : Column} (h : c.holds column.owner = true)
    (owner : ColumnOwner) :
    (c.putColumn column).columnsOf owner =
      if owner = column.owner then SchemaSnapshot.putColumn column (c.columnsOf owner)
      else c.columnsOf owner := by
  unfold putColumn
  cases howner : column.owner with
  | table name =>
    rw [howner] at h
    -- the table is there, so `modify` reaches it
    obtain ⟨t, ht⟩ := OrderedMap.contains_iff.1 h
    cases owner with
    | table other =>
      simp only [columnsOf, OrderedMap.get?_modify, ColumnOwner.table.injEq]
      by_cases hother : other = name
      · simp [hother, ht]
      · simp [hother]
    | view other => simp [columnsOf]
  | view name =>
    rw [howner] at h
    obtain ⟨v, hv⟩ := OrderedMap.contains_iff.1 h
    cases owner with
    | table other => simp [columnsOf]
    | view other =>
      simp only [columnsOf, OrderedMap.get?_modify, ColumnOwner.view.injEq]
      by_cases hother : other = name
      · simp [hother, hv]
      · simp [hother]

/-! ### One column row -/

/-- `putColumn` keeps containers well-formed. -/
theorem WellFormed.putColumn {c : Containers} (h : c.WellFormed) (column : Column) :
    (c.putColumn column).WellFormed := by
  unfold Containers.putColumn
  cases howner : column.owner with
  | table name =>
    refine ⟨?_, ?_, h.view⟩
    · intro other
      rw [OrderedMap.contains_modify]
      exact h.disjoint other
    · -- Only the table under `name` has changed, and it was given a column of its own.
      intro other table htable
      rw [OrderedMap.get?_modify] at htable
      split at htable
      · rename_i hother
        obtain ⟨old, hold, rfl⟩ := Option.map_eq_some_iff.1 htable
        obtain ⟨hname, howned⟩ := h.table name old hold
        rw [hother]
        exact ⟨hname, howned.put howner⟩
      · exact h.table other table htable
  | view name =>
    refine ⟨?_, h.table, ?_⟩
    · intro other
      -- no table has changed, and the views are still found where they were
      rw [OrderedMap.contains_modify]
      exact h.disjoint other
    · intro other view hview
      rw [OrderedMap.get?_modify] at hview
      split at hview
      · rename_i hother
        obtain ⟨old, hold, rfl⟩ := Option.map_eq_some_iff.1 hview
        obtain ⟨hname, howned⟩ := h.view name old hold
        rw [hother]
        exact ⟨hname, howned.put howner⟩
      · exact h.view other view hview

theorem WellFormed.addRow {c : Containers} (h : c.WellFormed) (dialect : Dialect)
    (row : ColumnRow) : (c.addRow dialect row).1.WellFormed := by
  unfold Containers.addRow
  split
  · exact h
  · exact h.putColumn _

theorem WellFormed.addRows {c : Containers} (h : c.WellFormed) (dialect : Dialect)
    (rows : List ColumnRow) : (c.addRows dialect rows).1.WellFormed := by
  induction rows generalizing c with
  | nil => exact h
  | cons row rest ih => exact ih (h.addRow dialect row)

end Containers

/-! ### One object row -/

/-- The outcome of `addObject`: the view of a row is asked about only where the name is new. -/
theorem Reader.outcome_addObject (r : Reader) (found : Inventory) (row : ObjectRow) :
    (r.addObject found row).outcome =
      if r.source.excludes ⟨row.catalog, row.schema⟩ row.name then .ok found
      else
        match row.kind with
        | .table =>
          if found.containers.views.contains row.name then
            .ok { found with warnings := found.warnings ++ [.nameClaimedTwice row.name] }
          else .ok (found.addTable row.name)
        | .view =>
          if found.containers.tables.contains row.name then
            .ok { found with warnings := found.warnings ++ [.nameClaimedTwice row.name] }
          else if found.containers.views.contains row.name then .ok found
          else
            ((r.source.answer (.viewDefinition row.name)).mapError .connectivity).map
              (found.addView row.name)
        | .other _ => .ok found := by
  -- Both sides decide in the same order; only what is logged on the way is gone.
  unfold Reader.addObject
  split
  · rfl
  · cases row.kind with
    | table =>
      dsimp only
      split <;> rfl
    | view =>
      dsimp only
      split
      · rfl
      · split
        · rfl
        · simp only [Traced.outcome_bind, Reader.outcome_ask, Traced.outcome_pure]
          cases r.source.answer (.viewDefinition row.name) <;> rfl
    | other kind => rfl

/-- `r.addObject` leaves the containers as they are, or adds a table under a name that is no view,
or adds a view under a new name. -/
theorem Reader.containers_of_addObject {r : Reader} {found after : Inventory} {row : ObjectRow}
    (h : (r.addObject found row).outcome = .ok after) :
    after.containers = found.containers ∨
    (found.containers.views.contains row.name = false ∧ after = found.addTable row.name) ∨
    (found.containers.tables.contains row.name = false ∧
      found.containers.views.contains row.name = false ∧
      ∃ definition, after = found.addView row.name definition) := by
  rw [Reader.outcome_addObject] at h
  split at h
  · -- an excluded row does nothing
    obtain rfl := Except.ok.inj h
    exact .inl rfl
  · cases hkind : row.kind with
    | table =>
      simp only [hkind] at h
      split at h
      · obtain rfl := Except.ok.inj h
        exact .inl rfl
      · rename_i hview
        obtain rfl := Except.ok.inj h
        exact .inr (.inl ⟨by simpa using hview, rfl⟩)
    | view =>
      simp only [hkind] at h
      split at h
      · obtain rfl := Except.ok.inj h
        exact .inl rfl
      · rename_i htable
        split at h
        · obtain rfl := Except.ok.inj h
          exact .inl rfl
        · rename_i hview
          -- the name is new, so the source is asked
          cases hanswer : r.source.answer (.viewDefinition row.name) with
          | ok definition =>
            rw [hanswer] at h
            obtain rfl := Except.ok.inj h
            exact .inr (.inr ⟨by simpa using htable, by simpa using hview, definition, rfl⟩)
          | error cause =>
            rw [hanswer] at h
            cases h
    | other kind =>
      simp only [hkind] at h
      obtain rfl := Except.ok.inj h
      exact .inl rfl

namespace Containers

theorem WellFormed.empty : ({} : Containers).WellFormed := by
  constructor
  · intro name h
    simp [OrderedMap.contains, OrderedMap.get?_empty] at h
  · intro name table h
    simp [OrderedMap.get?_empty] at h
  · intro name view h
    simp [OrderedMap.get?_empty] at h

theorem WellFormed.addTable {found : Inventory} (h : found.containers.WellFormed) {name : String}
    (hview : found.containers.views.contains name = false) :
    (found.addTable name).containers.WellFormed := by
  refine ⟨?_, ?_, h.view⟩
  · intro other hother
    rcases OrderedMap.contains_upsert.1 hother with rfl | hother
    · -- the new table is no view, by assumption
      exact hview
    · exact h.disjoint other hother
  · intro other table htable
    simp only [Inventory.addTable, OrderedMap.get?_insertIfNew] at htable
    split at htable
    · -- a table that was there keeps its columns, and a new one has none
      rename_i hother
      obtain rfl := Option.some.inj htable
      subst hother
      cases hold : found.containers.tables.get? other with
      | none => exact ⟨rfl, OwnedBy.nil _⟩
      | some old => exact h.table other old hold
    · exact h.table other table htable

theorem WellFormed.addView {found : Inventory} (h : found.containers.WellFormed) {name : String}
    (htable : found.containers.tables.contains name = false) (definition : Option String) :
    (found.addView name definition).containers.WellFormed := by
  refine ⟨?_, h.table, ?_⟩
  · intro other hother
    -- The new view is no table; every other name is a view exactly if it was one.
    by_contra hview
    rw [Bool.not_eq_false] at hview
    rcases OrderedMap.contains_upsert.1 hview with rfl | hview
    · exact absurd hother (by rw [Inventory.addView, htable]; exact Bool.false_ne_true)
    · rw [h.disjoint other hother] at hview
      exact absurd hview Bool.false_ne_true
  · intro other view hview
    simp only [Inventory.addView, OrderedMap.get?_insert] at hview
    split at hview
    · rename_i hother
      obtain rfl := Option.some.inj hview
      exact ⟨hother.symm, OwnedBy.nil _⟩
    · exact h.view other view hview

/-- **Object rows** keep containers well-formed, whether they are taken, passed over or warned
about. -/
theorem WellFormed.of_addObject {r : Reader} {found after : Inventory} {row : ObjectRow}
    (h : found.containers.WellFormed) (hstep : (r.addObject found row).outcome = .ok after) :
    after.containers.WellFormed := by
  rcases Reader.containers_of_addObject hstep with hsame | ⟨hview, rfl⟩ | ⟨htable, -, d, rfl⟩
  · rw [hsame]
    exact h
  · exact h.addTable hview
  · exact h.addView htable d

end Containers

/-! ### A whole run -/

namespace Reader

theorem wellFormed_of_objects {r : Reader} {objects : List ObjectRow} {listed : Inventory}
    (h : (objects.foldlM r.addObject {}).outcome = .ok listed) : listed.containers.WellFormed := by
  rw [Traced.outcome_foldlM] at h
  exact Except.foldlM_preserves (fun found => found.containers.WellFormed)
    (fun found row after hfound hstep => hfound.of_addObject hstep)
    Containers.WellFormed.empty h

/-- The containers in the middle of a run, after the object rows `objects` and then the column rows
`columns`. -/
def containersAfter (r : Reader) (objects : List ObjectRow) (columns : List ColumnRow) :
    Except ReadError Containers := do
  let listed ← (objects.foldlM r.addObject {}).outcome
  return (listed.containers.addRows r.dialect (columns.filter r.isLive)).1

theorem wellFormed_of_containersAfter {r : Reader} {objects : List ObjectRow}
    {columns : List ColumnRow} {c : Containers} (h : r.containersAfter objects columns = .ok c) :
    c.WellFormed := by
  unfold containersAfter at h
  obtain ⟨listed, hlisted, h⟩ := Except.bind_eq_ok_iff.1 h
  -- the object rows come first, and the column rows keep what they have established
  obtain rfl := Except.pure_eq_ok_iff.1 h
  exact (wellFormed_of_objects hlisted).addRows _ _

/-- A snapshot holds the `containersAfter` all rows. -/
theorem exists_containersAfter {r : Reader} {s : Snapshot} (h : r.read.outcome = .ok s) :
    ∃ objects columns, r.containersAfter objects columns = .ok ⟨s.tables, s.views⟩ := by
  obtain ⟨listed, found, hlisted, hfound, fks, keys, indexes, sequences, -, -, -, -, rfl⟩ :=
    read_eq_ok_iff.1 h
  obtain ⟨objects, -, hobjects⟩ := readContainers_eq_ok_iff.1 hlisted
  obtain ⟨rows, -, rfl⟩ := readColumns_eq_ok_iff.1 hfound
  refine ⟨objects, rows, ?_⟩
  rw [containersAfter, hobjects]
  rfl

theorem wellFormed_of_read {r : Reader} {s : Snapshot} (h : r.read.outcome = .ok s) :
    Containers.WellFormed ⟨s.tables, s.views⟩ := by
  obtain ⟨objects, columns, hafter⟩ := exists_containersAfter h
  exact wellFormed_of_containersAfter hafter

/-- **Every column has one owner.** At every point of a run and in every snapshot, no name is both a
table and a view, every container is found under its own name, owns its columns and has no two of
the same name. The container that a column row resolves to is always there, and the column always
goes into it. -/
theorem wellFormed_throughout (r : Reader) :
    (∀ objects columns c, r.containersAfter objects columns = .ok c →
      c.WellFormed ∧
      ∀ row owner, c.owner? row.table = some owner →
        c.holds owner = true ∧
        (c.addRow r.dialect row).1.columnsOf owner =
          putColumn (r.dialect.columnOfRow owner row) (c.columnsOf owner)) ∧
    ∀ s, r.read.outcome = .ok s → Containers.WellFormed ⟨s.tables, s.views⟩ := by
  constructor
  · intro objects columns c h
    refine ⟨wellFormed_of_containersAfter h, ?_⟩
    intro row owner howner
    have hholds := Containers.holds_of_owner? howner
    refine ⟨hholds, ?_⟩
    rw [Containers.addRow, howner]
    dsimp only
    rw [Containers.columnsOf_putColumn hholds, Dialect.owner_columnOfRow, if_pos rfl]
  · intro s hs
    obtain ⟨objects, columns, h⟩ := exists_containersAfter hs
    exact wellFormed_of_containersAfter h

/-- Rows of a market that claim one name twice and report one column twice. -/
def marketRows : List ObjectRow × List ColumnRow :=
  ([⟨.table, "stalls", none, none⟩, ⟨.view, "stalls", none, none⟩, ⟨.view, "sales", none, none⟩],
    [.ofNumber "stalls" "id" 10, .ofNumber "sales" "sum" 10, .ofNumber "stalls" "id" 19])

theorem wellFormed_throughout_market :
    ∃ c, containersAfter { source := Listing.source {} } marketRows.1 marketRows.2 = .ok c ∧
      c.WellFormed := by
  have hmarket := wellFormed_throughout { source := Listing.source {} }
  obtain ⟨c, hc⟩ : ∃ c, containersAfter { source := Listing.source {} } marketRows.1 marketRows.2 =
      .ok c := ⟨_, rfl⟩
  exact ⟨c, hc, (hmarket.1 _ _ c hc).1⟩

end Reader

end SchemaSnapshot

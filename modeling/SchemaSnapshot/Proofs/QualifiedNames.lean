import SchemaSnapshot.Proofs.Lookup
import Mathlib.Data.List.Perm.Subperm

/-!
# Columns and their qualified names

A qualified name is a container's name and a column's name with a point between them, and either
name may have points of its own. So a text can be read as a qualified name in as many ways as it has
points (`splitsAt`), and no snapshot has more columns of one qualified name than that. Two columns
share a qualified name exactly if the name of one's container goes on, after a point, where the name
of the other's ends (`Column.Straddles`).
-/

namespace SchemaSnapshot

/-! ### Splitting a text at a point -/

/-- All ways to split a text at `mark`, into what is before it and what is after it. -/
def splitsAt (mark : Char) : List Char → List (List Char × List Char)
  | [] => []
  | c :: rest =>
    let later := (splitsAt mark rest).map fun split => (c :: split.1, split.2)
    if c = mark then ([], rest) :: later else later

theorem length_splitsAt (mark : Char) (text : List Char) :
    (splitsAt mark text).length = text.count mark := by
  induction text with
  | nil => rfl
  | cons c rest ih =>
    rw [splitsAt, List.count_cons, ← ih]
    by_cases hc : c = mark <;> simp [hc]

theorem mem_splitsAt_append (mark : Char) (before after : List Char) :
    (before, after) ∈ splitsAt mark (before ++ mark :: after) := by
  induction before with
  | nil => simp [splitsAt]
  | cons c rest ih =>
    have hlater : (c :: rest, after) ∈
        (splitsAt mark (rest ++ mark :: after)).map fun split => (c :: split.1, split.2) :=
      List.mem_map.2 ⟨_, ih, rfl⟩
    rw [List.cons_append, splitsAt]
    -- `c` may be a mark itself, which gives one split more
    split
    · exact List.mem_cons_of_mem _ hlater
    · exact hlater

/-- `before ++ mark :: after = before' ++ mark :: after'` if the two splits are the same, or the
mark of one lies in what the other has before or after its own. -/
theorem append_cons_eq_append_cons_iff {α : Type} {mark : α}
    {before after before' after' : List α} :
    before ++ mark :: after = before' ++ mark :: after' ↔
      (before = before' ∧ after = after') ∨
      (∃ middle, before = before' ++ mark :: middle ∧ after' = middle ++ mark :: after) ∨
      ∃ middle, before' = before ++ mark :: middle ∧ after = middle ++ mark :: after' := by
  constructor
  · intro h
    rcases List.append_eq_append_iff.1 h with ⟨rest, rfl, hrest⟩ | ⟨rest, rfl, hrest⟩
    · -- one of the texts before the marks goes on where the other ends
      cases rest with
      | nil => exact .inl ⟨by simp, by simpa using hrest⟩
      | cons c middle =>
        obtain ⟨rfl, rfl⟩ := List.cons.inj hrest
        exact .inr (.inr ⟨middle, rfl, rfl⟩)
    · cases rest with
      | nil => exact .inl ⟨by simp, by simpa [eq_comm] using hrest⟩
      | cons c middle =>
        obtain ⟨rfl, rfl⟩ := List.cons.inj hrest
        exact .inr (.inl ⟨middle, rfl, rfl⟩)
  · rintro (⟨rfl, rfl⟩ | ⟨middle, rfl, rfl⟩ | ⟨middle, rfl, rfl⟩) <;> simp

namespace Column

variable {a b : Column}

/-! ### Columns of one qualified name -/

theorem toList_qualifiedName (c : Column) :
    c.qualifiedName.toList = c.owner.name.toList ++ '.' :: c.name.toList := by
  simp [qualifiedName]

/-- A shared text could mean `a` and `b`: what the name of the container of `a` has beyond the name
of that of `b`, after a point, is what the name of `b` has in front of the name of `a`, before a
point. -/
def Straddles (a b : Column) : Prop :=
  ∃ middle : String,
    a.owner.name = b.owner.name ++ "." ++ middle ∧ b.name = middle ++ "." ++ a.name

theorem straddles_iff :
    a.Straddles b ↔
      ∃ middle, a.owner.name.toList = b.owner.name.toList ++ '.' :: middle ∧
        b.name.toList = middle ++ '.' :: a.name.toList := by
  constructor
  · rintro ⟨middle, howner, hname⟩
    exact ⟨middle.toList, by simp [howner], by simp [hname]⟩
  · rintro ⟨middle, howner, hname⟩
    refine ⟨String.ofList middle, String.toList_inj.1 ?_, String.toList_inj.1 ?_⟩
    · simp [howner]
    · simp [hname]

/-- `a.qualifiedName = b.qualifiedName` if `a` and `b` have one place, or one straddles the
other. -/
theorem qualifiedName_eq_iff :
    a.qualifiedName = b.qualifiedName ↔ a.place = b.place ∨ a.Straddles b ∨ b.Straddles a := by
  rw [← String.toList_inj, toList_qualifiedName, toList_qualifiedName,
    append_cons_eq_append_cons_iff, String.toList_inj, String.toList_inj, straddles_iff,
    straddles_iff, place, place, Prod.mk.injEq]

theorem Straddles.point_mem (h : a.Straddles b) :
    '.' ∈ a.owner.name.toList ∧ '.' ∈ b.name.toList := by
  obtain ⟨middle, howner, hname⟩ := straddles_iff.1 h
  simp [howner, hname]

end Column

namespace Reader

variable {r : Reader} {s : Snapshot}

theorem eq_of_place_eq (hs : r.read.outcome = .ok s) {a b : Column} (ha : a ∈ s.columns)
    (hb : b ∈ s.columns) (h : a.place = b.place) : a = b :=
  List.inj_on_of_nodup_map (wellFormed_of_read hs).nodup_places ha hb h

/-- At most as many columns have the qualified name `text` as it has points. -/
theorem length_filter_qualifiedName_le (hs : r.read.outcome = .ok s) (text : String) :
    (s.columns.filter fun column => column.qualifiedName = text).length ≤
      text.toList.count '.' := by
  -- Every such column is a way to split the text, and no two are the same way.
  let named := s.columns.filter fun column => column.qualifiedName = text
  let split (column : Column) : List Char × List Char :=
    (column.owner.name.toList, column.name.toList)
  have hnodup : (named.map split).Nodup := by
    have hcolumns : s.columns.Nodup := (wellFormed_of_read hs).nodup_places.of_map
    refine (hcolumns.filter _).map_on fun a ha b hb heq => ?_
    have hnames := Prod.mk.inj heq
    exact eq_of_place_eq hs (List.mem_filter.1 ha).1 (List.mem_filter.1 hb).1
      (Prod.ext (String.toList_inj.1 hnames.1) (String.toList_inj.1 hnames.2))
  have hsubset : named.map split ⊆ splitsAt '.' text.toList := by
    intro pair hpair
    obtain ⟨column, hcolumn, rfl⟩ := List.mem_map.1 hpair
    obtain rfl := of_decide_eq_true (List.mem_filter.1 hcolumn).2
    rw [Column.toList_qualifiedName]
    exact mem_splitsAt_append '.' _ _
  calc named.length
      = (named.map split).length := (List.length_map _).symm
    _ ≤ (splitsAt '.' text.toList).length := (hnodup.subperm hsubset).length_le
    _ = text.toList.count '.' := length_splitsAt '.' text.toList

/-- **Qualified names and columns.** In a snapshot that was read, two columns have the same
qualified name exactly if one straddles the other. So the columns of one qualified name are at most
as many as the name has points; and a qualified name belongs to one column only if no container in
the snapshot has a name with a point, and likewise if no column has. -/
theorem qualifiedNames_of_read (hs : r.read.outcome = .ok s) :
    (∀ a ∈ s.columns, ∀ b ∈ s.columns, a ≠ b →
      (a.qualifiedName = b.qualifiedName ↔ a.Straddles b ∨ b.Straddles a)) ∧
    (∀ text, (s.columns.filter fun column => column.qualifiedName = text).length ≤
      text.toList.count '.') ∧
    ((∀ column ∈ s.columns, '.' ∉ column.owner.name.toList) ∨
        (∀ column ∈ s.columns, '.' ∉ column.name.toList) →
      ∀ a ∈ s.columns, ∀ b ∈ s.columns, a.qualifiedName = b.qualifiedName → a = b) := by
  have hshare : ∀ a ∈ s.columns, ∀ b ∈ s.columns, a ≠ b →
      (a.qualifiedName = b.qualifiedName ↔ a.Straddles b ∨ b.Straddles a) := by
    intro a ha b hb hne
    rw [Column.qualifiedName_eq_iff, or_iff_right]
    exact fun hplace => hne (eq_of_place_eq hs ha hb hplace)
  refine ⟨hshare, length_filter_qualifiedName_le hs, ?_⟩
  intro hpoints a ha b hb heq
  by_contra hne
  -- a column that straddles another has a point in the name of its container, the other in its own
  rcases (hshare a ha b hb hne).1 heq with h | h
  · exact hpoints.elim (· a ha h.point_mem.1) (· b hb h.point_mem.2)
  · exact hpoints.elim (· b hb h.point_mem.1) (· a ha h.point_mem.2)

/-- An orchard with a plot, and with a part of the plot as a table of its own. -/
def orchard : Reader where
  source := Listing.source
    { objects := [⟨.table, "plot", none, none⟩, ⟨.table, "plot.north", none, none⟩]
      columns := [.ofNumber "plot" "north.trees" 10, .ofNumber "plot.north" "trees" 10] }

/-- The trees in the north of the plot, a column of the plot. -/
def northTrees : Column :=
  Dialect.generic.columnOfRow (.table "plot") (.ofNumber "plot" "north.trees" 10)

/-- The trees, a column of the north of the plot. -/
def treesOfNorth : Column :=
  Dialect.generic.columnOfRow (.table "plot.north") (.ofNumber "plot.north" "trees" 10)

theorem columns_orchard :
    ∃ s, orchard.read.outcome = .ok s ∧ s.columns = [northTrees, treesOfNorth] :=
  ⟨_, rfl, rfl⟩

theorem qualifiedNames_of_read_orchard :
    ∃ s, orchard.read.outcome = .ok s ∧ s.columns = [northTrees, treesOfNorth] ∧
      (northTrees.Straddles treesOfNorth ∨ treesOfNorth.Straddles northTrees) ∧
      (s.columns.filter fun column => column.qualifiedName = "plot.north.trees").length ≤ 2 := by
  obtain ⟨s, hs, hcolumns⟩ := columns_orchard
  obtain ⟨hshare, hcount, -⟩ := qualifiedNames_of_read hs
  have hnorth : northTrees ∈ s.columns := by simp [hcolumns]
  have htrees : treesOfNorth ∈ s.columns := by simp [hcolumns]
  have hstraddles := (hshare _ hnorth _ htrees (by decide)).1 (by decide)
  exact ⟨s, hs, hcolumns, hstraddles, hcount "plot.north.trees"⟩

/-- A qualified name does not tell a column: the orchard has two columns called
`plot.north.trees`. -/
theorem plot_north_trees_twice :
    ¬∀ (r : Reader) (s : Snapshot), r.read.outcome = .ok s →
      ∀ a ∈ s.columns, ∀ b ∈ s.columns, a ≠ b → a.qualifiedName ≠ b.qualifiedName := by
  intro hdistinct
  obtain ⟨s, hs, hcolumns⟩ := columns_orchard
  have hnorth : northTrees ∈ s.columns := by simp [hcolumns]
  have htrees : treesOfNorth ∈ s.columns := by simp [hcolumns]
  exact hdistinct orchard s hs _ hnorth _ htrees (by decide) (by decide)

end Reader

end SchemaSnapshot

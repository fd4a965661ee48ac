import SchemaSnapshot.Proofs.Agreement
import SchemaSnapshot.Proofs.Names
import SchemaSnapshot.Proofs.Columns
import SchemaSnapshot.Proofs.ForeignKeys
import SchemaSnapshot.Proofs.Indexes
import SchemaSnapshot.Proofs.PrimaryKeys
import SchemaSnapshot.Source
import Mathlib.Data.List.Count

/-!
# Rows in another order

Two sources may report the same rows in different orders (`MetadataSource.Rearranged`). Here each
kind of rows is shown to amount to the same in every order: what the rows say is taken apart by what
they are about, and the rows about one thing do not disagree. What the order must not decide is the
kind of a name (`Reader.ClaimsApart`), the table of an index (`TablesAgree`) and which of two rows
about one column is the later one. Only warnings come in another order
(`Containers.warnings_perm_of_filter`).
-/

namespace SchemaSnapshot

/-! ### Rearranged answers -/

/-- Answers to `call` with the same rows. Rows about columns of one table keep their order. -/
def Call.Rearranged : (call : Call) → call.Answer → call.Answer → Prop
  | .objects _, rows, rows' => rows.Perm rows'
  | .viewDefinition _, query, query' => query = query'
  | .columns _, rows, rows' => rows.Perm rows' ∧
      ∀ table, rows.filter (·.table = table) = rows'.filter (·.table = table)
  | .foreignKeysTo _ _, rows, rows' => rows.Perm rows'
  | .primaryKeys _ _, rows, rows' => rows.Perm rows'
  | .indexInfo _ _, rows, rows' => rows.Perm rows'
  | .sequenceNames, names, names' => names.Perm names'

/-- Sources that report the same rows, fail to answer the same calls, and do not differ
otherwise. -/
structure MetadataSource.Rearranged (source source' : MetadataSource) : Prop where
  label : source.label = source'.label
  answer : ∀ call,
    Except.Agree (fun _ _ => True) call.Rearranged (source.answer call) (source'.answer call)
  supportsSequences : source.supportsSequences = source'.supportsSequences
  supportsDeferrable : source.supportsDeferrable = source'.supportsDeferrable
  isSystem : source.isSystem = source'.isSystem
  isBookkeeping : source.isBookkeeping = source'.isBookkeeping

/-- The same database with its rows reported in order: objects and sequences by name, columns by
table, rows of keys and indexes by column. -/
def Listing.sorted (l : Listing) : Listing where
  objects := orderedBy (·.name) l.objects
  columns := orderedBy (·.table) l.columns
  foreignKeys := orderedBy (·.column) l.foreignKeys
  primaryKeys := orderedBy (·.column) l.primaryKeys
  indexes := orderedBy (·.column) l.indexes
  sequences := orderedBy id l.sequences
  queries := l.queries
  bookkeeping := l.bookkeeping

theorem Listing.rearranged_sorted (l : Listing) : l.source.Rearranged l.sorted.source := by
  refine ⟨rfl, fun call => .ok ?_, rfl, rfl, rfl, rfl⟩
  cases call with
  | objects scope => exact (orderedBy_perm _ _).symm
  | viewDefinition name => rfl
  | columns scope =>
    exact ⟨(orderedBy_perm _ _).symm, fun table => (filter_orderedBy _ table l.columns).symm⟩
  | foreignKeysTo scope table => exact ((orderedBy_perm _ l.foreignKeys).filter _).symm
  | primaryKeys scope table => exact ((orderedBy_perm _ l.primaryKeys).filter _).symm
  | indexInfo scope table => exact ((orderedBy_perm _ l.indexes).filter _).symm
  | sequenceNames => exact (orderedBy_perm _ _).symm

/-- `e` and `e'` have the same cause. -/
def SameKind (e e' : ReadError) : Prop := e.kind = e'.kind

/-- No name in `rows` is claimed by a table and by a view. -/
def Reader.ClaimsApart (r : Reader) (rows : List ObjectRow) : Prop :=
  ∀ row ∈ rows, ∀ other ∈ rows, r.isClaim row = true → r.isClaim other = true →
    row.name = other.name → row.kind = other.kind

instance (r : Reader) (rows : List ObjectRow) : Decidable (r.ClaimsApart rows) :=
  inferInstanceAs (Decidable (∀ row ∈ rows, ∀ other ∈ rows, _))

/-- Any two of `parts` with the name of one index are on the same table. -/
def TablesAgree (parts : List IndexPart) : Prop :=
  ∀ part ∈ parts, ∀ other ∈ parts, part.name = other.name → part.table = other.table

instance (parts : List IndexPart) : Decidable (TablesAgree parts) :=
  inferInstanceAs (Decidable (∀ part ∈ parts, ∀ other ∈ parts, _))

theorem TablesAgree.mono {parts parts' : List IndexPart} (h : TablesAgree parts)
    (hsubset : parts' ⊆ parts) : TablesAgree parts' :=
  fun part hpart other hother => h part (hsubset hpart) other (hsubset hother)

/-- `l` is a permutation of `l'` if for every key they have the same elements in the same order. -/
theorem perm_of_filter_eq {α κ : Type} [DecidableEq α] [DecidableEq κ] (key : α → κ)
    {l l' : List α} (h : ∀ k, l.filter (key · = k) = l'.filter (key · = k)) : l.Perm l' := by
  -- an element comes as often as among those with its key
  refine List.perm_iff_count.2 fun a => ?_
  have hcount (m : List α) : (m.filter (key · = key a)).count a = m.count a :=
    List.count_filter (decide_eq_true rfl)
  rw [← hcount l, h, hcount l']

/-! ### Tables and views -/

namespace Reader

section Claims

variable {r r' : Reader} {rows rows' : List ObjectRow}

theorem claim?_perm (hclaims : r.ClaimsApart rows) (h : rows.Perm rows')
    (hsame : ∀ row, r'.isClaim row = r.isClaim row) (name : String) :
    r'.claim? rows' name = r.claim? rows name := by
  -- A first claim in one order is some claim in the other, so there is a first one of its kind.
  have hpass (kind : ObjectKind) (hkind : r.claim? rows name = some kind) :
      r'.claim? rows' name = some kind := by
    obtain ⟨row, hrow, hclaim, rfl, rfl⟩ := claim?_eq_some hkind
    obtain ⟨kind', hkind'⟩ := exists_claim? (h.mem_iff.1 hrow) ((hsame row).trans hclaim)
    obtain ⟨other, hother, hclaim', hname, rfl⟩ := claim?_eq_some hkind'
    rw [hkind', hclaims row hrow other (h.mem_iff.2 hother) hclaim
      ((hsame other).symm.trans hclaim') hname.symm]
  cases hfirst : r.claim? rows name with
  | some kind => exact hpass kind hfirst
  | none =>
    cases hfirst' : r'.claim? rows' name with
    | none => rfl
    | some kind =>
      obtain ⟨row, hrow, hclaim, rfl, -⟩ := claim?_eq_some hfirst'
      obtain ⟨kind', hkind'⟩ := exists_claim? (h.mem_iff.2 hrow) ((hsame row).symm.trans hclaim)
      -- a name that is claimed in one order is claimed in the other
      rw [hfirst] at hkind'
      cases hkind'

theorem claimWarnings_eq_nil (hclaims : r.ClaimsApart rows) : r.claimWarnings rows = [] := by
  rw [claimWarnings, List.map_eq_nil_iff, List.filter_eq_nil_iff]
  intro row hrow hlate
  rw [Bool.and_eq_true, bne_iff_ne] at hlate
  obtain ⟨kind, hkind⟩ := exists_claim? hrow hlate.1
  -- the first claim and the late one are of the same kind
  obtain ⟨other, hother, hclaim, hname, rfl⟩ := claim?_eq_some hkind
  exact hlate.2 (hkind.trans (congrArg some (hclaims other hother row hrow hclaim hlate.1 hname)))

theorem ClaimsApart.perm (hclaims : r.ClaimsApart rows) (h : rows.Perm rows')
    (hsame : ∀ row, r'.isClaim row = r.isClaim row) : r'.ClaimsApart rows' := by
  intro row hrow other hother hclaim hclaim'
  rw [hsame] at hclaim hclaim'
  exact hclaims row (h.mem_iff.2 hrow) other (h.mem_iff.2 hother) hclaim hclaim'

end Claims

end Reader

/-! ### Columns -/

/-- The table, view or name that a warning is about. -/
def Warning.subject : Warning → String
  | .unresolvedColumnOwner owner _ => owner
  | .duplicateColumn owner _ => owner
  | .nameClaimedTwice name => name

namespace Containers

theorem filter_filter_table {rows : List ColumnRow} {p : ColumnRow → Bool} {table : String}
    (h : ∀ row, p row = true → row.table = table) :
    (rows.filter (·.table = table)).filter p = rows.filter p := by
  rw [List.filter_filter]
  apply List.filter_congr
  intro row _
  cases hrow : p row with
  | true => simp [h row hrow]
  | false => rfl

theorem subject_of_mem_rowWarnings {c : Containers} {earlier : List ColumnRow} {row : ColumnRow}
    {warning : Warning} (h : warning ∈ c.rowWarnings earlier row) :
    warning.subject = row.table := by
  unfold rowWarnings at h
  split at h
  · obtain rfl := List.mem_singleton.1 h
    rfl
  · split at h
    · obtain rfl := List.mem_singleton.1 h
      rfl
    · cases h

/-- `c.rowWarnings` depends on the earlier rows with the same `table` only. -/
theorem rowWarnings_filter (c : Containers) (earlier : List ColumnRow) (row : ColumnRow) :
    c.rowWarnings (earlier.filter (·.table = row.table)) row = c.rowWarnings earlier row := by
  have hany : ((earlier.filter (·.table = row.table)).any fun e =>
      e.table == row.table && e.column == row.column) =
      earlier.any fun e => e.table == row.table && e.column == row.column := by
    rw [List.any_filter]
    refine congrArg earlier.any (funext fun e => ?_)
    by_cases htable : e.table = row.table <;> simp [htable]
  rw [rowWarnings, hany, rowWarnings]

/-- The warnings about `name` are those of the rows with `table = name`. -/
theorem filter_columnWarnings (c : Containers) (name : String) (earlier rows : List ColumnRow) :
    (c.columnWarnings earlier rows).filter (·.subject = name) =
      c.columnWarnings (earlier.filter (·.table = name)) (rows.filter (·.table = name)) := by
  induction rows generalizing earlier with
  | nil => rfl
  | cons row later ih =>
    rw [columnWarnings, List.filter_append, ih, List.filter_append]
    -- The warnings of a row are about its own table or view, so they stay or go together.
    by_cases hrow : row.table = name
    · subst hrow
      have hkeep : (c.rowWarnings earlier row).filter (·.subject = row.table) =
          c.rowWarnings earlier row := by
        rw [List.filter_eq_self]
        intro warning hwarning
        exact decide_eq_true (subject_of_mem_rowWarnings hwarning)
      rw [hkeep, List.filter_cons_of_pos (by simp), List.filter_cons_of_pos (by simp),
        columnWarnings, rowWarnings_filter, List.filter_nil]
    · have hdrop : (c.rowWarnings earlier row).filter (·.subject = name) = [] := by
        rw [List.filter_eq_nil_iff]
        intro warning hwarning
        simpa [subject_of_mem_rowWarnings hwarning] using hrow
      rw [hdrop, List.filter_cons_of_neg (by simpa using hrow),
        List.filter_cons_of_neg (by simpa using hrow), List.filter_nil, List.append_nil,
        List.nil_append]

section Columns

variable {c : Containers} {rows rows' : List ColumnRow}

/-- `(c.addRows dialect rows).1 = (c.addRows dialect rows').1` if the rows of each table come in the
same order. -/
theorem addRows_eq_of_filter (dialect : Dialect) (hempty : ∀ owner, c.columnsOf owner = [])
    (h : ∀ table, rows.filter (·.table = table) = rows'.filter (·.table = table)) :
    (c.addRows dialect rows).1 = (c.addRows dialect rows').1 := by
  have hcolumns (owner : ColumnOwner) : (c.addRows dialect rows).1.columnsOf owner =
      (c.addRows dialect rows').1.columnsOf owner := by
    have howner (row : ColumnRow) (hrow : decide (c.owner? row.table = some owner) = true) :
        row.table = owner.name :=
      (name_of_owner? (of_decide_eq_true hrow)).symm
    rw [columnsOf_addRows dialect (hempty owner), columnsOf_addRows dialect (hempty owner),
      ← filter_filter_table howner, h, filter_filter_table howner]
  -- Nothing but columns can have changed, so the containers are the same.
  have hshape := columnsApart_addRows dialect c rows
  have hshape' := columnsApart_addRows dialect c rows'
  have htables : (c.addRows dialect rows).1.tables = (c.addRows dialect rows').1.tables := by
    apply OrderedMap.ext_get?
    intro name
    rw [hshape.tables, hshape'.tables, hcolumns]
  have hviews : (c.addRows dialect rows).1.views = (c.addRows dialect rows').1.views := by
    apply OrderedMap.ext_get?
    intro name
    rw [hshape.views, hshape'.views, hcolumns]
  calc (c.addRows dialect rows).1
      = ⟨(c.addRows dialect rows).1.tables, (c.addRows dialect rows).1.views⟩ := rfl
    _ = ⟨(c.addRows dialect rows').1.tables, (c.addRows dialect rows').1.views⟩ := by
        rw [htables, hviews]

/-- `rows` and `rows'` make the same warnings, maybe in another order, if the rows of each table
come in the same order. -/
theorem warnings_perm_of_filter (dialect : Dialect) (hempty : ∀ owner, c.columnsOf owner = [])
    (h : ∀ table, rows.filter (·.table = table) = rows'.filter (·.table = table)) :
    (c.addRows dialect rows).2.Perm (c.addRows dialect rows').2 := by
  have hrows := warnings_addRows dialect hempty [] rows
  have hrows' := warnings_addRows dialect hempty [] rows'
  rw [show (c.addRows dialect []).1 = c from rfl] at hrows hrows'
  rw [hrows, hrows']
  apply perm_of_filter_eq Warning.subject
  intro name
  rw [filter_columnWarnings, filter_columnWarnings, h]

end Columns

end Containers

/-! ### Indexes -/

/-- `Index.ofParts first rest = Index.ofParts first' rest'` for two orders of `WellPlaced` columns,
if these agree about the table and the name. -/
theorem Index.ofParts_perm {first first' : IndexPart} {rest rest' : List IndexPart}
    (h : (first :: rest).Perm (first' :: rest')) (hwell : WellPlaced (places (first :: rest)))
    (htable : first.table = first'.table) (hname : first.name = first'.name) :
    Index.ofParts first rest = Index.ofParts first' rest' := by
  rw [Index.ofParts, Index.ofParts, orderedBy_eq_of_perm h hwell.nodup, htable, hname]

namespace PartialIndexes

variable {parts parts' : List IndexPart}

/-- If `TablesAgree parts`, an index that one order makes is made by every order. -/
theorem mem_ofParts_of_perm (h : parts.Perm parts') (hagree : TablesAgree parts)
    {finished finished' : List Index} (hok : ofParts parts = .ok finished)
    (hok' : ofParts parts' = .ok finished') {index : Index} (hindex : index ∈ finished) :
    index ∈ finished' := by
  obtain ⟨first, rest, hparts, rfl⟩ := (mem_ofParts hok index).1 hindex
  have hgroup : (partsNamed first.name parts).Perm (partsNamed first.name parts') := h.filter _
  rw [hparts] at hgroup
  -- the group of the index in the other order, which is not empty
  cases hparts' : partsNamed first.name parts' with
  | nil =>
    rw [hparts'] at hgroup
    cases hgroup.eq_nil
  | cons first' rest' =>
    obtain ⟨hmem, -⟩ := first_of_partsNamed hparts
    obtain ⟨hmem', hname⟩ := first_of_partsNamed hparts'
    rw [hparts'] at hgroup
    have hwell := exists_ofParts_iff.1 ⟨finished, hok⟩ first.name
    rw [hparts] at hwell
    rw [mem_ofParts hok']
    refine ⟨first', rest', hname ▸ hparts', ?_⟩
    exact Index.ofParts_perm hgroup hwell (hagree first hmem first' (h.mem_iff.2 hmem') hname.symm)
      hname.symm

/-- The columns of an answer amount to the same indexes in every order, if `TablesAgree parts`. -/
theorem ofParts_agree (h : parts.Perm parts') (hagree : TablesAgree parts) :
    Except.Agree SameKind (fun l l' => ∀ index, index ∈ l ↔ index ∈ l') (ofParts parts)
      (ofParts parts') := by
  refine .intro ?_ ?_ ?_
  · rw [exists_ofParts_iff, exists_ofParts_iff]
    exact forall_congr' fun name => WellPlaced.congr ((h.filter _).map _)
  · intro finished finished' hok hok' index
    exact ⟨mem_ofParts_of_perm h hagree hok hok',
      mem_ofParts_of_perm h.symm (hagree.mono h.symm.subset) hok' hok⟩
  · intro e e' he he'
    rw [SameKind, kind_of_ofParts he, kind_of_ofParts he']

end PartialIndexes

theorem mem_flatten_of_forall₂ {perTable perTable' : List (List Index)}
    (h : List.Forall₂ (fun l l' => ∀ index, index ∈ l ↔ index ∈ l') perTable perTable')
    (index : Index) : index ∈ perTable.flatten ↔ index ∈ perTable'.flatten := by
  induction h with
  | nil => rfl
  | cons hhead _ ih => rw [List.flatten_cons, List.flatten_cons, List.mem_append, List.mem_append,
      hhead, ih]

end SchemaSnapshot

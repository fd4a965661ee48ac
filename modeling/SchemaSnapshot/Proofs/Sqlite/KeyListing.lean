import SchemaSnapshot.Proofs.Grouping
import SchemaSnapshot.Sqlite.Loading

/-!
# Foreign keys under the tables they refer to

A foreign key is declared on the table that refers and listed under the table referred to. The keys
of several tables come together under one, and a key that leads nowhere joins those that lead to the
table it is declared on. Here the lists are grown key by key, as a map of them is filled
(`keysByTable`). `OrderedMap.filedUnder_fileAll` says what is filed under a name at the end, and
`OrderedMap.values_fileAll_perm` that everything is filed once; `foreignKeys_listed` says where each
declared key goes, and that a metadata source answers from these lists.
-/

namespace SchemaSnapshot

/-! ### Lists that grow under their names -/

namespace OrderedMap

variable {κ β : Type} [Ord κ]

/-- What is filed under `name`, nothing where the name is new. -/
def filedUnder (filed : OrderedMap κ (List β)) (name : κ) : List β :=
  (filed.get? name).getD []

variable [Std.TransOrd κ]

/-- Files `b` under `name`, after what is there. -/
def file (filed : OrderedMap κ (List β)) (name : κ) (b : β) : OrderedMap κ (List β) :=
  filed.upsert name fun held => held.getD [] ++ [b]

/-- Files one thing after another, each under its name. -/
def fileAll (filed : OrderedMap κ (List β)) (entries : List (κ × β)) : OrderedMap κ (List β) :=
  entries.foldl (fun filed entry => filed.file entry.1 entry.2) filed

variable [Std.LawfulEqOrd κ] [DecidableEq κ] {filed : OrderedMap κ (List β)}

/-- Filing `b` makes the list of `name` longer by it, and no other list. -/
theorem filedUnder_file (name : κ) (b : β) (other : κ) :
    (filed.file name b).filedUnder other =
      filed.filedUnder other ++ if name = other then [b] else [] := by
  unfold filedUnder file
  rw [get?_upsert]
  by_cases h : other = name
  · subst h
    simp
  · simp [h, Ne.symm h]

/-- After `fileAll` a list holds what was there, and then what came under its name. -/
theorem filedUnder_fileAll (filed : OrderedMap κ (List β)) (entries : List (κ × β)) (name : κ) :
    (filed.fileAll entries).filedUnder name =
      filed.filedUnder name ++ (entries.filter (·.1 == name)).map (·.2) := by
  induction entries generalizing filed with
  | nil => simp [fileAll]
  | cons entry rest ih =>
    -- the first entry is filed, and the rest are filed after it
    have hrest := ih (filed.file entry.1 entry.2)
    rw [filedUnder_file] at hrest
    show ((filed.file entry.1 entry.2).fileAll rest).filedUnder name = _
    rw [hrest, List.append_assoc]
    by_cases h : entry.1 = name <;> simp [h]

/-- The names after `fileAll` are those that were there and those of the entries. -/
theorem contains_fileAll (filed : OrderedMap κ (List β)) (entries : List (κ × β)) (name : κ) :
    (filed.fileAll entries).contains name = true ↔
      filed.contains name = true ∨ ∃ entry ∈ entries, entry.1 = name := by
  induction entries generalizing filed with
  | nil => simp [fileAll]
  | cons entry rest ih =>
    show ((filed.file entry.1 entry.2).fileAll rest).contains name = true ↔ _
    rw [ih, file, contains_upsert, List.exists_mem_cons_iff, eq_comm (a := name), or_left_comm,
      or_assoc]

omit [Std.TransOrd κ] [DecidableEq κ] in
theorem values_eq_map_filedUnder (filed : OrderedMap κ (List β)) :
    filed.values = filed.keys.map filed.filedUnder := by
  unfold values keys
  rw [List.map_map]
  apply List.map_congr_left
  rintro ⟨name, held⟩ hmem
  rw [Function.comp_apply, filedUnder, mem_entries_iff.1 hmem, Option.getD_some]

/-- The lists together hold a permutation of what was filed: everything, and once. -/
theorem values_fileAll_perm (entries : List (κ × β)) :
    ((∅ : OrderedMap κ (List β)).fileAll entries).values.flatten.Perm (entries.map (·.2)) := by
  set filed := (∅ : OrderedMap κ (List β)).fileAll entries
  have hlists (name : κ) :
      filed.filedUnder name = (entries.filter (·.1 = name)).map (·.2) :=
    filedUnder_fileAll ∅ entries name
  have hnames : ∀ entry ∈ entries, entry.1 ∈ filed.keys := by
    intro entry hentry
    exact mem_keys_iff.2 ((contains_fileAll ∅ entries _).2 (.inr ⟨entry, hentry, rfl⟩))
  have hall : filed.values.flatten =
      (filed.keys.flatMap fun name => entries.filter (·.1 = name)).map (·.2) := by
    rw [values_eq_map_filedUnder, ← List.flatMap_def, List.map_flatMap]
    exact List.flatMap_congr fun name _ => hlists name
  -- The names are distinct and every entry has one of them, so each entry is in one of the lists.
  rw [hall]
  exact (flatMap_filter_perm Prod.fst filed.nodup_keys hnames).map _

end OrderedMap

namespace Sqlite

/-! ### Where a declared key is listed -/

/-- The foreign keys table by table, in the order in which they are declared. -/
def keysByTable (tables : List String) (keys : List PrimaryKeyRow) (declared : List DeclaredKey) :
    OrderedMap String (List ForeignKeyRow) :=
  declared.foldl
    (fun listed k => listed.file (k.resolve tables keys).1 (k.resolve tables keys).2) ∅

/-- The declared key `k` is listed under the table `under`, as `row`. -/
structure DeclaredKey.ListedAs (tables : List String) (keys : List PrimaryKeyRow) (k : DeclaredKey)
    (under : String) (row : ForeignKeyRow) : Prop where
  /-- The key is listed under the first table that has the written name but for the case of its
  letters, and the row has the name as that table does. If there is none, the key is listed under
  its own table, and the row has the name as it is written. -/
  place :
    (∃ before after, tables = before ++ under :: after ∧
      Text.sameIgnoringCase under k.record.target = true ∧
      (∀ other ∈ before, Text.sameIgnoringCase other k.record.target = false) ∧
      row.referencedTable = under) ∨
    ((∀ table ∈ tables, Text.sameIgnoringCase table k.record.target = false) ∧
      under = k.table ∧ row.referencedTable = k.record.target)
  /-- The column referred to is the written one, or else the one at the same place in the primary
  key, or else the row identifier. -/
  referencedColumn : row.referencedColumn =
    (k.record.targetColumn.or
      (keyColumn? keys row.referencedTable (k.record.place + 1))).getD rowIdentifier
  /-- The table that refers is the one on which the key is declared. -/
  table : row.table = k.table
  /-- The column that refers is the declared one. -/
  column : row.column = k.record.column
  constraintName : row.constraintName = none
  deferrabilityCode : row.deferrabilityCode = 7

theorem DeclaredKey.listedAs_resolve (tables : List String) (keys : List PrimaryKeyRow)
    (k : DeclaredKey) :
    k.ListedAs tables keys (k.resolve tables keys).1 (k.resolve tables keys).2 := by
  refine ⟨?_, rfl, rfl, rfl, rfl, rfl⟩
  -- the search for the written name, which may find nothing
  cases hfirst : k.referenced? tables with
  | some first =>
    obtain ⟨hsame, before, after, hsplit, hbefore⟩ := List.find?_eq_some_iff_append.1 hfirst
    left
    simp only [resolve, hfirst, Option.getD_some]
    exact ⟨before, after, hsplit, hsame, by simpa using hbefore, trivial⟩
  | none =>
    have hnone := List.find?_eq_none.1 hfirst
    right
    simp only [resolve, hfirst, Option.getD_none]
    exact ⟨by simpa using hnone, trivial, trivial⟩

/-- `k.ListedAs tables keys under row ↔ k.resolve tables keys = (under, row)`: a key is listed in
one way only. -/
theorem DeclaredKey.listedAs_iff {tables : List String} {keys : List PrimaryKeyRow}
    {k : DeclaredKey} {under : String} {row : ForeignKeyRow} :
    k.ListedAs tables keys under row ↔ k.resolve tables keys = (under, row) := by
  constructor
  · -- All but the place of the key is given by equations, and the place by the first table found.
    rintro ⟨hplace, hreferencedColumn, htable, hcolumn, hconstraint, hdeferrability⟩
    obtain ⟨referencedTable, referencedColumn, table, column, constraintName, code⟩ := row
    dsimp only at hreferencedColumn htable hcolumn hconstraint hdeferrability
    subst hreferencedColumn htable hcolumn hconstraint hdeferrability
    rcases hplace with ⟨before, after, hsplit, hsame, hbefore, rfl⟩ | ⟨hnone, rfl, rfl⟩
    · have hfirst : k.referenced? tables = some referencedTable :=
        List.find?_eq_some_iff_append.2 ⟨hsame, before, after, hsplit, by simpa using hbefore⟩
      simp only [resolve, hfirst, Option.getD_some]
    · have hfirst : k.referenced? tables = none := List.find?_eq_none.2 (by simpa using hnone)
      simp only [resolve, hfirst, Option.getD_none]
  · intro h
    have hlisted := k.listedAs_resolve tables keys
    rwa [h] at hlisted

/-- `under ∈ tables ∨ k.table = under` if `k` is listed under it. -/
theorem DeclaredKey.ListedAs.mem_or_eq {tables : List String} {keys : List PrimaryKeyRow}
    {k : DeclaredKey} {under : String} {row : ForeignKeyRow}
    (h : k.ListedAs tables keys under row) : under ∈ tables ∨ k.table = under := by
  rcases h.place with ⟨before, after, rfl, -⟩ | ⟨-, hunder, -⟩
  · left
    simp
  · exact .inr hunder.symm

variable {tables : List String} {keys : List PrimaryKeyRow} {declared : List DeclaredKey}

theorem keysByTable_eq_fileAll :
    keysByTable tables keys declared =
      (∅ : OrderedMap String (List ForeignKeyRow)).fileAll
        (declared.map (·.resolve tables keys)) := by
  rw [OrderedMap.fileAll, List.foldl_map]
  rfl

theorem filedUnder_keysByTable (table : String) :
    (keysByTable tables keys declared).filedUnder table =
      ((declared.map (·.resolve tables keys)).filter (·.1 == table)).map (·.2) := by
  rw [keysByTable_eq_fileAll, OrderedMap.filedUnder_fileAll]
  rfl

/-- **Turning foreign keys around loses none and doubles none.** Take any tables, primary key rows
and declared keys. Every key is listed in one place: under the first table of the written name,
whatever its case, or under its own table where no table has the name. The list of a table has the
rows of the keys that go there, in the order of their declarations, so all lists together have one
row for every key. Nothing is listed under a name that is neither among the tables nor that of a
table that refers. These are the lists from which what has been loaded is answered. -/
theorem foreignKeys_listed (tables : List String) (keys : List PrimaryKeyRow)
    (declared : List DeclaredKey) :
    (∀ (k : DeclaredKey) (under : String) (row : ForeignKeyRow),
      k.ListedAs tables keys under row ↔ k.resolve tables keys = (under, row)) ∧
    (∀ table, (keysByTable tables keys declared).filedUnder table =
      (declared.filter fun k => (k.resolve tables keys).1 == table).map
        fun k => (k.resolve tables keys).2) ∧
    (keysByTable tables keys declared).values.flatten.Perm
      (declared.map fun k => (k.resolve tables keys).2) ∧
    (keysByTable tables keys declared).values.flatten.length = declared.length ∧
    (∀ table ∈ (keysByTable tables keys declared).keys,
      table ∈ tables ∨ ∃ k ∈ declared, k.table = table) ∧
    ∀ (options : Options) (relations : List (Relation × List ColumnRecord))
      (loaded : List (List IndexRow × List DeclaredKey)) (scope : Scope) (table : String),
      let m := Metadata.ofRecords options relations loaded
      m.source.answer (.foreignKeysTo scope table) =
        .ok ((keysByTable ((m.relations.filter (·.isTable)).map (·.name)) m.primaryKeys
          (loaded.flatMap (·.2))).filedUnder table) := by
  have hperm : (keysByTable tables keys declared).values.flatten.Perm
      (declared.map fun k => (k.resolve tables keys).2) := by
    have hall := OrderedMap.values_fileAll_perm (declared.map (·.resolve tables keys))
    rwa [← keysByTable_eq_fileAll, List.map_map] at hall
  refine ⟨fun k under row => DeclaredKey.listedAs_iff, ?_, hperm, ?_, ?_, ?_⟩
  · intro table
    rw [filedUnder_keysByTable, List.filter_map, List.map_map]
    rfl
  · rw [hperm.length_eq, List.length_map]
  · intro table htable
    rw [OrderedMap.mem_keys_iff, keysByTable_eq_fileAll, OrderedMap.contains_fileAll] at htable
    obtain hnone | ⟨entry, hentry, rfl⟩ := htable
    · cases hnone
    · obtain ⟨k, hk, rfl⟩ := List.mem_map.1 hentry
      exact (k.listedAs_resolve tables keys).mem_or_eq.imp_right fun hown => ⟨k, hk, hown⟩
  · intro options relations loaded scope table m
    rw [filedUnder_keysByTable]
    rfl

/-- The foreign keys of a farm, where two names of tables differ in case only. The fields refer to a
barn and to a silo that is not there, and the barns refer to the fields. -/
def farmKeys : List DeclaredKey :=
  [⟨"fields", 0, 0, "BARNS", "barn", some "id"⟩, ⟨"fields", 1, 0, "silos", "silo", some "id"⟩,
    ⟨"Barns", 0, 0, "Fields", "field", none⟩]

theorem foreignKeys_listed_farm :
    let listed := keysByTable ["fields", "Barns", "barns"] [⟨"fields", "number", 1, none⟩] farmKeys
    listed.filedUnder "fields" =
        [⟨"silos", "id", "fields", "silo", none, 7⟩,
          ⟨"fields", "number", "Barns", "field", none, 7⟩] ∧
      listed.filedUnder "Barns" = [⟨"Barns", "id", "fields", "barn", none, 7⟩] ∧
      listed.values.flatten.length = 3 ∧ "silos" ∉ listed.keys := by
  obtain ⟨-, hlists, -, hlength, hnames, -⟩ := foreignKeys_listed ["fields", "Barns", "barns"]
    [⟨"fields", "number", 1, none⟩] farmKeys
  refine ⟨?_, ?_, hlength, ?_⟩
  · rw [hlists]
    decide
  · rw [hlists]
    decide
  · intro hsilos
    obtain hsilos | ⟨k, hk, hsilos⟩ := hnames _ hsilos
    · revert hsilos
      decide
    · revert k
      decide

end Sqlite

end SchemaSnapshot

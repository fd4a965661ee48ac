import SchemaSnapshot.Proofs.Grouping
import SchemaSnapshot.Proofs.Ownership

/-!
# What the foreign key rows amount to

Both ends of every foreign key have to be tables. If they are, the rows of an answer amount to the
set of the foreign keys that they describe (`Containers.foldlM_addForeignKey_eq_ok_iff`); if they
are not, reading ends for the sake of a reference.

The third phase as a whole comes upon rows and upon calls that fail, in the order of the tables
(`Reader.foreignKeyVisits`). It ends at the first of these that is in the way
(`Containers.obstacle?`), and if there is none, its result is what all the rows describe
(`ForeignKeyRow.Describes`).
-/

namespace SchemaSnapshot

namespace Containers

variable {c : Containers} {deferrable : Bool} {keys after : OrderedSet ForeignKey}

/-- Whether both `row.referencedTable` and `row.table` are tables. -/
def joinsTables (c : Containers) (row : ForeignKeyRow) : Bool :=
  c.tables.contains row.referencedTable && c.tables.contains row.table

theorem requireTable_eq_ok_iff {table column : String} :
    c.requireTable table column = .ok () ↔ c.tables.contains table = true := by
  unfold requireTable
  split <;> simp_all

theorem kind_of_requireTable {table column : String} {e : ReadError}
    (h : c.requireTable table column = .error e) : e.kind = .referentialIntegrity := by
  unfold requireTable at h
  split at h
  · cases h
  · obtain rfl := Except.error.inj h
    rfl

theorem addForeignKey_eq_ok_iff {row : ForeignKeyRow} :
    c.addForeignKey deferrable keys row = .ok after ↔
      c.joinsTables row = true ∧ after = keys.insert (.ofRow deferrable row) := by
  simp only [addForeignKey, Except.bind_eq_ok_iff, Except.pure_eq_ok_iff, joinsTables,
    Bool.and_eq_true, eq_comm (b := after)]
  constructor
  · rintro ⟨_, hreferenced, _, htable, rfl⟩
    exact ⟨⟨requireTable_eq_ok_iff.1 hreferenced, requireTable_eq_ok_iff.1 htable⟩, rfl⟩
  · rintro ⟨⟨hreferenced, htable⟩, rfl⟩
    exact ⟨(), requireTable_eq_ok_iff.2 hreferenced, (), requireTable_eq_ok_iff.2 htable, rfl⟩

theorem kind_of_addForeignKey {row : ForeignKeyRow} {e : ReadError}
    (h : c.addForeignKey deferrable keys row = .error e) : e.kind = .referentialIntegrity := by
  unfold addForeignKey at h
  rcases Except.bind_eq_error_iff.1 h with h | ⟨_, -, h⟩
  · exact kind_of_requireTable h
  · rcases Except.bind_eq_error_iff.1 h with h | ⟨_, -, h⟩
    · exact kind_of_requireTable h
    · cases h

/-- The rows amount to the set of the keys `.ofRow` that they describe, if `c.joinsTables` holds of
all of them, and to no other set. -/
theorem foldlM_addForeignKey_eq_ok_iff {rows : List ForeignKeyRow} :
    rows.foldlM (c.addForeignKey deferrable) keys = .ok after ↔
      (∀ row ∈ rows, c.joinsTables row = true) ∧
        ∀ key, key ∈ after ↔ key ∈ rows.map (.ofRow deferrable) ∨ key ∈ keys := by
  induction rows generalizing keys with
  | nil =>
    show pure keys = _ ↔ _
    rw [Except.pure_eq_ok_iff]
    constructor
    · rintro rfl
      simp
    · rintro ⟨-, h⟩
      apply OrderedSet.ext_mem
      intro key
      simp [h]
  | cons row rest ih =>
    rw [List.foldlM_cons, Except.bind_eq_ok_iff, List.forall_mem_cons]
    simp only [addForeignKey_eq_ok_iff, List.map_cons, List.mem_cons (l := rest.map _)]
    constructor
    · rintro ⟨_, ⟨hrow, rfl⟩, hrest⟩
      obtain ⟨hjoins, hmem⟩ := ih.1 hrest
      refine ⟨⟨hrow, hjoins⟩, fun key => ?_⟩
      -- `row` moves from the keys before to the rows
      rw [hmem, OrderedSet.mem_insert, or_left_comm, or_assoc]
    · rintro ⟨⟨hrow, hjoins⟩, hmem⟩
      refine ⟨_, ⟨hrow, rfl⟩, ih.2 ⟨hjoins, fun key => ?_⟩⟩
      rw [hmem, OrderedSet.mem_insert, or_left_comm, or_assoc]

theorem kind_of_foldlM_addForeignKey {rows : List ForeignKeyRow} {e : ReadError}
    (h : rows.foldlM (c.addForeignKey deferrable) keys = .error e) :
    e.kind = .referentialIntegrity := by
  obtain ⟨mid, row, -, hrow⟩ := Except.error_of_foldlM h
  exact kind_of_addForeignKey hrow

end Containers

/-! ### What a row describes -/

/-- The code by which a row says `deferrability`. -/
def Deferrability.code : Deferrability → Int16
  | .initiallyDeferred => 5
  | .initiallyImmediate => 6
  | .notDeferrable => 7

theorem Deferrability.ofCode?_eq_some_iff {code : Int16} {deferrability : Deferrability} :
    ofCode? code = some deferrability ↔ deferrability.code = code := by
  constructor
  · intro h
    unfold ofCode? at h
    split at h
    · rename_i hcode
      obtain rfl := Option.some.inj h
      exact hcode.symm
    · split at h
      · rename_i hcode
        obtain rfl := Option.some.inj h
        exact hcode.symm
      · split at h
        · rename_i hcode
          obtain rfl := Option.some.inj h
          exact hcode.symm
        · cases h
  · rintro rfl
    cases deferrability <;> rfl

/-- `row` describes `key`. Names are taken over. It is known when the key is checked if the source
can defer checks and the code of the row means something. -/
structure ForeignKeyRow.Describes (deferrable : Bool) (row : ForeignKeyRow) (key : ForeignKey) :
    Prop where
  name : key.name = row.constraintName
  referencedTable : key.referencedTable = row.referencedTable
  referencedColumn : key.referencedColumn = row.referencedColumn
  table : key.table = row.table
  column : key.column = row.column
  deferrability : ∀ deferrability, key.deferrability = some deferrability ↔
    deferrable = true ∧ deferrability.code = row.deferrabilityCode

theorem ForeignKeyRow.describes_iff {deferrable : Bool} {row : ForeignKeyRow} {key : ForeignKey} :
    row.Describes deferrable key ↔ key = .ofRow deferrable row := by
  have hcode (deferrability : Deferrability) :
      (ForeignKey.ofRow deferrable row).deferrability = some deferrability ↔
        deferrable = true ∧ deferrability.code = row.deferrabilityCode := by
    cases deferrable with
    | false => simp [ForeignKey.ofRow]
    | true => simp [ForeignKey.ofRow, Deferrability.ofCode?_eq_some_iff]
  constructor
  · rintro ⟨hname, hreferenced, hreferencedColumn, htable, hcolumn, hdeferrability⟩
    -- a code is that of one deferrability at most
    have hsame : key.deferrability = (ForeignKey.ofRow deferrable row).deferrability := by
      apply Option.ext
      intro deferrability
      rw [hdeferrability, hcode]
    cases key
    simp_all [ForeignKey.ofRow]
  · rintro rfl
    exact ⟨rfl, rfl, rfl, rfl, rfl, hcode⟩

/-! ### Rows and calls in the order in which they come -/

/-- What the third phase comes upon, table by table: the rows that refer to the table, or the
`cause` why these cannot be had. -/
def Reader.foreignKeyVisits (r : Reader) (tables : List String) :
    List (Except SourceError ForeignKeyRow) :=
  tables.flatMap fun table =>
    match r.source.answer (.foreignKeysTo r.scope table) with
    | .ok rows => rows.map .ok
    | .error cause => [.error cause]

namespace Containers

/-- Why reading ends at a row or at a call, `none` if it goes on: a call fails, or an end of a
foreign key is no table. Of the two ends, the one that is referred to is named first. -/
def obstacle? (c : Containers) : Except SourceError ForeignKeyRow → Option ReadError
  | .error cause => some (.connectivity cause)
  | .ok row =>
    if c.tables.contains row.referencedTable = false then
      some (.referentialIntegrity row.referencedTable row.referencedColumn)
    else if c.tables.contains row.table = false then
      some (.referentialIntegrity row.table row.column)
    else
      none

/-- Takes `row` into account, or ends with the `cause` for which a call failed. -/
def visit (c : Containers) (deferrable : Bool) (keys : OrderedSet ForeignKey) :
    Except SourceError ForeignKeyRow → Except ReadError (OrderedSet ForeignKey)
  | .ok row => c.addForeignKey deferrable keys row
  | .error cause => .error (.connectivity cause)

variable {c : Containers} {deferrable : Bool} {keys after : OrderedSet ForeignKey}

theorem visit_eq_error_iff {seen : Except SourceError ForeignKeyRow} {e : ReadError} :
    c.visit deferrable keys seen = .error e ↔ c.obstacle? seen = some e := by
  cases seen with
  | error cause => simp [visit, obstacle?]
  | ok row =>
    simp only [visit, obstacle?, addForeignKey, requireTable]
    -- An end that is no table is the obstacle, unless the end before it is one.
    cases c.tables.contains row.referencedTable with
    | false => simp [bind, Except.bind]
    | true => cases c.tables.contains row.table <;> simp [bind, Except.bind, pure, Except.pure]

theorem obstacle?_ok_eq_none_iff {row : ForeignKeyRow} :
    c.obstacle? (.ok row) = none ↔ c.joinsTables row = true := by
  simp only [obstacle?, joinsTables]
  cases c.tables.contains row.referencedTable <;> cases c.tables.contains row.table <;> simp

/-- The keys after some visits are those that the rows among them describe, and `keys`. -/
theorem mem_of_foldlM_visit {visits : List (Except SourceError ForeignKeyRow)}
    (h : visits.foldlM (c.visit deferrable) keys = .ok after) (key : ForeignKey) :
    key ∈ after ↔ (∃ row, .ok row ∈ visits ∧ row.Describes deferrable key) ∨ key ∈ keys := by
  induction visits generalizing keys with
  | nil =>
    obtain rfl := Except.pure_eq_ok_iff.1 h
    simp
  | cons seen rest ih =>
    rw [List.foldlM_cons, Except.bind_eq_ok_iff] at h
    obtain ⟨mid, hmid, hrest⟩ := h
    cases seen with
    | error cause => cases hmid
    | ok row =>
      obtain ⟨-, rfl⟩ := addForeignKey_eq_ok_iff.1 hmid
      rw [ih hrest, OrderedSet.mem_insert, ← ForeignKeyRow.describes_iff]
      simp only [List.mem_cons, Except.ok.injEq, or_and_right, exists_or, exists_eq_left]
      rw [or_left_comm, or_assoc]

end Containers

/-! ### The third phase -/

namespace Reader

theorem outcome_addForeignKeysTo (r : Reader) (c : Containers) (keys : OrderedSet ForeignKey)
    (table : String) :
    (r.addForeignKeysTo c keys table).outcome = (do
      let rows ← (r.source.answer (.foreignKeysTo r.scope table)).mapError .connectivity
      rows.foldlM (c.addForeignKey r.source.supportsDeferrable) keys) := by
  simp only [addForeignKeysTo, Traced.outcome_bind, outcome_ask, Traced.outcome_ofExcept]

theorem outcome_readForeignKeys (r : Reader) (c : Containers) :
    (r.readForeignKeys c).outcome =
      c.tables.keys.foldlM (fun keys table => (r.addForeignKeysTo c keys table).outcome) ∅ := by
  simp only [readForeignKeys, Traced.outcome_bind, outcome_announce, Traced.outcome_foldlM]
  rfl

section ThirdPhase

variable {r : Reader} {c : Containers}

theorem foldlM_addForeignKeysTo (tables : List String) (keys : OrderedSet ForeignKey) :
    tables.foldlM (fun keys table => (r.addForeignKeysTo c keys table).outcome) keys =
      (r.foreignKeyVisits tables).foldlM (c.visit r.source.supportsDeferrable) keys := by
  induction tables generalizing keys with
  | nil => rfl
  | cons table rest ih =>
    rw [List.foldlM_cons, outcome_addForeignKeysTo, foreignKeyVisits, List.flatMap_cons,
      List.foldlM_append]
    cases r.source.answer (.foreignKeysTo r.scope table) with
    | error cause => rfl
    | ok rows =>
      dsimp only
      rw [List.foldlM_map]
      exact congrArg _ (funext ih)

/-- The third phase is `c.visit` of one visit after another, in the order of
`r.foreignKeyVisits`. -/
theorem outcome_readForeignKeys_eq_visits : (r.readForeignKeys c).outcome =
    (r.foreignKeyVisits c.tables.keys).foldlM (c.visit r.source.supportsDeferrable) ∅ := by
  rw [outcome_readForeignKeys, foldlM_addForeignKeysTo]

/-- `r.readForeignKeys c` fails with the first obstacle among its visits. -/
theorem readForeignKeys_eq_error_iff {e : ReadError} :
    (r.readForeignKeys c).outcome = .error e ↔
      (r.foreignKeyVisits c.tables.keys).findSome? c.obstacle? = some e := by
  rw [outcome_readForeignKeys_eq_visits]
  apply Except.foldlM_eq_error_iff
  intro keys seen e
  exact Containers.visit_eq_error_iff

theorem mem_of_readForeignKeys {keys : OrderedSet ForeignKey}
    (h : (r.readForeignKeys c).outcome = .ok keys) (key : ForeignKey) :
    key ∈ keys ↔ ∃ row, .ok row ∈ r.foreignKeyVisits c.tables.keys ∧
      row.Describes r.source.supportsDeferrable key := by
  rw [outcome_readForeignKeys_eq_visits] at h
  rw [Containers.mem_of_foldlM_visit h]
  exact or_iff_left OrderedSet.not_mem_empty

/-- Both ends of a foreign key that is found, `key.referencedTable` and `key.table`, are tables of
`c`. -/
theorem ends_of_readForeignKeys {keys : OrderedSet ForeignKey}
    (h : (r.readForeignKeys c).outcome = .ok keys) {key : ForeignKey} (hkey : key ∈ keys) :
    c.tables.contains key.referencedTable = true ∧ c.tables.contains key.table = true := by
  obtain ⟨row, hrow, hdescribes⟩ := (mem_of_readForeignKeys h key).1 hkey
  -- the phase has succeeded, so nothing was in the way
  have hnone : (r.foreignKeyVisits c.tables.keys).findSome? c.obstacle? = none := by
    rw [Option.eq_none_iff_forall_ne_some]
    intro e he
    rw [readForeignKeys_eq_error_iff.2 he] at h
    cases h
  have hjoins := Containers.obstacle?_ok_eq_none_iff.1 (List.findSome?_eq_none_iff.1 hnone _ hrow)
  rw [hdescribes.referencedTable, hdescribes.table]
  simpa [Containers.joinsTables] using hjoins

end ThirdPhase

/-- Taken apart by the table that each names, the elements of `l` are all there, each once: a
permutation of `l`. -/
theorem flatMap_tables_perm {r : Reader} {s : Snapshot} (hs : r.read.outcome = .ok s) {α : Type}
    (table : α → String) {l : List α} (hl : ∀ a ∈ l, s.tables.contains (table a) = true) :
    (s.tables.values.flatMap fun t => l.filter (table · == t.name)).Perm l := by
  have hnames := (wellFormed_of_read hs).map_name_tables
  have hflat : (s.tables.values.flatMap fun t => l.filter (table · == t.name)) =
      s.tables.keys.flatMap fun name => l.filter (table · = name) := by
    rw [← hnames, List.flatMap_map]
    simp only [beq_eq_decide]
  rw [hflat]
  apply flatMap_filter_perm _ s.tables.nodup_keys
  intro a ha
  exact OrderedMap.mem_keys_iff.2 (hl a ha)

/-- `s.foreignKeysOf` of all tables of `s` together are a permutation of `s.foreignKeys`. -/
theorem foreignKeysOf_tables_perm {r : Reader} {s : Snapshot} (hs : r.read.outcome = .ok s)
    (hends : ∀ key ∈ s.foreignKeys, s.tables.contains key.table = true) :
    (s.tables.values.flatMap fun table => s.foreignKeysOf table.name).Perm s.foreignKeys.toList :=
  flatMap_tables_perm hs ForeignKey.table hends

/-- **The result of reading the foreign keys.** The phase comes upon the rows of all answers, table
by table in the order of the names, and upon the calls that fail. If one of these is in the way, the
phase fails for the first one, and so does the run: with the reason of the call, or with the end of
the foreign key that is no table. Else the foreign keys are those that the rows describe. So both
ends of every foreign key of a snapshot are tables of it, and the foreign keys of its tables are all
there, each once. -/
theorem readForeignKeys_result (r : Reader) (c : Containers) :
    (∀ e, (r.foreignKeyVisits c.tables.keys).findSome? c.obstacle? = some e →
      (r.readForeignKeys c).outcome = .error e ∧
        (r.ReachesForeignKeys c → r.read.outcome = .error e)) ∧
    ((r.foreignKeyVisits c.tables.keys).findSome? c.obstacle? = none →
      ∃ keys, (r.readForeignKeys c).outcome = .ok keys ∧
        (∀ key, key ∈ keys ↔ ∃ row, .ok row ∈ r.foreignKeyVisits c.tables.keys ∧
          row.Describes r.source.supportsDeferrable key) ∧
        (r.ReachesForeignKeys c → ∀ s, r.read.outcome = .ok s → s.foreignKeys = keys)) ∧
    ∀ s, r.read.outcome = .ok s →
      (∀ key ∈ s.foreignKeys, s.tables.contains key.referencedTable = true ∧
        s.tables.contains key.table = true) ∧
      s.foreignKeys.toList.Nodup ∧
      (s.tables.values.flatMap fun table => s.foreignKeysOf table.name).Perm
        s.foreignKeys.toList := by
  refine ⟨fun e he => ?_, fun hnone => ?_, fun s hs => ?_⟩
  · have herror := readForeignKeys_eq_error_iff.2 he
    exact ⟨herror, fun hreaches => hreaches.error herror⟩
  · rcases Except.ok_or_error (r.readForeignKeys c).outcome with ⟨keys, hkeys⟩ | ⟨e, he⟩
    · refine ⟨keys, hkeys, mem_of_readForeignKeys hkeys, fun hreaches s hs => ?_⟩
      -- both runs read the same tables in the third phase
      obtain ⟨-, hkeys', -⟩ := hreaches.of_read hs
      exact Except.ok.inj (hkeys'.symm.trans hkeys)
    · rw [readForeignKeys_eq_error_iff, hnone] at he
      cases he
  · obtain ⟨c', hreaches⟩ := exists_reachesForeignKeys hs
    obtain ⟨htables, hkeys, -⟩ := hreaches.of_read hs
    have hends : ∀ key ∈ s.foreignKeys, s.tables.contains key.referencedTable = true ∧
        s.tables.contains key.table = true := by
      intro key hkey
      rw [← htables]
      exact ends_of_readForeignKeys hkeys hkey
    refine ⟨hends, s.foreignKeys.nodup, ?_⟩
    exact foreignKeysOf_tables_perm hs fun key hkey => (hends key hkey).2

/-- A school whose pupils are told to be in classes twice, and once in a house. -/
def school : Reader where
  source := Listing.source
    { objects := [⟨.table, "pupils", none, none⟩, ⟨.table, "classes", none, none⟩]
      foreignKeys := [⟨"classes", "id", "pupils", "class", none, 7⟩,
        ⟨"classes", "id", "pupils", "class", none, 7⟩,
        ⟨"pupils", "house", "houses", "id", none, 7⟩] }

theorem readForeignKeys_result_school :
    (∃ keys, (school.readForeignKeys (((Inventory.addTable {} "pupils").addTable "classes").addTable
        "houses").containers).outcome = .ok keys ∧
      ⟨none, "classes", "id", "pupils", "class", some .notDeferrable⟩ ∈ keys) ∧
    (school.readForeignKeys
        ((Inventory.addTable {} "pupils").addTable "classes").containers).outcome =
      .error (.referentialIntegrity "houses" "id") := by
  constructor
  · obtain ⟨keys, hkeys, hmem, -⟩ := (readForeignKeys_result school
      (((Inventory.addTable {} "pupils").addTable "classes").addTable "houses").containers).2.1 rfl
    refine ⟨keys, hkeys, (hmem _).2 ⟨⟨"classes", "id", "pupils", "class", none, 7⟩, ?_, ?_⟩⟩
    · exact List.mem_cons_self
    · exact ForeignKeyRow.describes_iff.2 rfl
  · exact ((readForeignKeys_result school
      ((Inventory.addTable {} "pupils").addTable "classes").containers).1 _ rfl).1

end Reader

end SchemaSnapshot

import SchemaSnapshot.Proofs.Contents

/-!
# What is excluded has no part in a run

A source knows of objects that are no objects of the user's, and reports rows about them among the
others. Two sources that report the same about the user's objects (`MetadataSource.SameForUser`)
make runs that end alike, whatever they report about the rest (`Reader.read_of_sameForUser`): rows
about excluded objects change nothing, and no call is made about an excluded table.
-/

namespace SchemaSnapshot

/-! ### Sources that agree about the user's objects -/

namespace MetadataSource

/-- Whether `row` is about an object of the user's. -/
def showsObject (source : MetadataSource) (row : ObjectRow) : Bool :=
  !source.excludes ⟨row.catalog, row.schema⟩ row.name

/-- Whether `row` is about a column of an object of the user's. -/
def showsColumn (source : MetadataSource) (row : ColumnRow) : Bool :=
  !source.excludes ⟨row.catalog, row.schema⟩ row.table

/-- `name` is that of an object of the user's in some catalog and schema. -/
def Shows (source : MetadataSource) (name : String) : Prop :=
  ∃ scope, source.excludes scope name = false

/-- `source` and `source'` report the same about the user's objects when `scope` is read. -/
structure SameForUser (source source' : MetadataSource) (scope : Scope) : Prop where
  label : source.label = source'.label
  supportsSequences : source.supportsSequences = source'.supportsSequences
  supportsDeferrable : source.supportsDeferrable = source'.supportsDeferrable
  isSystem : source.isSystem = source'.isSystem
  isBookkeeping : source.isBookkeeping = source'.isBookkeeping
  objects : (source.answer (.objects scope)).map (List.filter source.showsObject) =
    (source'.answer (.objects scope)).map (List.filter source.showsObject)
  columns : (source.answer (.columns scope)).map (List.filter source.showsColumn) =
    (source'.answer (.columns scope)).map (List.filter source.showsColumn)
  viewDefinition : ∀ name, source.Shows name →
    source.answer (.viewDefinition name) = source'.answer (.viewDefinition name)
  foreignKeysTo : ∀ table, source.Shows table →
    source.answer (.foreignKeysTo scope table) = source'.answer (.foreignKeysTo scope table)
  primaryKeys : ∀ table, source.Shows table →
    source.answer (.primaryKeys scope table) = source'.answer (.primaryKeys scope table)
  indexInfo : ∀ table, source.Shows table →
    source.answer (.indexInfo scope table) = source'.answer (.indexInfo scope table)
  sequenceNames : source.answer .sequenceNames = source'.answer .sequenceNames

theorem SameForUser.excludes_eq {source source' : MetadataSource} {scope : Scope}
    (h : source.SameForUser source' scope) : source.excludes = source'.excludes := by
  funext scope name
  simp only [excludes, h.isSystem, h.isBookkeeping]

end MetadataSource

/-- Using the rows after `change` is using the answer `answer.map change`. -/
theorem bind_of_map {α β γ ε ε' : Type} (answer : Except ε α) (g : ε → ε') (change : α → β)
    (f : β → Except ε' γ) :
    (answer.mapError g >>= fun rows => f (change rows)) =
      ((answer.map change).mapError g >>= f) := by
  cases answer <;> rfl

namespace Reader

variable {r r' : Reader}

/-! ### The phases -/

/-- Leaving out the rows without `showsObject` makes no difference to the first phase. -/
theorem outcome_objects_filter (r : Reader) (rows : List ObjectRow) :
    ((rows.filter r.source.showsObject).foldlM r.addObject {}).outcome =
      (rows.foldlM r.addObject {}).outcome := by
  rw [Traced.outcome_foldlM, Traced.outcome_foldlM]
  apply Except.foldlM_filter
  intro row _ hrow found
  rw [outcome_addObject, if_pos (by simpa [MetadataSource.showsObject] using hrow)]

/-- The first phase goes through the rows with `showsObject`. -/
theorem outcome_readContainers_live (r : Reader) : r.readContainers.outcome = (do
    let rows ← ((r.source.answer (.objects r.scope)).map
      (List.filter r.source.showsObject)).mapError .connectivity
    (rows.foldlM r.addObject {}).outcome) := by
  rw [outcome_readContainers, ← bind_of_map]
  simp only [outcome_objects_filter]

/-- The second phase goes through the rows with `showsColumn`. -/
theorem outcome_readColumns_live (r : Reader) (listed : Inventory) :
    (r.readColumns listed).outcome = (do
      let live ← ((r.source.answer (.columns r.scope)).map
        (List.filter r.source.showsColumn)).mapError .connectivity
      return {
        containers := (listed.containers.addRows r.dialect live).1
        warnings := listed.warnings ++ (listed.containers.addRows r.dialect live).2 }) := by
  rw [outcome_readColumns, ← bind_of_map]
  rfl

theorem outcome_addObject_congr (hexcludes : r.source.excludes = r'.source.excludes)
    (hviews : ∀ name, r.source.Shows name →
      r.source.answer (.viewDefinition name) = r'.source.answer (.viewDefinition name))
    (found : Inventory) (row : ObjectRow) :
    (r.addObject found row).outcome = (r'.addObject found row).outcome := by
  rw [outcome_addObject, outcome_addObject, ← hexcludes]
  split
  · rfl
  · -- the row is about an object of the user's, so its name is shown
    rename_i hlive
    rw [hviews row.name ⟨_, Bool.not_eq_true _ ▸ hlive⟩]

/-- Object rows come to the same for `r` and `r'` if their sources exclude the same and give the
same view definitions for the names that `r.source.Shows`. -/
theorem outcome_objects_congr (hexcludes : r.source.excludes = r'.source.excludes)
    (hviews : ∀ name, r.source.Shows name →
      r.source.answer (.viewDefinition name) = r'.source.answer (.viewDefinition name))
    (rows : List ObjectRow) :
    (rows.foldlM r.addObject {}).outcome = (rows.foldlM r'.addObject {}).outcome := by
  rw [Traced.outcome_foldlM, Traced.outcome_foldlM]
  exact Except.foldlM_congr
    (fun row _ found => outcome_addObject_congr hexcludes hviews found row) _

theorem readContainers_congr (h : r.source.SameForUser r'.source r.scope)
    (hscope : r.scope = r'.scope) : r.readContainers.outcome = r'.readContainers.outcome := by
  have hshows : r'.source.showsObject = r.source.showsObject := by
    funext row
    rw [MetadataSource.showsObject, MetadataSource.showsObject, h.excludes_eq]
  rw [outcome_readContainers_live, outcome_readContainers_live, hshows, ← hscope, h.objects]
  simp only [outcome_objects_congr h.excludes_eq h.viewDefinition]

theorem readColumns_congr (h : r.source.SameForUser r'.source r.scope)
    (hscope : r.scope = r'.scope) (hdialect : r.dialect = r'.dialect) (listed : Inventory) :
    (r.readColumns listed).outcome = (r'.readColumns listed).outcome := by
  have hshows : r'.source.showsColumn = r.source.showsColumn := by
    funext row
    rw [MetadataSource.showsColumn, MetadataSource.showsColumn, h.excludes_eq]
  rw [outcome_readColumns_live, outcome_readColumns_live, hshows, ← hscope, h.columns, hdialect]

/-- `r.source.Shows table` for every table with which a run comes to the third phase. -/
theorem shows_of_reachesForeignKeys {c : Containers} (h : r.ReachesForeignKeys c) {table : String}
    (htable : table ∈ c.tables.keys) : r.source.Shows table := by
  obtain ⟨listed, found, hlisted, hfound, hc⟩ := h
  obtain ⟨objects, hobjects, -⟩ := readContainers_eq_ok_iff.1 hlisted
  obtain ⟨columns, hcolumns, -⟩ := readColumns_eq_ok_iff.1 hfound
  have hcontents := contents_of_reachesForeignKeys hobjects hcolumns
    ⟨listed, found, hlisted, hfound, hc⟩
  -- a table has claimed its name by a row of the user's
  obtain ⟨row, -, hclaim, rfl, -⟩ := claim?_eq_some (hcontents.mem_keys.1 htable)
  exact ⟨_, (isClaim_iff.1 hclaim).1⟩

section Tables

variable {c : Containers}

theorem readForeignKeys_congr
    (hdeferrable : r.source.supportsDeferrable = r'.source.supportsDeferrable)
    (h : ∀ table ∈ c.tables.keys, r.source.answer (.foreignKeysTo r.scope table) =
      r'.source.answer (.foreignKeysTo r'.scope table)) :
    (r.readForeignKeys c).outcome = (r'.readForeignKeys c).outcome := by
  rw [outcome_readForeignKeys, outcome_readForeignKeys]
  refine Except.foldlM_congr (fun table htable keys => ?_) _
  rw [outcome_addForeignKeysTo, outcome_addForeignKeysTo, h table htable, hdeferrable]

theorem readPrimaryKeys_congr
    (h : ∀ table ∈ c.tables.keys, r.source.answer (.primaryKeys r.scope table) =
      r'.source.answer (.primaryKeys r'.scope table)) :
    (r.readPrimaryKeys c).outcome = (r'.readPrimaryKeys c).outcome := by
  rw [outcome_readPrimaryKeys, outcome_readPrimaryKeys]
  refine congrArg (· >>= _) (Except.foldlM_congr (fun table htable keys => ?_) _)
  rw [outcome_addPrimaryKeysOf, outcome_addPrimaryKeysOf, h table htable]

/-- The fifth phase depends on `indexParts` of the answers, and on nothing else in the rows. -/
theorem readIndexes_congr
    (h : ∀ table ∈ c.tables.keys, (r.source.answer (.indexInfo r.scope table)).map indexParts =
      (r'.source.answer (.indexInfo r'.scope table)).map indexParts)
    (keys : OrderedSet PrimaryKey) :
    (r.readIndexes c keys).outcome = (r'.readIndexes c keys).outcome := by
  rw [outcome_readIndexes, outcome_readIndexes]
  refine congrArg (· >>= _) (Except.mapM_congr fun table htable => ?_)
  rw [outcome_readIndexesOf, outcome_readIndexesOf, bind_of_map, h table htable, ← bind_of_map]

end Tables

theorem readSequences_congr (hsupports : r.source.supportsSequences = r'.source.supportsSequences)
    (h : r.source.answer .sequenceNames = r'.source.answer .sequenceNames) :
    r.readSequences.outcome = r'.readSequences.outcome := by
  rw [outcome_readSequences, outcome_readSequences, hsupports, h]

/-! ### The whole run -/

/-- `s` with the label of `r` and with what `r` was to read. -/
def relabel (r : Reader) (s : Snapshot) : Snapshot :=
  { s with label := r.label, catalog := r.config.catalog, schema := r.config.schema }

theorem relabel_of_read {s : Snapshot} (hs : r.read.outcome = .ok s) : r.relabel s = s := by
  obtain ⟨_, _, -, -, _, _, _, _, -, -, -, -, rfl⟩ := read_eq_ok_iff.1 hs
  rfl

/-- `r'.read.outcome = r.read.outcome.map r'.relabel` if the phases of `r` and `r'` come to the
same. From the third phase on only those tables and views matter with which a run gets there. -/
theorem read_congr (hcontainers : r.readContainers.outcome = r'.readContainers.outcome)
    (hcolumns : ∀ listed, (r.readColumns listed).outcome = (r'.readColumns listed).outcome)
    (hforeignKeys : ∀ c, r.ReachesForeignKeys c →
      (r.readForeignKeys c).outcome = (r'.readForeignKeys c).outcome)
    (hprimaryKeys : ∀ c, r.ReachesForeignKeys c →
      (r.readPrimaryKeys c).outcome = (r'.readPrimaryKeys c).outcome)
    (hindexes : ∀ c keys, r.ReachesForeignKeys c →
      (r.readIndexes c keys).outcome = (r'.readIndexes c keys).outcome)
    (hsequences : r.readSequences.outcome = r'.readSequences.outcome) :
    r'.read.outcome = r.read.outcome.map r'.relabel := by
  rw [outcome_read, outcome_read, ← hcontainers, Except.map_bind]
  refine Except.bind_congr_of_ok fun listed hlisted => ?_
  rw [← hcolumns, Except.map_bind]
  refine Except.bind_congr_of_ok fun found hfound => ?_
  -- the later phases are only compared where the run gets there
  have hreaches : r.ReachesForeignKeys found.containers := ⟨listed, found, hlisted, hfound, rfl⟩
  simp only [hforeignKeys _ hreaches, hprimaryKeys _ hreaches, hindexes _ _ hreaches, hsequences,
    Except.map_bind]
  rfl

/-- **Sources that report the same about the user's objects** make runs that end alike: with the
same snapshot, or with the same error. -/
theorem read_of_sameForUser (h : r.source.SameForUser r'.source r.scope)
    (hdialect : r.dialect = r'.dialect) (hconfig : r.config = r'.config) :
    r.read.outcome = r'.read.outcome := by
  have hscope : r.scope = r'.scope := congrArg Config.scope hconfig
  have hrelabel : r'.relabel = r.relabel := by
    funext s
    simp only [relabel, label, h.label, hconfig]
  -- all tables that are asked about are the user's
  have hshows {c : Containers} (hreaches : r.ReachesForeignKeys c) (table : String)
      (htable : table ∈ c.tables.keys) : r.source.Shows table :=
    shows_of_reachesForeignKeys hreaches htable
  have hread : r'.read.outcome = r.read.outcome.map r'.relabel := by
    refine read_congr (readContainers_congr h hscope) (readColumns_congr h hscope hdialect)
      (fun c hreaches => ?_) (fun c hreaches => ?_) (fun c keys hreaches => ?_)
      (readSequences_congr h.supportsSequences h.sequenceNames)
    · exact readForeignKeys_congr h.supportsDeferrable fun table htable => by
        rw [← hscope, h.foreignKeysTo table (hshows hreaches table htable)]
    · exact readPrimaryKeys_congr fun table htable => by
        rw [← hscope, h.primaryKeys table (hshows hreaches table htable)]
    · exact readIndexes_congr (fun table htable => by
        rw [← hscope, h.indexInfo table (hshows hreaches table htable)]) keys
  rw [hread, hrelabel]
  cases hs : r.read.outcome with
  | error e => rfl
  | ok s => exact congrArg Except.ok (relabel_of_read hs).symm

end Reader

end SchemaSnapshot

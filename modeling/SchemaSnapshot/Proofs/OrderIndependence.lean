import SchemaSnapshot.Proofs.Rearrangement

/-!
# Reading does not depend on the order of the rows

Readers of rearranged sources agree phase by phase: the tables and views, the columns, the keys and
the indexes are the same, the warnings are the same up to their order, and a phase that fails fails
for the same cause. What a phase finds is handed on to the next one, so the whole runs agree.
-/

namespace SchemaSnapshot.Reader

/-- `r` and `r'` read rearranged sources in the same way, whoever listens. -/
structure Rearranged (r r' : Reader) : Prop where
  dialect : r.dialect = r'.dialect
  config : r.config = r'.config
  source : r.source.Rearranged r'.source

namespace Rearranged

variable {r r' : Reader}

theorem scope (h : r.Rearranged r') : r.scope = r'.scope := by
  rw [Reader.scope, h.config, Reader.scope]

theorem label (h : r.Rearranged r') : r.label = r'.label := by
  rw [Reader.label, h.config, h.source.label, Reader.label]

theorem excludes (h : r.Rearranged r') : r.source.excludes = r'.source.excludes := by
  funext scope name
  rw [MetadataSource.excludes, h.source.isSystem, h.source.isBookkeeping, MetadataSource.excludes]

theorem isClaim (h : r.Rearranged r') (row : ObjectRow) : r'.isClaim row = r.isClaim row := by
  rw [Reader.isClaim, Reader.isClaim, h.excludes]

theorem isLive (h : r.Rearranged r') : r.isLive = r'.isLive := by
  funext row
  rw [Reader.isLive, Reader.isLive, h.excludes]

/-- `call` is answered in both runs with the same rows in some order, or fails in both with the same
kind. -/
theorem answer (h : r.Rearranged r') (call : Call) :
    Except.Agree SameKind call.Rearranged ((r.source.answer call).mapError .connectivity)
      ((r'.source.answer call).mapError .connectivity) :=
  (h.source.answer call).mapError fun _ _ _ => rfl

theorem viewDefinition (h : r.Rearranged r') (name : String) :
    (r.source.answer (.viewDefinition name)).toOption =
      (r'.source.answer (.viewDefinition name)).toOption := by
  have hanswer := h.source.answer (.viewDefinition name)
  rcases hanswer.ok_or_error with ⟨query, query', hquery, hquery', heq⟩ | ⟨e, e', he, he', -⟩
  · rw [hquery, hquery']
    exact congrArg some heq
  · rw [he, he']
    rfl

/-! ### Tables, views and columns -/

theorem exists_viewDefinition_iff (h : r.Rearranged r') (name : String) :
    (∃ query, r.source.answer (.viewDefinition name) = .ok query) ↔
      ∃ query, r'.source.answer (.viewDefinition name) = .ok query := by
  have hanswer := h.source.answer (.viewDefinition name)
  rcases hanswer.ok_or_error with ⟨query, query', hquery, hquery', -⟩ | ⟨e, e', he, he', -⟩
  · simp [hquery, hquery']
  · simp [he, he']

theorem kind_of_objects {rows : List ObjectRow} {e : ReadError}
    (h : (rows.foldlM r.addObject {}).outcome = .error e) : e.kind = .connectivity := by
  obtain ⟨_, _, -, -, rfl⟩ := error_of_objects h
  rfl

/-- Object rows amount to the same tables and views in every order, if `r.ClaimsApart rows`. -/
theorem objects (h : r.Rearranged r') {rows rows' : List ObjectRow} (hperm : rows.Perm rows')
    (hclaims : r.ClaimsApart rows) :
    Except.Agree SameKind (· = ·) (rows.foldlM r.addObject {}).outcome
      (rows'.foldlM r'.addObject {}).outcome := by
  have hclaim := claim?_perm hclaims hperm h.isClaim
  refine .intro ?_ ?_ ?_
  · rw [exists_objects_iff, exists_objects_iff]
    apply forall_congr'
    intro name
    rw [hclaim, h.exists_viewDefinition_iff]
  · intro found found' hfound hfound'
    have hclaimed := claimed_of_objects hfound
    have hclaimed' := claimed_of_objects hfound'
    have htables : found.containers.tables = found'.containers.tables := by
      apply OrderedMap.ext_get?
      intro name
      rw [hclaimed.table, hclaimed'.table, hclaim]
    have hviews : found.containers.views = found'.containers.views := by
      apply OrderedMap.ext_get?
      intro name
      rw [hclaimed.view, hclaimed'.view, hclaim, h.viewDefinition]
    -- where no name is claimed by both kinds, no claim comes too late
    have hwarnings : found.warnings = found'.warnings := by
      rw [hclaimed.warnings, hclaimed'.warnings, claimWarnings_eq_nil hclaims,
        claimWarnings_eq_nil (hclaims.perm hperm h.isClaim)]
    calc found = ⟨⟨found.containers.tables, found.containers.views⟩, found.warnings⟩ := rfl
      _ = ⟨⟨found'.containers.tables, found'.containers.views⟩, found'.warnings⟩ := by
        rw [htables, hviews, hwarnings]
  · intro e e' he he'
    rw [SameKind, kind_of_objects he, kind_of_objects he']

/-- The first phases agree on what they find, which has no columns yet: `columnsOf owner = []`. -/
theorem readContainers (h : r.Rearranged r')
    (hclaims : ∀ rows, r.source.answer (.objects r.scope) = .ok rows → r.ClaimsApart rows) :
    Except.Agree SameKind
      (fun listed listed' => listed = listed' ∧ ∀ owner, listed.containers.columnsOf owner = [])
      r.readContainers.outcome r'.readContainers.outcome := by
  rw [outcome_readContainers, outcome_readContainers, ← h.scope]
  refine (h.answer _).and_ok.bind fun rows rows' hrows => ?_
  obtain ⟨hperm, hanswer, -⟩ := hrows
  have hclaims := hclaims rows (Except.mapError_eq_ok_iff.1 hanswer)
  refine (h.objects hperm hclaims).and_ok.mono fun listed listed' hlisted => ?_
  exact ⟨hlisted.1, Containers.columnsOf_of_objects hlisted.2.1⟩

/-- The second phases agree on the containers, and on the warnings up to `List.Perm`. -/
theorem readColumns (h : r.Rearranged r') {listed : Inventory}
    (hempty : ∀ owner, listed.containers.columnsOf owner = []) :
    Except.Agree SameKind
      (fun found found' => found.containers = found'.containers ∧
        found.warnings.Perm found'.warnings)
      (r.readColumns listed).outcome (r'.readColumns listed).outcome := by
  rw [outcome_readColumns, outcome_readColumns, ← h.scope]
  refine (h.answer _).bind fun rows rows' hrows => .pure ?_
  -- rows about one table come in the same order on both sides
  have hlive (table : String) : (rows.filter r.isLive).filter (·.table = table) =
      (rows'.filter r'.isLive).filter (·.table = table) := by
    rw [List.filter_comm, hrows.2 table, List.filter_comm, h.isLive]
  rw [columnsAdded, columnsAdded, ← h.dialect]
  exact ⟨Containers.addRows_eq_of_filter _ hempty hlive,
    (Containers.warnings_perm_of_filter _ hempty hlive).append_left _⟩

/-! ### Keys -/

/-- The third phases of `r` and `r'` agree. -/
theorem readForeignKeys (h : r.Rearranged r') (c : Containers) :
    Except.Agree SameKind (· = ·) (r.readForeignKeys c).outcome (r'.readForeignKeys c).outcome := by
  rw [outcome_readForeignKeys, outcome_readForeignKeys]
  refine .foldlM (fun table _ keys keys' hkeys => ?_) rfl
  subst hkeys
  rw [outcome_addForeignKeysTo, outcome_addForeignKeysTo, ← h.scope, ← h.source.supportsDeferrable]
  refine (h.answer _).bind fun rows rows' (hrows : rows.Perm rows') => .of_ok_iff ?_ ?_
  · -- the keys that are found are a set, for which the order of the rows is nothing
    intro after
    have hmap := hrows.map (ForeignKey.ofRow r.source.supportsDeferrable)
    rw [Containers.foldlM_addForeignKey_eq_ok_iff, Containers.foldlM_addForeignKey_eq_ok_iff]
    simp only [hrows.mem_iff, hmap.mem_iff]
  · intro e e' he he'
    rw [SameKind, Containers.kind_of_foldlM_addForeignKey he,
      Containers.kind_of_foldlM_addForeignKey he']

/-- The fourth phases agree if `NamesAgree` holds of the rows of every answer. -/
theorem readPrimaryKeys (h : r.Rearranged r') (c : Containers)
    (hnames : ∀ table rows, r.source.answer (.primaryKeys r.scope table) = .ok rows →
      NamesAgree rows) :
    Except.Agree SameKind (· = ·) (r.readPrimaryKeys c).outcome (r'.readPrimaryKeys c).outcome := by
  rw [outcome_readPrimaryKeys, outcome_readPrimaryKeys]
  -- Keys of earlier tables are carried along, so the runs have to agree on them at every table.
  refine .bind (R := (· = ·)) (.foldlM (fun table _ keys keys' hkeys => ?_) rfl) ?_
  · subst hkeys
    rw [outcome_addPrimaryKeysOf, outcome_addPrimaryKeysOf, ← h.scope]
    refine (h.answer _).and_ok.bind fun rows rows' hrows => .of_ok_iff ?_ ?_
    · intro after
      have hagree := hnames table rows (Except.mapError_eq_ok_iff.1 hrows.2.1)
      exact PartialKeys.foldlM_addRow_perm hrows.1 hagree
    · intro e e' he he'
      rw [SameKind, PartialKeys.kind_of_foldlM_addRow he, PartialKeys.kind_of_foldlM_addRow he']
  · intro keys keys' hkeys
    subst hkeys
    exact .refl (E := SameKind) (fun _ => rfl) _

/-! ### Indexes and sequences -/

/-- The fifth phases agree if `TablesAgree` holds of the columns of every answer. -/
theorem readIndexes (h : r.Rearranged r') (c : Containers) (keys : OrderedSet PrimaryKey)
    (htables : ∀ table rows, r.source.answer (.indexInfo r.scope table) = .ok rows →
      TablesAgree (indexParts rows)) :
    Except.Agree SameKind (· = ·) (r.readIndexes c keys).outcome
      (r'.readIndexes c keys).outcome := by
  rw [outcome_readIndexes, outcome_readIndexes]
  -- The lists of one table have the same members; only the set of all of them is the same.
  refine .bind (R := List.Forall₂ fun l l' => ∀ index, index ∈ l ↔ index ∈ l')
    (.mapM fun table _ => ?_) ?_
  · rw [outcome_readIndexesOf, outcome_readIndexesOf, ← h.scope]
    refine (h.answer _).and_ok.bind fun rows rows' hrows => ?_
    have hagree := htables table rows (Except.mapError_eq_ok_iff.1 hrows.2.1)
    exact PartialIndexes.ofParts_agree (hrows.1.filterMap _) hagree
  · intro perTable perTable' hperTable
    refine .pure (OrderedSet.ext_mem fun index => ?_)
    rw [OrderedSet.mem_ofList, OrderedSet.mem_ofList, List.mem_filter, List.mem_filter,
      mem_flatten_of_forall₂ hperTable]

/-- The sixth phases of `r` and `r'` agree. -/
theorem readSequences (h : r.Rearranged r') :
    Except.Agree SameKind (· = ·) r.readSequences.outcome r'.readSequences.outcome := by
  rw [outcome_readSequences, outcome_readSequences, ← h.source.supportsSequences]
  split
  · refine (h.answer _).bind fun names names' (hnames : names.Perm names') => .pure ?_
    apply OrderedSet.ext_mem
    intro sequence
    rw [OrderedSet.mem_ofList, OrderedSet.mem_ofList, (hnames.map _).mem_iff]
  · exact .pure rfl

/-! ### The whole run -/

/-- `snapshotOf` gives the same snapshot for `r` and `r'`, save for the warnings, if what the phases
find is the same. -/
theorem snapshotOf (h : r.Rearranged r') {found found' : Inventory}
    (hcontainers : found.containers = found'.containers) (foreignKeys : OrderedSet ForeignKey)
    (primaryKeys : OrderedSet PrimaryKey) (indexes : OrderedSet Index)
    (sequences : OrderedSet Sequence) :
    r'.snapshotOf found' foreignKeys primaryKeys indexes sequences =
      { r.snapshotOf found foreignKeys primaryKeys indexes sequences with
        warnings := found'.warnings } := by
  rw [Reader.snapshotOf, Reader.snapshotOf, h.label, h.config, hcontainers]

end Rearranged

/-- **The order of the rows does not matter.** Let two readers have the same dialect and
configuration, and let their sources report the same rows in whatever orders, rows about columns of
one table always in the same one. If no name is claimed by a table and by a view, and in each answer
rows about one primary key agree about its name and rows about one index agree about its table, then
either both readers take a snapshot, and the snapshots are the same except for the order of the
warnings, or neither does, for the same cause. -/
theorem read_of_rearranged {r r' : Reader} (h : r.Rearranged r')
    (hclaims : ∀ rows, r.source.answer (.objects r.scope) = .ok rows → r.ClaimsApart rows)
    (hnames : ∀ table rows, r.source.answer (.primaryKeys r.scope table) = .ok rows →
      NamesAgree rows)
    (htables : ∀ table rows, r.source.answer (.indexInfo r.scope table) = .ok rows →
      TablesAgree (indexParts rows)) :
    (∃ s s', r.read.outcome = .ok s ∧ r'.read.outcome = .ok s' ∧
      s' = { s with warnings := s'.warnings } ∧ s.warnings.Perm s'.warnings) ∨
    ∃ e e', r.read.outcome = .error e ∧ r'.read.outcome = .error e' ∧ e.kind = e'.kind := by
  have hread : Except.Agree SameKind
      (fun s s' => s' = { s with warnings := s'.warnings } ∧ s.warnings.Perm s'.warnings)
      r.read.outcome r'.read.outcome := by
    rw [outcome_read, outcome_read]
    -- Every phase goes on from what the phases before it have found, which is the same for both.
    refine (h.readContainers hclaims).bind fun listed listed' hlisted => ?_
    obtain ⟨rfl, hempty⟩ := hlisted
    refine (h.readColumns hempty).bind fun found found' hfound => ?_
    obtain ⟨hcontainers, hwarnings⟩ := hfound
    rw [← hcontainers]
    refine (h.readForeignKeys _).bind fun foreignKeys _ hforeignKeys => ?_
    subst hforeignKeys
    refine (h.readPrimaryKeys _ hnames).bind fun primaryKeys _ hprimaryKeys => ?_
    subst hprimaryKeys
    refine (h.readIndexes _ _ htables).bind fun indexes _ hindexes => ?_
    subst hindexes
    refine h.readSequences.bind fun sequences _ hsequences => ?_
    subst hsequences
    exact .pure ⟨h.snapshotOf hcontainers _ _ _ _, hwarnings⟩
  exact hread.ok_or_error

/-- A port whose rows come in no order. -/
def port : Listing where
  objects := [⟨.table, "ships", none, none⟩, ⟨.view, "arrivals", none, none⟩,
    ⟨.table, "docks", none, none⟩]
  columns := [.ofNumber "ships" "id" 10, .ofNumber "docks" "id" 10, .ofNumber "tugs" "id" 10,
    .ofNumber "ships" "dock" 10, .ofNumber "docks" "id" 19]
  foreignKeys := [⟨"docks", "id", "ships", "dock", none, 7⟩,
    ⟨"docks", "id", "docks", "berth", none, 7⟩]
  primaryKeys := [⟨"docks", "row", 2, none⟩, ⟨"docks", "id", 1, some "docks_key"⟩]
  indexes := [⟨some "by_row", 3, "docks", some "row", 1⟩, ⟨some "by_row", 3, "docks", some "id", 2⟩,
    ⟨some "docks_key", 3, "docks", some "row", 2⟩, ⟨some "docks_key", 3, "docks", some "id", 1⟩]
  sequences := ["tickets", "berths"]

theorem read_of_rearranged_port :
    ∃ s s', (Reader.read { source := port.source }).outcome = .ok s ∧
      (Reader.read { source := port.sorted.source }).outcome = .ok s' ∧
      s' = { s with warnings := s'.warnings } ∧ s.warnings.Perm s'.warnings := by
  have hports : Rearranged { source := port.source } { source := port.sorted.source } :=
    ⟨rfl, rfl, port.rearranged_sorted⟩
  have hclaims : ClaimsApart { source := port.source } port.objects := by decide
  have hnames : NamesAgree port.primaryKeys := by decide
  have htables : TablesAgree (indexParts port.indexes) := by decide
  have hread : (Reader.read { source := port.source }).outcome.toOption.isSome = true := by rfl
  rcases read_of_rearranged hports
      (fun rows hrows => Except.ok.inj hrows ▸ hclaims)
      (fun table rows hrows => hnames.mono (Except.ok.inj hrows ▸ List.filter_subset_self _))
      (fun table rows hrows => htables.mono
        (Except.ok.inj hrows ▸ List.filterMap_subset _ (List.filter_subset_self _)))
    with hok | ⟨e, _, he, -⟩
  · exact hok
  · rw [he] at hread
    cases hread

end SchemaSnapshot.Reader

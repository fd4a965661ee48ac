import SchemaSnapshot.Proofs.Ownership
import Mathlib.Data.List.Induction

/-!
# Who has a name

A row about a table or a view of the user's claims its name. Here the result of the first phase is
said without going through the rows: a name goes to the kind that claims it first
(`Reader.claim?`), the query behind a view is the one that the source knows, and every claim that
comes too late for the other kind is warned about (`Reader.claimWarnings`). `Reader.Claimed` states
all of this; the phase comes to it if the queries behind the views can be had, and only then
(`Reader.claimed_of_objects`, `Reader.exists_objects_iff`).
-/

namespace SchemaSnapshot.Reader

/-! ### Claims -/

/-- Whether `row` claims its name: it is about a table or a view of the user's. -/
def isClaim (r : Reader) (row : ObjectRow) : Bool :=
  !r.source.excludes ⟨row.catalog, row.schema⟩ row.name &&
    (row.kind == .table || row.kind == .view)

/-- The kind that claims `name` first. -/
def claim? (r : Reader) (rows : List ObjectRow) (name : String) : Option ObjectKind :=
  (rows.find? fun row => r.isClaim row && row.name == name).map (·.kind)

/-- The warnings about claims that come too late, because `claim?` gives the name to another kind,
in the order of the rows. -/
def claimWarnings (r : Reader) (rows : List ObjectRow) : List Warning :=
  (rows.filter fun row => r.isClaim row && r.claim? rows row.name != some row.kind).map fun row =>
    .nameClaimedTwice row.name

variable {r : Reader}

theorem isClaim_iff {row : ObjectRow} : r.isClaim row = true ↔
    r.source.excludes ⟨row.catalog, row.schema⟩ row.name = false ∧
      (row.kind = .table ∨ row.kind = .view) := by
  simp [isClaim]

theorem claim?_append_singleton (rows : List ObjectRow) (row : ObjectRow) (name : String) :
    r.claim? (rows ++ [row]) name =
      (r.claim? rows name).or
        (if r.isClaim row && row.name == name then some row.kind else none) := by
  unfold claim?
  rw [List.find?_append, List.find?_singleton]
  cases hfind : rows.find? fun row => r.isClaim row && row.name == name with
  | none => cases r.isClaim row && row.name == name <;> rfl
  | some first => rfl

theorem claim?_eq_some {rows : List ObjectRow} {name : String} {kind : ObjectKind}
    (h : r.claim? rows name = some kind) :
    ∃ row ∈ rows, r.isClaim row = true ∧ row.name = name ∧ row.kind = kind := by
  obtain ⟨row, hfind, rfl⟩ := Option.map_eq_some_iff.1 h
  have hrow := List.find?_some hfind
  rw [Bool.and_eq_true, beq_iff_eq] at hrow
  exact ⟨row, List.mem_of_find?_eq_some hfind, hrow.1, hrow.2, rfl⟩

/-- `∃ kind, r.claim? rows row.name = some kind` if some row claims the name. -/
theorem exists_claim? {rows : List ObjectRow} {row : ObjectRow} (hmem : row ∈ rows)
    (hclaim : r.isClaim row = true) : ∃ kind, r.claim? rows row.name = some kind := by
  have hsome : (rows.find? fun other => r.isClaim other && other.name == row.name).isSome := by
    rw [List.find?_isSome]
    exact ⟨row, hmem, by simp [hclaim]⟩
  obtain ⟨first, hfirst⟩ := Option.isSome_iff_exists.1 hsome
  exact ⟨first.kind, by rw [claim?, hfirst]; rfl⟩

/-- `kind = .table ∨ kind = .view` if `r.claim? rows name = some kind`. -/
theorem kind_of_claim? {rows : List ObjectRow} {name : String} {kind : ObjectKind}
    (h : r.claim? rows name = some kind) : kind = .table ∨ kind = .view := by
  obtain ⟨row, -, hclaim, -, rfl⟩ := claim?_eq_some h
  exact (isClaim_iff.1 hclaim).2

/-- `r.claim? (rows ++ [row]) name = r.claim? rows name` if `row` is no claim. -/
theorem claim?_of_not_isClaim {rows : List ObjectRow} {row : ObjectRow}
    (h : r.isClaim row = false) (name : String) :
    r.claim? (rows ++ [row]) name = r.claim? rows name := by
  rw [claim?_append_singleton, h]
  simp

/-- `r.claim? (rows ++ [row]) name = r.claim? rows name` if the name of `row` is taken. -/
theorem claim?_of_taken {rows : List ObjectRow} {row : ObjectRow} {kind : ObjectKind}
    (h : r.claim? rows row.name = some kind) (name : String) :
    r.claim? (rows ++ [row]) name = r.claim? rows name := by
  rw [claim?_append_singleton]
  by_cases hname : row.name = name
  · subst hname
    rw [h]
    rfl
  · simp [hname]

/-- A claim on a free name changes `claim?` at this name only, to `some row.kind`. -/
theorem claim?_of_free {rows : List ObjectRow} {row : ObjectRow} (hclaim : r.isClaim row = true)
    (h : r.claim? rows row.name = none) (name : String) :
    r.claim? (rows ++ [row]) name =
      if name = row.name then some row.kind else r.claim? rows name := by
  rw [claim?_append_singleton, hclaim]
  by_cases hname : name = row.name
  · subst hname
    simp [h]
  · simp [hname, Ne.symm hname]

/-- One more row adds `.nameClaimedTwice` if it is a claim that comes too late, and else no
warning. -/
theorem claimWarnings_append_singleton (rows : List ObjectRow) (row : ObjectRow) :
    r.claimWarnings (rows ++ [row]) = r.claimWarnings rows ++
      if r.isClaim row && r.claim? (rows ++ [row]) row.name != some row.kind then
        [.nameClaimedTwice row.name]
      else [] := by
  -- The rows before have their names claimed, so one more row does not make them late.
  have hsame : (rows.filter fun other =>
      r.isClaim other && r.claim? (rows ++ [row]) other.name != some other.kind) =
      rows.filter fun other => r.isClaim other && r.claim? rows other.name != some other.kind := by
    apply List.filter_congr
    intro other hother
    cases hclaim : r.isClaim other with
    | false => rfl
    | true =>
      obtain ⟨kind, hkind⟩ := exists_claim? hother hclaim
      rw [claim?_append_singleton, hkind]
      rfl
  unfold claimWarnings
  rw [List.filter_append, hsame, List.map_append, List.filter_singleton]
  cases r.isClaim row && r.claim? (rows ++ [row]) row.name != some row.kind <;> rfl

/-! ### The tables and views after some rows -/

/-- `found` is what the first phase has found after `rows`. -/
structure Claimed (r : Reader) (rows : List ObjectRow) (found : Inventory) : Prop where
  /-- The tables are the names first claimed by a table, as yet without columns. -/
  table : ∀ name, found.containers.tables.get? name =
    if r.claim? rows name = some .table then some { name := name } else none
  /-- The views are the names first claimed by a view, as yet without columns. -/
  view : ∀ name, found.containers.views.get? name =
    if r.claim? rows name = some .view then
      (r.source.answer (.viewDefinition name)).toOption.map fun definition =>
        { name := name, definition := definition }
    else none
  /-- The source knows the queries behind the views. -/
  answered : ∀ name, r.claim? rows name = some .view →
    ∃ definition, r.source.answer (.viewDefinition name) = .ok definition
  warnings : found.warnings = r.claimWarnings rows

namespace Claimed

variable {rows : List ObjectRow} {found : Inventory}

theorem nil : r.Claimed [] {} := by
  constructor
  · exact fun _ => rfl
  · exact fun _ => rfl
  · intro name h
    cases h
  · rfl

theorem contains_table (h : r.Claimed rows found) (name : String) :
    found.containers.tables.contains name = true ↔ r.claim? rows name = some .table := by
  rw [OrderedMap.contains, h.table]
  split <;> simp_all

theorem contains_view (h : r.Claimed rows found) (name : String) :
    found.containers.views.contains name = true ↔ r.claim? rows name = some .view := by
  rw [OrderedMap.contains, h.view]
  split
  · rename_i hview
    obtain ⟨definition, hdefinition⟩ := h.answered name hview
    simp [hview, hdefinition, Except.toOption]
  · simp_all

/-- `r.Claimed rows found` carries over to `more` and `after` if no `claim?` is changed and the
tables and views are the same. -/
theorem congr {more : List ObjectRow} {after : Inventory} (h : r.Claimed rows found)
    (hclaim : ∀ name, r.claim? more name = r.claim? rows name)
    (hcontainers : after.containers = found.containers)
    (hwarnings : after.warnings = r.claimWarnings more) : r.Claimed more after := by
  constructor
  · intro name
    rw [hclaim, hcontainers, h.table]
  · intro name
    rw [hclaim, hcontainers, h.view]
  · intro name
    rw [hclaim]
    exact h.answered name
  · exact hwarnings

theorem addTable (h : r.Claimed rows found) {row : ObjectRow} (hclaim : r.isClaim row = true)
    (hkind : row.kind = .table) (hfree : r.claim? rows row.name = none) :
    r.Claimed (rows ++ [row]) (found.addTable row.name) := by
  have hnext := claim?_of_free hclaim hfree
  constructor
  · -- `row.name` goes to the table, and all other names stay where they were
    intro name
    rw [hnext, hkind]
    simp only [Inventory.addTable, OrderedMap.get?_insertIfNew]
    by_cases hname : name = row.name
    · subst hname
      simp [h.table, hfree]
    · simp [hname, h.table]
  · intro name
    rw [hnext, hkind]
    simp only [Inventory.addTable, h.view]
    by_cases hname : name = row.name
    · simp [hname, hfree]
    · simp [hname]
  · intro name hview
    rw [hnext, hkind] at hview
    by_cases hname : name = row.name
    · simp [hname] at hview
    · rw [if_neg hname] at hview
      exact h.answered name hview
  · rw [claimWarnings_append_singleton, hnext, if_pos rfl]
    simp [Inventory.addTable, h.warnings]

theorem addView (h : r.Claimed rows found) {row : ObjectRow} {definition : Option String}
    (hclaim : r.isClaim row = true) (hkind : row.kind = .view)
    (hfree : r.claim? rows row.name = none)
    (hdefinition : r.source.answer (.viewDefinition row.name) = .ok definition) :
    r.Claimed (rows ++ [row]) (found.addView row.name definition) := by
  have hnext := claim?_of_free hclaim hfree
  constructor
  · intro name
    rw [hnext, hkind]
    simp only [Inventory.addView, h.table]
    by_cases hname : name = row.name
    · simp [hname, hfree]
    · simp [hname]
  · intro name
    rw [hnext, hkind]
    -- the answer about the view is the one that has been asked for
    simp only [Inventory.addView, OrderedMap.get?_insert]
    by_cases hname : name = row.name
    · subst hname
      simp [hdefinition, Except.toOption]
    · simp [hname, h.view]
  · intro name hview
    rw [hnext, hkind] at hview
    by_cases hname : name = row.name
    · subst hname
      exact ⟨definition, hdefinition⟩
    · rw [if_neg hname] at hview
      exact h.answered name hview
  · rw [claimWarnings_append_singleton, hnext, if_pos rfl]
    simp [Inventory.addView, h.warnings]

/-- `(found.addTable name).containers = found.containers` if `name` is claimed for a table
already. -/
theorem containers_addTable_of_taken (h : r.Claimed rows found) {name : String}
    (htaken : r.claim? rows name = some .table) :
    (found.addTable name).containers = found.containers := by
  have hsame : found.containers.tables.insertIfNew name { name := name } =
      found.containers.tables := by
    apply OrderedMap.ext_get?
    intro other
    rw [OrderedMap.get?_insertIfNew]
    by_cases hother : other = name
    · subst hother
      simp [h.table, htaken]
    · rw [if_neg hother]
  rw [Inventory.addTable, hsame]

/-- A claim that comes too late adds `.nameClaimedTwice` to the warnings. -/
theorem warn (h : r.Claimed rows found) {row : ObjectRow} {kind : ObjectKind}
    (hclaim : r.isClaim row = true) (htaken : r.claim? rows row.name = some kind)
    (hlate : kind ≠ row.kind) :
    r.Claimed (rows ++ [row])
      { found with warnings := found.warnings ++ [.nameClaimedTwice row.name] } := by
  refine h.congr (claim?_of_taken htaken) rfl ?_
  rw [claimWarnings_append_singleton, claim?_of_taken htaken, htaken, hclaim]
  simp [h.warnings, hlate]

/-- A row that repeats the claim on its name changes nothing. -/
theorem again (h : r.Claimed rows found) {row : ObjectRow} {after : Inventory}
    (htaken : r.claim? rows row.name = some row.kind)
    (hcontainers : after.containers = found.containers)
    (hwarnings : after.warnings = found.warnings) : r.Claimed (rows ++ [row]) after := by
  refine h.congr (claim?_of_taken htaken) hcontainers ?_
  rw [claimWarnings_append_singleton, claim?_of_taken htaken, htaken, hwarnings]
  simp [h.warnings]

/-- A row that is no claim changes nothing. -/
theorem pass (h : r.Claimed rows found) {row : ObjectRow} (hclaim : r.isClaim row = false) :
    r.Claimed (rows ++ [row]) found := by
  refine h.congr (claim?_of_not_isClaim hclaim) rfl ?_
  rw [claimWarnings_append_singleton, hclaim]
  simp [h.warnings]

/-- One more row takes `r.Claimed rows` to `r.Claimed (rows ++ [row])`, unless it is the first claim
of a view whose query cannot be had. -/
theorem step (h : r.Claimed rows found) (row : ObjectRow) :
    (∃ after, (r.addObject found row).outcome = .ok after ∧ r.Claimed (rows ++ [row]) after) ∨
    ∃ cause, (r.addObject found row).outcome = .error (.connectivity cause) ∧
      r.claim? (rows ++ [row]) row.name = some .view ∧
      r.source.answer (.viewDefinition row.name) = .error cause := by
  rw [outcome_addObject]
  cases hclaim : r.isClaim row with
  | false =>
    refine .inl ⟨found, ?_, h.pass hclaim⟩
    -- an excluded row, or one of another kind
    split
    · rfl
    · rename_i hlive
      cases hkind : row.kind with
      | table => simp [isClaim, hlive, hkind] at hclaim
      | view => simp [isClaim, hlive, hkind] at hclaim
      | other name => rfl
  | true =>
    obtain ⟨hlive, hkind⟩ := isClaim_iff.1 hclaim
    rw [if_neg (by simp [hlive])]
    -- What the row does depends on who has the name: nobody, its own kind or the other one.
    rcases hkind with hkind | hkind
    · refine .inl ?_
      rw [hkind]
      dsimp only
      cases hfirst : r.claim? rows row.name with
      | none =>
        rw [if_neg (by simp [h.contains_view, hfirst])]
        exact ⟨_, rfl, h.addTable hclaim hkind hfirst⟩
      | some kind =>
        rcases kind_of_claim? hfirst with rfl | rfl
        · rw [if_neg (by simp [h.contains_view, hfirst])]
          exact ⟨_, rfl, h.again (hkind ▸ hfirst) (h.containers_addTable_of_taken hfirst) rfl⟩
        · rw [if_pos ((h.contains_view _).2 hfirst)]
          exact ⟨_, rfl, h.warn hclaim hfirst (by simp [hkind])⟩
    · rw [hkind]
      dsimp only
      cases hfirst : r.claim? rows row.name with
      | none =>
        rw [if_neg (by simp [h.contains_table, hfirst]), if_neg (by simp [h.contains_view, hfirst])]
        cases hanswer : r.source.answer (.viewDefinition row.name) with
        | ok definition => exact .inl ⟨_, rfl, h.addView hclaim hkind hfirst hanswer⟩
        | error cause =>
          -- Only here is the source asked, so only here can the row end the run.
          refine .inr ⟨cause, rfl, ?_, rfl⟩
          rw [claim?_of_free hclaim hfirst, if_pos rfl, hkind]
      | some kind =>
        refine .inl ?_
        rcases kind_of_claim? hfirst with rfl | rfl
        · rw [if_pos ((h.contains_table _).2 hfirst)]
          exact ⟨_, rfl, h.warn hclaim hfirst (by simp [hkind])⟩
        · rw [if_neg (by simp [h.contains_table, hfirst]), if_pos ((h.contains_view _).2 hfirst)]
          exact ⟨_, rfl, h.again (hkind ▸ hfirst) rfl rfl⟩

end Claimed

/-! ### The first phase -/

theorem outcome_objects_append_singleton (rows : List ObjectRow) (row : ObjectRow) :
    ((rows ++ [row]).foldlM r.addObject {}).outcome =
      (rows.foldlM r.addObject {}).outcome >>= fun found => (r.addObject found row).outcome := by
  rw [List.foldlM_append, Traced.outcome_bind]
  refine congrArg _ (funext fun found => ?_)
  rw [List.foldlM_cons]
  exact congrArg _ (bind_pure _)

/-- **The first phase comes to what its rows claim.** -/
theorem claimed_of_objects {rows : List ObjectRow} {found : Inventory}
    (h : (rows.foldlM r.addObject {}).outcome = .ok found) : r.Claimed rows found := by
  induction rows using List.reverseRecOn generalizing found with
  | nil =>
    obtain rfl := Except.ok.inj h
    exact .nil
  | append_singleton rows row ih =>
    rw [outcome_objects_append_singleton, Except.bind_eq_ok_iff] at h
    obtain ⟨before, hbefore, hrow⟩ := h
    -- the run goes on after `row`, so `row` is not the one that ends it
    rcases (ih hbefore).step row with ⟨after, hafter, hclaimed⟩ | ⟨cause, hfail, -⟩
    · obtain rfl := Except.ok.inj (hafter.symm.trans hrow)
      exact hclaimed
    · rw [hfail] at hrow
      cases hrow

/-- The first phase fails only with `.connectivity`, for a view that comes first on its name and
whose query cannot be had. -/
theorem error_of_objects {rows : List ObjectRow} {e : ReadError}
    (h : (rows.foldlM r.addObject {}).outcome = .error e) :
    ∃ name cause, r.claim? rows name = some .view ∧
      r.source.answer (.viewDefinition name) = .error cause ∧ e = .connectivity cause := by
  induction rows using List.reverseRecOn with
  | nil => cases h
  | append_singleton rows row ih =>
    rw [outcome_objects_append_singleton, Except.bind_eq_error_iff] at h
    rcases h with h | ⟨before, hbefore, hrow⟩
    · obtain ⟨name, cause, hclaim, hanswer, rfl⟩ := ih h
      refine ⟨name, cause, ?_, hanswer, rfl⟩
      -- a later row does not change whose name it is
      rw [claim?_append_singleton, hclaim]
      rfl
    · rcases (claimed_of_objects hbefore).step row with
        ⟨after, hafter, -⟩ | ⟨cause, hfail, hview, hanswer⟩
      · rw [hafter] at hrow
        cases hrow
      · obtain rfl := Except.error.inj (hfail.symm.trans hrow)
        exact ⟨row.name, cause, hview, hanswer, rfl⟩

/-- The first phase succeeds exactly if there is a definition for every name with
`claim? = some .view`. -/
theorem exists_objects_iff {rows : List ObjectRow} :
    (∃ found, (rows.foldlM r.addObject {}).outcome = .ok found) ↔
      ∀ name, r.claim? rows name = some .view →
        ∃ definition, r.source.answer (.viewDefinition name) = .ok definition := by
  constructor
  · rintro ⟨found, h⟩
    exact (claimed_of_objects h).answered
  · intro h
    rcases Except.ok_or_error (rows.foldlM r.addObject {}).outcome with hok | ⟨e, herror⟩
    · exact hok
    · obtain ⟨name, cause, hclaim, hanswer, -⟩ := error_of_objects herror
      obtain ⟨definition, hdefinition⟩ := h name hclaim
      rw [hanswer] at hdefinition
      cases hdefinition

end SchemaSnapshot.Reader

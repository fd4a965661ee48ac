import SchemaSnapshot.Proofs.Course
import Mathlib.Data.List.Count

/-!
# The first claim wins

The first phase goes through rows that may name the same thing any number of times and in any kind.
Its result depends on the first claims only: `Reader.Claimed` leaves no choice about it
(`Reader.Claimed.unique`), so a row that claims nothing, or repeats the claim that has won, changes
nothing wherever it stands (`Reader.objects_of_idle`). A view is asked about when its name is first
claimed and never again (`Reader.count_viewDefinition`); the first such question that is not
answered ends the run (`Reader.first_failure_of_objects`).
-/

namespace SchemaSnapshot.Reader

variable {r : Reader} {rows : List ObjectRow} {found : Inventory}

/-! ### Rows that change nothing -/

/-- After `rows`, `row` has nothing to say: it is no claim, or it repeats the claim by which its
name was won. -/
def IsIdle (r : Reader) (rows : List ObjectRow) (row : ObjectRow) : Prop :=
  r.isClaim row = false ∨ r.claim? rows row.name = some row.kind

instance (r : Reader) (rows : List ObjectRow) (row : ObjectRow) : Decidable (r.IsIdle rows row) :=
  inferInstanceAs (Decidable (_ ∨ _))

namespace Claimed

/-- What the first claims leave is determined by `rows`: `found = other`. -/
theorem unique {other : Inventory} (h : r.Claimed rows found) (hother : r.Claimed rows other) :
    found = other := by
  have htables : found.containers.tables = other.containers.tables := by
    apply OrderedMap.ext_get?
    intro name
    rw [h.table, hother.table]
  have hviews : found.containers.views = other.containers.views := by
    apply OrderedMap.ext_get?
    intro name
    rw [h.view, hother.view]
  have hwarnings : found.warnings = other.warnings := h.warnings.trans hother.warnings.symm
  obtain ⟨⟨tables, views⟩, warnings⟩ := found
  obtain ⟨⟨tables', views'⟩, warnings'⟩ := other
  obtain rfl : tables = tables' := htables
  obtain rfl : views = views' := hviews
  obtain rfl : warnings = warnings' := hwarnings
  rfl

theorem append_idle (h : r.Claimed rows found) {row : ObjectRow} (hidle : r.IsIdle rows row) :
    r.Claimed (rows ++ [row]) found := by
  rcases hidle with hclaim | htaken
  · exact h.pass hclaim
  · exact h.again htaken rfl rfl

/-- `(r.addObject found row).outcome = .ok found` for a row that has nothing to say. -/
theorem outcome_of_idle (h : r.Claimed rows found) {row : ObjectRow} (hidle : r.IsIdle rows row) :
    (r.addObject found row).outcome = .ok found := by
  have hsame := h.append_idle hidle
  rcases h.step row with ⟨after, hafter, hclaimed⟩ | ⟨cause, -, hview, hfail⟩
  · rw [hafter, hclaimed.unique hsame]
  · -- A view of the name would have been asked about before.
    obtain ⟨definition, hdefinition⟩ := hsame.answered row.name hview
    rw [hfail] at hdefinition
    cases hdefinition

/-- `(r.addObject found row).steps = []` for a row with `r.IsIdle`. -/
theorem steps_of_idle (h : r.Claimed rows found) {row : ObjectRow} (hidle : r.IsIdle rows row) :
    (r.addObject found row).steps = [] := by
  rw [((follows_addObject h row).done found (h.outcome_of_idle hidle)).1, if_neg]
  rintro ⟨hclaim, hfree, -⟩
  -- the steps are those of a row that claims a name nobody has
  rcases hidle with hnone | htaken
  · rw [hclaim] at hnone
    cases hnone
  · rw [hfree] at htaken
    cases htaken

end Claimed

/-- Without a row that is `r.IsIdle` the rows come to the same, and by the same steps. -/
theorem objects_of_idle {before after : List ObjectRow} {row : ObjectRow}
    (hidle : r.IsIdle before row) :
    ((before ++ row :: after).foldlM r.addObject {}).outcome =
        ((before ++ after).foldlM r.addObject {}).outcome ∧
      ((before ++ row :: after).foldlM r.addObject {}).steps =
        ((before ++ after).foldlM r.addObject {}).steps := by
  simp only [List.foldlM_append, List.foldlM_cons]
  constructor
  · simp only [Traced.outcome_bind]
    refine Except.bind_congr_of_ok fun found hbefore => ?_
    rw [(claimed_of_objects hbefore).outcome_of_idle hidle]
    rfl
  · simp only [Traced.steps_bind]
    cases hbefore : (before.foldlM r.addObject {}).outcome with
    | error e => rfl
    | ok found =>
      have hclaimed := claimed_of_objects hbefore
      dsimp only
      rw [hclaimed.steps_of_idle hidle, hclaimed.outcome_of_idle hidle]
      rfl

/-! ### What is asked about views -/

/-- A view is asked about once, and a name with any other `claim?` is not asked about. -/
theorem count_viewDefinition (hrows : r.source.answer (.objects r.scope) = .ok rows)
    (hfound : r.readContainers.outcome = .ok found) (name : String) :
    r.readContainers.events.count (.asked (.viewDefinition name)) =
      if r.claim? rows name = some .view then 1 else 0 := by
  have hsteps : r.readContainers.steps =
      r.listeners.map (Listener.hear (Phase.tables.message r.label)) ++
        .asked (.objects r.scope) ::
          (r.namesClaimed .view rows).map fun name => .asked (.viewDefinition name) := by
    rw [(follows_readContainers.done found hfound).1, stepsOf, callsOf, objectRows_eq hrows,
      List.map_cons, List.map_map]
    rfl
  -- The listeners only hear, so the question comes up as often as the name is claimed by a view.
  have hheard : Event.asked (.viewDefinition name) ∉
      r.listeners.map (Listener.hear (Phase.tables.message r.label)) := by
    intro hmem
    obtain ⟨listener, -, hhear⟩ := List.mem_map.1 hmem
    cases listener <;> cases hhear
  have hinjective : Function.Injective fun name => Event.asked (.viewDefinition name) := by
    intro a b hab
    simpa using hab
  calc r.readContainers.events.count (.asked (.viewDefinition name))
      = r.readContainers.steps.count (.asked (.viewDefinition name)) :=
        (List.count_filter rfl).symm
    _ = (r.namesClaimed .view rows).count name := by
        rw [hsteps, List.count_append, List.count_eq_zero_of_not_mem hheard, Nat.zero_add,
          List.count_cons_of_ne (by simp), List.count_map_of_injective _ _ hinjective]
    _ = if r.claim? rows name = some .view then 1 else 0 := by
        rw [(nodup_namesClaimed rows .view).count]
        simp only [mem_namesClaimed]

/-- A first phase that fails does so for the first name of `r.namesClaimed .view rows` whose query
cannot be had. -/
theorem first_failure_of_objects {e : ReadError}
    (h : (rows.foldlM r.addObject {}).outcome = .error e) :
    ∃ before name after cause, r.namesClaimed .view rows = before ++ name :: after ∧
      (∀ other ∈ before,
        ∃ definition, r.source.answer (.viewDefinition other) = .ok definition) ∧
      r.source.answer (.viewDefinition name) = .error cause ∧ e = .connectivity cause := by
  obtain ⟨-, cause, -, -, rfl⟩ := error_of_objects h
  obtain ⟨⟨more, hmore⟩, asked, call, hsteps, hanswers, hblames⟩ :=
    (follows_objects rows).stopped _ h
  -- The steps that were made are the first questions there are, and the last of them fails.
  rw [hsteps] at hmore
  obtain ⟨first, after, hnames, hfirst, -⟩ := List.map_eq_append_iff.1 hmore.symm
  obtain ⟨before, last, rfl, hbefore, hlast⟩ := List.map_eq_append_iff.1 hfirst
  obtain ⟨name, rfl, hcall⟩ := List.map_eq_singleton_iff.1 hlast
  obtain rfl : Call.viewDefinition name = call := Event.asked.inj hcall
  refine ⟨before, name, after, cause, by simpa using hnames, fun other hother => ?_, hblames, rfl⟩
  apply hanswers (.viewDefinition other)
  rw [← hbefore]
  exact List.mem_map_of_mem hother

/-! ### The result -/

/-- **The first claim wins.** If the query behind every view can be had, a name is a table exactly
if a table claims it first, and a view exactly if a view does; then its query is the one that the
source tells, and the source is asked for it exactly once. The warnings are about the claims of the
other kind than the first, one for each, in the order of the rows. A row that is no claim, or
repeats the first one, changes nothing: without it the rows come to the same by the same steps. If
the query behind some view cannot be had, the run fails for the first such view, in the order in
which the views claim their names. -/
theorem first_claim_wins {r : Reader} {rows : List ObjectRow}
    (hrows : r.source.answer (.objects r.scope) = .ok rows) :
    ((∀ name, r.claim? rows name = some .view →
        ∃ definition, r.source.answer (.viewDefinition name) = .ok definition) →
      ∃ found, r.readContainers.outcome = .ok found ∧
        (∀ name, found.containers.tables.contains name = true ↔ r.claim? rows name = some .table) ∧
        (∀ name, found.containers.views.contains name = true ↔ r.claim? rows name = some .view) ∧
        (∀ name view, found.containers.views.get? name = some view →
          r.source.answer (.viewDefinition name) = .ok view.definition) ∧
        (∀ name, r.readContainers.events.count (.asked (.viewDefinition name)) =
          if r.claim? rows name = some .view then 1 else 0) ∧
        found.warnings = r.claimWarnings rows) ∧
    (∀ before row after, r.IsIdle before row →
      ((before ++ row :: after).foldlM r.addObject {}).outcome =
          ((before ++ after).foldlM r.addObject {}).outcome ∧
        ((before ++ row :: after).foldlM r.addObject {}).steps =
          ((before ++ after).foldlM r.addObject {}).steps) ∧
    ∀ failing, r.claim? rows failing = some .view →
      (∀ definition, r.source.answer (.viewDefinition failing) ≠ .ok definition) →
        ∃ before name after cause, r.namesClaimed .view rows = before ++ name :: after ∧
          (∀ other ∈ before,
            ∃ definition, r.source.answer (.viewDefinition other) = .ok definition) ∧
          r.source.answer (.viewDefinition name) = .error cause ∧
          r.readContainers.outcome = .error (.connectivity cause) ∧
          r.read.outcome = .error (.connectivity cause) := by
  have hphase : r.readContainers.outcome = (rows.foldlM r.addObject {}).outcome := by
    rw [outcome_readContainers, hrows]
    rfl
  refine ⟨fun hanswered => ?_, fun before row after => objects_of_idle,
    fun failing hview hfail => ?_⟩
  · obtain ⟨found, hfound⟩ := exists_objects_iff.2 hanswered
    have hclaimed := claimed_of_objects hfound
    rw [← hphase] at hfound
    refine ⟨found, hfound, hclaimed.contains_table, hclaimed.contains_view, ?_,
      count_viewDefinition hrows hfound, hclaimed.warnings⟩
    intro name view hget
    rw [hclaimed.view] at hget
    split at hget
    · -- `view` is what the claim has made of the answer
      rename_i hview
      obtain ⟨definition, hdefinition⟩ := hclaimed.answered name hview
      rw [hdefinition] at hget
      obtain rfl := Option.some.inj hget
      exact hdefinition
    · cases hget
  · have hnone : ¬∃ found, (rows.foldlM r.addObject {}).outcome = .ok found := by
      rw [exists_objects_iff]
      intro hanswered
      obtain ⟨definition, hdefinition⟩ := hanswered failing hview
      exact hfail definition hdefinition
    obtain ⟨e, he⟩ := (Except.ok_or_error _).resolve_left hnone
    obtain ⟨before, name, after, cause, hnames, hbefore, hcause, rfl⟩ := first_failure_of_objects he
    rw [← hphase] at he
    refine ⟨before, name, after, cause, hnames, hbefore, hcause, he, ?_⟩
    rw [outcome_read, he]
    rfl

/-- A theatre whose boxes are told to be a table after they have been a view. -/
def theatre : Reader where
  source := Listing.source
    { objects := [⟨.other "SYNONYM", "boxes", none, none⟩, ⟨.view, "boxes", none, none⟩,
        ⟨.table, "stalls", none, none⟩, ⟨.table, "boxes", none, none⟩, ⟨.view, "boxes", none, none⟩]
      queries := [("boxes", "SELECT * FROM stalls")] }

theorem first_claim_wins_theatre :
    ∃ found, theatre.readContainers.outcome = .ok found ∧
      found.containers.tables.contains "stalls" = true ∧
      found.containers.views.contains "boxes" = true ∧
      theatre.readContainers.events.count (.asked (.viewDefinition "boxes")) = 1 ∧
      found.warnings = [.nameClaimedTwice "boxes"] := by
  obtain ⟨found, hfound, htable, hview, -, hasked, hwarnings⟩ :=
    (first_claim_wins (show theatre.source.answer (.objects theatre.scope) = .ok _ from rfl)).1
      fun _ _ => ⟨_, rfl⟩
  exact ⟨found, hfound, (htable "stalls").2 rfl, (hview "boxes").2 rfl, hasked "boxes", hwarnings⟩

end SchemaSnapshot.Reader

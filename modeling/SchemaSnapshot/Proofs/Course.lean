import SchemaSnapshot.Proofs.Columns
import SchemaSnapshot.Proofs.ForeignKeys
import SchemaSnapshot.Proofs.Indexes
import SchemaSnapshot.Proofs.Names
import SchemaSnapshot.Proofs.PrimaryKeys

/-!
# The course of a run

Seen from outside, a run is a list of steps: a listener hears a message, or the source is asked
(`Event.isStep`). Which steps there are to be is known from the objects of the source
(`Reader.script`): every phase is announced to each listener and then asks its calls. A run that
succeeds makes these steps, and one that fails makes the first of them, up to the call that it fails
for.

What is said of a whole run is said of its parts first (`Follows`). The parts that only think, such
as putting rows together, make no step; where one of them fails, it is the last call that the error
is put down to (`Follows.bind_quiet`).
-/

namespace SchemaSnapshot

/-- Whether a listener hears something by the event, or the source is asked. All other events are
for the log only. -/
def Event.isStep : Event → Bool
  | .status _ _ => true
  | .asked _ => true
  | .logged (.progress _) => true
  | _ => false

theorem Event.isStep_hear (listener : Listener) (message : String) :
    (listener.hear message).isStep = true := by
  cases listener <;> rfl

/-! ### Steps of composite runs -/

namespace Traced

variable {ε α β : Type}

/-- The events of `run` that are steps, in their order. -/
def steps (run : Traced ε α) : List Event :=
  run.events.filter Event.isStep

/-- Emitting `l.map f` is no step if `(f a).isStep = false` for all `a`. -/
theorem steps_emit_map {f : α → Event} (h : ∀ a, (f a).isStep = false) (l : List α) :
    (emit (l.map f) : Traced ε Unit).steps = [] := by
  refine List.filter_eq_nil_iff.2 fun event hevent => ?_
  obtain ⟨a, -, rfl⟩ := List.mem_map.1 hevent
  simp [h a]

/-- The steps of `run >>= next` begin with those of `run`; `next` adds its own if it is reached. -/
theorem steps_bind (run : Traced ε α) (next : α → Traced ε β) :
    (run >>= next).steps =
      run.steps ++ match run.outcome with
        | .ok a => (next a).steps
        | .error _ => [] := by
  rw [steps, events_bind, List.filter_append]
  cases run.outcome <;> rfl

/-- `(run >>= next).steps = []` if neither `run` nor any `next a` has steps. -/
theorem steps_bind_eq_nil {run : Traced ε α} {next : α → Traced ε β} (h : run.steps = [])
    (hnext : ∀ a, (next a).steps = []) : (run >>= next).steps = [] := by
  rw [steps_bind, h]
  cases run.outcome with
  | ok a => exact hnext a
  | error e => rfl

theorem steps_foldlM_eq_nil {f : β → α → Traced ε β} (h : ∀ b a, (f b a).steps = []) (l : List α)
    (b : β) : (l.foldlM f b).steps = [] := by
  induction l generalizing b with
  | nil => rfl
  | cons a rest ih =>
    rw [List.foldlM_cons]
    exact steps_bind_eq_nil (h b a) ih

end Traced

/-! ### Following a script -/

namespace MetadataSource

/-- `source` answers all calls among `events`. -/
def Answers (source : MetadataSource) (events : List Event) : Prop :=
  ∀ call, .asked call ∈ events → ∃ answer, source.answer call = .ok answer

/-- Whether the error can be put down to `call`: the call fails with it, or it is of the sort whose
answers give rise to it. -/
def Blames (source : MetadataSource) (call : Call) : ReadError → Prop
  | .connectivity cause => source.answer call = .error cause
  | .referentialIntegrity _ _ => call.operation = .foreignKeysTo
  | .invalidColumnPosition _ _ _ => call.operation = .primaryKeys ∨ call.operation = .indexInfo

variable {source : MetadataSource}

theorem Answers.append {events more : List Event} (h : source.Answers events)
    (hmore : source.Answers more) : source.Answers (events ++ more) := by
  intro call hcall
  rcases List.mem_append.1 hcall with hcall | hcall
  · exact h call hcall
  · exact hmore call hcall

theorem blames_of_referentialIntegrity {call : Call} {e : ReadError}
    (h : e.kind = .referentialIntegrity) (hcall : call.operation = .foreignKeysTo) :
    source.Blames call e := by
  cases e with
  | referentialIntegrity table column => exact hcall
  | connectivity cause => cases h
  | invalidColumnPosition object position reason => cases h

theorem blames_of_invalidColumnPosition {call : Call} {e : ReadError}
    (h : e.kind = .invalidColumnPosition)
    (hcall : call.operation = .primaryKeys ∨ call.operation = .indexInfo) :
    source.Blames call e := by
  cases e with
  | invalidColumnPosition object position reason => exact hcall
  | connectivity cause => cases h
  | referentialIntegrity table column => cases h

end MetadataSource

/-- `run` follows `script`. If it succeeds, it makes the steps of the script, and all its calls are
answered. If it fails, it makes the first steps of the script: the last one is the call that the
error is put down to, and the calls before it are answered. -/
structure Follows {α : Type} (source : MetadataSource) (run : Traced ReadError α)
    (script : List Event) : Prop where
  done : ∀ a, run.outcome = .ok a → run.steps = script ∧ source.Answers script
  stopped : ∀ e, run.outcome = .error e → run.steps <+: script ∧
    ∃ before call, run.steps = before ++ [.asked call] ∧ source.Answers before ∧
      source.Blames call e

namespace Follows

variable {α β : Type} {source : MetadataSource} {run : Traced ReadError α}
  {script rest : List Event}

/-- A run without steps that succeeds follows `[]`. -/
theorem quiet {a : α} (hsteps : run.steps = []) (houtcome : run.outcome = .ok a) :
    Follows source run [] := by
  constructor
  · intro _ _
    exact ⟨hsteps, fun call hcall => absurd hcall List.not_mem_nil⟩
  · intro e he
    rw [houtcome] at he
    cases he

theorem pure (a : α) : Follows source (Pure.pure a : Traced ReadError α) [] :=
  quiet rfl rfl

/-- `run >>= next` follows `script ++ rest`. -/
theorem bind {next : α → Traced ReadError β} (h : Follows source run script)
    (hnext : ∀ a, run.outcome = .ok a → Follows source (next a) rest) :
    Follows source (run >>= next) (script ++ rest) := by
  constructor
  · intro b hb
    rw [Traced.outcome_bind, Except.bind_eq_ok_iff] at hb
    obtain ⟨a, ha, hb⟩ := hb
    obtain ⟨hsteps, hanswers⟩ := h.done a ha
    obtain ⟨hsteps', hanswers'⟩ := (hnext a ha).done b hb
    refine ⟨?_, hanswers.append hanswers'⟩
    rw [Traced.steps_bind, ha, hsteps, ← hsteps']
  · intro e he
    rw [Traced.outcome_bind, Except.bind_eq_error_iff] at he
    rcases he with he | ⟨a, ha, he⟩
    · -- The first run fails, so the second one adds no step.
      have hsame : (run >>= next).steps = run.steps := by
        rw [Traced.steps_bind, he, List.append_nil]
      obtain ⟨hpre, hlast⟩ := h.stopped e he
      rw [hsame]
      exact ⟨hpre.trans (List.prefix_append _ _), hlast⟩
    · -- the first run succeeds, and the second one is where it stops
      obtain ⟨hsteps, hanswers⟩ := h.done a ha
      obtain ⟨hpre, before, call, hlast, hbefore, hblames⟩ := (hnext a ha).stopped e he
      have hboth : (run >>= next).steps = script ++ (next a).steps := by
        rw [Traced.steps_bind, ha, hsteps]
      rw [hboth]
      refine ⟨(List.prefix_append_right_inj script).2 hpre, script ++ before, call, ?_,
        hanswers.append hbefore, hblames⟩
      rw [hlast, List.append_assoc]

/-- `run >>= next` follows the script of `run` if every `next a` follows `[]`. -/
theorem bind_nil {next : α → Traced ReadError β} (h : Follows source run script)
    (hnext : ∀ a, Follows source (next a) []) : Follows source (run >>= next) script := by
  have hboth := h.bind fun a _ => hnext a
  rwa [List.append_nil] at hboth

/-- `run >>= next` follows the script of `run` if `next a` has no steps and the source `Blames` the
last call of the script for its errors. -/
theorem bind_quiet {next : α → Traced ReadError β} (h : Follows source run script)
    (hquiet : ∀ a, run.outcome = .ok a → (next a).steps = [])
    (hblames : ∀ a e, run.outcome = .ok a → (next a).outcome = .error e →
      ∃ before call, script = before ++ [.asked call] ∧ source.Blames call e) :
    Follows source (run >>= next) script := by
  have hsteps (a : α) (ha : run.outcome = .ok a) : (run >>= next).steps = script := by
    rw [Traced.steps_bind, ha, (h.done a ha).1]
    dsimp only
    rw [hquiet a ha, List.append_nil]
  constructor
  · intro b hb
    rw [Traced.outcome_bind, Except.bind_eq_ok_iff] at hb
    obtain ⟨a, ha, -⟩ := hb
    exact ⟨hsteps a ha, (h.done a ha).2⟩
  · intro e he
    rw [Traced.outcome_bind, Except.bind_eq_error_iff] at he
    rcases he with he | ⟨a, ha, he⟩
    · -- the call itself fails, and nothing follows
      have hsame : (run >>= next).steps = run.steps := by
        rw [Traced.steps_bind, he, List.append_nil]
      rw [hsame]
      exact h.stopped e he
    · -- all calls are answered, and the thinking afterwards fails
      obtain ⟨before, call, hlast, hcall⟩ := hblames a e ha he
      have hanswers := (h.done a ha).2
      rw [hsteps a ha]
      refine ⟨List.prefix_refl _, before, call, hlast, fun earlier hearlier => ?_, hcall⟩
      apply hanswers
      rw [hlast]
      exact List.mem_append_left _ hearlier

/-- If every `f b a` asks `callOf a`, the fold asks the calls `l.map callOf` in turn. -/
theorem foldlM {f : β → α → Traced ReadError β} {callOf : α → Call}
    (h : ∀ b a, Follows source (f b a) [.asked (callOf a)]) (l : List α) (b : β) :
    Follows source (l.foldlM f b) ((l.map callOf).map .asked) := by
  induction l generalizing b with
  | nil => exact pure b
  | cons a rest ih =>
    rw [List.foldlM_cons]
    exact (h b a).bind fun next _ => ih next

theorem mapM {f : α → Traced ReadError β} {callOf : α → Call}
    (h : ∀ a, Follows source (f a) [.asked (callOf a)]) (l : List α) :
    Follows source (l.mapM f) ((l.map callOf).map .asked) := by
  induction l with
  | nil => exact pure []
  | cons a rest ih =>
    rw [List.mapM_cons]
    exact (h a).bind fun b _ => ih.bind_nil fun bs => pure (b :: bs)

end Follows

/-! ### The script of a run -/

/-- The six phases in their order. -/
def Phase.all : List Phase :=
  [.tables, .columns, .foreignKeys, .primaryKeys, .indexes, .sequences]

namespace Reader

/-- The names that `kind` claims first, in the order of these claims. -/
def namesClaimed (r : Reader) (kind : ObjectKind) (rows : List ObjectRow) : List String :=
  ((rows.filter r.isClaim).map (·.name)).eraseDups.filter fun name => r.claim? rows name = some kind

/-- The object rows that the source answers with for the catalog and schema of the configuration,
`[]` if it does not answer. -/
def objectRows (r : Reader) : List ObjectRow :=
  (r.source.answer (.objects ⟨r.config.catalog, r.config.schema⟩)).toOption.getD []

/-- The tables that the source has, `namesClaimed .table`, in the order of the names. -/
def tablesInOrder (r : Reader) : List String :=
  orderedBy id (r.namesClaimed .table r.objectRows)

/-- The calls that a phase is to make. `.tables` asks about each view in turn, and the phases that
go by table ask about each of `r.tablesInOrder`. Whatever has a scope is asked about the catalog and
schema of the configuration, `⟨r.config.catalog, r.config.schema⟩`. -/
def callsOf (r : Reader) : Phase → List Call
  | .tables => .objects ⟨r.config.catalog, r.config.schema⟩ ::
      (r.namesClaimed .view r.objectRows).map .viewDefinition
  | .columns => [.columns ⟨r.config.catalog, r.config.schema⟩]
  | .foreignKeys => r.tablesInOrder.map (.foreignKeysTo ⟨r.config.catalog, r.config.schema⟩)
  | .primaryKeys => r.tablesInOrder.map (.primaryKeys ⟨r.config.catalog, r.config.schema⟩)
  | .indexes => r.tablesInOrder.map (.indexInfo ⟨r.config.catalog, r.config.schema⟩)
  | .sequences => if r.source.supportsSequences then [.sequenceNames] else []

/-- The steps that `phase` is to make: every listener hears of it, and then it makes its calls. -/
def stepsOf (r : Reader) (phase : Phase) : List Event :=
  r.listeners.map (Listener.hear (phase.message r.label)) ++ (r.callsOf phase).map .asked

/-- The steps that a run is to make: `stepsOf` one phase after another. -/
def script (r : Reader) : List Event :=
  Phase.all.flatMap r.stepsOf

variable {r : Reader}

/-- `objectRows` are the rows that a run is answered with: a run asks with `r.scope`, which is the
catalog and schema of the configuration. -/
theorem objectRows_eq {rows : List ObjectRow}
    (h : r.source.answer (.objects r.scope) = .ok rows) : r.objectRows = rows := by
  show (r.source.answer (.objects r.scope)).toOption.getD [] = rows
  rw [h]
  rfl

theorem mem_namesClaimed {rows : List ObjectRow} {kind : ObjectKind} {name : String} :
    name ∈ r.namesClaimed kind rows ↔ r.claim? rows name = some kind := by
  rw [namesClaimed, List.mem_filter, List.mem_eraseDups, decide_eq_true_eq]
  constructor
  · exact And.right
  · intro h
    obtain ⟨row, hrow, hclaim, hname, -⟩ := claim?_eq_some h
    exact ⟨List.mem_map.2 ⟨row, List.mem_filter.2 ⟨hrow, hclaim⟩, hname⟩, h⟩

theorem nodup_namesClaimed (rows : List ObjectRow) (kind : ObjectKind) :
    (r.namesClaimed kind rows).Nodup :=
  (nodup_eraseDups _).filter _

/-- `namesClaimed` of one more row is what it was, and the name of the row if it claims one that
nobody has. -/
theorem namesClaimed_append_singleton (rows : List ObjectRow) (row : ObjectRow)
    (kind : ObjectKind) :
    r.namesClaimed kind (rows ++ [row]) = r.namesClaimed kind rows ++
      if r.isClaim row = true ∧ r.claim? rows row.name = none ∧ row.kind = kind then [row.name]
      else [] := by
  unfold namesClaimed
  rw [List.filter_append, List.filter_singleton]
  cases hclaim : r.isClaim row with
  | false => simp [claim?_of_not_isClaim hclaim]
  | true =>
    rw [cond_true, List.map_append, List.map_singleton, eraseDups_append_singleton]
    cases hfirst : r.claim? rows row.name with
    | some first =>
      -- The name is taken, so it is among those before and no claim changes.
      have hmem : row.name ∈ (rows.filter r.isClaim).map (·.name) := by
        obtain ⟨other, hother, hclaims, hname, -⟩ := claim?_eq_some hfirst
        exact List.mem_map.2 ⟨other, List.mem_filter.2 ⟨hother, hclaims⟩, hname⟩
      rw [if_pos hmem]
      simp [claim?_of_taken hfirst]
    | none =>
      -- a name among those before would have been claimed
      have hnew : row.name ∉ (rows.filter r.isClaim).map (·.name) := by
        rintro hmem
        obtain ⟨other, hother, hname⟩ := List.mem_map.1 hmem
        obtain ⟨hother, hclaims⟩ := List.mem_filter.1 hother
        obtain ⟨first, hsome⟩ := exists_claim? hother hclaims
        rw [hname, hfirst] at hsome
        cases hsome
      rw [if_neg hnew, List.filter_append]
      congr 1
      · apply List.filter_congr
        intro name hname
        have hne : name ≠ row.name := by
          rintro rfl
          exact hnew (List.mem_eraseDups.1 hname)
        rw [claim?_of_free hclaim hfirst, if_neg hne]
      · simp [List.filter_singleton, claim?_of_free hclaim hfirst]

/-! ### The phases follow the script -/

theorem follows_announce (phase : Phase) : Follows r.source (r.announce phase)
    (r.listeners.map (Listener.hear (phase.message r.label))) := by
  constructor
  · intro _ _
    refine ⟨List.filter_eq_self.2 ?_, ?_⟩
    · intro event hevent
      obtain ⟨listener, -, rfl⟩ := List.mem_map.1 hevent
      exact Event.isStep_hear listener _
    · intro call hcall
      obtain ⟨listener, -, hheard⟩ := List.mem_map.1 hcall
      cases listener <;> cases hheard
  · intro e he
    cases he

theorem follows_ask (call : Call) : Follows r.source (r.ask call) [.asked call] := by
  constructor
  · intro answer hanswer
    refine ⟨rfl, fun earlier hearlier => ?_⟩
    obtain rfl : earlier = call := Event.asked.inj (List.mem_singleton.1 hearlier)
    exact ⟨answer, Except.mapError_eq_ok_iff.1 hanswer⟩
  · intro e he
    obtain ⟨cause, hcause, rfl⟩ := Except.mapError_eq_error_iff.1 he
    exact ⟨List.prefix_refl _, [], call, rfl, fun _ hcall => absurd hcall List.not_mem_nil, hcause⟩

/-- A phase follows `r.stepsOf phase` if, once announced, it asks `r.callsOf phase`. -/
theorem follows_stepsOf {α : Type} {phase : Phase} {run : Traced ReadError α}
    (h : Follows r.source run ((r.callsOf phase).map .asked)) :
    Follows r.source (r.announce phase >>= fun _ => run) (r.stepsOf phase) :=
  (follows_announce phase).bind fun _ _ => h

/-- `addObject` asks for a view definition if `row` is the first to claim its name and a view, and
else asks nothing. -/
theorem follows_addObject {rows : List ObjectRow} {found : Inventory} (h : r.Claimed rows found)
    (row : ObjectRow) : Follows r.source (r.addObject found row)
      (if r.isClaim row = true ∧ r.claim? rows row.name = none ∧ row.kind = .view then
        [.asked (.viewDefinition row.name)]
      else []) := by
  unfold addObject
  split
  · rename_i hexcluded
    have hclaim : r.isClaim row = false := by simp [isClaim, hexcluded]
    rw [hclaim, if_neg (by simp)]
    exact .quiet rfl rfl
  · rename_i hlive
    cases hkind : row.kind with
    -- only views are asked about
    | table =>
      simp only [reduceCtorEq, and_false, ↓reduceIte]
      split <;> exact .quiet rfl rfl
    | other name =>
      simp only [reduceCtorEq, and_false, ↓reduceIte]
      exact .quiet rfl rfl
    | view =>
      -- The source is asked only if the name belongs neither to a table nor to a view.
      dsimp only
      by_cases htable : found.containers.tables.contains row.name = true
      · rw [if_pos htable, (h.contains_table _).1 htable, if_neg (by simp)]
        exact .quiet rfl rfl
      · rw [if_neg htable]
        by_cases hview : found.containers.views.contains row.name = true
        · rw [if_pos hview, (h.contains_view _).1 hview, if_neg (by simp)]
          exact .quiet rfl rfl
        · -- nobody has the name
          have hclaim : r.isClaim row = true := by simp [isClaim, hlive, hkind]
          have hfree : r.claim? rows row.name = none := by
            rw [Option.eq_none_iff_forall_ne_some]
            intro kind hsome
            rcases kind_of_claim? hsome with rfl | rfl
            · exact htable ((h.contains_table _).2 hsome)
            · exact hview ((h.contains_view _).2 hsome)
          rw [if_neg hview, if_pos ⟨hclaim, hfree, rfl⟩]
          exact (follows_ask _).bind_nil fun _ => .quiet rfl rfl

/-- The object rows ask for the definitions of the views in `r.namesClaimed .view rows`, in this
order. -/
theorem follows_objects (rows : List ObjectRow) :
    Follows r.source (rows.foldlM r.addObject {})
      ((r.namesClaimed .view rows).map fun name => .asked (.viewDefinition name)) := by
  induction rows using List.reverseRecOn with
  | nil => exact .pure _
  | append_singleton rows row ih =>
    rw [List.foldlM_append, namesClaimed_append_singleton, List.map_append]
    refine ih.bind fun found hfound => ?_
    simp only [List.foldlM_cons, List.foldlM_nil, bind_pure, apply_ite (List.map _)]
    exact follows_addObject (claimed_of_objects hfound) row

theorem follows_readContainers : Follows r.source r.readContainers (r.stepsOf .tables) := by
  apply follows_stepsOf
  refine (follows_ask (.objects r.scope)).bind fun rows hrows => ?_
  rw [objectRows_eq (Except.mapError_eq_ok_iff.1 hrows), List.map_map]
  exact (follows_objects rows).bind_nil fun _ => .quiet rfl rfl

theorem follows_readColumns (listed : Inventory) :
    Follows r.source (r.readColumns listed) (r.stepsOf .columns) := by
  apply follows_stepsOf
  refine (follows_ask (.columns r.scope)).bind_nil fun rows => .quiet ?_ rfl
  exact Traced.steps_bind_eq_nil (Traced.steps_emit_map (fun _ => rfl) _) fun _ => rfl

/-- `found.containers.tables.keys = r.tablesInOrder` after the first two phases. -/
theorem tables_keys_eq_tablesInOrder {listed found : Inventory}
    (hlisted : r.readContainers.outcome = .ok listed)
    (hfound : (r.readColumns listed).outcome = .ok found) :
    found.containers.tables.keys = r.tablesInOrder := by
  obtain ⟨objects, hobjects, hlisted⟩ := readContainers_eq_ok_iff.1 hlisted
  obtain ⟨columns, -, rfl⟩ := readColumns_eq_ok_iff.1 hfound
  have hclaimed := claimed_of_objects hlisted
  have hapart := listed.containers.columnsApart_addRows r.dialect (columns.filter r.isLive)
  have hmem (name : String) : name ∈ (r.columnsAdded listed columns).containers.tables.keys ↔
      name ∈ r.namesClaimed .table objects := by
    rw [OrderedMap.mem_keys_iff, mem_namesClaimed, ← hclaimed.contains_table]
    simp only [columnsAdded, OrderedMap.contains, hapart.tables, Option.isSome_map]
  rw [tablesInOrder, objectRows_eq hobjects]
  refine eq_orderedBy_of_perm ?_ ?_ ?_
  · exact (List.perm_ext_iff_of_nodup (OrderedMap.nodup_keys _) (nodup_namesClaimed _ _)).2 hmem
  · refine List.pairwise_map.2 ((OrderedMap.ascending _).imp fun {a b} hab => ?_)
    rw [id, id, hab]
    rfl
  · rw [List.map_id]
    exact nodup_namesClaimed _ _

/-! ### The phases that go by table -/

section ByTable

variable {c : Containers}

theorem follows_addForeignKeysTo (keys : OrderedSet ForeignKey) (table : String) :
    Follows r.source (r.addForeignKeysTo c keys table) [.asked (.foreignKeysTo r.scope table)] := by
  refine (follows_ask (.foreignKeysTo r.scope table)).bind_quiet (fun _ _ => rfl) ?_
  intro rows e _ he
  refine ⟨[], _, rfl, ?_⟩
  exact MetadataSource.blames_of_referentialIntegrity
    (Containers.kind_of_foldlM_addForeignKey he) rfl

theorem follows_readForeignKeys (hc : c.tables.keys = r.tablesInOrder) :
    Follows r.source (r.readForeignKeys c) (r.stepsOf .foreignKeys) := by
  apply follows_stepsOf
  rw [callsOf, ← hc]
  exact .foldlM follows_addForeignKeysTo _ _

theorem follows_addPrimaryKeysOf (keys : PartialKeys) (table : String) :
    Follows r.source (r.addPrimaryKeysOf keys table) [.asked (.primaryKeys r.scope table)] := by
  refine (follows_ask (.primaryKeys r.scope table)).bind_quiet (fun _ _ => rfl) ?_
  intro rows e _ he
  refine ⟨[], _, rfl, ?_⟩
  exact MetadataSource.blames_of_invalidColumnPosition
    (PartialKeys.kind_of_foldlM_addRow he) (.inl rfl)

/-- The fourth phase follows `r.stepsOf .primaryKeys`. It looks for gaps when all tables have been
asked about, so a gap is put down to the last of them. -/
theorem follows_readPrimaryKeys (hc : c.tables.keys = r.tablesInOrder) :
    Follows r.source (r.readPrimaryKeys c) (r.stepsOf .primaryKeys) := by
  apply follows_stepsOf
  rw [callsOf, ← hc]
  refine (Follows.foldlM follows_addPrimaryKeysOf c.tables.keys ∅).bind_quiet
    (fun _ _ => Traced.steps_bind_eq_nil rfl fun _ => rfl) ?_
  intro keys e hkeys he
  rw [Traced.outcome_bind, Traced.outcome_ofExcept] at he
  have hfinish := Except.bind_pure_eq_error_iff.1 he
  -- a gap is put down to the last table, if there is one
  rcases List.eq_nil_or_concat c.tables.keys with hnone | ⟨earlier, last, htables⟩
  · -- Without tables there are no keys, so there is nothing to find fault with.
    rw [hnone] at hkeys
    obtain rfl := Except.ok.inj hkeys
    cases hfinish
  · refine ⟨(earlier.map (Call.primaryKeys r.scope)).map .asked, .primaryKeys r.scope last, ?_, ?_⟩
    · simp [htables]
    · obtain ⟨entry, -, hentry⟩ := Except.error_of_mapM hfinish
      exact MetadataSource.blames_of_invalidColumnPosition
        (PartialKey.kind_of_finish hentry) (.inl rfl)

theorem steps_addIndexRow (indexes : PartialIndexes) (row : IndexRow) :
    (indexes.addRow row).steps = [] := by
  unfold PartialIndexes.addRow
  split
  · rfl
  · split <;> rfl

theorem follows_readIndexesOf (table : String) :
    Follows r.source (r.readIndexesOf table) [.asked (.indexInfo r.scope table)] := by
  refine (follows_ask (.indexInfo r.scope table)).bind_quiet (fun rows _ => ?_) ?_
  · exact Traced.steps_bind_eq_nil (Traced.steps_foldlM_eq_nil steps_addIndexRow _ _) fun _ => rfl
  · intro rows e _ he
    rw [Traced.outcome_bind, PartialIndexes.outcome_addRows] at he
    refine ⟨[], _, rfl, ?_⟩
    exact MetadataSource.blames_of_invalidColumnPosition
      (PartialIndexes.kind_of_ofParts he) (.inr rfl)

theorem follows_readIndexes (hc : c.tables.keys = r.tablesInOrder) (keys : OrderedSet PrimaryKey) :
    Follows r.source (r.readIndexes c keys) (r.stepsOf .indexes) := by
  apply follows_stepsOf
  rw [callsOf, ← hc]
  refine (Follows.mapM follows_readIndexesOf c.tables.keys).bind_nil fun _ => .quiet ?_ rfl
  exact Traced.steps_bind_eq_nil (Traced.steps_emit_map (fun _ => rfl) _) fun _ => rfl

end ByTable

theorem follows_readSequences : Follows r.source r.readSequences (r.stepsOf .sequences) := by
  apply follows_stepsOf
  rw [callsOf]
  split
  · exact (follows_ask .sequenceNames).bind_nil fun _ => .pure _
  · exact .pure _

/-! ### The whole run -/

theorem follows_read (r : Reader) : Follows r.source r.read r.script := by
  have hopened : Follows r.source (.emit [.opened r.label r.dialect.name]) [] := .quiet rfl rfl
  refine hopened.bind fun _ _ => ?_
  refine follows_readContainers.bind fun listed hlisted => ?_
  -- from here on the tables are known, and with them the calls
  refine (follows_readColumns listed).bind fun found hfound => ?_
  have hc := tables_keys_eq_tablesInOrder hlisted hfound
  refine (follows_readForeignKeys hc).bind fun foreignKeys _ => ?_
  refine (follows_readPrimaryKeys hc).bind fun primaryKeys _ => ?_
  refine (follows_readIndexes hc primaryKeys).bind fun indexes _ => ?_
  exact follows_readSequences.bind fun sequences _ => .quiet rfl rfl

/-- **The course of a run.** A run that takes a snapshot makes exactly the steps of the script, and
all its calls are answered. A run that gives up makes the first steps of the script. The last of
them is a call: one that is not answered, one about foreign keys, or one about a primary key or
index, according to why the run gives up. All calls before it are answered. -/
theorem read_course (r : Reader) :
    (∀ s, r.read.outcome = .ok s → r.read.steps = r.script ∧ r.source.Answers r.script) ∧
    ∀ e, r.read.outcome = .error e → r.read.steps <+: r.script ∧
      ∃ before call, r.read.steps = before ++ [.asked call] ∧ r.source.Answers before ∧
        r.source.Blames call e :=
  ⟨(follows_read r).done, (follows_read r).stopped⟩

/-- A harbour of which the schema `port` of the catalog `coast` is read: two tables, a view of the
berths, and these index rows. A pilot and the log hear about it. -/
def harbour (indexes : List IndexRow) : Reader where
  source := Listing.source
    { objects := [⟨.table, "ships", some "port", some "coast"⟩,
        ⟨.view, "berths", some "port", some "coast"⟩, ⟨.table, "berths", none, none⟩,
        ⟨.table, "cranes", some "port", some "coast"⟩]
      indexes := indexes }
  config := { catalog := some "coast", schema := some "port", label := some "harbour" }
  listeners := [.named "pilot", .log]

theorem read_course_harbour :
    (harbour []).read.steps =
      [.status "pilot" "Reading tables for harbour ...",
        .logged (.progress "Reading tables for harbour ..."),
        .asked (.objects ⟨some "coast", some "port"⟩),
        .asked (.viewDefinition "berths"),
        .status "pilot" "Reading columns for harbour ...",
        .logged (.progress "Reading columns for harbour ..."),
        .asked (.columns ⟨some "coast", some "port"⟩),
        .status "pilot" "Reading foreign keys for harbour ...",
        .logged (.progress "Reading foreign keys for harbour ..."),
        .asked (.foreignKeysTo ⟨some "coast", some "port"⟩ "cranes"),
        .asked (.foreignKeysTo ⟨some "coast", some "port"⟩ "ships"),
        .status "pilot" "Reading primary keys for harbour ...",
        .logged (.progress "Reading primary keys for harbour ..."),
        .asked (.primaryKeys ⟨some "coast", some "port"⟩ "cranes"),
        .asked (.primaryKeys ⟨some "coast", some "port"⟩ "ships"),
        .status "pilot" "Reading indexes for harbour ...",
        .logged (.progress "Reading indexes for harbour ..."),
        .asked (.indexInfo ⟨some "coast", some "port"⟩ "cranes"),
        .asked (.indexInfo ⟨some "coast", some "port"⟩ "ships"),
        .status "pilot" "Reading sequences for harbour ...",
        .logged (.progress "Reading sequences for harbour ..."),
        .asked .sequenceNames] ∧
    ∃ before call, (harbour [⟨some "by_name", 3, "cranes", some "name", 2⟩]).read.steps =
        before ++ [.asked call] ∧
      (call.operation = .primaryKeys ∨ call.operation = .indexInfo) := by
  constructor
  · exact ((read_course (harbour [])).1 _ rfl).1.trans rfl
  · obtain ⟨-, before, call, hsteps, -, hblames⟩ :=
      (read_course (harbour [⟨some "by_name", 3, "cranes", some "name", 2⟩])).2 _ rfl
    exact ⟨before, call, hsteps, hblames⟩

/-- A gap in an index of `cranes` keeps `ships` from being asked about. -/
example : (harbour [⟨some "by_name", 3, "cranes", some "name", 2⟩]).read.steps.getLast? =
    some (.asked (.indexInfo ⟨some "coast", some "port"⟩ "cranes")) := by rfl

end Reader

end SchemaSnapshot

import SchemaSnapshot.Reading

/-!
# How a run ends

Most statements about reading a database are about the outcome of a run and not about its events.
Here the outcome of a composite run is taken apart: `Except.bind_eq_ok_iff` and its companions for
one thing after another, `Traced.outcome_foldlM` and `Traced.outcome_mapM` for runs over a list, and
`Reader.read_eq_ok_iff` for the six phases. The errors of a run fall into three kinds
(`ReadError.Kind`), one for each cause.
-/

namespace SchemaSnapshot

/-! ### Outcomes one after another -/

namespace Except

variable {ε ε' α β σ : Type}

theorem bind_eq_ok_iff {x : Except ε α} {f : α → Except ε β} {b : β} :
    (x >>= f) = .ok b ↔ ∃ a, x = .ok a ∧ f a = .ok b := by
  cases x <;> simp [bind, Except.bind]

theorem bind_eq_error_iff {x : Except ε α} {f : α → Except ε β} {e : ε} :
    (x >>= f) = .error e ↔ x = .error e ∨ ∃ a, x = .ok a ∧ f a = .error e := by
  cases x <;> simp [bind, Except.bind]

theorem pure_eq_ok_iff {a b : α} : (pure a : Except ε α) = .ok b ↔ a = b := by
  simp [pure, Except.pure]

theorem mapError_eq_ok_iff {x : Except ε α} {g : ε → ε'} {a : α} :
    x.mapError g = .ok a ↔ x = .ok a := by
  cases x with
  | ok b =>
    show Except.ok b = Except.ok a ↔ _
    simp
  | error cause =>
    show Except.error (g cause) = Except.ok a ↔ _
    simp

theorem mapError_eq_error_iff {x : Except ε α} {g : ε → ε'} {e : ε'} :
    x.mapError g = .error e ↔ ∃ cause, x = .error cause ∧ g cause = e := by
  cases x with
  | ok b =>
    show Except.ok b = Except.error e ↔ _
    simp
  | error cause =>
    show Except.error (g cause) = Except.error e ↔ _
    simp

theorem map_eq_ok_iff {x : Except ε α} {f : α → β} {b : β} :
    x.map f = .ok b ↔ ∃ a, x = .ok a ∧ f a = b := by
  cases x with
  | ok a =>
    show Except.ok (f a) = Except.ok b ↔ _
    simp
  | error cause =>
    show Except.error cause = Except.ok b ↔ _
    simp

/-- `x >>= f` where `x` can give the one value `a` only, and gives it if `P`. -/
theorem bind_eq_ok_iff_of {x : Except ε α} {P : Prop} {a : α} (hx : ∀ v, x = .ok v ↔ P ∧ v = a)
    {f : α → Except ε β} {b : β} : (x >>= f) = .ok b ↔ P ∧ f a = .ok b := by
  simp only [bind_eq_ok_iff, hx]
  constructor
  · rintro ⟨_, ⟨hP, rfl⟩, hf⟩
    exact ⟨hP, hf⟩
  · rintro ⟨hP, hf⟩
    exact ⟨a, ⟨hP, rfl⟩, hf⟩

/-- `x >>= fun a => pure (f a)` fails exactly if `x` does. -/
theorem bind_pure_eq_error_iff {x : Except ε α} {f : α → β} {e : ε} :
    (x >>= fun a => pure (f a)) = .error e ↔ x = .error e := by
  cases x <;> simp [bind, Except.bind, pure, Except.pure]

/-- An outcome is `.ok a` or `.error e`. -/
theorem ok_or_error (x : Except ε α) : (∃ a, x = .ok a) ∨ ∃ e, x = .error e := by
  cases x with
  | ok a => exact .inl ⟨a, rfl⟩
  | error e => exact .inr ⟨e, rfl⟩

/-- `l.mapM f = .ok out ↔ l.map f = out.map .ok`: it succeeds if every `f a` does, with their values
in order. -/
theorem mapM_eq_ok_iff {f : α → Except ε β} {l : List α} {out : List β} :
    l.mapM f = .ok out ↔ l.map f = out.map .ok := by
  induction l generalizing out with
  | nil => cases out <;> simp [pure_eq_ok_iff]
  -- the first value comes from the first element, the tail from the rest
  | cons a rest ih =>
    simp only [List.mapM_cons, bind_eq_ok_iff, pure_eq_ok_iff, List.map_cons]
    constructor
    · rintro ⟨b, hb, tail, htail, rfl⟩
      rw [List.map_cons, hb, ih.1 htail]
    · intro h
      cases out with
      | nil => simp at h
      | cons b tail =>
        rw [List.map_cons, List.cons.injEq] at h
        exact ⟨b, h.1, tail, ih.2 h.2, rfl⟩

/-- `l.mapM f` where each `f a` can give the one value `g a` only: it gives `l.map g`, if it gives
anything. -/
theorem mapM_eq_ok_iff_of {f : α → Except ε β} {P : α → Prop} {g : α → β}
    (hf : ∀ a b, f a = .ok b ↔ P a ∧ b = g a) {l : List α} {out : List β} :
    l.mapM f = .ok out ↔ (∀ a ∈ l, P a) ∧ out = l.map g := by
  induction l generalizing out with
  | nil =>
    rw [List.mapM_nil, pure_eq_ok_iff, eq_comm]
    simp
  | cons a rest ih =>
    simp only [List.mapM_cons, bind_eq_ok_iff, pure_eq_ok_iff, hf, ih, List.forall_mem_cons,
      List.map_cons]
    constructor
    · rintro ⟨_, ⟨ha, rfl⟩, _, ⟨hrest, rfl⟩, rfl⟩
      exact ⟨⟨ha, hrest⟩, rfl⟩
    · rintro ⟨⟨ha, hrest⟩, rfl⟩
      exact ⟨_, ⟨ha, rfl⟩, _, ⟨hrest, rfl⟩, rfl⟩

/-- If `l.mapM f = .error e`, then `f a = .error e` for some `a ∈ l`. -/
theorem error_of_mapM {f : α → Except ε β} {l : List α} {e : ε} (h : l.mapM f = .error e) :
    ∃ a ∈ l, f a = .error e := by
  induction l with
  | nil => simp [pure, Except.pure] at h
  | cons a rest ih =>
    rw [List.mapM_cons, bind_eq_error_iff] at h
    rcases h with h | ⟨b, hb, h⟩
    · exact ⟨a, List.mem_cons_self, h⟩
    · rw [bind_eq_error_iff] at h
      rcases h with h | ⟨tail, htail, h⟩
      · obtain ⟨x, hx, hfx⟩ := ih h
        exact ⟨x, List.mem_cons_of_mem _ hx, hfx⟩
      · simp [pure, Except.pure] at h

theorem mem_of_mapM {f : α → Except ε β} {l : List α} {out : List β} (h : l.mapM f = .ok out)
    (b : β) : b ∈ out ↔ ∃ a ∈ l, f a = .ok b := by
  rw [← List.mem_map, mapM_eq_ok_iff.1 h]
  constructor
  · exact List.mem_map_of_mem
  · intro hb
    obtain ⟨b', hb', heq⟩ := List.mem_map.1 hb
    rwa [← Except.ok.inj heq]

/-- If `l.foldlM f s` succeeds, then `f` has succeeded at every `a ∈ l`. -/
theorem exists_step_of_foldlM {f : σ → α → Except ε σ} {l : List α} {s s' : σ}
    (h : l.foldlM f s = .ok s') {a : α} (ha : a ∈ l) : ∃ before after, f before a = .ok after := by
  induction l generalizing s with
  | nil => cases ha
  | cons x rest ih =>
    rw [List.foldlM_cons, bind_eq_ok_iff] at h
    obtain ⟨mid, hmid, hrest⟩ := h
    rcases List.mem_cons.1 ha with rfl | ha
    · exact ⟨s, mid, hmid⟩
    · exact ih hrest ha

/-- `l.mapM f` succeeds exactly if `∀ a ∈ l, ∃ b, f a = .ok b`. -/
theorem exists_mapM_iff {f : α → Except ε β} {l : List α} :
    (∃ out, l.mapM f = .ok out) ↔ ∀ a ∈ l, ∃ b, f a = .ok b := by
  constructor
  · rintro ⟨out, h⟩ a ha
    have hmem : f a ∈ out.map .ok := by
      rw [← mapM_eq_ok_iff.1 h]
      exact List.mem_map_of_mem ha
    obtain ⟨b, -, hb⟩ := List.mem_map.1 hmem
    exact ⟨b, hb.symm⟩
  · intro h
    -- a run that fails would fail at an element, and none does
    rcases ok_or_error (l.mapM f) with hok | ⟨e, herror⟩
    · exact hok
    · obtain ⟨a, ha, hfail⟩ := error_of_mapM herror
      obtain ⟨b, hb⟩ := h a ha
      rw [hb] at hfail
      cases hfail

/-- `x >>= f = x >>= g` if `f` and `g` agree on the value of `x`. -/
theorem bind_congr_of_ok {x : Except ε α} {f g : α → Except ε β}
    (h : ∀ a, x = .ok a → f a = g a) : (x >>= f) = (x >>= g) := by
  cases x with
  | ok a => exact h a rfl
  | error e => rfl

/-- `(x >>= f).map g` applies `g` to what comes last. -/
theorem map_bind {γ : Type} (x : Except ε α) (f : α → Except ε β) (g : β → γ) :
    (x >>= f).map g = x >>= fun a => (f a).map g := by
  cases x <;> rfl

theorem mapM_congr {f g : α → Except ε β} {l : List α} (h : ∀ a ∈ l, f a = g a) :
    l.mapM f = l.mapM g := by
  induction l with
  | nil => rfl
  | cons a rest ih =>
    rw [List.mapM_cons, List.mapM_cons, h a List.mem_cons_self,
      ih fun b hb => h b (List.mem_cons_of_mem _ hb)]

theorem foldlM_congr {f g : σ → α → Except ε σ} {l : List α} (h : ∀ a ∈ l, ∀ s, f s a = g s a)
    (s : σ) : l.foldlM f s = l.foldlM g s := by
  induction l generalizing s with
  | nil => rfl
  | cons a rest ih =>
    rw [List.foldlM_cons, List.foldlM_cons, h a List.mem_cons_self]
    exact congrArg _ (funext (ih fun b hb => h b (List.mem_cons_of_mem _ hb)))

/-- `(l.filter p).foldlM f s = l.foldlM f s` if nothing happens at the elements left out. -/
theorem foldlM_filter {f : σ → α → Except ε σ} {p : α → Bool} {l : List α}
    (h : ∀ a ∈ l, p a = false → ∀ s, f s a = .ok s) (s : σ) :
    (l.filter p).foldlM f s = l.foldlM f s := by
  induction l generalizing s with
  | nil => rfl
  | cons a rest ih =>
    have hrest := ih fun b hb => h b (List.mem_cons_of_mem _ hb)
    rw [List.filter_cons, List.foldlM_cons]
    cases hp : p a with
    | true =>
      rw [if_pos rfl, List.foldlM_cons]
      exact congrArg _ (funext hrest)
    | false =>
      rw [if_neg Bool.false_ne_true, h a List.mem_cons_self hp]
      exact hrest s

/-- **Invariants**: what one step keeps, a whole fold keeps. -/
theorem foldlM_preserves {f : σ → α → Except ε σ} (P : σ → Prop)
    (step : ∀ s a s', P s → f s a = .ok s' → P s') {l : List α} {s s' : σ} (hs : P s)
    (h : l.foldlM f s = .ok s') : P s' := by
  induction l generalizing s with
  | nil =>
    obtain rfl := pure_eq_ok_iff.1 h
    exact hs
  | cons a rest ih =>
    rw [List.foldlM_cons, bind_eq_ok_iff] at h
    obtain ⟨mid, hmid, h⟩ := h
    exact ih (step s a mid hs hmid) h

/-- If `l.foldlM f s` fails with `e`, then `f mid a = .error e` at some step. -/
theorem error_of_foldlM {f : σ → α → Except ε σ} {l : List α} {s : σ} {e : ε}
    (h : l.foldlM f s = .error e) : ∃ mid, ∃ a ∈ l, f mid a = .error e := by
  induction l generalizing s with
  | nil => simp [pure, Except.pure] at h
  | cons a rest ih =>
    rw [List.foldlM_cons, bind_eq_error_iff] at h
    rcases h with h | ⟨mid, hmid, h⟩
    · exact ⟨s, a, List.mem_cons_self, h⟩
    · obtain ⟨late, x, hx, hfx⟩ := ih h
      exact ⟨late, x, List.mem_cons_of_mem _ hx, hfx⟩

/-- `l.foldlM f s = .error e ↔ l.findSome? obstacle? = some e` if each `f s a` fails exactly with
`obstacle? a`, whatever `s` is. -/
theorem foldlM_eq_error_iff {f : σ → α → Except ε σ} {obstacle? : α → Option ε}
    (hf : ∀ s a e, f s a = .error e ↔ obstacle? a = some e) {l : List α} {s : σ} {e : ε} :
    l.foldlM f s = .error e ↔ l.findSome? obstacle? = some e := by
  induction l generalizing s with
  | nil => simp [pure, Except.pure]
  | cons a rest ih =>
    rw [List.foldlM_cons, List.findSome?_cons]
    cases hstep : f s a with
    | ok mid =>
      -- a step that succeeds has met no obstacle
      have hnone : obstacle? a = none := by
        rw [Option.eq_none_iff_forall_ne_some]
        intro cause hcause
        rw [(hf s a cause).2 hcause] at hstep
        cases hstep
      rw [hnone]
      exact ih
    | error cause =>
      rw [(hf s a cause).1 hstep]
      show Except.error cause = Except.error e ↔ _
      simp

/-! ### Errors -/

/-- The error of an outcome, `none` if it is a value. -/
def error? : Except ε α → Option ε
  | .ok _ => none
  | .error e => some e

theorem error?_eq_some_iff {x : Except ε α} {e : ε} : error? x = some e ↔ x = .error e := by
  cases x <;> simp [error?]

theorem error?_map (x : Except ε α) (f : α → β) : error? (x.map f) = error? x := by
  cases x <;> rfl

theorem error?_mapError (x : Except ε α) (g : ε → ε') :
    error? (x.mapError g) = (error? x).map g := by
  cases x <;> rfl

/-- `x >>= f` fails for `x`, or else for what comes after it. -/
theorem error?_bind {x : Except ε α} {f : α → Except ε β} {rest : Option ε}
    (h : ∀ a, x = .ok a → error? (f a) = rest) : error? (x >>= f) = (error? x).or rest := by
  cases x with
  | ok a => exact h a rfl
  | error e => rfl

/-- `x >>= fun a => .ok (f a)` fails exactly if `x` does. -/
theorem error?_bind_ok (x : Except ε α) (f : α → β) :
    error? (x >>= fun a => .ok (f a)) = error? x := by
  cases x <;> rfl

/-- `error? (l.mapM f) = l.findSome? fun a => error? (f a)`. -/
theorem error?_mapM (f : α → Except ε β) (l : List α) :
    error? (l.mapM f) = l.findSome? fun a => error? (f a) := by
  induction l with
  | nil => rfl
  | cons a rest ih =>
    -- what is done with the tail does not fail
    have hrest (b : β) : error? (rest.mapM f >>= fun out => pure (b :: out)) =
        rest.findSome? fun a => error? (f a) :=
      (error?_bind_ok _ _).trans ih
    rw [List.mapM_cons, error?_bind fun b _ => hrest b, List.findSome?_cons]
    cases error? (f a) <;> rfl

end Except

/-! ### Outcomes of composite runs -/

namespace Traced

variable {ε α β : Type}

attribute [simp] outcome_pure outcome_bind

@[simp] theorem outcome_emit (events : List Event) :
    (emit events : Traced ε Unit).outcome = .ok () := rfl

@[simp] theorem outcome_log (notice : Notice) : (log notice : Traced ε Unit).outcome = .ok () := rfl

@[simp] theorem outcome_ofExcept (outcome : Except ε α) : (ofExcept outcome).outcome = outcome :=
  rfl

/-- `(l.foldlM f b).outcome = l.foldlM (fun b a => (f b a).outcome) b`. -/
theorem outcome_foldlM (f : β → α → Traced ε β) (l : List α) (b : β) :
    (l.foldlM f b).outcome = l.foldlM (fun b a => (f b a).outcome) b := by
  induction l generalizing b with
  | nil => rfl
  | cons a rest ih =>
    rw [List.foldlM_cons, List.foldlM_cons, outcome_bind]
    exact congrArg _ (funext ih)

theorem outcome_mapM (f : α → Traced ε β) (l : List α) :
    (l.mapM f).outcome = l.mapM fun a => (f a).outcome := by
  induction l with
  | nil => rfl
  | cons a rest ih =>
    rw [List.mapM_cons, List.mapM_cons, outcome_bind]
    refine congrArg _ (funext fun b => ?_)
    rw [outcome_bind, ih]
    rfl

end Traced

/-! ### Kinds of errors -/

/-- The three causes for which reading is given up. -/
inductive ReadError.Kind where
  | connectivity
  | referentialIntegrity
  | invalidColumnPosition
deriving DecidableEq, Inhabited

/-- The cause of an error, without what it says about the place. -/
def ReadError.kind : ReadError → ReadError.Kind
  | .connectivity _ => .connectivity
  | .referentialIntegrity _ _ => .referentialIntegrity
  | .invalidColumnPosition _ _ _ => .invalidColumnPosition

/-- `e.kind = .invalidColumnPosition` for the error of every fault of positions. -/
theorem PositionFault.kind_of_mapError {α : Type} {x : Except PositionFault α} {object : String}
    {e : ReadError} (h : x.mapError (toError object) = .error e) :
    e.kind = .invalidColumnPosition := by
  obtain ⟨fault, -, rfl⟩ := Except.mapError_eq_error_iff.1 h
  rfl

namespace Reader

/-! ### The six phases -/

@[simp] theorem outcome_announce (r : Reader) (phase : Phase) :
    (r.announce phase).outcome = .ok () := rfl

@[simp] theorem outcome_ask (r : Reader) (call : Call) :
    (r.ask call).outcome = (r.source.answer call).mapError .connectivity := rfl

/-- The outcome of `r.read` is that of its phases, one after another. -/
theorem outcome_read (r : Reader) : r.read.outcome = (do
    let listed ← r.readContainers.outcome
    let found ← (r.readColumns listed).outcome
    let foreignKeys ← (r.readForeignKeys found.containers).outcome
    let primaryKeys ← (r.readPrimaryKeys found.containers).outcome
    let indexes ← (r.readIndexes found.containers primaryKeys).outcome
    let sequences ← r.readSequences.outcome
    return r.snapshotOf found foreignKeys primaryKeys indexes sequences) := by
  simp only [read, Traced.outcome_bind, Traced.outcome_emit, Traced.outcome_log,
    Traced.outcome_pure]
  rfl

/-- **Success**: `r.read` takes a snapshot exactly if every phase succeeds, and it holds what the
phases found. -/
theorem read_eq_ok_iff {r : Reader} {s : Snapshot} : r.read.outcome = .ok s ↔
    ∃ listed found, r.readContainers.outcome = .ok listed ∧
      (r.readColumns listed).outcome = .ok found ∧
      ∃ foreignKeys primaryKeys indexes sequences,
        (r.readForeignKeys found.containers).outcome = .ok foreignKeys ∧
        (r.readPrimaryKeys found.containers).outcome = .ok primaryKeys ∧
        (r.readIndexes found.containers primaryKeys).outcome = .ok indexes ∧
        r.readSequences.outcome = .ok sequences ∧
        s = r.snapshotOf found foreignKeys primaryKeys indexes sequences := by
  simp only [outcome_read, Except.bind_eq_ok_iff, Except.pure_eq_ok_iff]
  constructor
  · rintro ⟨listed, h₁, found, h₂, fks, h₃, keys, h₄, indexes, h₅, seqs, h₆, rfl⟩
    exact ⟨listed, found, h₁, h₂, fks, keys, indexes, seqs, h₃, h₄, h₅, h₆, rfl⟩
  · rintro ⟨listed, found, h₁, h₂, fks, keys, indexes, seqs, h₃, h₄, h₅, h₆, rfl⟩
    exact ⟨listed, h₁, found, h₂, fks, h₃, keys, h₄, indexes, h₅, seqs, h₆, rfl⟩

/-- The run of `r` comes to the third phase, having found the tables and views `c`. -/
def ReachesForeignKeys (r : Reader) (c : Containers) : Prop :=
  ∃ listed found, r.readContainers.outcome = .ok listed ∧
    (r.readColumns listed).outcome = .ok found ∧ found.containers = c

/-- The run of `r` comes to the fourth phase, having found the tables and views `c`. -/
def ReachesPrimaryKeys (r : Reader) (c : Containers) : Prop :=
  r.ReachesForeignKeys c ∧ ∃ foreignKeys, (r.readForeignKeys c).outcome = .ok foreignKeys

theorem ReachesForeignKeys.error {r : Reader} {c : Containers} {e : ReadError}
    (h : r.ReachesForeignKeys c) (herror : (r.readForeignKeys c).outcome = .error e) :
    r.read.outcome = .error e := by
  obtain ⟨listed, found, hlisted, hfound, rfl⟩ := h
  simp [outcome_read, hlisted, hfound, herror, bind, Except.bind]

theorem ReachesPrimaryKeys.error {r : Reader} {c : Containers} {e : ReadError}
    (h : r.ReachesPrimaryKeys c) (herror : (r.readPrimaryKeys c).outcome = .error e) :
    r.read.outcome = .error e := by
  obtain ⟨⟨listed, found, hlisted, hfound, rfl⟩, fks, hfks⟩ := h
  simp [outcome_read, hlisted, hfound, hfks, herror, bind, Except.bind]

/-- If `r` comes to the third phase with `c` and takes the snapshot `s`, then `s` has the tables of
`c` and what the third and the fourth phase find with `c`. -/
theorem ReachesForeignKeys.of_read {r : Reader} {c : Containers} {s : Snapshot}
    (h : r.ReachesForeignKeys c) (hs : r.read.outcome = .ok s) :
    c.tables = s.tables ∧ (r.readForeignKeys c).outcome = .ok s.foreignKeys ∧
      (r.readPrimaryKeys c).outcome = .ok s.primaryKeys := by
  obtain ⟨listed, found, hlisted, hfound, rfl⟩ := h
  obtain ⟨listed', found', hlisted', hfound', fks, keys, indexes, sequences, hfks, hkeys, -, -,
    rfl⟩ := read_eq_ok_iff.1 hs
  -- both runs go through the same first phases
  obtain rfl := Except.ok.inj (hlisted.symm.trans hlisted')
  obtain rfl := Except.ok.inj (hfound.symm.trans hfound')
  exact ⟨rfl, hfks, hkeys⟩

/-- A run that takes a snapshot comes to the third phase, with some `c`. -/
theorem exists_reachesForeignKeys {r : Reader} {s : Snapshot} (hs : r.read.outcome = .ok s) :
    ∃ c, r.ReachesForeignKeys c := by
  obtain ⟨listed, found, hlisted, hfound, -⟩ := read_eq_ok_iff.1 hs
  exact ⟨found.containers, listed, found, hlisted, hfound, rfl⟩

/-- The first phase is a fold of `r.addObject` over the object rows. -/
theorem outcome_readContainers (r : Reader) : r.readContainers.outcome = (do
    let rows ← (r.source.answer (.objects r.scope)).mapError .connectivity
    (rows.foldlM r.addObject {}).outcome) := by
  simp only [readContainers, Traced.outcome_bind, outcome_announce, outcome_ask,
    Traced.outcome_log, Traced.outcome_pure]
  -- What is announced and logged on the way changes nothing.
  show ((r.source.answer (.objects r.scope)).mapError .connectivity >>= fun rows : List ObjectRow =>
    (rows.foldlM r.addObject {}).outcome >>= pure) = _
  simp only [bind_pure]

theorem readContainers_eq_ok_iff {r : Reader} {listed : Inventory} :
    r.readContainers.outcome = .ok listed ↔
      ∃ rows, r.source.answer (.objects r.scope) = .ok rows ∧
        (rows.foldlM r.addObject {}).outcome = .ok listed := by
  simp only [outcome_readContainers, Except.bind_eq_ok_iff, Except.mapError_eq_ok_iff]

/-- The inventory after the live ones among the column rows `rows`. -/
def columnsAdded (r : Reader) (listed : Inventory) (rows : List ColumnRow) : Inventory where
  containers := (listed.containers.addRows r.dialect (rows.filter r.isLive)).1
  warnings := listed.warnings ++ (listed.containers.addRows r.dialect (rows.filter r.isLive)).2

/-- The second phase takes the live column rows into account: `columnsAdded`. -/
theorem outcome_readColumns (r : Reader) (listed : Inventory) :
    (r.readColumns listed).outcome = (do
      let rows ← (r.source.answer (.columns r.scope)).mapError .connectivity
      return r.columnsAdded listed rows) := by
  simp only [readColumns, Traced.outcome_bind, outcome_announce, outcome_ask,
    Traced.outcome_emit, Traced.outcome_pure]
  rfl

theorem readColumns_eq_ok_iff {r : Reader} {listed found : Inventory} :
    (r.readColumns listed).outcome = .ok found ↔
      ∃ rows, r.source.answer (.columns r.scope) = .ok rows ∧
        found = r.columnsAdded listed rows := by
  simp only [outcome_readColumns, Except.bind_eq_ok_iff, Except.mapError_eq_ok_iff,
    Except.pure_eq_ok_iff, eq_comm (b := found)]

/-- The sixth phase asks for the sequences if `supportsSequences`, and else finds none. -/
theorem outcome_readSequences (r : Reader) : r.readSequences.outcome =
    if r.source.supportsSequences then do
      let names ← (r.source.answer .sequenceNames).mapError .connectivity
      return .ofList (names.map Sequence.mk)
    else
      return ∅ := by
  rw [readSequences, Traced.outcome_bind, outcome_announce]
  split
  · show (r.ask .sequenceNames >>= _).outcome = _
    rw [Traced.outcome_bind, outcome_ask]
    rfl
  · rfl

end Reader

end SchemaSnapshot

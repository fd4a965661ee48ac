import SchemaSnapshot.Collection.OrderedMap
import SchemaSnapshot.Proofs.Outcome
import Mathlib.Data.List.Nodup

/-!
# Rows that are put together by a key

Keys and indexes come in row by row, and a map holds what has come in under each name so far. Here
such a run is taken apart into one run for each name: `OrderedMap.foldlM_growAt_eq_ok_iff` says that
the whole run succeeds exactly if the runs over the rows of each name succeed, and that the map then
holds their results; `OrderedMap.error_of_foldlM_growAt` says that the whole run fails only where
one of them does.
-/

namespace SchemaSnapshot

/-! ### Lists with a key -/

/-- `l.find? (key · == k) = some a ↔ a ∈ l ∧ key a = k` where no key comes twice. -/
theorem find?_key_eq_some_iff {α κ : Type} [BEq κ] [LawfulBEq κ] (key : α → κ) {l : List α}
    (h : (l.map key).Nodup) {k : κ} {a : α} :
    l.find? (key · == k) = some a ↔ a ∈ l ∧ key a = k := by
  constructor
  · intro hfind
    exact ⟨List.mem_of_find?_eq_some hfind, by simpa using List.find?_some hfind⟩
  · rintro ⟨hmem, rfl⟩
    -- some element has the key, so the search finds one
    have hsome : (l.find? (key · == key a)).isSome := by
      rw [List.find?_isSome]
      exact ⟨a, hmem, by simp⟩
    obtain ⟨first, hfirst⟩ := Option.isSome_iff_exists.1 hsome
    have hkey : key first = key a := by simpa using List.find?_some hfirst
    rw [hfirst, List.inj_on_of_nodup_map h (List.mem_of_find?_eq_some hfirst) hmem hkey]

/-- If `l.find? p = some a`, then `a` is still found in `l.filter q`, unless it is left out
itself. -/
theorem find?_filter_of_find? {α : Type} {p q : α → Bool} {l : List α} {a : α}
    (h : l.find? p = some a) (ha : q a = true) : (l.filter q).find? p = some a := by
  obtain ⟨hp, before, after, rfl, hnone⟩ := List.find?_eq_some_iff_append.1 h
  refine List.find?_eq_some_iff_append.2 ⟨hp, before.filter q, after.filter q, ?_, ?_⟩
  · rw [List.filter_append, List.filter_cons_of_pos ha]
  · exact fun x hx => hnone x (List.mem_filter.1 hx).1

/-- `(l.find? (key · == k)).toList = l.filter (key · == k)` where no key comes twice. -/
theorem toList_find?_key {α κ : Type} [BEq κ] [LawfulBEq κ] (key : α → κ) {l : List α}
    (h : (l.map key).Nodup) (k : κ) : (l.find? (key · == k)).toList = l.filter (key · == k) := by
  induction l with
  | nil => rfl
  | cons a rest ih =>
    rw [List.map_cons, List.nodup_cons] at h
    rw [List.find?_cons, List.filter_cons]
    by_cases ha : key a = k
    · -- The first element has the key, so none of the others does.
      have hnone : rest.filter (key · == k) = [] := by
        rw [List.filter_eq_nil_iff]
        intro b hb hkey
        exact h.1 (List.mem_map.2 ⟨b, hb, (beq_iff_eq.1 hkey).trans ha.symm⟩)
      simp [ha, hnone]
    · simp [beq_eq_false_iff_ne.2 ha, ih h.2]

/-- The parts of `l` with the keys in `names` together are a permutation of `l`. -/
theorem flatMap_filter_perm {α κ : Type} [DecidableEq κ] (key : α → κ) {names : List κ}
    (hnodup : names.Nodup) {l : List α} (hl : ∀ a ∈ l, key a ∈ names) :
    (names.flatMap fun name => l.filter (key · = name)).Perm l := by
  induction names generalizing l with
  | nil =>
    cases l with
    | nil => exact .refl _
    | cons a rest => exact absurd (hl a List.mem_cons_self) List.not_mem_nil
  | cons name names ih =>
    rw [List.nodup_cons] at hnodup
    -- The parts of the other names are those of the elements that are left.
    have hrest : (names.flatMap fun other => l.filter (key · = other)) =
        names.flatMap fun other =>
          (l.filter fun a => !decide (key a = name)).filter (key · = other) := by
      rw [List.flatMap_def, List.flatMap_def]
      refine congrArg List.flatten (List.map_congr_left fun other hother => ?_)
      rw [List.filter_filter]
      apply List.filter_congr
      intro a _
      by_cases ha : key a = other
      · have hne : key a ≠ name := by
          rintro rfl
          exact hnodup.1 (ha ▸ hother)
        simp [ha, ha ▸ hne]
      · simp [ha]
    have hleft : ∀ a ∈ l.filter (fun a => !decide (key a = name)), key a ∈ names := by
      intro a ha
      obtain ⟨hmem, hne⟩ := List.mem_filter.1 ha
      exact (List.mem_cons.1 (hl a hmem)).resolve_left (by simpa using hne)
    rw [List.flatMap_cons, hrest]
    exact ((ih hnodup.2 hleft).append_left _).trans (List.filter_append_perm _ l)

/-- `group a` is found again in `l.flatMap group` by the key of `a`, if no key comes twice in
`l`. -/
theorem filter_flatMap_of_nodup {α β κ : Type} [DecidableEq κ] {key : α → κ} {keyOf : β → κ}
    {group : α → List β} {l : List α} (hnodup : (l.map key).Nodup)
    (hgroup : ∀ a ∈ l, ∀ b ∈ group a, keyOf b = key a) {a : α} (ha : a ∈ l) :
    (l.flatMap group).filter (keyOf · == key a) = group a := by
  induction l with
  | nil => cases ha
  | cons x rest ih =>
    rw [List.map_cons, List.nodup_cons] at hnodup
    have hrest : ∀ y ∈ rest, ∀ b ∈ group y, keyOf b = key y :=
      fun y hy => hgroup y (List.mem_cons_of_mem _ hy)
    rw [List.flatMap_cons, List.filter_append]
    -- `a` is the first element, or it comes later
    rcases List.mem_cons.1 ha with rfl | ha
    · -- The first group stays as it is, and of the others nothing is left.
      have hfirst : (group a).filter (keyOf · == key a) = group a := by
        rw [List.filter_eq_self]
        intro b hb
        simp [hgroup a List.mem_cons_self b hb]
      have hnone : (rest.flatMap group).filter (keyOf · == key a) = [] := by
        rw [List.filter_eq_nil_iff]
        intro b hb hkey
        obtain ⟨y, hy, hb⟩ := List.mem_flatMap.1 hb
        refine hnodup.1 (List.mem_map.2 ⟨y, hy, ?_⟩)
        rw [← hrest y hy b hb, beq_iff_eq.1 hkey]
      rw [hfirst, hnone, List.append_nil]
    · -- the keys differ, so the first group has nothing of the key of `a`
      have hnone : (group x).filter (keyOf · == key a) = [] := by
        rw [List.filter_eq_nil_iff]
        intro b hb hkey
        rw [hgroup x List.mem_cons_self b hb, beq_iff_eq] at hkey
        exact hnodup.1 (List.mem_map.2 ⟨a, ha, hkey.symm⟩)
      rw [hnone, List.nil_append, ih hnodup.2 hrest ha]

/-- `(l.flatMap group).filter p = (l.filter q).flatMap group` if `q` decides on whole groups what
`p` decides on their elements. -/
theorem filter_flatMap_of_groups {α β : Type} {group : α → List β} {p : β → Bool} {q : α → Bool}
    {l : List α} (h : ∀ a ∈ l, ∀ b ∈ group a, p b = q a) :
    (l.flatMap group).filter p = (l.filter q).flatMap group := by
  induction l with
  | nil => rfl
  | cons a rest ih =>
    rw [List.flatMap_cons, List.filter_append, ih fun x hx => h x (List.mem_cons_of_mem _ hx),
      List.filter_cons]
    have hfirst := h a List.mem_cons_self
    cases ha : q a with
    | true =>
      rw [if_pos rfl, List.flatMap_cons, List.filter_eq_self.2 fun b hb => (hfirst b hb).trans ha]
    | false =>
      rw [if_neg Bool.false_ne_true, List.filter_eq_nil_iff.2 fun b hb => by simp [hfirst b hb, ha]]
      rfl

namespace OrderedMap

/-! ### Rows of many keys -/

variable {κ β ρ ε : Type} [Ord κ] [Std.TransOrd κ]

/-- Takes `row` into account under its key, given what the key holds so far. -/
def growAt (key : ρ → κ) (grow : Option β → ρ → Except ε β) (m : OrderedMap κ β) (row : ρ) :
    Except ε (OrderedMap κ β) := do
  let value ← grow (m.get? (key row)) row
  return m.insert (key row) value

/-- Takes `row` into account where all rows have the same key. -/
def growOne (grow : Option β → ρ → Except ε β) (held : Option β) (row : ρ) :
    Except ε (Option β) := do
  let value ← grow held row
  return some value

variable {key : ρ → κ} {grow : Option β → ρ → Except ε β}

theorem growAt_eq_ok_iff {m after : OrderedMap κ β} {row : ρ} :
    growAt key grow m row = .ok after ↔
      ∃ value, grow (m.get? (key row)) row = .ok value ∧ after = m.insert (key row) value := by
  simp only [growAt, Except.bind_eq_ok_iff, Except.pure_eq_ok_iff, eq_comm (b := after)]

theorem growAt_eq_error_iff {m : OrderedMap κ β} {row : ρ} {e : ε} :
    growAt key grow m row = .error e ↔ grow (m.get? (key row)) row = .error e :=
  Except.bind_pure_eq_error_iff

omit [Ord κ] [Std.TransOrd κ] in
theorem growOne_eq_ok_iff {held after : Option β} {row : ρ} :
    growOne grow held row = .ok after ↔
      ∃ value, grow held row = .ok value ∧ after = some value := by
  simp only [growOne, Except.bind_eq_ok_iff, Except.pure_eq_ok_iff, eq_comm (b := after)]

omit [Ord κ] [Std.TransOrd κ] in
theorem growOne_eq_error_iff {held : Option β} {row : ρ} {e : ε} :
    growOne grow held row = .error e ↔ grow held row = .error e :=
  Except.bind_pure_eq_error_iff

variable [Std.LawfulEqOrd κ] [DecidableEq κ]

omit [Std.LawfulEqOrd κ] [Ord κ] [Std.TransOrd κ] in
/-- The run over the rows of the key of `row` begins with `row`. -/
theorem foldlM_own_cons (row : ρ) (rest : List ρ) (held : Option β) :
    ((row :: rest).filter (key · = key row)).foldlM (growOne grow) held =
      growOne grow held row >>= (rest.filter (key · = key row)).foldlM (growOne grow) := by
  rw [List.filter_cons_of_pos (by simp), List.foldlM_cons]

/-- Once the first row is in, the run over the rows of every key `k` goes on from what `k` holds. -/
theorem foldlM_group_cons {m : OrderedMap κ β} {row : ρ} {value : β}
    (hvalue : grow (m.get? (key row)) row = .ok value) (rest : List ρ) (k : κ) :
    ((row :: rest).filter (key · = k)).foldlM (growOne grow) (m.get? k) =
      (rest.filter (key · = k)).foldlM (growOne grow) ((m.insert (key row) value).get? k) := by
  rw [get?_insert]
  by_cases hkey : key row = k
  · -- The row is the first one of its own key.
    subst hkey
    have hgrown : growOne grow (m.get? (key row)) row = .ok (some value) :=
      growOne_eq_ok_iff.2 ⟨value, hvalue, rfl⟩
    rw [foldlM_own_cons, hgrown, if_pos rfl]
    rfl
  · -- It is no row of any other key, and other keys hold what they held.
    rw [List.filter_cons_of_neg (by simpa using hkey), if_neg (Ne.symm hkey)]

/-- A run over rows of many keys succeeds with `after` exactly if for every `k` the run over the
rows of `k` succeeds with `after.get? k`. -/
theorem foldlM_growAt_eq_ok_iff {rows : List ρ} {m after : OrderedMap κ β} :
    rows.foldlM (growAt key grow) m = .ok after ↔
      ∀ k, (rows.filter (key · = k)).foldlM (growOne grow) (m.get? k) = .ok (after.get? k) := by
  induction rows generalizing m with
  | nil =>
    show pure m = _ ↔ ∀ k, pure (m.get? k) = _
    simp only [Except.pure_eq_ok_iff]
    constructor
    · rintro rfl k
      rfl
    · exact ext_get?
  | cons row rest ih =>
    rw [List.foldlM_cons, Except.bind_eq_ok_iff]
    constructor
    · rintro ⟨mid, hmid, hrest⟩ k
      obtain ⟨value, hvalue, rfl⟩ := growAt_eq_ok_iff.1 hmid
      rw [foldlM_group_cons hvalue]
      exact ih.1 hrest k
    · intro h
      -- The run over the rows of its own key says what the first row amounts to.
      have hown := h (key row)
      rw [foldlM_own_cons, Except.bind_eq_ok_iff] at hown
      obtain ⟨_, hgrown, -⟩ := hown
      obtain ⟨value, hvalue, rfl⟩ := growOne_eq_ok_iff.1 hgrown
      have hrest : rest.foldlM (growAt key grow) (m.insert (key row) value) = .ok after := by
        apply ih.2
        intro k
        rw [← foldlM_group_cons hvalue]
        exact h k
      exact ⟨_, growAt_eq_ok_iff.2 ⟨value, hvalue, rfl⟩, hrest⟩

/-- If a run over rows of many keys fails with `e`, the run over the rows of some key `k` does. -/
theorem error_of_foldlM_growAt {rows : List ρ} {m : OrderedMap κ β} {e : ε}
    (h : rows.foldlM (growAt key grow) m = .error e) :
    ∃ k, (rows.filter (key · = k)).foldlM (growOne grow) (m.get? k) = .error e := by
  induction rows generalizing m with
  | nil => cases h
  | cons row rest ih =>
    rw [List.foldlM_cons, Except.bind_eq_error_iff] at h
    rcases h with hrow | ⟨mid, hmid, hrest⟩
    · have hgrown : growOne grow (m.get? (key row)) row = .error e :=
        growOne_eq_error_iff.2 (growAt_eq_error_iff.1 hrow)
      refine ⟨key row, ?_⟩
      rw [foldlM_own_cons, hgrown]
      rfl
    · obtain ⟨value, hvalue, rfl⟩ := growAt_eq_ok_iff.1 hmid
      obtain ⟨k, hk⟩ := ih hrest
      refine ⟨k, ?_⟩
      rw [foldlM_group_cons hvalue]
      exact hk

theorem exists_of_groups {rows : List ρ} {m : OrderedMap κ β}
    (h : ∀ k, ∃ held, (rows.filter (key · = k)).foldlM (growOne grow) (m.get? k) = .ok held) :
    ∃ after, rows.foldlM (growAt key grow) m = .ok after := by
  -- were there an error, the rows of one key would have it
  rcases Except.ok_or_error (rows.foldlM (growAt key grow) m) with hok | ⟨e, herror⟩
  · exact hok
  · obtain ⟨k, hk⟩ := error_of_foldlM_growAt herror
    obtain ⟨held, hheld⟩ := h k
    rw [hk] at hheld
    cases hheld

/-! ### Finishing what has been put together -/

section Finishing

variable {γ : Type} {finish : κ → β → Except ε γ}

/-- Puts `rows` together by their keys with `grow`, and then finishes what every key holds. -/
def gather (key : ρ → κ) (grow : Option β → ρ → Except ε β) (finish : κ → β → Except ε γ)
    (rows : List ρ) : Except ε (List γ) := do
  let m ← rows.foldlM (growAt key grow) ∅
  m.entries.mapM fun entry => finish entry.1 entry.2

/-- The rows `group` of the key `k` amount to something that is `out` once it is finished. -/
def AmountTo (grow : Option β → ρ → Except ε β) (finish : κ → β → Except ε γ) (k : κ)
    (group : List ρ) (out : γ) : Prop :=
  ∃ held, group.foldlM (growOne grow) none = .ok (some held) ∧ finish k held = .ok out

omit [Ord κ] [Std.TransOrd κ] [Std.LawfulEqOrd κ] in
theorem group_ne_nil_iff {rows : List ρ} {k : κ} :
    rows.filter (key · = k) ≠ [] ↔ k ∈ rows.map key := by
  simp [List.filter_eq_nil_iff]

omit [Ord κ] [Std.TransOrd κ] [Std.LawfulEqOrd κ] [DecidableEq κ] in
/-- `∃ value, after = some value` after at least one row. -/
theorem exists_held_of_ne_nil {group : List ρ} {held after : Option β} (hne : group ≠ [])
    (h : group.foldlM (growOne grow) held = .ok after) : ∃ value, after = some value := by
  induction group generalizing held with
  | nil => exact absurd rfl hne
  | cons row rest ih =>
    rw [List.foldlM_cons, Except.bind_eq_ok_iff] at h
    obtain ⟨mid, hmid, hrest⟩ := h
    -- after the last row it is what that row has grown to
    cases rest with
    | nil =>
      obtain rfl := Except.pure_eq_ok_iff.1 hrest
      obtain ⟨value, -, rfl⟩ := growOne_eq_ok_iff.1 hmid
      exact ⟨value, rfl⟩
    | cons next rest => exact ih (List.cons_ne_nil _ _) hrest

omit [Ord κ] [Std.TransOrd κ] [Std.LawfulEqOrd κ] in
theorem AmountTo.mem_keys {rows : List ρ} {k : κ} {out : γ}
    (h : AmountTo grow finish k (rows.filter (key · = k)) out) : k ∈ rows.map key := by
  rw [← group_ne_nil_iff]
  intro hnil
  obtain ⟨held, hheld, -⟩ := h
  rw [hnil] at hheld
  cases hheld

/-- The rows of `k` amount to `out` exactly if `k` holds something in the end that `finish` makes
`out` of. -/
theorem amountTo_iff_of_foldlM {rows : List ρ} {m : OrderedMap κ β}
    (h : rows.foldlM (growAt key grow) ∅ = .ok m) {k : κ} {out : γ} :
    AmountTo grow finish k (rows.filter (key · = k)) out ↔
      ∃ held, m.get? k = some held ∧ finish k held = .ok out := by
  have hgroup := foldlM_growAt_eq_ok_iff.1 h k
  rw [get?_empty] at hgroup
  rw [AmountTo, hgroup]
  simp only [Except.ok.injEq]

/-- **Rows can be put together and finished** exactly if the rows of every key can. -/
theorem exists_gather_iff {rows : List ρ} :
    (∃ outs, gather key grow finish rows = .ok outs) ↔
      ∀ k ∈ rows.map key, ∃ out, AmountTo grow finish k (rows.filter (key · = k)) out := by
  constructor
  · rintro ⟨outs, h⟩ k hk
    obtain ⟨m, hm, hfinish⟩ := Except.bind_eq_ok_iff.1 h
    have hgroup := foldlM_growAt_eq_ok_iff.1 hm k
    obtain ⟨held, hheld⟩ := exists_held_of_ne_nil (group_ne_nil_iff.2 hk) hgroup
    obtain ⟨out, hout⟩ := Except.exists_mapM_iff.1 ⟨outs, hfinish⟩ _ (mem_entries_iff.2 hheld)
    exact ⟨out, (amountTo_iff_of_foldlM hm).2 ⟨held, hheld, hout⟩⟩
  · intro h
    -- The rows of every key can be put together: there are none, or they amount to something.
    have hgroups (k : κ) :
        ∃ held, (rows.filter (key · = k)).foldlM (growOne grow) (get? ∅ k) = .ok held := by
      by_cases hnil : rows.filter (key · = k) = []
      · rw [hnil]
        exact ⟨none, rfl⟩
      · obtain ⟨_, held, hheld, -⟩ := h k (group_ne_nil_iff.1 hnil)
        exact ⟨some held, hheld⟩
    obtain ⟨m, hm⟩ := exists_of_groups hgroups
    have hfinish : ∃ outs, (m.entries.mapM fun entry => finish entry.1 entry.2) = .ok outs := by
      rw [Except.exists_mapM_iff]
      rintro ⟨k, held⟩ hentry
      have hheld := mem_entries_iff.1 hentry
      have hk : k ∈ rows.map key := by
        rw [← group_ne_nil_iff]
        intro hnil
        have hgroup := foldlM_growAt_eq_ok_iff.1 hm k
        rw [hnil, hheld] at hgroup
        cases hgroup
      obtain ⟨out, hout⟩ := h k hk
      obtain ⟨held', hheld', hok⟩ := (amountTo_iff_of_foldlM hm).1 hout
      obtain rfl := Option.some.inj (hheld.symm.trans hheld')
      exact ⟨out, hok⟩
    obtain ⟨outs, houts⟩ := hfinish
    exact ⟨outs, Except.bind_eq_ok_iff.2 ⟨m, hm, houts⟩⟩

/-- `out ∈ outs` exactly if the rows of some key `k` amount to `out`. -/
theorem mem_gather {rows : List ρ} {outs : List γ} (h : gather key grow finish rows = .ok outs)
    (out : γ) : out ∈ outs ↔ ∃ k, AmountTo grow finish k (rows.filter (key · = k)) out := by
  obtain ⟨m, hm, hfinish⟩ := Except.bind_eq_ok_iff.1 h
  simp only [Except.mem_of_mapM hfinish, amountTo_iff_of_foldlM hm, Prod.exists, mem_entries_iff]

omit [Std.LawfulEqOrd κ] [DecidableEq κ] in
/-- If `gather` fails with `e`, then `grow` does at some row or `finish` does for some key. -/
theorem error_of_gather {rows : List ρ} {e : ε} (h : gather key grow finish rows = .error e) :
    (∃ held row, grow held row = .error e) ∨ ∃ k held, finish k held = .error e := by
  rcases Except.bind_eq_error_iff.1 h with h | ⟨m, -, h⟩
  · obtain ⟨mid, row, -, hrow⟩ := Except.error_of_foldlM h
    exact .inl ⟨_, row, growAt_eq_error_iff.1 hrow⟩
  · obtain ⟨entry, -, hentry⟩ := Except.error_of_mapM h
    exact .inr ⟨entry.1, entry.2, hentry⟩

end Finishing

end OrderedMap

end SchemaSnapshot

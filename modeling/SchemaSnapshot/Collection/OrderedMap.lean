/-!
# Finite maps kept in ascending order of their keys

An `OrderedMap` is a list of entries whose keys ascend strictly. `get?` looks a key up, and every
way of changing a map is one of two: `upsert` sets a key from whatever it holds so far, `modify`
changes a key that is there and leaves a map without the key alone. The two main statements,
`get?_upsert` and `get?_modify`, say what a look-up finds afterwards; `OrderedMap.ext_get?` says
that look-ups determine a map.
-/

namespace SchemaSnapshot

/-- A finite map as the list of its entries, the keys in strictly ascending order. -/
structure OrderedMap (κ β : Type) [Ord κ] where
  /-- Keys with what they hold, the least key first. -/
  entries : List (κ × β)
  /-- Every key is below all that follow it. -/
  ascending : entries.Pairwise (fun a b => compare a.1 b.1 = .lt)
deriving DecidableEq

namespace OrderedMap

variable {κ β : Type} [Ord κ]

/-- `∅`. -/
def empty : OrderedMap κ β := ⟨[], .nil⟩

instance : EmptyCollection (OrderedMap κ β) := ⟨empty⟩

instance : Inhabited (OrderedMap κ β) := ⟨∅⟩

/-- The number of keys of `m`. -/
def size (m : OrderedMap κ β) : Nat := m.entries.length

/-- The keys of `m`, ascending. -/
def keys (m : OrderedMap κ β) : List κ := m.entries.map (·.1)

/-- What the keys of `m` hold, in the order of the keys. -/
def values (m : OrderedMap κ β) : List β := m.entries.map (·.2)

/-- The value beside the first key that compares equal to `k`. -/
def find? (k : κ) : List (κ × β) → Option β
  | [] => none
  | (key, value) :: rest =>
    match compare k key with
    | .eq => some value
    | _ => find? k rest

/-- What `k` holds in `m`, `none` if `k` is not there. -/
def get? (m : OrderedMap κ β) (k : κ) : Option β := find? k m.entries

/-- Whether `k` is a key of `m`. -/
def contains (m : OrderedMap κ β) (k : κ) : Bool := (m.get? k).isSome

/-- One-pass update of an ascending list of entries: `k` comes to hold `f` of what it held, `f none`
if it is new. -/
def upsertInto (k : κ) (f : Option β → β) : List (κ × β) → List (κ × β)
  | [] => [(k, f none)]
  | (key, value) :: rest =>
    match compare k key with
    | .lt => (k, f none) :: (key, value) :: rest
    | .eq => (key, f (some value)) :: rest
    | .gt => (key, value) :: upsertInto k f rest

/-- `l` with `f` applied to what `k` holds. Nothing changes if `k` is not there. -/
def modifyIn (k : κ) (f : β → β) (l : List (κ × β)) : List (κ × β) :=
  l.map fun entry => if compare k entry.1 = .eq then (entry.1, f entry.2) else entry

theorem key_of_mem_upsertInto {k : κ} {f : Option β → β} {l : List (κ × β)} {x : κ × β}
    (h : x ∈ upsertInto k f l) : x.1 = k ∨ ∃ y ∈ l, y.1 = x.1 := by
  induction l with
  | nil => exact .inl (by rw [List.mem_singleton.1 h])
  | cons entry rest ih =>
    obtain ⟨key, value⟩ := entry
    rw [upsertInto] at h
    split at h
    · rcases List.mem_cons.1 h with rfl | h
      · exact .inl rfl
      · exact .inr ⟨x, h, rfl⟩
    · rcases List.mem_cons.1 h with rfl | h
      · exact .inr ⟨_, List.mem_cons_self, rfl⟩
      · exact .inr ⟨x, List.mem_cons_of_mem _ h, rfl⟩
    · rcases List.mem_cons.1 h with rfl | h
      · exact .inr ⟨_, List.mem_cons_self, rfl⟩
      · exact (ih h).imp_right fun ⟨y, hy, hyx⟩ => ⟨y, List.mem_cons_of_mem _ hy, hyx⟩

theorem keys_modifyIn {k : κ} {f : β → β} {l : List (κ × β)} :
    (modifyIn k f l).map (·.1) = l.map (·.1) := by
  rw [modifyIn, List.map_map]
  refine List.map_congr_left fun entry _ => ?_
  simp only [Function.comp_apply]
  split <;> rfl

variable [Std.TransOrd κ]

theorem pairwise_upsertInto {k : κ} {f : Option β → β} {l : List (κ × β)}
    (h : l.Pairwise (fun a b => compare a.1 b.1 = .lt)) :
    (upsertInto k f l).Pairwise (fun a b => compare a.1 b.1 = .lt) := by
  induction l with
  | nil => simp [upsertInto]
  | cons entry rest ih =>
    obtain ⟨key, value⟩ := entry
    rw [List.pairwise_cons] at h
    rw [upsertInto]
    split
    · -- A new least key is below `key`, hence below all that follows.
      rename_i hk
      refine List.pairwise_cons.2 ⟨?_, List.pairwise_cons.2 h⟩
      intro x hx
      rcases List.mem_cons.1 hx with rfl | hx
      · exact hk
      · exact Std.TransCmp.lt_trans hk (h.1 x hx)
    · exact List.pairwise_cons.2 h
    · rename_i hk
      refine List.pairwise_cons.2 ⟨?_, ih h.2⟩
      intro x hx
      rcases key_of_mem_upsertInto hx with hx | ⟨y, hy, hyx⟩
      · simpa only [hx] using Std.OrientedCmp.lt_of_gt hk
      · simpa only [← hyx] using h.1 y hy

omit [Std.TransOrd κ] in
theorem pairwise_modifyIn {k : κ} {f : β → β} {l : List (κ × β)}
    (h : l.Pairwise (fun a b => compare a.1 b.1 = .lt)) :
    (modifyIn k f l).Pairwise (fun a b => compare a.1 b.1 = .lt) := by
  have hkeys : (l.map (·.1)).Pairwise (fun a b => compare a b = .lt) := List.pairwise_map.2 h
  rw [← keys_modifyIn (k := k) (f := f)] at hkeys
  exact List.pairwise_map.1 hkeys

/-- `m` with `k` holding `f (m.get? k)`. The key is added if it is new. -/
def upsert (m : OrderedMap κ β) (k : κ) (f : Option β → β) : OrderedMap κ β :=
  ⟨upsertInto k f m.entries, pairwise_upsertInto m.ascending⟩

/-- `m` with `k` holding `v`, whatever it held before. -/
def insert (m : OrderedMap κ β) (k : κ) (v : β) : OrderedMap κ β :=
  m.upsert k fun _ => v

/-- `m` with `k` holding `v` if `k` is new, and `m` itself if not. -/
def insertIfNew (m : OrderedMap κ β) (k : κ) (v : β) : OrderedMap κ β :=
  m.upsert k (·.getD v)

omit [Std.TransOrd κ] in
/-- `m` with `f` applied to what `k` holds, and `m` itself if `k` is not there. -/
def modify (m : OrderedMap κ β) (k : κ) (f : β → β) : OrderedMap κ β :=
  ⟨modifyIn k f m.entries, pairwise_modifyIn m.ascending⟩

/-! ### What a look-up finds -/

section Lookup

omit [Std.TransOrd κ] in
theorem contains_iff {m : OrderedMap κ β} {k : κ} : m.contains k = true ↔ ∃ v, m.get? k = some v :=
  Option.isSome_iff_exists

omit [Std.TransOrd κ] in
theorem get?_empty {k : κ} : (∅ : OrderedMap κ β).get? k = none := rfl

omit [Std.TransOrd κ] in
/-- `find? k l = none` if `k` is below all keys of `l`. -/
theorem find?_eq_none_of_lt {k : κ} {l : List (κ × β)} (h : ∀ entry ∈ l, compare k entry.1 = .lt) :
    find? k l = none := by
  induction l with
  | nil => rfl
  | cons entry rest ih =>
    rw [find?, h entry List.mem_cons_self]
    exact ih fun x hx => h x (List.mem_cons_of_mem _ hx)

variable [Std.LawfulEqOrd κ] [DecidableEq κ]

omit [Std.TransOrd κ] in
theorem find?_cons {k key : κ} {value : β} {rest : List (κ × β)} :
    find? k ((key, value) :: rest) = if k = key then some value else find? k rest := by
  by_cases hk : k = key
  · simp [find?, hk]
  · rw [find?, if_neg hk]
    split
    · rename_i heq
      exact absurd (Std.LawfulEqOrd.eq_of_compare heq) hk
    · rfl

theorem find?_upsertInto {k x : κ} {f : Option β → β} {l : List (κ × β)}
    (h : l.Pairwise (fun a b => compare a.1 b.1 = .lt)) :
    find? x (upsertInto k f l) = if x = k then some (f (find? k l)) else find? x l := by
  induction l with
  | nil => by_cases hx : x = k <;> simp [upsertInto, find?, hx]
  | cons entry rest ih =>
    obtain ⟨key, value⟩ := entry
    rw [List.pairwise_cons] at h
    rw [upsertInto]
    split
    · -- The key is new and least, so it held nothing.
      rename_i hk
      have hnone : find? k rest = none :=
        find?_eq_none_of_lt fun e he => Std.TransCmp.lt_trans hk (h.1 e he)
      by_cases hx : x = k
      · subst hx
        simp [find?, hk, hnone]
      · simp [find?, hx]
    · rename_i hk
      obtain rfl : k = key := Std.LawfulEqOrd.eq_of_compare hk
      by_cases hx : x = k <;> simp [find?, hx]
    · rename_i hk
      by_cases hx : x = k
      · subst hx
        simp [find?, hk, ih h.2]
      · simp only [find?, ih h.2, hx, if_false]

/-- `(m.upsert k f).get? k = some (f (m.get? k))`, and look-ups elsewhere find the old value. -/
theorem get?_upsert {m : OrderedMap κ β} {k x : κ} {f : Option β → β} :
    (m.upsert k f).get? x = if x = k then some (f (m.get? k)) else m.get? x :=
  find?_upsertInto m.ascending

theorem get?_insert {m : OrderedMap κ β} {k x : κ} {v : β} :
    (m.insert k v).get? x = if x = k then some v else m.get? x :=
  get?_upsert

theorem get?_insertIfNew {m : OrderedMap κ β} {k x : κ} {v : β} :
    (m.insertIfNew k v).get? x = if x = k then some ((m.get? k).getD v) else m.get? x :=
  get?_upsert

omit [Std.TransOrd κ] in
theorem find?_modifyIn {k x : κ} {f : β → β} {l : List (κ × β)} :
    find? x (modifyIn k f l) = if x = k then (find? k l).map f else find? x l := by
  induction l with
  | nil => by_cases hx : x = k <;> simp [modifyIn, find?, hx]
  | cons entry rest ih =>
    obtain ⟨key, value⟩ := entry
    have step : modifyIn k f ((key, value) :: rest) =
        (key, if k = key then f value else value) :: modifyIn k f rest := by
      by_cases hk : k = key <;> simp [modifyIn, hk]
    rw [step, find?_cons, find?_cons, find?_cons, ih]
    by_cases hx : x = k
    · subst hx
      by_cases hk : x = key <;> simp [hk]
    · by_cases hk : x = key
      · subst hk
        simp [hx, Ne.symm hx]
      · simp [hx, hk]

omit [Std.TransOrd κ] in
/-- `(m.modify k f).get? k = (m.get? k).map f`, and look-ups elsewhere find the old value. -/
theorem get?_modify {m : OrderedMap κ β} {k x : κ} {f : β → β} :
    (m.modify k f).get? x = if x = k then (m.get? k).map f else m.get? x :=
  find?_modifyIn

/-- The keys of `m.upsert k f` are `k` and the keys of `m`. -/
theorem contains_upsert {m : OrderedMap κ β} {k x : κ} {f : Option β → β} :
    (m.upsert k f).contains x = true ↔ x = k ∨ m.contains x = true := by
  rw [contains, contains, get?_upsert]
  by_cases hx : x = k <;> simp [hx]

omit [Std.TransOrd κ] in
/-- `m.modify k f` has the keys of `m`. -/
theorem contains_modify {m : OrderedMap κ β} {k x : κ} {f : β → β} :
    (m.modify k f).contains x = m.contains x := by
  rw [contains, contains, get?_modify]
  by_cases hx : x = k <;> simp [hx]

omit [Std.TransOrd κ] in
theorem modifyIn_of_find? {k : κ} {v : β} {f : β → β} {l : List (κ × β)}
    (hl : l.Pairwise (fun a b => compare a.1 b.1 = .lt)) (h : find? k l = some v) :
    ∃ before after, l = before ++ (k, v) :: after ∧
      modifyIn k f l = before ++ (k, f v) :: after := by
  induction l with
  | nil => simp [find?] at h
  | cons entry rest ih =>
    obtain ⟨key, value⟩ := entry
    rw [List.pairwise_cons] at hl
    rw [find?_cons] at h
    by_cases hk : k = key
    · subst hk
      rw [if_pos rfl] at h
      obtain rfl := Option.some.inj h
      -- All other keys are above `k`, so nothing else changes.
      have hrest : modifyIn k f rest = rest := by
        rw [modifyIn, List.map_congr_left (g := id), List.map_id]
        intro e he
        rw [hl.1 e he, if_neg (by decide)]
        rfl
      exact ⟨[], rest, rfl, by simpa [modifyIn] using hrest⟩
    · rw [if_neg hk] at h
      obtain ⟨before, after, hsplit, hmodify⟩ := ih hl.2 h
      refine ⟨(key, value) :: before, after, by rw [hsplit]; rfl, ?_⟩
      rw [List.cons_append, ← hmodify]
      simp [modifyIn, hk]

omit [Std.TransOrd κ] in
/-- `m.modify k f` replaces one entry and leaves those before and after it alone. -/
theorem entries_modify {m : OrderedMap κ β} {k : κ} {v : β} {f : β → β} (h : m.get? k = some v) :
    ∃ before after, m.entries = before ++ (k, v) :: after ∧
      (m.modify k f).entries = before ++ (k, f v) :: after :=
  modifyIn_of_find? m.ascending h

omit [Std.TransOrd κ] [DecidableEq κ] in
theorem find?_eq_some_iff {k : κ} {v : β} {l : List (κ × β)}
    (h : l.Pairwise (fun a b => compare a.1 b.1 = .lt)) :
    find? k l = some v ↔ (k, v) ∈ l := by
  induction l with
  | nil => simp [find?]
  | cons entry rest ih =>
    obtain ⟨key, value⟩ := entry
    rw [List.pairwise_cons] at h
    rw [find?]
    split
    · rename_i hk
      obtain rfl : k = key := Std.LawfulEqOrd.eq_of_compare hk
      simp only [Option.some.injEq, List.mem_cons, Prod.mk.injEq, true_and]
      refine ⟨fun hv => .inl hv.symm, fun hv => hv.elim Eq.symm fun hmem => ?_⟩
      exact absurd (h.1 _ hmem) (by simp)
    · rename_i hk
      rw [ih h.2, List.mem_cons]
      refine ⟨.inr, fun hmem => hmem.resolve_left fun heq => hk ?_⟩
      simp only [Prod.mk.injEq] at heq
      simp [heq.1]

omit [Std.TransOrd κ] [DecidableEq κ] in
/-- `(k, v) ∈ m.entries ↔ m.get? k = some v`: the entries are exactly what look-ups find. -/
theorem mem_entries_iff {m : OrderedMap κ β} {k : κ} {v : β} :
    (k, v) ∈ m.entries ↔ m.get? k = some v :=
  (find?_eq_some_iff m.ascending).symm

omit [Std.TransOrd κ] [DecidableEq κ] in
theorem mem_keys_iff {m : OrderedMap κ β} {k : κ} : k ∈ m.keys ↔ m.contains k = true := by
  rw [contains_iff]
  simp only [keys, List.mem_map, Prod.exists]
  constructor
  · rintro ⟨key, v, hmem, rfl⟩
    exact ⟨v, mem_entries_iff.1 hmem⟩
  · rintro ⟨v, hv⟩
    exact ⟨k, v, mem_entries_iff.2 hv, rfl⟩

omit [Std.LawfulEqOrd κ] [DecidableEq κ] in
/-- No key has two entries in `m`. -/
theorem nodup_keys (m : OrderedMap κ β) : m.keys.Nodup := by
  refine List.pairwise_map.2 (m.ascending.imp fun {a b} hab heq => ?_)
  simp [heq] at hab

omit [Std.LawfulEqOrd κ] [DecidableEq κ] in
theorem nodup_entries (m : OrderedMap κ β) : m.entries.Nodup := by
  refine m.ascending.imp fun {a b} hab heq => ?_
  simp [heq] at hab

omit [Std.LawfulEqOrd κ] [DecidableEq κ] in
/-- `m = n` if the entries of `m` are those of `n`, in whatever order. -/
theorem ext_perm {m n : OrderedMap κ β} (h : m.entries.Perm n.entries) : m = n := by
  have hm := m.ascending
  have hn := n.ascending
  cases m; cases n
  simp only [mk.injEq]
  refine List.Perm.eq_of_pairwise (fun a b _ _ hab hba => ?_) hm hn h
  exact absurd (Std.TransCmp.lt_trans hab hba) (by simp)

omit [DecidableEq κ] in
/-- Maps are determined by their look-ups: `m = n` if `m.get? k = n.get? k` for all `k`. -/
theorem ext_get? {m n : OrderedMap κ β} (h : ∀ k, m.get? k = n.get? k) : m = n := by
  have hmem : ∀ x, x ∈ m.entries ↔ x ∈ n.entries := fun ⟨k, v⟩ => by
    rw [mem_entries_iff, mem_entries_iff, h]
  exact ext_perm ((List.perm_ext_iff_of_nodup m.nodup_entries n.nodup_entries).2 hmem)

omit [Std.TransOrd κ] in
theorem upsertInto_perm {k : κ} {f : Option β → β} {l : List (κ × β)} (h : find? k l = none) :
    (upsertInto k f l).Perm ((k, f none) :: l) := by
  induction l with
  | nil => exact .refl _
  | cons entry rest ih =>
    obtain ⟨key, value⟩ := entry
    rw [find?_cons] at h
    split at h
    · simp at h
    · rename_i hk
      rw [upsertInto]
      split
      · exact .refl _
      · rename_i heq
        exact absurd (Std.LawfulEqOrd.eq_of_compare heq) hk
      · exact ((ih h).cons _).trans (.swap _ _ _)

/-- `(m.insert k v).entries` is a permutation of `(k, v) :: m.entries` if `k` is new. -/
theorem entries_insert_perm {m : OrderedMap κ β} {k : κ} {v : β} (h : m.get? k = none) :
    (m.insert k v).entries.Perm ((k, v) :: m.entries) :=
  upsertInto_perm h

end Lookup

end OrderedMap

end SchemaSnapshot

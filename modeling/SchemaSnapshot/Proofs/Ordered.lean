import SchemaSnapshot.Collection.OrderedSet
import Mathlib.Data.List.Sort

/-!
# Lists in the order of a key

`orderedBy key l` is Mathlib's `List.insertionSort` for the relation `key a ≤ key b`
(`orderedBy_eq_insertionSort`), so it is a permutation of `l` (`orderedBy_perm`) in which the
keys ascend (`pairwise_orderedBy`). It is stable: leaving elements out makes no difference to the
order of the others (`orderedBy_filter`), and elements with the same key stay in their order
(`filter_orderedBy`). Where no key comes twice there is one such list only
(`eq_orderedBy_of_perm`).
-/

namespace SchemaSnapshot

variable {α κ : Type} [Ord κ]

/-! ### Insertion sort -/

/-- `key a ≤ key b`. -/
def KeyLE (key : α → κ) (a b : α) : Prop :=
  (compare (key a) (key b)).isLE = true

instance (key : α → κ) : DecidableRel (KeyLE key) :=
  fun a b => inferInstanceAs (Decidable ((compare (key a) (key b)).isLE = true))

instance [Std.TransOrd κ] (key : α → κ) : IsTrans α (KeyLE key) :=
  ⟨fun _ _ _ => Std.TransCmp.isLE_trans⟩

instance [Std.OrientedOrd κ] (key : α → κ) : Std.Total (KeyLE key) where
  total a b := by
    unfold KeyLE
    rw [Std.OrientedOrd.eq_swap (a := key b)]
    cases compare (key a) (key b) <;> simp

theorem insertBy_eq_orderedInsert (key : α → κ) (a : α) (l : List α) :
    insertBy key a l = l.orderedInsert (KeyLE key) a := by
  induction l with
  | nil => rfl
  | cons b rest ih =>
    rw [insertBy, ih]
    rfl

/-- `orderedBy key` sorts by `key a ≤ key b`. -/
theorem orderedBy_eq_insertionSort (key : α → κ) (l : List α) :
    orderedBy key l = l.insertionSort (KeyLE key) := by
  induction l with
  | nil => rfl
  | cons a rest ih =>
    rw [List.insertionSort_cons, ← ih, ← insertBy_eq_orderedInsert]
    rfl

/-- `orderedBy key l ~ l`: the elements are those of `l`, each as often as there. -/
theorem orderedBy_perm (key : α → κ) (l : List α) : (orderedBy key l).Perm l := by
  rw [orderedBy_eq_insertionSort]
  exact List.perm_insertionSort _ l

/-- `orderedBy key (l.map g) = (orderedBy (key ∘ g) l).map g`. -/
theorem orderedBy_map {β : Type} (key : β → κ) (g : α → β) (l : List α) :
    orderedBy key (l.map g) = (orderedBy (fun a => key (g a)) l).map g := by
  rw [orderedBy_eq_insertionSort, orderedBy_eq_insertionSort]
  exact (List.map_insertionSort _ _ g l fun _ _ _ _ => Iff.rfl).symm

/-- `orderedBy key l = l` if the keys ascend in `l` already. -/
theorem orderedBy_of_pairwise {key : α → κ} {l : List α} (h : l.Pairwise (KeyLE key)) :
    orderedBy key l = l := by
  rw [orderedBy_eq_insertionSort, h.insertionSort_eq]

/-! ### Stability -/

section Stable

variable [Std.TransOrd κ]

/-- The keys of `orderedBy key l` ascend. -/
theorem pairwise_orderedBy (key : α → κ) (l : List α) :
    (orderedBy key l).Pairwise fun a b => (compare (key a) (key b)).isLE := by
  rw [orderedBy_eq_insertionSort]
  exact List.pairwise_insertionSort (KeyLE key) l

omit [Std.TransOrd κ] in
theorem filter_orderedInsert_of_neg {r : α → α → Prop} [DecidableRel r] {p : α → Bool} {a : α}
    (ha : p a = false) (l : List α) : (l.orderedInsert r a).filter p = l.filter p := by
  rw [List.orderedInsert_eq_take_drop, List.filter_append, List.filter_cons_of_neg (by simp [ha]),
    ← List.filter_append, List.takeWhile_append_dropWhile]

omit [Std.TransOrd κ] in
theorem filter_orderedInsert_of_pos {r : α → α → Prop} [DecidableRel r] [IsTrans α r]
    {p : α → Bool} {a : α} (ha : p a = true) {l : List α} (h : l.Pairwise r) :
    (l.orderedInsert r a).filter p = (l.filter p).orderedInsert r a := by
  induction l with
  | nil => simp [ha]
  | cons b rest ih =>
    obtain ⟨hb, hrest⟩ := List.pairwise_cons.1 h
    by_cases hab : r a b
    · -- `a` comes first, in the list and in what is left of it
      have hfirst : ∀ x ∈ (b :: rest).filter p, r a x := by
        intro x hx
        rcases List.mem_cons.1 (List.mem_filter.1 hx).1 with rfl | hx
        · exact hab
        · exact IsTrans.trans _ _ _ hab (hb x hx)
      rw [List.orderedInsert_cons_of_le r rest hab, List.filter_cons_of_pos ha]
      cases hleft : (b :: rest).filter p with
      | nil => rfl
      | cons c left =>
        rw [List.orderedInsert_cons_of_le r left (hfirst c (by simp [hleft]))]
    · rw [List.orderedInsert_of_not_le r rest hab, List.filter_cons, List.filter_cons, ih hrest]
      split
      · rw [List.orderedInsert_of_not_le r _ hab]
      · rfl

/-- `orderedBy key (l.filter p) = (orderedBy key l).filter p`. -/
theorem orderedBy_filter (key : α → κ) (p : α → Bool) (l : List α) :
    orderedBy key (l.filter p) = (orderedBy key l).filter p := by
  induction l with
  | nil => rfl
  | cons a rest ih =>
    have step : orderedBy key (a :: rest) = (orderedBy key rest).orderedInsert (KeyLE key) a :=
      insertBy_eq_orderedInsert key a _
    have hsorted : (orderedBy key rest).Pairwise (KeyLE key) := pairwise_orderedBy key rest
    rw [step, List.filter_cons]
    cases ha : p a with
    | true =>
      rw [filter_orderedInsert_of_pos ha hsorted, ← ih]
      exact insertBy_eq_orderedInsert key a _
    | false =>
      rw [filter_orderedInsert_of_neg ha, ← ih]
      rfl

/-- `(orderedBy key l).filter (key · = k) = l.filter (key · = k)`: elements with the same key stay
in their order. -/
theorem filter_orderedBy [Std.LawfulEqOrd κ] [DecidableEq κ] (key : α → κ) (k : κ) (l : List α) :
    (orderedBy key l).filter (key · = k) = l.filter (key · = k) := by
  rw [← orderedBy_filter]
  apply orderedBy_of_pairwise
  refine List.pairwise_of_forall_mem_list fun a ha b hb => ?_
  have hab : key a = key b := by simp_all
  simp [KeyLE, hab]

end Stable

/-! ### Lists whose keys are all different -/

section DifferentKeys

variable [Std.TransOrd κ] [Std.LawfulEqOrd κ] {key : α → κ} {l : List α}

/-- **Where no key comes twice** there is only one way to put a list into order. -/
theorem eq_orderedBy_of_perm {sorted : List α} (h : sorted.Perm l)
    (hsorted : sorted.Pairwise fun a b => (compare (key a) (key b)).isLE)
    (hkeys : (l.map key).Nodup) : sorted = orderedBy key l := by
  refine List.Perm.eq_of_pairwise (fun a b ha hb hab hba => ?_) hsorted
    (pairwise_orderedBy key l) (h.trans (orderedBy_perm key l).symm)
  have hkey : key a = key b := Std.LawfulEqOrd.eq_of_compare (Std.OrientedCmp.isLE_antisymm hab hba)
  exact List.inj_on_of_nodup_map hkeys (h.mem_iff.1 ha) ((orderedBy_perm key l).mem_iff.1 hb) hkey

theorem orderedBy_eq_of_perm {l' : List α} (h : l.Perm l') (hkeys : (l.map key).Nodup) :
    orderedBy key l = orderedBy key l' :=
  eq_orderedBy_of_perm ((orderedBy_perm key l).trans h) (pairwise_orderedBy key l)
    ((h.map key).nodup_iff.1 hkeys)

/-- **Where no key comes twice** any other key that ascends with it puts the list into the same
order. -/
theorem orderedBy_eq_of_isLE {κ' : Type} [Ord κ'] [Std.TransOrd κ'] {key' : α → κ'} {l' : List α}
    (h : l'.Perm l) (hkeys : (l.map key).Nodup)
    (hle : ∀ a ∈ l, ∀ b ∈ l, (compare (key' a) (key' b)).isLE → (compare (key a) (key b)).isLE) :
    orderedBy key' l' = orderedBy key l := by
  have hmem {a : α} (ha : a ∈ orderedBy key' l') : a ∈ l :=
    h.mem_iff.1 ((orderedBy_perm key' l').mem_iff.1 ha)
  refine eq_orderedBy_of_perm ((orderedBy_perm key' l').trans h) ?_ hkeys
  exact (pairwise_orderedBy key' l').imp_of_mem fun {a b} ha hb hab =>
    hle a (hmem ha) b (hmem hb) hab

/-- **Where no key comes twice** the keys of an ordered list ascend strictly. -/
theorem pairwise_lt_orderedBy (hkeys : (l.map key).Nodup) :
    (orderedBy key l).Pairwise fun a b => compare (key a) (key b) = .lt := by
  have hperm := (orderedBy_perm key l).map key
  have hne : (orderedBy key l).Pairwise fun a b => key a ≠ key b :=
    List.pairwise_map.1 (hperm.nodup_iff.2 hkeys)
  apply (hne.and (pairwise_orderedBy key l)).imp
  rintro a b ⟨hab, hle⟩
  rcases Ordering.isLE_iff_eq_lt_or_eq_eq.1 hle with hlt | heq
  · exact hlt
  · exact absurd (Std.LawfulEqOrd.eq_of_compare heq) hab

end DifferentKeys

end SchemaSnapshot

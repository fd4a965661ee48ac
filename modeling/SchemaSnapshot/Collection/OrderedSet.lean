/-!
# Orders and ordered sets

Entities are ordered by their fields, the first field that differs deciding: `compareLex` of one
`compareOn` per field. A list is put into the order of a key by `orderedBy`. An `OrderedSet` is a
list in strictly ascending order. Because the order is strict no member is listed twice, and
because it is total a set has one list only: `OrderedSet.ext_mem` says that two sets with the
same members are equal. So a set built by insertions does not remember the order of the
insertions (`mem_ofList` gives its members), and sets with the same members list, compare and
print alike.
-/

namespace SchemaSnapshot

/-! ### Orders that compare one field after another

Such an order is transitive because the orders of the fields are. The two statements here settle its
equality: two values compare equal exactly if all the compared fields are equal. -/

theorem compareLex_eq_eq_iff {α : Type} {first second : α → α → Ordering} {a b : α} :
    compareLex first second a b = .eq ↔ first a b = .eq ∧ second a b = .eq :=
  Ordering.then_eq_eq

theorem compareOn_eq_eq_iff {α β : Type} [Ord β] [Std.LawfulEqOrd β] {field : α → β} {a b : α} :
    compareOn field a b = .eq ↔ field a = field b :=
  Std.LawfulEqOrd.compare_eq_iff_eq

/-! ### Lists in the order of a key -/

/-- `insertBy key a l` is `l` with `a` in front of the first element whose key is not below
`key a`. -/
def insertBy {α κ : Type} [Ord κ] (key : α → κ) (a : α) : List α → List α
  | [] => [a]
  | b :: rest =>
    if (compare (key a) (key b)).isLE then a :: b :: rest else b :: insertBy key a rest

/-- `l` in ascending order of `key`. Elements with the same key keep the order in which they
came. -/
def orderedBy {α κ : Type} [Ord κ] (key : α → κ) (l : List α) : List α :=
  l.foldr (insertBy key) []

/-! ### Sets in ascending order -/

/-- A finite set as the list of its members in strictly ascending order. -/
structure OrderedSet (α : Type) [Ord α] where
  /-- The members, the least first. -/
  toList : List α
  /-- Every member is below all that follow it. -/
  ascending : toList.Pairwise (fun a b => compare a b = .lt)
deriving DecidableEq

namespace OrderedSet

variable {α : Type} [Ord α]

/-- `∅`. -/
def empty : OrderedSet α := ⟨[], .nil⟩

instance : EmptyCollection (OrderedSet α) := ⟨empty⟩

instance : Inhabited (OrderedSet α) := ⟨∅⟩

instance : Membership α (OrderedSet α) := ⟨fun s a => a ∈ s.toList⟩

/-- The number of members of `s`. -/
def size (s : OrderedSet α) : Nat := s.toList.length

/-- One-pass insertion of `a` into an ascending list. If `a` is there already, the list stays. -/
def insertInto (a : α) : List α → List α
  | [] => [a]
  | b :: rest =>
    match compare a b with
    | .lt => a :: b :: rest
    | .eq => b :: rest
    | .gt => b :: insertInto a rest

theorem mem_of_mem_insertInto {a x : α} {l : List α} (h : x ∈ insertInto a l) : x = a ∨ x ∈ l := by
  induction l with
  | nil => simpa [insertInto] using h
  | cons b rest ih =>
    rw [insertInto] at h
    split at h <;> simp only [List.mem_cons] at h ⊢
    · exact h
    · exact .inr h
    · rcases h with rfl | h
      · exact .inr (.inl rfl)
      · exact (ih h).imp_right .inr

variable [Std.TransOrd α]

theorem pairwise_insertInto {a : α} {l : List α}
    (h : l.Pairwise (fun a b => compare a b = .lt)) :
    (insertInto a l).Pairwise (fun a b => compare a b = .lt) := by
  induction l with
  | nil => simp [insertInto]
  | cons b rest ih =>
    rw [List.pairwise_cons] at h
    rw [insertInto]
    split
    · -- A new least member is below `b`, hence below all that follows.
      rename_i hab
      refine List.pairwise_cons.2 ⟨?_, List.pairwise_cons.2 h⟩
      intro x hx
      rcases List.mem_cons.1 hx with rfl | hx
      · exact hab
      · exact Std.TransCmp.lt_trans hab (h.1 x hx)
    · exact List.pairwise_cons.2 h
    · rename_i hab
      refine List.pairwise_cons.2 ⟨?_, ih h.2⟩
      intro x hx
      rcases mem_of_mem_insertInto hx with rfl | hx
      · exact Std.OrientedCmp.lt_of_gt hab
      · exact h.1 x hx

/-- `s` with `a` as a member: `s ∪ {a}`. -/
def insert (s : OrderedSet α) (a : α) : OrderedSet α :=
  ⟨insertInto a s.toList, pairwise_insertInto s.ascending⟩

/-- The set of the elements of `l`: `x ∈ ofList l ↔ x ∈ l`. -/
def ofList (l : List α) : OrderedSet α :=
  l.foldl insert ∅

/-! ### Members and equality -/

section Members

variable [Std.LawfulEqOrd α]

omit [Std.TransOrd α] in
theorem mem_insertInto {a x : α} {l : List α} : x ∈ insertInto a l ↔ x = a ∨ x ∈ l := by
  refine ⟨mem_of_mem_insertInto, fun h => ?_⟩
  induction l with
  | nil => simpa [insertInto] using h
  | cons b rest ih =>
    rw [insertInto]
    split <;> simp only [List.mem_cons] at h ⊢
    · exact h
    · rename_i hab
      exact h.elim (fun hx => .inl (hx.trans (Std.LawfulEqOrd.eq_of_compare hab))) id
    · rcases h with h | h | h
      · exact .inr (ih (.inl h))
      · exact .inl h
      · exact .inr (ih (.inr h))

theorem mem_insert {s : OrderedSet α} {a x : α} : x ∈ s.insert a ↔ x = a ∨ x ∈ s :=
  mem_insertInto

theorem mem_foldl_insert {l : List α} {s : OrderedSet α} {x : α} :
    x ∈ l.foldl insert s ↔ x ∈ l ∨ x ∈ s := by
  induction l generalizing s with
  | nil => simp
  | cons a rest ih =>
    simp only [List.foldl_cons, ih, mem_insert, List.mem_cons]
    constructor
    · rintro (h | h | h)
      · exact .inl (.inr h)
      · exact .inl (.inl h)
      · exact .inr h
    · rintro ((h | h) | h)
      · exact .inr (.inl h)
      · exact .inl h
      · exact .inr (.inr h)

omit [Std.TransOrd α] [Std.LawfulEqOrd α] in
theorem not_mem_empty {x : α} : x ∉ (∅ : OrderedSet α) :=
  List.not_mem_nil

theorem mem_ofList {l : List α} {x : α} : x ∈ ofList l ↔ x ∈ l := by
  simp [ofList, mem_foldl_insert, not_mem_empty]

end Members

/-- No member is twice in `s.toList`. -/
theorem nodup (s : OrderedSet α) : s.toList.Nodup := by
  refine s.ascending.imp fun {a b} hab heq => ?_
  simp [heq] at hab

/-- `l₁ = l₂` if both ascend strictly and have the same elements. -/
theorem eq_of_mem_iff {l₁ l₂ : List α} (h₁ : l₁.Pairwise (fun a b => compare a b = .lt))
    (h₂ : l₂.Pairwise (fun a b => compare a b = .lt)) (h : ∀ x, x ∈ l₁ ↔ x ∈ l₂) : l₁ = l₂ := by
  induction l₁ generalizing l₂ with
  | nil =>
    cases l₂ with
    | nil => rfl
    | cons b _ => simpa using (h b).2
  | cons a rest ih =>
    cases l₂ with
    | nil => simpa using (h a).1
    | cons b tail =>
      rw [List.pairwise_cons] at h₁ h₂
      have irrefl : ∀ x : α, compare x x ≠ .lt := fun x hx => by
        simp [Std.ReflCmp.compare_self] at hx
      have hab : a = b := by
        -- The heads are the least elements of one and the same set.
        rcases List.mem_cons.1 ((h a).1 List.mem_cons_self) with rfl | ha
        · rfl
        rcases List.mem_cons.1 ((h b).2 List.mem_cons_self) with rfl | hb
        · rfl
        exact absurd (Std.TransCmp.lt_trans (h₁.1 b hb) (h₂.1 a ha)) (irrefl a)
      subst hab
      refine congrArg _ (ih h₁.2 h₂.2 fun x => ⟨fun hx => ?_, fun hx => ?_⟩)
      · rcases List.mem_cons.1 ((h x).1 (List.mem_cons_of_mem _ hx)) with rfl | hx'
        · exact absurd (h₁.1 x hx) (irrefl x)
        · exact hx'
      · rcases List.mem_cons.1 ((h x).2 (List.mem_cons_of_mem _ hx)) with rfl | hx'
        · exact absurd (h₂.1 x hx) (irrefl x)
        · exact hx'

/-- Sets are determined by their members: `s = t` if `x ∈ s ↔ x ∈ t` for all `x`. -/
theorem ext_mem {s t : OrderedSet α} (h : ∀ x, x ∈ s ↔ x ∈ t) : s = t := by
  cases s; cases t
  simp only [mk.injEq]
  exact eq_of_mem_iff ‹_› ‹_› h

end OrderedSet

end SchemaSnapshot

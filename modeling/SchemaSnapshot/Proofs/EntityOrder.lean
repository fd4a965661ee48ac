import SchemaSnapshot.Collection.OrderedSet
import SchemaSnapshot.Proofs.SnapshotText
import Mathlib.Data.List.Lex
import Mathlib.Data.Prod.Lex
import Mathlib.Data.String.Basic
import Mathlib.Order.WithBot

/-!
# The order of keys, indexes and sequences

Entities are compared field by field, and so each kind of entity has a key in a lexicographic order
that says how it is compared: the fields in their order, a text as its code points, a list of texts
as the list of theirs, what is missing below all that is there, alternatives by their number. A
comparison that follows its key (`FollowsKey`) is taken apart along with the key. With such an order
a finite set has one ascending list, whatever it was built from (`CanonicalSets`), and
`canonicalSets_entities` says so of all entities that a snapshot keeps in sets.
-/

namespace SchemaSnapshot

/-! ### Comparisons and keys -/

/-- `comparison` is the order of the keys. -/
structure FollowsKey {α K : Type} [LT K] (comparison : α → α → Ordering) (key : α → K) : Prop where
  lt_iff : ∀ a b, comparison a b = .lt ↔ key a < key b
  eq_iff : ∀ a b, comparison a b = .eq ↔ key a = key b

/-- A text as the list of its code points. -/
def codePoints (text : String) : List ℕ :=
  text.toList.map Char.toNat

/-- What is missing as `⊥`, below the key of all that is there. -/
def missingFirst {α K : Type} (key : α → K) : Option α → WithBot K
  | none => ⊥
  | some a => key a

namespace FollowsKey

variable {α β K K' : Type} [LT K] [LT K']

/-- If `comparison` follows `key`, then comparing the contents of `field` follows the `key` of
these. -/
theorem on {comparison : β → β → Ordering} {key : β → K} (h : FollowsKey comparison key)
    (field : α → β) :
    FollowsKey (fun a b => comparison (field a) (field b)) fun a => key (field a) where
  lt_iff a b := h.lt_iff (field a) (field b)
  eq_iff a b := h.eq_iff (field a) (field b)

/-- `compareLex first second` is the lexicographic order of the two keys. -/
theorem lex {first second : α → α → Ordering} {key : α → K} {key' : α → K'}
    (h : FollowsKey first key) (h' : FollowsKey second key') :
    FollowsKey (compareLex first second) fun a => toLex (key a, key' a) where
  lt_iff a b := by
    rw [compareLex, Ordering.then_eq_lt, h.lt_iff, h.eq_iff, h'.lt_iff, Prod.Lex.toLex_lt_toLex]
  eq_iff a b := by
    rw [compareLex_eq_eq_iff, h.eq_iff, h'.eq_iff, toLex_inj, Prod.mk.injEq]

theorem codePoints_lt_iff {a b : String} : codePoints a < codePoints b ↔ a < b := by
  have hmono : StrictMono (List.map Char.toNat) := fun _ _ hlt => List.map_lt (fun _ _ h => h) hlt
  rw [codePoints, codePoints, hmono.lt_iff_lt, String.lt_iff_toList_lt]

/-- Texts are compared by code point: `compare` follows `codePoints`. -/
theorem ofString : FollowsKey (compare : String → String → Ordering) codePoints where
  lt_iff a b := by
    rw [codePoints_lt_iff]
    exact compareOfLessAndEq_eq_lt
  eq_iff a b := by
    have hinjective := List.map_injective_iff.2 fun _ _ => Char.toNat_inj.1
    rw [Std.LawfulEqOrd.compare_eq_iff_eq, codePoints, codePoints, hinjective.eq_iff,
      String.toList_inj]

theorem ofOption [Ord α] {key : α → K} (h : FollowsKey compare key) :
    FollowsKey (compare : Option α → Option α → Ordering) (missingFirst key) where
  lt_iff a b := by
    cases a <;> cases b <;> simp [compare, missingFirst, ← h.lt_iff]
  eq_iff a b := by
    cases a <;> cases b <;> simp [compare, missingFirst, ← h.eq_iff]

/-- Lists are compared lexicographically, as their `List.map key` are, a list coming before those
that go on after it. -/
theorem ofList [Ord α] {key : α → K} (h : FollowsKey compare key) :
    FollowsKey (compare : List α → List α → Ordering) (List.map key) where
  lt_iff a b := by
    induction a generalizing b with
    | nil => cases b <;> simp
    | cons x rest ih =>
      cases b with
      | nil => simp
      -- the heads decide, or they agree and the rests do
      | cons y rest' =>
        rw [List.compare_cons_cons, Ordering.then_eq_lt, h.lt_iff, h.eq_iff, ih, List.map_cons,
          List.map_cons, List.cons_lt_cons_iff]
  eq_iff a b := by
    induction a generalizing b with
    | nil => cases b <;> simp
    | cons x rest ih =>
      cases b with
      | nil => simp
      | cons y rest' =>
        rw [List.compare_cons_cons, Ordering.then_eq_eq, h.eq_iff, ih, List.map_cons,
          List.map_cons, List.cons.injEq]

/-- Deferrabilities are compared by `Deferrability.ctorIdx`, their number among the alternatives. -/
theorem ofDeferrability :
    FollowsKey (compare : Deferrability → Deferrability → Ordering) Deferrability.ctorIdx where
  lt_iff a b := by
    cases a <;> cases b <;> decide
  eq_iff a b := by
    cases a <;> cases b <;> decide

end FollowsKey

/-! ### The keys of entities -/

/-- What foreign keys are compared by: `name`, `referencedTable`, `referencedColumn`, `table`,
`column`, `deferrability`. -/
def ForeignKey.sortKey (k : ForeignKey) :
    WithBot (List ℕ) ×ₗ List ℕ ×ₗ List ℕ ×ₗ List ℕ ×ₗ List ℕ ×ₗ WithBot ℕ :=
  toLex (missingFirst codePoints k.name, toLex (codePoints k.referencedTable,
    toLex (codePoints k.referencedColumn, toLex (codePoints k.table,
    toLex (codePoints k.column, missingFirst Deferrability.ctorIdx k.deferrability)))))

/-- What indexes are compared by: `table`, `name`, `columns`. -/
def Index.sortKey (i : Index) : List ℕ ×ₗ List ℕ ×ₗ List (List ℕ) :=
  toLex (codePoints i.table, toLex (codePoints i.name, i.columns.map codePoints))

/-- What primary keys are compared by: `table`, `columns`, `name`. -/
def PrimaryKey.sortKey (k : PrimaryKey) : List ℕ ×ₗ List (List ℕ) ×ₗ WithBot (List ℕ) :=
  toLex (codePoints k.table, toLex (k.columns.map codePoints, missingFirst codePoints k.name))

/-- What sequences are compared by: `name`. -/
def Sequence.sortKey (s : Sequence) : List ℕ :=
  codePoints s.name

open FollowsKey in
theorem ForeignKey.followsKey : FollowsKey compare ForeignKey.sortKey :=
  (ofString.ofOption.on name).lex <| (ofString.on referencedTable).lex <|
    (ofString.on referencedColumn).lex <| (ofString.on table).lex <|
    (ofString.on column).lex <| ofDeferrability.ofOption.on deferrability

open FollowsKey in
theorem Index.followsKey : FollowsKey compare Index.sortKey :=
  (ofString.on table).lex <| (ofString.on name).lex <| ofString.ofList.on columns

open FollowsKey in
theorem PrimaryKey.followsKey : FollowsKey compare PrimaryKey.sortKey :=
  (ofString.on table).lex <| (ofString.ofList.on columns).lex <| ofString.ofOption.on name

theorem Sequence.followsKey : FollowsKey compare Sequence.sortKey :=
  FollowsKey.ofString.on name

/-! ### Sets with one list each -/

/-- A type whose sets have one list each. The type is ordered by `key`, and the order is strict and
total. The set that is built from a list has a strictly ascending list of the same elements, the
only one that there is. So the order in which elements come, and how often, makes no difference to
the set or to its text. -/
structure CanonicalSets {α K : Type} [Ord α] [Std.TransOrd α] [JsonForm α] [LT K] (key : α → K) :
    Prop where
  compare_eq_lt_iff : ∀ a b, compare a b = .lt ↔ key a < key b
  compare_eq_eq_iff : ∀ a b : α, compare a b = .eq ↔ a = b
  strictTotal : IsStrictTotalOrder α fun a b => compare a b = .lt
  ascending : ∀ l : List α, (OrderedSet.ofList l).toList.Pairwise fun a b => compare a b = .lt
  mem_iff : ∀ (l : List α) (a : α), a ∈ (OrderedSet.ofList l).toList ↔ a ∈ l
  unique : ∀ l sorted : List α, (sorted.Pairwise fun a b => compare a b = .lt) →
    (∀ a, a ∈ sorted ↔ a ∈ l) → (OrderedSet.ofList l).toList = sorted
  ofList_eq_iff : ∀ l l' : List α, OrderedSet.ofList l = .ofList l' ↔ ∀ a, a ∈ l ↔ a ∈ l'
  eq_iff : ∀ s t : OrderedSet α, s = t ↔ ∀ a, a ∈ s ↔ a ∈ t
  text_eq_iff : ∀ s t : OrderedSet α,
    (encode s.toList).render = (encode t.toList).render ↔ ∀ a, a ∈ s ↔ a ∈ t

theorem isStrictTotalOrder_compare {α : Type} [Ord α] [Std.TransOrd α] [Std.LawfulEqOrd α] :
    IsStrictTotalOrder α fun a b => compare a b = .lt where
  trichotomous a b hab hba := by
    apply Std.LawfulEqOrd.eq_of_compare
    cases h : compare a b with
    | eq => rfl
    | lt => exact absurd h hab
    | gt => exact absurd (Std.OrientedCmp.lt_of_gt h) hba
  irrefl a h := by simp at h
  trans a b c hab hbc := Std.TransCmp.lt_trans hab hbc

/-- With a lawful order that follows `key`, every set has one list: `CanonicalSets key`. -/
theorem FollowsKey.canonicalSets {α K : Type} [Ord α] [Std.TransOrd α] [Std.LawfulEqOrd α]
    [JsonForm α] [FaithfulForm α] [LT K] {key : α → K} (h : FollowsKey compare key) :
    CanonicalSets key where
  compare_eq_lt_iff := h.lt_iff
  compare_eq_eq_iff _ _ := Std.LawfulEqOrd.compare_eq_iff_eq
  strictTotal := isStrictTotalOrder_compare
  ascending l := (OrderedSet.ofList l).ascending
  mem_iff _ _ := OrderedSet.mem_ofList
  unique l sorted hsorted hmem :=
    OrderedSet.eq_of_mem_iff (OrderedSet.ofList l).ascending hsorted fun a =>
      OrderedSet.mem_ofList.trans (hmem a).symm
  ofList_eq_iff l l' := by
    constructor
    · intro heq a
      rw [← OrderedSet.mem_ofList, heq, OrderedSet.mem_ofList]
    · intro hmem
      apply OrderedSet.ext_mem
      intro a
      rw [OrderedSet.mem_ofList, OrderedSet.mem_ofList, hmem]
  eq_iff s t := ⟨fun heq a => heq ▸ Iff.rfl, OrderedSet.ext_mem⟩
  text_eq_iff s t := by
    rw [Json.render_inj, encode_inj, OrderedSet.toList_inj]
    exact ⟨fun heq a => heq ▸ Iff.rfl, OrderedSet.ext_mem⟩

/-- **The sets of a snapshot have one list each,** be they of foreign keys, indexes, primary keys or
sequences. -/
theorem canonicalSets_entities :
    CanonicalSets ForeignKey.sortKey ∧ CanonicalSets Index.sortKey ∧
      CanonicalSets PrimaryKey.sortKey ∧ CanonicalSets Sequence.sortKey :=
  ⟨ForeignKey.followsKey.canonicalSets, Index.followsKey.canonicalSets,
    PrimaryKey.followsKey.canonicalSets, Sequence.followsKey.canonicalSets⟩

end SchemaSnapshot

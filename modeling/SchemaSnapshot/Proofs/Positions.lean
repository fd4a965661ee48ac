import SchemaSnapshot.Proofs.Ordered
import SchemaSnapshot.Proofs.Outcome

/-!
# Columns in the order of their positions

Columns that are placed one by one, in whatever order, can be listed in the end exactly if their
positions are 1, 2, … up to their number, each taken once; and then they are listed in ascending
order of the positions (`Slots.finish_of_placeAll`).
-/

namespace SchemaSnapshot

/-! ### Positions without a gap -/

/-- The positions `1, …, count`. -/
def positions (count : Nat) : List Int :=
  (List.range count).map fun i : Nat => 1 + (i : Int)

theorem one_le_of_mem_positions {count : Nat} {p : Int} (h : p ∈ positions count) : 1 ≤ p := by
  obtain ⟨i, -, rfl⟩ := List.mem_map.1 h
  omega

theorem le_of_mem_positions {count : Nat} {p : Int} (h : p ∈ positions count) : p ≤ count := by
  obtain ⟨i, hi, rfl⟩ := List.mem_map.1 h
  have hlt := List.mem_range.1 hi
  omega

theorem pairwise_positions (count : Nat) : (positions count).Pairwise (· < ·) := by
  refine List.pairwise_map.2 (List.pairwise_lt_range.imp ?_)
  intro i j hij
  omega

/-- `places` are 1, 2, … in some order, each once. -/
def WellPlaced (places : List Int) : Prop :=
  places.Perm (positions places.length)

instance (places : List Int) : Decidable (WellPlaced places) :=
  inferInstanceAs (Decidable (List.Perm _ _))

namespace WellPlaced

variable {places places' : List Int}

theorem one_le (h : WellPlaced places) {p : Int} (hp : p ∈ places) : 1 ≤ p :=
  one_le_of_mem_positions (h.mem_iff.1 hp)

theorem le_length (h : WellPlaced places) {p : Int} (hp : p ∈ places) : p ≤ places.length :=
  le_of_mem_positions (h.mem_iff.1 hp)

theorem nodup (h : WellPlaced places) : places.Nodup :=
  h.nodup_iff.2 ((pairwise_positions _).imp Int.ne_of_lt)

theorem congr (h : places.Perm places') : WellPlaced places ↔ WellPlaced places' := by
  rw [WellPlaced, WellPlaced, h.length_eq]
  exact ⟨h.symm.trans, h.trans⟩

/-- `places = positions places.length` if the places are well-placed and ascend. -/
theorem eq_positions (h : WellPlaced places) (hlt : places.Pairwise (· < ·)) :
    places = positions places.length := by
  apply List.Perm.eq_of_pairwise _ hlt (pairwise_positions _) h
  intro a b _ _ hab hba
  omega

end WellPlaced

namespace Slots

/-! ### Placing -/

theorem place_eq_ok_iff {slots after : Slots} {position : Int} {column : String} :
    slots.place position column = .ok after ↔
      1 ≤ position ∧ slots.get? position = none ∧ after = slots.insert position column := by
  unfold place
  split
  · rename_i hlow
    constructor
    · intro h
      cases h
    · rintro ⟨hone, -⟩
      omega
  · rename_i hlow
    have hone : 1 ≤ position := by omega
    cases hget : slots.get? position with
    | none => simp [hone, eq_comm]
    | some holder => simp

/-- Places the columns of `pairs` one after another, each at its position. -/
def placeAll (slots : Slots) (pairs : List (Int × String)) : Except PositionFault Slots :=
  pairs.foldlM (fun slots pair => slots.place pair.1 pair.2) slots

theorem get?_eq_none_iff {slots : Slots} {position : Int} :
    slots.get? position = none ↔ position ∉ slots.keys := by
  rw [OrderedMap.mem_keys_iff, OrderedMap.contains]
  cases slots.get? position <;> simp

/-- `placeAll` succeeds exactly if the positions are positive and neither taken nor wanted twice;
the slots then hold what they held and the columns. -/
theorem placeAll_eq_ok_iff {slots after : Slots} {pairs : List (Int × String)} :
    slots.placeAll pairs = .ok after ↔
      (∀ pair ∈ pairs, 1 ≤ pair.1) ∧ ((pairs ++ slots.entries).map (·.1)).Nodup ∧
        after.entries.Perm (pairs ++ slots.entries) := by
  induction pairs generalizing slots with
  | nil =>
    show (pure slots : Except PositionFault Slots) = _ ↔ _
    rw [Except.pure_eq_ok_iff]
    constructor
    · rintro rfl
      exact ⟨fun _ h => absurd h List.not_mem_nil, slots.nodup_keys, .refl _⟩
    · rintro ⟨-, -, hperm⟩
      exact (OrderedMap.ext_perm hperm).symm
  | cons pair rest ih =>
    obtain ⟨position, column⟩ := pair
    show (slots.place position column >>= fun next => next.placeAll rest) = _ ↔ _
    rw [Except.bind_eq_ok_iff]
    -- With a free position, the slots after the first column hold its pair as well.
    have hnext (hfree : slots.get? position = none) :
        (rest ++ (slots.insert position column).entries).Perm
          ((position, column) :: rest ++ slots.entries) :=
      ((OrderedMap.entries_insert_perm hfree).append_left rest).trans List.perm_middle
    constructor
    · rintro ⟨next, hplace, hrest⟩
      obtain ⟨hone, hfree, rfl⟩ := place_eq_ok_iff.1 hplace
      obtain ⟨hpos, hnodup, hperm⟩ := ih.1 hrest
      refine ⟨?_, ?_, hperm.trans (hnext hfree)⟩
      · intro pair hpair
        rcases List.mem_cons.1 hpair with rfl | hpair
        · exact hone
        · exact hpos pair hpair
      · exact (((hnext hfree).map (·.1)).nodup_iff).1 hnodup
    · rintro ⟨hpos, hnodup, hperm⟩
      -- the position of the first column is wanted once and held by nobody
      have hfree : slots.get? position = none := by
        rw [get?_eq_none_iff]
        intro hmem
        rw [List.cons_append, List.map_cons, List.nodup_cons, List.map_append] at hnodup
        exact hnodup.1 (List.mem_append_right _ hmem)
      have hplace : slots.place position column = .ok (slots.insert position column) :=
        place_eq_ok_iff.2 ⟨hpos _ List.mem_cons_self, hfree, rfl⟩
      have hrest : placeAll (slots.insert position column) rest = .ok after := by
        apply ih.2
        refine ⟨?_, ?_, ?_⟩
        · exact fun pair hpair => hpos pair (List.mem_cons_of_mem _ hpair)
        · exact (((hnext hfree).map (·.1)).nodup_iff).2 hnodup
        · exact hperm.trans (hnext hfree).symm
      exact ⟨_, hplace, hrest⟩

/-- `slots.placeAll pairs = .ok after ↔ slots.placeAll pairs' = .ok after` for a permutation: the
order in which columns are placed does not matter. -/
theorem placeAll_perm {pairs pairs' : List (Int × String)} (h : pairs.Perm pairs')
    {slots after : Slots} :
    slots.placeAll pairs = .ok after ↔ slots.placeAll pairs' = .ok after := by
  have hall : (pairs ++ slots.entries).Perm (pairs' ++ slots.entries) := h.append_right _
  rw [placeAll_eq_ok_iff, placeAll_eq_ok_iff, (hall.map (·.1)).nodup_iff]
  constructor
  · rintro ⟨hone, hnodup, hperm⟩
    exact ⟨fun pair hpair => hone pair (h.mem_iff.2 hpair), hnodup, hperm.trans hall⟩
  · rintro ⟨hone, hnodup, hperm⟩
    exact ⟨fun pair hpair => hone pair (h.mem_iff.1 hpair), hnodup, hperm.trans hall.symm⟩

/-! ### Listing -/

theorem firstGap?_eq_none_iff {expected : Int} {l : List Int} :
    firstGap? expected l = none ↔
      l = (List.range l.length).map fun i : Nat => expected + (i : Int) := by
  induction l generalizing expected with
  | nil => simp [firstGap?]
  | cons position rest ih =>
    have hshift : ((List.range rest.length).map fun i : Nat => expected + 1 + (i : Int)) =
        (List.range rest.length).map fun i : Nat => expected + ((i + 1 : Nat) : Int) := by
      apply List.map_congr_left
      intro i _
      omega
    rw [firstGap?, List.length_cons, List.range_succ_eq_map, List.map_cons, List.map_map,
      List.cons.injEq]
    -- the head is the expected position, and the rest go on from the next
    by_cases heq : position = expected
    · rw [if_pos heq, ih, hshift]
      simp [heq, Function.comp_def]
    · rw [if_neg heq]
      simp [heq]

/-- The columns can be listed exactly if the taken positions are `positions slots.size`, without a
gap, and are then `slots.values`. -/
theorem finish_eq_ok_iff {slots : Slots} {columns : List String} :
    slots.finish = .ok columns ↔ slots.keys = positions slots.size ∧ columns = slots.values := by
  have hgap : firstGap? 1 slots.keys = none ↔ slots.keys = positions slots.size := by
    rw [firstGap?_eq_none_iff, positions, OrderedMap.size, OrderedMap.keys, List.length_map]
  unfold finish
  cases hfault : firstGap? 1 slots.keys with
  | none => simp [hgap.1 hfault, eq_comm]
  | some fault =>
    have hne : slots.keys ≠ positions slots.size := fun h => by simp [hgap.2 h] at hfault
    simp [hne]

/-- **Placing columns and then listing them** succeeds exactly if the positions are 1, 2, … in some
order, and gives the columns in the order of their positions. -/
theorem finish_of_placeAll {pairs : List (Int × String)} {columns : List String} :
    (∃ slots, placeAll ∅ pairs = .ok slots ∧ slots.finish = .ok columns) ↔
      WellPlaced (pairs.map (·.1)) ∧ columns = (orderedBy (·.1) pairs).map (·.2) := by
  have hempty : (∅ : Slots).entries = [] := rfl
  constructor
  · rintro ⟨slots, hplace, hfinish⟩
    obtain ⟨-, -, hperm⟩ := placeAll_eq_ok_iff.1 hplace
    obtain ⟨hkeys, rfl⟩ := finish_eq_ok_iff.1 hfinish
    rw [hempty, List.append_nil] at hperm
    constructor
    · have hsize : slots.size = (pairs.map (·.1)).length := by
        rw [List.length_map]
        exact hperm.length_eq
      rw [WellPlaced, ← hsize, ← hkeys]
      exact (hperm.map _).symm
    · -- The slots hold the pairs in ascending order, and there is only one such list.
      have hsorted : slots.entries = orderedBy (·.1) pairs := by
        apply eq_orderedBy_of_perm hperm
        · exact slots.ascending.imp fun {a b} hab => by simp [hab]
        · exact (hperm.map _).nodup_iff.1 slots.nodup_keys
      rw [OrderedMap.values, hsorted]
  · rintro ⟨hwell, rfl⟩
    -- The ordered pairs are the entries of slots, whose keys are the positions.
    let slots : Slots := ⟨orderedBy (·.1) pairs, pairwise_lt_orderedBy hwell.nodup⟩
    have hentries : slots.entries.Perm pairs := orderedBy_perm _ pairs
    have hkeys : slots.keys = positions slots.size := by
      have hlt : slots.keys.Pairwise (· < ·) :=
        List.pairwise_map.2 (slots.ascending.imp fun {a b} hab => Std.compare_eq_lt.1 hab)
      have hwell' : WellPlaced slots.keys := (WellPlaced.congr (hentries.map _)).2 hwell
      rw [hwell'.eq_positions hlt, OrderedMap.keys, List.length_map, OrderedMap.size]
    refine ⟨slots, placeAll_eq_ok_iff.2 ⟨?_, ?_, ?_⟩, finish_eq_ok_iff.2 ⟨hkeys, rfl⟩⟩
    · exact fun pair hpair => hwell.one_le (List.mem_map_of_mem hpair)
    · rw [hempty, List.append_nil]
      exact hwell.nodup
    · rwa [hempty, List.append_nil]

/-- `finish_of_placeAll` for rows with a `position` and a `column`. -/
theorem finish_of_placeAll_map {α : Type} (position : α → Int) (column : α → String)
    {rows : List α} {columns : List String} :
    (∃ slots, placeAll ∅ (rows.map fun row => (position row, column row)) = .ok slots ∧
        slots.finish = .ok columns) ↔
      WellPlaced (rows.map position) ∧ columns = (orderedBy position rows).map column := by
  rw [finish_of_placeAll, List.map_map, orderedBy_map, List.map_map]
  rfl

end Slots

end SchemaSnapshot

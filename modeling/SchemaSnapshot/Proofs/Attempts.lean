import SchemaSnapshot.Proofs.Positions
import Mathlib.Order.Bounds.Basic

/-!
# Attempts to place columns

Columns are placed by attempts of which some may fail. The attempts that succeed could have been
made alone (`Slots.placeAll_placed`), so that the slots hold their columns and nothing else. All
that can be said about the next attempt and about listing the columns follows from this, together
with `Slots.gap_of_firstGap?`: the first gap in ascending positions is the least position that is
free, and the position that is named beside it is the least one that is taken above it.
-/

namespace SchemaSnapshot.Slots

variable {slots : Slots} {attempts : List (Int × String)}

/-- The slots after `attempts`, made one after another; one that fails does not keep the others from
being made. -/
def afterAttempts (slots : Slots) : List (Int × String) → Slots
  | [] => slots
  | (position, column) :: rest =>
    match slots.place position column with
    | .ok after => after.afterAttempts rest
    | .error _ => slots.afterAttempts rest

/-- The attempts among `attempts` that succeed, in their order. -/
def placed (slots : Slots) : List (Int × String) → List (Int × String)
  | [] => []
  | (position, column) :: rest =>
    match slots.place position column with
    | .ok after => (position, column) :: after.placed rest
    | .error _ => slots.placed rest

/-! ### What the slots hold -/

/-- `slots.placeAll (slots.placed attempts) = .ok (slots.afterAttempts attempts)`: attempts that
fail leave no trace. -/
theorem placeAll_placed (slots : Slots) (attempts : List (Int × String)) :
    slots.placeAll (slots.placed attempts) = .ok (slots.afterAttempts attempts) := by
  induction attempts generalizing slots with
  | nil => rfl
  | cons attempt rest ih =>
    obtain ⟨position, column⟩ := attempt
    rw [placed, afterAttempts]
    split
    · -- the attempt succeeds and is kept
      rename_i after hplace
      show (slots.place position column >>= fun next => next.placeAll (after.placed rest)) = _
      rw [hplace]
      exact ih after
    · exact ih slots

theorem entries_afterAttempts_perm (attempts : List (Int × String)) :
    (afterAttempts ∅ attempts).entries.Perm (placed ∅ attempts) := by
  obtain ⟨-, -, hperm⟩ := placeAll_eq_ok_iff.1 (placeAll_placed ∅ attempts)
  have hempty : (∅ : Slots).entries = [] := rfl
  rwa [hempty, List.append_nil] at hperm

theorem afterAttempts_append (slots : Slots) (attempts more : List (Int × String)) :
    slots.afterAttempts (attempts ++ more) = (slots.afterAttempts attempts).afterAttempts more := by
  induction attempts generalizing slots with
  | nil => rfl
  | cons attempt rest ih =>
    rw [List.cons_append, afterAttempts, afterAttempts]
    split
    · exact ih _
    · exact ih slots

theorem mem_placed_iff {position : Int} {column : String} :
    (position, column) ∈ placed ∅ attempts ↔
      (afterAttempts ∅ attempts).get? position = some column := by
  rw [← OrderedMap.mem_entries_iff, (entries_afterAttempts_perm attempts).mem_iff]

theorem mem_keys_iff_placed {position : Int} :
    position ∈ (afterAttempts ∅ attempts).keys ↔
      ∃ column, (position, column) ∈ placed ∅ attempts := by
  rw [OrderedMap.mem_keys_iff, OrderedMap.contains_iff]
  simp only [mem_placed_iff]

theorem one_le_of_mem_placed {position : Int} {column : String}
    (h : (position, column) ∈ placed ∅ attempts) : 1 ≤ position :=
  (placeAll_eq_ok_iff.1 (placeAll_placed ∅ attempts)).1 _ h

/-- `place` fails at a position below 1, or at one that `get?` finds taken, and for no other
reason. -/
theorem place_eq_error_iff {position : Int} {column : String} {fault : PositionFault} :
    slots.place position column = .error fault ↔
      (position < 1 ∧ fault = .belowOne position) ∨
        (1 ≤ position ∧ ∃ holder, slots.get? position = some holder ∧
          fault = .taken position holder) := by
  unfold place
  split
  · rename_i hlow
    have hnot : ¬ 1 ≤ position := by omega
    simp [hlow, hnot, eq_comm]
  · rename_i hlow
    have hone : 1 ≤ position := by omega
    cases slots.get? position with
    | none => simp [hlow]
    | some holder => simp [hlow, hone, eq_comm]

/-! ### Listing -/

theorem mem_positions_iff {count : Nat} {position : Int} :
    position ∈ positions count ↔ 1 ≤ position ∧ position ≤ count := by
  constructor
  · intro h
    exact ⟨one_le_of_mem_positions h, le_of_mem_positions h⟩
  · rintro ⟨hone, hle⟩
    refine List.mem_map.2 ⟨(position - 1).toNat, List.mem_range.2 ?_, ?_⟩
    · omega
    · omega

theorem pairwise_keys (slots : Slots) : slots.keys.Pairwise (· < ·) :=
  List.pairwise_map.2 (slots.ascending.imp fun {_ _} hab => Std.compare_eq_lt.1 hab)

/-- `slots.keys` is `positions count` exactly if the taken positions are `1, …, count`. -/
theorem keys_eq_positions_iff {count : Nat} :
    slots.keys = positions count ↔
      ∀ position, position ∈ slots.keys ↔ 1 ≤ position ∧ position ≤ count := by
  simp only [← mem_positions_iff]
  constructor
  · intro h position
    rw [h]
  · -- both lists are without repetition and ascending
    intro h
    have hperm : slots.keys.Perm (positions count) :=
      (List.perm_ext_iff_of_nodup slots.nodup_keys
        ((pairwise_positions count).imp Int.ne_of_lt)).2 h
    refine List.Perm.eq_of_pairwise (fun a b _ _ hab hba => ?_) (pairwise_keys slots)
      (pairwise_positions count) hperm
    omega

/-- `slots.finish = .ok columns` exactly if the taken positions are `1, …, columns.length` and every
column is at its position. -/
theorem finish_eq_ok_iff_get? {columns : List String} :
    slots.finish = .ok columns ↔
      (∀ position, position ∈ slots.keys ↔ 1 ≤ position ∧ position ≤ columns.length) ∧
        ∀ i (h : i < columns.length), slots.get? (i + 1) = some columns[i] := by
  have hlength : slots.values.length = slots.size := List.length_map _
  rw [finish_eq_ok_iff, ← keys_eq_positions_iff]
  -- With the positions 1, 2, …, the column at a position is the one that is listed there.
  have hget (hkeys : slots.keys = positions slots.size) (i : Nat) (h : i < slots.values.length) :
      slots.get? (i + 1) = some slots.values[i] := by
    have hi : i < slots.entries.length := by
      rw [hlength] at h
      exact h
    have hkey : slots.entries[i].1 = i + 1 := by
      have hposition : slots.keys[i]? = (positions slots.size)[i]? := by rw [hkeys]
      rw [hlength] at h
      simp [OrderedMap.keys, positions, h, hi] at hposition
      omega
    rw [← OrderedMap.mem_entries_iff, ← hkey]
    simp [OrderedMap.values]
  constructor
  · rintro ⟨hkeys, rfl⟩
    exact ⟨hlength.symm ▸ hkeys, hget hkeys⟩
  · rintro ⟨hkeys, hcolumns⟩
    have hcount : columns.length = slots.size := by
      have hsize := congrArg List.length hkeys
      rw [OrderedMap.keys, List.length_map, positions, List.length_map, List.length_range] at hsize
      exact hsize.symm
    rw [hcount] at hkeys
    refine ⟨hkeys, List.ext_getElem (hcount.trans hlength.symm) fun i hi hi' => ?_⟩
    rw [← Option.some.injEq, ← hcolumns i hi, hget hkeys i hi']

/-- The first gap in ascending positions is the least free position from `expected` on; beside it
stands the least one above it that is taken. -/
theorem gap_of_firstGap? {expected : Int} {l : List Int} {fault : PositionFault}
    (hlt : l.Pairwise (· < ·)) (hle : ∀ p ∈ l, expected ≤ p)
    (h : firstGap? expected l = some fault) :
    ∃ gap next, fault = .gap gap next ∧ IsLeast {p | expected ≤ p ∧ p ∉ l} gap ∧
      IsLeast {p | p ∈ l ∧ gap < p} next := by
  induction l generalizing expected with
  | nil => cases h
  | cons position rest ih =>
    rw [List.pairwise_cons] at hlt
    have hposition := hle position List.mem_cons_self
    rw [firstGap?] at h
    split at h
    · -- The expected position is taken, so the gap is one among the positions above it.
      rename_i heq
      subst heq
      obtain ⟨gap, next, rfl, ⟨⟨hgap, hfree⟩, hleast⟩, ⟨hnext, habove⟩, hfirst⟩ :=
        ih hlt.2 (fun p hp => by have := hlt.1 p hp; omega) h
      refine ⟨gap, next, rfl, ⟨⟨?_, ?_⟩, ?_⟩, ⟨List.mem_cons_of_mem _ hnext, habove⟩, ?_⟩
      · omega
      · rw [List.mem_cons, not_or]
        exact ⟨by omega, hfree⟩
      · rintro p ⟨hp, hpfree⟩
        rw [List.mem_cons, not_or] at hpfree
        exact hleast ⟨by omega, hpfree.2⟩
      · rintro p ⟨hp, hpabove⟩
        rcases List.mem_cons.1 hp with rfl | hp
        · omega
        · exact hfirst ⟨hp, hpabove⟩
    · rename_i hne
      obtain rfl := Option.some.inj h
      -- the expected position is free, as every other is above it
      have habove : ∀ p ∈ position :: rest, position ≤ p := by
        intro p hp
        rcases List.mem_cons.1 hp with rfl | hp
        · exact le_refl _
        · exact (hlt.1 p hp).le
      refine ⟨expected, position, rfl, ⟨⟨le_refl _, ?_⟩, fun p hp => hp.1⟩,
        ⟨List.mem_cons_self, by omega⟩, fun p hp => habove p hp.1⟩
      intro hmem
      have := habove expected hmem
      omega

/-- `slots.finish` fails exactly if there is a gap: a least position that is free, and a taken one
above it. -/
theorem finish_eq_error_iff (hpositive : ∀ position ∈ slots.keys, 1 ≤ position)
    {fault : PositionFault} :
    slots.finish = .error fault ↔
      ∃ gap next, fault = .gap gap next ∧
        IsLeast {p | 1 ≤ p ∧ p ∉ slots.keys} gap ∧ IsLeast {p | p ∈ slots.keys ∧ gap < p} next := by
  unfold finish
  cases hfirst : firstGap? 1 slots.keys with
  | none =>
    simp only [reduceCtorEq, false_iff]
    rintro ⟨gap, next, -, ⟨⟨hone, hfree⟩, -⟩, ⟨hnext, habove⟩, -⟩
    -- Without a gap all positions up to the taken one are taken.
    have hkeys : slots.keys = positions slots.keys.length := firstGap?_eq_none_iff.1 hfirst
    rw [hkeys, mem_positions_iff] at hnext
    rw [hkeys, mem_positions_iff] at hfree
    exact hfree ⟨hone, by omega⟩
  | some first =>
    simp only [Except.error.injEq]
    constructor
    · rintro rfl
      exact gap_of_firstGap? (pairwise_keys slots) hpositive hfirst
    · rintro ⟨gap, next, rfl, hleast, hnext⟩
      obtain ⟨gap', next', rfl, hleast', hnext'⟩ :=
        gap_of_firstGap? (pairwise_keys slots) hpositive hfirst
      obtain rfl := hleast.unique hleast'
      rw [hnext.unique hnext']

/-! ### Attempts, then listing -/

/-- **Columns that are placed by attempts and then listed.** After any attempts, the next one fails
exactly if its position is below 1 or went to a column by an attempt that succeeded; the error names
the position, and in the second case the column. An attempt that fails changes nothing, and the
attempts that succeed do so in every order, with the same slots in the end. The columns are listed
exactly if the taken positions are 1, 2, … up to the number of columns, each column at its position.
Otherwise the error names the least position that is free and the least one above it that is
taken. -/
theorem columns_of_attempts (object : String) (attempts : List (Int × String)) :
    (∀ position column e,
      ((afterAttempts ∅ attempts).place position column).mapError (PositionFault.toError object) =
          .error e ↔
        (position < 1 ∧ e = .invalidColumnPosition object position "positions start at 1") ∨
          ∃ holder, (position, holder) ∈ placed ∅ attempts ∧
            e = .invalidColumnPosition object position ("slot already holds column " ++ holder)) ∧
    (∀ position column fault, (afterAttempts ∅ attempts).place position column = .error fault →
      afterAttempts ∅ (attempts ++ [(position, column)]) = afterAttempts ∅ attempts) ∧
    (∀ reordered, reordered.Perm (placed ∅ attempts) →
      placeAll ∅ reordered = .ok (afterAttempts ∅ attempts)) ∧
    (∀ columns,
      (afterAttempts ∅ attempts).finish.mapError (PositionFault.toError object) = .ok columns ↔
        (∀ position, (∃ column, (position, column) ∈ placed ∅ attempts) ↔
          1 ≤ position ∧ position ≤ columns.length) ∧
        ∀ i (h : i < columns.length), ((i : Int) + 1, columns[i]) ∈ placed ∅ attempts) ∧
    ∀ e, (afterAttempts ∅ attempts).finish.mapError (PositionFault.toError object) = .error e ↔
      ∃ gap next,
        e = .invalidColumnPosition object gap
          ("no column at this position (next is " ++ Text.decimal next ++ ")") ∧
        IsLeast {p | 1 ≤ p ∧ ¬∃ column, (p, column) ∈ placed ∅ attempts} gap ∧
        IsLeast {p | (∃ column, (p, column) ∈ placed ∅ attempts) ∧ gap < p} next := by
  refine ⟨?_, ?_, ?_, ?_, ?_⟩
  · intro position column e
    simp only [Except.mapError_eq_error_iff, place_eq_error_iff, mem_placed_iff]
    constructor
    · rintro ⟨_, ⟨hlow, rfl⟩ | ⟨-, holder, hholder, rfl⟩, rfl⟩
      · exact .inl ⟨hlow, rfl⟩
      · exact .inr ⟨holder, hholder, rfl⟩
    · rintro (⟨hlow, rfl⟩ | ⟨holder, hholder, rfl⟩)
      · exact ⟨_, .inl ⟨hlow, rfl⟩, rfl⟩
      · have hone : 1 ≤ position := one_le_of_mem_placed (mem_placed_iff.2 hholder)
        exact ⟨_, .inr ⟨hone, holder, hholder, rfl⟩, rfl⟩
  · -- the failed attempt is made from the same slots
    intro position column fault hfault
    rw [afterAttempts_append, afterAttempts, hfault]
    rfl
  · intro reordered hperm
    exact (placeAll_perm hperm).2 (placeAll_placed ∅ attempts)
  · intro columns
    simp only [Except.mapError_eq_ok_iff, finish_eq_ok_iff_get?, mem_keys_iff_placed,
      mem_placed_iff]
  · intro e
    -- only positions from 1 on are ever taken
    have hpositive : ∀ position ∈ (afterAttempts ∅ attempts).keys, 1 ≤ position := by
      intro position hposition
      obtain ⟨column, hcolumn⟩ := mem_keys_iff_placed.1 hposition
      exact one_le_of_mem_placed hcolumn
    simp only [Except.mapError_eq_error_iff, finish_eq_error_iff hpositive, mem_keys_iff_placed]
    constructor
    · rintro ⟨_, ⟨gap, next, rfl, hgap, hnext⟩, rfl⟩
      exact ⟨gap, next, rfl, hgap, hnext⟩
    · rintro ⟨gap, next, rfl, hgap, hnext⟩
      exact ⟨_, ⟨gap, next, rfl, hgap, hnext⟩, rfl⟩

/-- Of five attempts two fail, and a gap is left between the others. -/
example : (afterAttempts ∅ [(4, "d"), (0, "x"), (1, "a"), (4, "y"), (2, "b")]).finish =
    .error (.gap 3 4) := by
  decide

end SchemaSnapshot.Slots

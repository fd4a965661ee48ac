import SchemaSnapshot.Proofs.JsonText
import SchemaSnapshot.Snapshot.Form

/-!
# Snapshots with the same text

A snapshot is a plain value, and so is its text. `Snapshot.text_eq_text_iff` says that the texts of
two snapshots are the same exactly if the snapshots are, so texts can be compared in their place. A
text tells its tree (`Json.render_inj`), and the rest is that a tree tells its value, kind of value
by kind of value: `FaithfulForm` collects the types of which this holds. What could go wrong is a
value that may be missing: `null` stands for it, so what is there must never be `null`
(`NeverNull`).
-/

namespace SchemaSnapshot

/-- A type whose forms tell its values apart. -/
class FaithfulForm (α : Type) [JsonForm α] : Prop where
  eq_of_encode : ∀ {a b : α}, encode a = encode b → a = b

/-- A type without a value of the form `null`. -/
class NeverNull (α : Type) [JsonForm α] : Prop where
  encode_ne_null : ∀ a : α, encode a ≠ .null

@[simp]
theorem encode_inj {α : Type} [JsonForm α] [FaithfulForm α] {a b : α} :
    encode a = encode b ↔ a = b :=
  ⟨FaithfulForm.eq_of_encode, congrArg encode⟩

/-! ### Plain values -/

instance : FaithfulForm String := ⟨Json.str.inj⟩

instance : NeverNull String := ⟨fun _ => Json.noConfusion⟩

instance : FaithfulForm Bool := ⟨Json.bool.inj⟩

instance : FaithfulForm Int32 := ⟨fun h => Int32.toInt_inj.1 (Json.int.inj h)⟩

/-- A list tells its items, how many there are and which. -/
instance {α : Type} [JsonForm α] [FaithfulForm α] : FaithfulForm (List α) where
  eq_of_encode {_ _} h :=
    List.map_injective_iff.2 (fun _ _ => FaithfulForm.eq_of_encode) (Json.arr.inj h)

/-- A value that may be missing is told by its form if `null` is free to stand for its absence. -/
instance {α : Type} [JsonForm α] [FaithfulForm α] [NeverNull α] : FaithfulForm (Option α) where
  eq_of_encode {a b} h := by
    cases a with
    | none =>
      cases b with
      | none => rfl
      | some b => exact absurd h.symm (NeverNull.encode_ne_null b)
    | some a =>
      cases b with
      | none => exact absurd h (NeverNull.encode_ne_null a)
      | some b => exact congrArg some (FaithfulForm.eq_of_encode h)

/-! ### Choices -/

instance : FaithfulForm Nullability where
  eq_of_encode {a b} h := by
    have hlabel : a.label = b.label := Json.str.inj h
    revert hlabel
    cases a <;> cases b <;> decide

instance : FaithfulForm Deferrability where
  eq_of_encode {a b} h := by
    have hlabel : a.label = b.label := Json.str.inj h
    revert hlabel
    cases a <;> cases b <;> decide

instance : NeverNull Deferrability := ⟨fun _ => Json.noConfusion⟩

instance : FaithfulForm ColumnOwner where
  eq_of_encode {a b} h := by
    cases a <;> cases b <;> have hfields := Json.obj.inj h <;> simp_all

instance : FaithfulForm Warning where
  eq_of_encode {a b} h := by
    have hfields := Json.obj.inj h
    cases a <;> cases b <;> simp_all [Warning.form]

/-! ### Records -/

instance : FaithfulForm Column where
  eq_of_encode {a b} h := by
    have hfields := Json.obj.inj h
    cases a; cases b
    simpa using hfields

instance : FaithfulForm Table where
  eq_of_encode {a b} h := by
    have hfields := Json.obj.inj h
    cases a; cases b
    simpa using hfields

instance : FaithfulForm View where
  eq_of_encode {a b} h := by
    have hfields := Json.obj.inj h
    cases a; cases b
    simpa using hfields

instance : FaithfulForm PrimaryKey where
  eq_of_encode {a b} h := by
    have hfields := Json.obj.inj h
    cases a; cases b
    simpa using hfields

instance : FaithfulForm ForeignKey where
  eq_of_encode {a b} h := by
    have hfields := Json.obj.inj h
    cases a; cases b
    simpa using hfields

instance : FaithfulForm Index where
  eq_of_encode {a b} h := by
    have hfields := Json.obj.inj h
    cases a; cases b
    simpa using hfields

instance : FaithfulForm Sequence where
  eq_of_encode {a b} h := by
    have hfields := Json.obj.inj h
    cases a; cases b
    simpa using hfields

/-! ### Maps and sets -/

/-- `m.encodeByName = n.encodeByName ↔ m = n`, whatever the names are. -/
theorem OrderedMap.encodeByName_inj {β : Type} [JsonForm β] [FaithfulForm β]
    {m n : OrderedMap String β} : m.encodeByName = n.encodeByName ↔ m = n := by
  constructor
  · -- an entry is told by its name and the form of its content
    intro h
    have hinjective : Function.Injective fun entry : String × β => (entry.1, encode entry.2) := by
      rintro ⟨name, content⟩ ⟨name', content'⟩ heq
      simpa using heq
    have hentries := List.map_injective_iff.2 hinjective (Json.obj.inj h)
    cases m; cases n
    simpa using hentries
  · rintro rfl
    rfl

theorem OrderedSet.toList_inj {α : Type} [Ord α] {s t : OrderedSet α} :
    s.toList = t.toList ↔ s = t := by
  cases s; cases t
  simp

namespace Snapshot

theorem ext_iff {a b : Snapshot} :
    a = b ↔
      a.label = b.label ∧ a.catalog = b.catalog ∧ a.schema = b.schema ∧ a.tables = b.tables ∧
        a.views = b.views ∧ a.foreignKeys = b.foreignKeys ∧ a.indexes = b.indexes ∧
        a.primaryKeys = b.primaryKeys ∧ a.sequences = b.sequences ∧ a.warnings = b.warnings := by
  cases a; cases b
  simp

theorem toJson_inj {a b : Snapshot} : a.toJson = b.toJson ↔ a = b := by
  simp [toJson, OrderedMap.encodeByName_inj, OrderedSet.toList_inj, ext_iff]

/-- **The text tells the snapshot.** The texts of two snapshots are the same exactly if the
snapshots are equal, and those are equal exactly if all they hold is: the label, what was asked for,
the tables and views, the four sets and the warnings in their order. -/
theorem text_eq_text_iff (a b : Snapshot) :
    (a.text = b.text ↔ a = b) ∧
      (a = b ↔
        a.label = b.label ∧ a.catalog = b.catalog ∧ a.schema = b.schema ∧ a.tables = b.tables ∧
          a.views = b.views ∧ a.foreignKeys = b.foreignKeys ∧ a.indexes = b.indexes ∧
          a.primaryKeys = b.primaryKeys ∧ a.sequences = b.sequences ∧
          a.warnings = b.warnings) :=
  ⟨Json.render_inj.trans toJson_inj, ext_iff⟩

end Snapshot

end SchemaSnapshot

import SchemaSnapshot.Reading.Reader
import SchemaSnapshot.Proofs.SnapshotText
import SchemaSnapshot.Source
import SchemaSnapshot.Sqlite.Metadata
import Mathlib.Data.List.Forall2

/-!
# Values are read back from their forms

A value is read back from its form, and from what others may make of the form: a record may lack
fields that are `null`, and it may have fields that the library does not know. `foundAgain_in_form`
says so for the entities, the rows of a source, the configuration and the options.

What a form may turn into is a `Variation`, put together for a type from those of its parts, and
`Record.Varies` is what it comes to for a record. The proofs look at the fields of a record one at a
time (`Record.Varies.lookup`): a field is there with a variant of its content, or it is missing and
was `null`. So reading a field gives what the record held, and `ReadsBack` goes from the types of
the fields to the type of the record. A field that has to be there is never missing, as its content
is never `null` (`NeverNull`).
-/

namespace SchemaSnapshot

/-! ### Forms and what they may turn into -/

/-- What the forms of a type may turn into. -/
structure Variation where
  /-- Whether a form may turn into another tree. -/
  Allows : Json → Json → Prop
  /-- What is there stays there, and what is missing stays missing. -/
  null_iff : ∀ {j j'}, Allows j j' → (j = .null ↔ j' = .null)

/-- A record that may lack fields that are `null`, and may have fields with names that are not
`known`, wherever they stand. The contents of the other fields may vary. -/
inductive Record.Varies (known : List String) : List (String × Variation) → Record → Record → Prop
  | nil : Varies known [] [] []
  | keep {name : String} {content : Variation} {j j' : Json} {fields : List (String × Variation)}
      {r r' : Record} : content.Allows j j' → Varies known fields r r' →
      Varies known ((name, content) :: fields) ((name, j) :: r) ((name, j') :: r')
  | leaveOut {name : String} {content : Variation} {fields : List (String × Variation)}
      {r r' : Record} : Varies known fields r r' →
      Varies known ((name, content) :: fields) ((name, .null) :: r) r'
  | add {name : String} {j : Json} {fields : List (String × Variation)} {r r' : Record} :
      name ∉ known → Varies known fields r r' → Varies known fields r ((name, j) :: r')

namespace Variation

/-- A form that is written in one way only. -/
def fixed : Variation where
  Allows j j' := j = j'
  null_iff := by
    rintro j _ rfl
    rfl

/-- A list whose items may vary as `item` allows. -/
def list (item : Variation) : Variation where
  Allows j j' := ∃ items items', j = .arr items ∧ j' = .arr items' ∧
    List.Forall₂ item.Allows items items'
  null_iff := by
    rintro _ _ ⟨items, items', rfl, rfl, -⟩
    simp

/-- A value that may be missing, and else varies as `content` allows. -/
def optional (content : Variation) : Variation where
  Allows j j' := (j = .null ∧ j' = .null) ∨ content.Allows j j'
  null_iff := by
    rintro j j' (⟨rfl, rfl⟩ | h)
    · rfl
    · exact content.null_iff h

/-- A record with the given `fields`, the contents of which may vary. -/
def record (fields : List (String × Variation)) : Variation where
  Allows j j' := ∃ r r', j = .obj r ∧ j' = .obj r' ∧ Record.Varies (fields.map (·.1)) fields r r'
  null_iff := by
    rintro _ _ ⟨r, r', rfl, rfl, -⟩
    simp

end Variation

/-- A type whose forms may vary. -/
class Varying (α : Type) where
  variation : Variation

export Varying (variation)

instance : Varying String := ⟨.fixed⟩

instance : Varying Bool := ⟨.fixed⟩

instance : Varying Int32 := ⟨.fixed⟩

instance : Varying Int16 := ⟨.fixed⟩

instance {α : Type} [Varying α] : Varying (List α) := ⟨(variation α).list⟩

instance {α : Type} [Varying α] : Varying (Option α) := ⟨(variation α).optional⟩

/-! A choice is an object too, but not a record: its one field is the alternative. -/

instance : Varying Nullability := ⟨.fixed⟩

instance : Varying Deferrability := ⟨.fixed⟩

instance : Varying ColumnOwner := ⟨.fixed⟩

instance : Varying ObjectKind := ⟨.fixed⟩

instance : Varying Column where
  variation := .record
    [("name", variation String), ("owner", variation ColumnOwner),
     ("data_type", variation Int32), ("size", variation Int32),
     ("decimal_digits", variation Int32), ("type_name", variation String),
     ("nullability", variation Nullability), ("auto_increment", variation Bool),
     ("default_value", variation (Option String))]

instance : Varying Table where
  variation := .record [("name", variation String), ("columns", variation (List Column))]

instance : Varying View where
  variation := .record
    [("name", variation String), ("definition", variation (Option String)),
     ("columns", variation (List Column))]

instance : Varying PrimaryKey where
  variation := .record
    [("table_name", variation String), ("column_names", variation (List String)),
     ("name", variation (Option String))]

instance : Varying ForeignKey where
  variation := .record
    [("name", variation (Option String)), ("primary_key_table", variation String),
     ("primary_key_column", variation String), ("foreign_key_table", variation String),
     ("foreign_key_column", variation String),
     ("deferrability", variation (Option Deferrability))]

instance : Varying Index where
  variation := .record
    [("table_name", variation String), ("name", variation String),
     ("column_names", variation (List String))]

instance : Varying Sequence where
  variation := .record [("name", variation String)]

instance : Varying ObjectRow where
  variation := .record
    [("kind", variation ObjectKind), ("name", variation String),
     ("schema", variation (Option String)), ("catalog", variation (Option String))]

instance : Varying ColumnRow where
  variation := .record
    [("table", variation String), ("schema", variation (Option String)),
     ("catalog", variation (Option String)), ("column", variation String),
     ("data_type", variation Int32), ("size", variation Int32),
     ("decimal_digits", variation Int32), ("type_name", variation String),
     ("raw_default", variation (Option String)), ("nullable_code", variation Int32)]

instance : Varying ForeignKeyRow where
  variation := .record
    [("pk_table", variation String), ("pk_column", variation String),
     ("fk_table", variation String), ("fk_column", variation String),
     ("constraint_name", variation (Option String)), ("deferrability_code", variation Int16)]

instance : Varying IndexRow where
  variation := .record
    [("index_name", variation (Option String)), ("type_code", variation Int16),
     ("table", variation String), ("column", variation (Option String)),
     ("ordinal_position", variation Int32)]

instance : Varying PrimaryKeyRow where
  variation := .record
    [("table", variation String), ("column", variation String),
     ("key_sequence", variation Int32), ("constraint_name", variation (Option String))]

instance : Varying Config where
  variation := .record
    [("catalog", variation (Option String)), ("schema", variation (Option String)),
     ("label", variation (Option String))]

instance : Varying Sqlite.Options where
  variation := .record
    [("bookkeeping_tables", variation (List String)), ("label", variation String)]

/-! ### The fields of a record -/

namespace Record.Varies

variable {known : List String} {fields : List (String × Variation)} {r r' : Record}

/-- `name ∈ fields.map (·.1) ∨ name ∉ known` for every name in a variant. -/
theorem mem_fields (h : Varies known fields r r') {name : String} (hname : name ∈ r'.map (·.1)) :
    name ∈ fields.map (·.1) ∨ name ∉ known := by
  induction h with
  | nil => cases hname
  | keep _ _ ih =>
    rcases List.mem_cons.1 hname with rfl | hname
    · exact .inl List.mem_cons_self
    · exact (ih hname).imp_left (List.mem_cons_of_mem _)
  | leaveOut _ ih => exact (ih hname).imp_left (List.mem_cons_of_mem _)
  | add hnew _ ih =>
    rcases List.mem_cons.1 hname with rfl | hname
    · exact .inr hnew
    · exact ih hname

/-- What has become of a field: it is there with a variant of its content, or it is missing and was
`null`. -/
theorem lookup (h : Varies known fields r r') (hnodup : (fields.map (·.1)).Nodup)
    (hknown : ∀ name ∈ fields.map (·.1), name ∈ known) {name : String} {content : Variation}
    {j : Json} (hcontent : fields.lookup name = some content) (hj : r.lookup name = some j) :
    (∃ j', r'.lookup name = some j' ∧ content.Allows j j') ∨
      (j = .null ∧ r'.lookup name = none) := by
  induction h with
  | nil => cases hj
  | @keep first content' i i' fields r r' hallows _ ih =>
    rw [List.map_cons, List.nodup_cons] at hnodup
    rw [List.lookup_cons] at hcontent hj ⊢
    -- the field that is looked up is this one, or one of those behind it
    by_cases hname : name = first
    · simp only [hname, beq_self_eq_true, Option.some.injEq] at hcontent hj ⊢
      subst hcontent hj
      exact .inl ⟨i', rfl, hallows⟩
    · simp only [beq_eq_false_iff_ne.2 hname] at hcontent hj ⊢
      exact ih hnodup.2 (fun n hn => hknown n (List.mem_cons_of_mem _ hn)) hcontent hj
  | @leaveOut first content' fields r r' hrest ih =>
    rw [List.map_cons, List.nodup_cons] at hnodup
    rw [List.lookup_cons] at hcontent hj
    by_cases hname : name = first
    · simp only [hname, beq_self_eq_true, Option.some.injEq] at hj
      refine .inr ⟨hj.symm, ?_⟩
      rw [List.lookup_eq_none_iff]
      intro entry hentry
      rw [bne_iff_ne]
      rintro rfl
      -- The name is known, and among the fields it is the first one only.
      rcases hrest.mem_fields (List.mem_map_of_mem hentry) with hmem | hnew
      · exact hnodup.1 (hname ▸ hmem)
      · exact hnew (hname ▸ hknown first List.mem_cons_self)
    · simp only [beq_eq_false_iff_ne.2 hname] at hcontent hj
      exact ih hnodup.2 (fun n hn => hknown n (List.mem_cons_of_mem _ hn)) hcontent hj
  -- the field put in has another name, as it is not known
  | @add new i fields r r' hnew _ ih =>
    have hmem : name ∈ fields.map (·.1) := by
      obtain ⟨_, _, rfl, -⟩ := List.lookup_eq_some_iff.1 hcontent
      simp
    have hne : name ≠ new := by
      rintro rfl
      exact hnew (hknown name hmem)
    rw [List.lookup_cons, beq_eq_false_iff_ne.2 hne]
    exact ih hnodup hknown hcontent hj

/-- `r` is a variant of itself if the content of each of its fields is. -/
theorem refl (h : List.Forall₂ (fun field entry => field.1 = entry.1 ∧
    field.2.Allows entry.2 entry.2) fields r) : Varies known fields r r := by
  induction h with
  | nil => exact .nil
  | @cons field entry _ _ hfield _ ih =>
    obtain ⟨name, content⟩ := field
    obtain ⟨_, j⟩ := entry
    obtain ⟨rfl, hallows⟩ := hfield
    exact .keep hallows ih

end Record.Varies

/-! ### Reading values back -/

instance : NeverNull Bool := ⟨fun _ => Json.noConfusion⟩

instance : NeverNull Int32 := ⟨fun _ => Json.noConfusion⟩

instance : NeverNull Int16 := ⟨fun _ => Json.noConfusion⟩

instance {α : Type} [JsonForm α] : NeverNull (List α) := ⟨fun _ => Json.noConfusion⟩

instance : NeverNull Nullability := ⟨fun _ => Json.noConfusion⟩

instance : NeverNull ColumnOwner := ⟨fun owner => by cases owner <;> exact Json.noConfusion⟩

instance : NeverNull ObjectKind := ⟨fun kind => by cases kind <;> exact Json.noConfusion⟩

/-- A type whose values are read back from every variant of their forms. -/
class ReadsBack (α : Type) [JsonForm α] [Varying α] : Prop where
  /-- The form of a value is one of its variants. -/
  allows_encode : ∀ a : α, (variation α).Allows (encode a) (encode a)
  decode?_of_allows : ∀ {a : α} {j : Json}, (variation α).Allows (encode a) j → decode? j = some a

export ReadsBack (allows_encode decode?_of_allows)

@[simp]
theorem decode?_encode {α : Type} [JsonForm α] [Varying α] [ReadsBack α] (a : α) :
    decode? (encode a) = some a :=
  decode?_of_allows (allows_encode a)

instance : ReadsBack String := ⟨fun _ => rfl, by rintro a _ rfl; rfl⟩

instance : ReadsBack Bool := ⟨fun _ => rfl, by rintro a _ rfl; rfl⟩

instance : ReadsBack Int32 := ⟨fun _ => rfl, by rintro a _ rfl; exact int32?_toInt a⟩

instance : ReadsBack Int16 := ⟨fun _ => rfl, by rintro a _ rfl; exact int16?_toInt a⟩

instance : ReadsBack Nullability := ⟨fun _ => rfl, by rintro a _ rfl; cases a <;> rfl⟩

instance : ReadsBack Deferrability := ⟨fun _ => rfl, by rintro a _ rfl; cases a <;> rfl⟩

instance : ReadsBack ColumnOwner := ⟨fun _ => rfl, by rintro a _ rfl; cases a <;> rfl⟩

instance : ReadsBack ObjectKind := ⟨fun _ => rfl, by rintro a _ rfl; cases a <;> rfl⟩

/-- A list is read back item by item. -/
instance {α : Type} [JsonForm α] [Varying α] [ReadsBack α] : ReadsBack (List α) where
  allows_encode l := by
    refine ⟨_, _, rfl, rfl, ?_⟩
    rw [List.forall₂_map_left_iff, List.forall₂_map_right_iff, List.forall₂_same]
    exact fun a _ => allows_encode a
  decode?_of_allows := by
    rintro l _ ⟨items, items', hitems, rfl, hall⟩
    obtain rfl := Json.arr.inj hitems
    rw [List.forall₂_map_left_iff] at hall
    change items'.mapM decode? = some l
    induction hall with
    | nil => rfl
    | cons hitem _ ih => simp [decode?_of_allows hitem, ih rfl]

theorem decode?_option {α : Type} [JsonForm α] {j : Json} (h : j ≠ .null) :
    (decode? j : Option (Option α)) = (decode? j).map some := by
  cases j with
  | null => exact absurd rfl h
  | _ => rfl

/-- A value that may be missing is read back if `null` is free to stand for its absence. -/
instance {α : Type} [JsonForm α] [Varying α] [ReadsBack α] [NeverNull α] :
    ReadsBack (Option α) where
  allows_encode a := by
    cases a with
    | none => exact .inl ⟨rfl, rfl⟩
    | some a => exact .inr (allows_encode a)
  decode?_of_allows := by
    rintro a j h
    cases a with
    -- only `null` stands for a value that is missing
    | none =>
      have hnull : j = .null := by
        rcases h with ⟨-, hnull⟩ | h
        · exact hnull
        · exact ((variation α).null_iff h).1 rfl
      rw [hnull]
      rfl
    | some a =>
      -- the form of `a` is not `null`, so no variant of it is
      have hne := NeverNull.encode_ne_null a
      have hallows : (variation α).Allows (encode a) j := by
        rcases h with ⟨hnull, -⟩ | h
        · exact absurd hnull hne
        · exact h
      have hne' : j ≠ .null := fun hnull => hne (((variation α).null_iff hallows).2 hnull)
      rw [decode?_option hne', decode?_of_allows hallows]
      rfl

/-! ### Reading records back -/

namespace Record.Varies

variable {α : Type} [JsonForm α] [Varying α] [ReadsBack α] {fields : List (String × Variation)}
  {r r' : Record} {name : String}

/-- A field that is never `null` is there, and its content is read. -/
theorem exists_lookup [NeverNull α] (h : Varies (fields.map (·.1)) fields r r')
    (hnodup : (fields.map (·.1)).Nodup) (hcontent : fields.lookup name = some (variation α)) {a : α}
    (ha : r.lookup name = some (encode a)) :
    ∃ j', r'.lookup name = some j' ∧ decode? j' = some a := by
  rcases h.lookup hnodup (fun _ hmem => hmem) hcontent ha with ⟨j', hj', hallows⟩ | ⟨hnull, -⟩
  · exact ⟨j', hj', decode?_of_allows hallows⟩
  · exact absurd hnull (NeverNull.encode_ne_null a)

/-- `r'.required name = (r.lookup name).bind decode?` for a variant `r'` of `r`. -/
theorem required_eq [NeverNull α] (h : Varies (fields.map (·.1)) fields r r')
    (hnodup : (fields.map (·.1)).Nodup) (hcontent : fields.lookup name = some (variation α))
    (hencoded : ∃ a : α, r.lookup name = some (encode a)) :
    (r'.required name : Option α) = (r.lookup name).bind decode? := by
  obtain ⟨a, ha⟩ := hencoded
  obtain ⟨j', hj', hread⟩ := h.exists_lookup hnodup hcontent ha
  simp [Record.required, Record.field?, ha, hj', hread]

/-- `r'.optional name = (r.lookup name).bind decode?` for a variant `r'` of `r`. -/
theorem optional_eq [NeverNull α] (h : Varies (fields.map (·.1)) fields r r')
    (hnodup : (fields.map (·.1)).Nodup)
    (hcontent : fields.lookup name = some (variation (Option α)))
    (hencoded : ∃ a : Option α, r.lookup name = some (encode a)) :
    (r'.optional name : Option (Option α)) = (r.lookup name).bind decode? := by
  obtain ⟨a, ha⟩ := hencoded
  rcases h.lookup hnodup (fun _ hmem => hmem) hcontent ha with ⟨j', hj', hallows⟩ | ⟨hnull, hnone⟩
  · simp [Record.optional, Record.field?, ha, hj', decode?_of_allows hallows]
  · -- the field has been left out, so it was `null`
    rw [ha, hnull, Record.optional, Record.field?, hnone]
    rfl

/-- `r'.withDefault name default = (r.lookup name).bind decode?` for a variant `r'` of `r`. -/
theorem withDefault_eq [NeverNull α] (h : Varies (fields.map (·.1)) fields r r')
    (hnodup : (fields.map (·.1)).Nodup) (hcontent : fields.lookup name = some (variation α))
    (hencoded : ∃ a : α, r.lookup name = some (encode a)) (default : α) :
    r'.withDefault name default = (r.lookup name).bind decode? := by
  obtain ⟨a, ha⟩ := hencoded
  obtain ⟨j', hj', hread⟩ := h.exists_lookup hnodup hcontent ha
  simp [Record.withDefault, Record.field?, ha, hj', hread]

end Record.Varies

/-- A record `form a` is read back if the content of each of its fields may stay as it is, and if
`decode?` finds `a` in every variant of its fields. -/
theorem ReadsBack.of_record {α : Type} [JsonForm α] [Varying α]
    {fields : List (String × Variation)} {form : α → Record}
    (hvariation : variation α = .record fields) (hencode : ∀ a : α, encode a = .obj (form a))
    (hform : ∀ a, List.Forall₂ (fun field entry => field.1 = entry.1 ∧
      field.2.Allows entry.2 entry.2) fields (form a))
    (hread : ∀ a r', Record.Varies (fields.map (·.1)) fields (form a) r' →
      decode? (.obj r') = some a) : ReadsBack α where
  allows_encode a := by
    rw [hvariation, hencode]
    exact ⟨_, _, rfl, rfl, .refl (hform a)⟩
  decode?_of_allows {a j} h := by
    rw [hvariation, hencode] at h
    obtain ⟨r, r', hr, rfl, hvaries⟩ := h
    obtain rfl := Json.obj.inj hr
    exact hread a r' hvaries

/-! A record reads its fields by name, and by the lemmas above it may as well read them from the
form itself. -/

instance : ReadsBack Column := by
  refine .of_record rfl (fun _ => rfl) (by simp [allows_encode]) fun _ r' h => ?_
  simp only [decode?, Json.record?]
  simp [h.required_eq, h.optional_eq, List.lookup_cons]

instance : ReadsBack Table := by
  refine .of_record rfl (fun _ => rfl) (by simp [allows_encode]) fun _ r' h => ?_
  simp only [decode?, Json.record?]
  simp [h.required_eq, List.lookup_cons]

instance : ReadsBack View := by
  refine .of_record rfl (fun _ => rfl) (by simp [allows_encode]) fun _ r' h => ?_
  simp only [decode?, Json.record?]
  simp [h.required_eq, h.optional_eq, List.lookup_cons]

instance : ReadsBack PrimaryKey := by
  refine .of_record rfl (fun _ => rfl) (by simp [allows_encode]) fun _ r' h => ?_
  simp only [decode?, Json.record?]
  simp [h.required_eq, h.optional_eq, List.lookup_cons]

instance : ReadsBack ForeignKey := by
  refine .of_record rfl (fun _ => rfl) (by simp [allows_encode]) fun _ r' h => ?_
  simp only [decode?, Json.record?]
  simp [h.required_eq, h.optional_eq, List.lookup_cons]

instance : ReadsBack Index := by
  refine .of_record rfl (fun _ => rfl) (by simp [allows_encode]) fun _ r' h => ?_
  simp only [decode?, Json.record?]
  simp [h.required_eq, List.lookup_cons]

instance : ReadsBack Sequence := by
  refine .of_record rfl (fun _ => rfl) (by simp [allows_encode]) fun _ r' h => ?_
  simp only [decode?, Json.record?]
  simp [h.required_eq]

instance : ReadsBack ObjectRow := by
  refine .of_record rfl (fun _ => rfl) (by simp [allows_encode]) fun _ r' h => ?_
  simp only [decode?, Json.record?]
  simp [h.required_eq, h.optional_eq, List.lookup_cons]

instance : ReadsBack ColumnRow := by
  refine .of_record rfl (fun _ => rfl) (by simp [allows_encode]) fun _ r' h => ?_
  simp only [decode?, Json.record?]
  simp [h.required_eq, h.optional_eq, List.lookup_cons]

instance : ReadsBack ForeignKeyRow := by
  refine .of_record rfl (fun _ => rfl) (by simp [allows_encode]) fun _ r' h => ?_
  simp only [decode?, Json.record?]
  simp [h.required_eq, h.optional_eq, List.lookup_cons]

instance : ReadsBack IndexRow := by
  refine .of_record rfl (fun _ => rfl) (by simp [allows_encode]) fun _ r' h => ?_
  simp only [decode?, Json.record?]
  simp [h.required_eq, h.optional_eq, List.lookup_cons]

instance : ReadsBack PrimaryKeyRow := by
  refine .of_record rfl (fun _ => rfl) (by simp [allows_encode]) fun _ r' h => ?_
  simp only [decode?, Json.record?]
  simp [h.required_eq, h.optional_eq, List.lookup_cons]

instance : ReadsBack Config := by
  refine .of_record rfl (fun _ => rfl) (by simp [allows_encode]) fun _ r' h => ?_
  simp only [decode?, Json.partialRecord?]
  simp [h.optional_eq, List.lookup_cons]

instance : ReadsBack Sqlite.Options := by
  refine .of_record rfl (fun _ => rfl) (by simp [allows_encode]) fun _ r' h => ?_
  simp only [decode?, Json.partialRecord?]
  simp [h.withDefault_eq, List.lookup_cons]

/-! ### Every value is found again -/

/-- `a` is found again in its form, and in whatever its form may turn into. -/
structure FoundAgain {α : Type} [JsonForm α] [Varying α] (a : α) : Prop where
  of_encode : decode? (encode a) = some a
  of_allows : ∀ j, (variation α).Allows (encode a) j → decode? j = some a

theorem ReadsBack.foundAgain {α : Type} [JsonForm α] [Varying α] [ReadsBack α] (a : α) :
    FoundAgain a :=
  ⟨decode?_encode a, fun _ => decode?_of_allows⟩

/-- **Reading undoes writing** for the entities, the rows of a source, the configuration and the
options: every value is found again in its form, also once fields that are `null` are left out of
the records in it and fields with names that are not known are put in. -/
theorem foundAgain_in_form :
    (∀ a : Column, FoundAgain a) ∧ (∀ a : ColumnOwner, FoundAgain a) ∧
    (∀ a : Nullability, FoundAgain a) ∧ (∀ a : Table, FoundAgain a) ∧
    (∀ a : View, FoundAgain a) ∧ (∀ a : PrimaryKey, FoundAgain a) ∧
    (∀ a : ForeignKey, FoundAgain a) ∧ (∀ a : Deferrability, FoundAgain a) ∧
    (∀ a : Index, FoundAgain a) ∧ (∀ a : Sequence, FoundAgain a) ∧
    (∀ a : ObjectRow, FoundAgain a) ∧ (∀ a : ObjectKind, FoundAgain a) ∧
    (∀ a : ColumnRow, FoundAgain a) ∧ (∀ a : ForeignKeyRow, FoundAgain a) ∧
    (∀ a : IndexRow, FoundAgain a) ∧ (∀ a : PrimaryKeyRow, FoundAgain a) ∧
    (∀ a : Config, FoundAgain a) ∧ (∀ a : Sqlite.Options, FoundAgain a) := by
  and_intros
  all_goals exact ReadsBack.foundAgain

/-- A kind with the name of another kind is none the less what it is. -/
example : decode? (.obj [("comment", .null), ("kind", encode (ObjectKind.other "Table")),
    ("name", .str "trees")]) = some (⟨.other "Table", "trees", none, none⟩ : ObjectRow) := by
  decide

end SchemaSnapshot

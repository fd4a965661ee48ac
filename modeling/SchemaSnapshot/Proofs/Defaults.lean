import SchemaSnapshot.Proofs.Contents
import SchemaSnapshot.Proofs.Lookup

/-!
# Defaults in the shared form

Three ways of reading a default are known, and each says two things about it: whether the product
numbers the rows, and what the default is in the form that all products share. What the two have to
do with each other is the same for all of them (`Dialect.Coherent`), and shows in the columns of a
snapshot (`Dialect.defaults_coherent`). Caché rewrites most of what it reports. Nothing is lost on
the way (`Dialect.cache_portable`): strings and expressions come out as literals, and a literal can
be read back (`Text.isLiteral_iff_unquote?`).
-/

namespace SchemaSnapshot

/-! ### Literals -/

namespace Text

/-- `inside` is the inside of a literal for `body`: quotes come in pairs, each pair for one quote,
and every other character stands for itself. -/
inductive Paired : List Char → List Char → Prop
  | nil : Paired [] []
  | pair {inside body : List Char} (h : Paired inside body) :
    Paired ('\'' :: '\'' :: inside) ('\'' :: body)
  | other {c : Char} {inside body : List Char} (hc : c ≠ '\'') (h : Paired inside body) :
    Paired (c :: inside) (c :: body)

/-- `literal` stands for `body`. It begins with a quote and ends with one, and in between are no
quotes but pairs of them. -/
def IsLiteral (literal body : List Char) : Prop :=
  ∃ inside, literal = '\'' :: (inside ++ ['\'']) ∧ Paired inside body

theorem paired_doubleQuotes (body : List Char) : Paired (doubleQuotes body) body := by
  induction body with
  | nil => exact .nil
  | cons c rest ih =>
    by_cases h : c = '\''
    · subst h
      simpa [doubleQuotes] using ih.pair
    · simpa [doubleQuotes, h] using ih.other h

theorem Paired.eq_doubleQuotes {inside body : List Char} (h : Paired inside body) :
    inside = doubleQuotes body := by
  induction h with
  | nil => rfl
  | pair _ ih => simp [doubleQuotes, ih]
  | other hc _ ih => simp [doubleQuotes, hc, ih]

theorem isLiteral_iff {literal body : List Char} :
    IsLiteral literal body ↔ literal = quote body := by
  constructor
  · rintro ⟨inside, rfl, hpaired⟩
    rw [hpaired.eq_doubleQuotes, quote]
  · rintro rfl
    exact ⟨_, rfl, paired_doubleQuotes body⟩

/-- `IsLiteral literal body ↔ unquote? literal = some body`: reading finds the text that a literal
is for, and refuses all else. -/
theorem isLiteral_iff_unquote? {literal body : List Char} :
    IsLiteral literal body ↔ unquote? literal = some body := by
  rw [isLiteral_iff, unquote?_eq_some_iff]

theorem isLiteral_quote (body : List Char) : IsLiteral (quote body) body :=
  isLiteral_iff.2 rfl

theorem quote_inj {body body' : List Char} (h : quote body = quote body') : body = body' := by
  have hread := unquote?_quote body
  rw [h, unquote?_quote] at hread
  exact (Option.some.inj hread).symm

/-! ### Between double quotes -/

theorem utf8ByteSize_doubleQuoted (body : String) :
    ("\"" ++ body ++ "\"").utf8ByteSize = 1 + body.utf8ByteSize + 1 := by
  rw [String.utf8ByteSize_append, String.utf8ByteSize_append]
  rfl

/-- A text of the form `"\"" ++ body ++ "\""` begins and ends with a double quote, and has two bytes
at least. -/
theorem exists_doubleQuoted_iff {raw : String} :
    (2 ≤ raw.utf8ByteSize ∧ raw.toList.head? = some '"' ∧ raw.toList.getLast? = some '"') ↔
      ∃ body, raw = "\"" ++ body ++ "\"" := by
  constructor
  · rintro ⟨hsize, hfirst, hlast⟩
    obtain ⟨rest, hraw⟩ : ∃ rest, raw.toList = '"' :: rest := List.head?_eq_some_iff.1 hfirst
    rcases List.eq_nil_or_concat' rest with rfl | ⟨body, last, rfl⟩
    · -- One double quote alone would be a single byte.
      obtain rfl : raw = "\"" := String.toList_inj.1 hraw
      exact absurd hsize (by decide)
    · rw [hraw, ← List.cons_append, List.getLast?_concat] at hlast
      obtain rfl := Option.some.inj hlast
      refine ⟨String.ofList body, String.toList_inj.1 ?_⟩
      simp [hraw]
  · rintro ⟨body, rfl⟩
    refine ⟨?_, by simp, ?_⟩
    · rw [utf8ByteSize_doubleQuoted]
      omega
    · rw [String.toList_append]
      exact List.getLast?_concat

/-- The bytes 1 and `raw.utf8ByteSize - 1` of such a text are boundaries of characters, and `body`
is what is between them. -/
theorem bytes_doubleQuoted {raw body : String} (h : raw = "\"" ++ body ++ "\"") :
    String.Pos.Raw.IsValid raw ⟨1⟩ ∧ String.Pos.Raw.IsValid raw ⟨raw.utf8ByteSize - 1⟩ ∧
      raw.toByteArray.extract 1 (raw.utf8ByteSize - 1) = body.toByteArray := by
  subst h
  rw [utf8ByteSize_doubleQuoted, Nat.add_sub_cancel]
  refine ⟨?_, ?_, ?_⟩
  · exact String.Pos.Raw.isValid_iff_exists_append.2
      -- the first byte is followed by the rest of the text
      ⟨"\"", body ++ "\"", by rw [String.append_assoc], rfl⟩
  · refine String.Pos.Raw.isValid_iff_exists_append.2 ⟨"\"" ++ body, "\"", rfl, ?_⟩
    rw [String.Pos.Raw.ext_iff, String.byteIdx_rawEndPos, String.utf8ByteSize_append]
    rfl
  · -- the first byte is dropped, and the last one is not taken
    rw [String.append_assoc, String.toByteArray_append, String.toByteArray_append]
    have hfirst : "\"".toByteArray.size = 1 := rfl
    have hdrop := ByteArray.extract_append_size_add' (a := "\"".toByteArray)
      (b := body.toByteArray ++ "\"".toByteArray) (i := 0) (j := body.utf8ByteSize) (k := 1)
      hfirst.symm
    rw [hdrop]
    exact ByteArray.extract_append_eq_left String.size_toByteArray.symm

end Text

namespace Dialect

/-! ### Defaults of Caché -/

theorem cache_portable_some (raw : String) :
    cache.portable (some raw) = some (portableDefault raw) := rfl

theorem insideDoubleQuotes?_eq_some_iff {text body : List Char} :
    insideDoubleQuotes? text = some body ↔ text = '"' :: (body ++ ['"']) := by
  unfold insideDoubleQuotes?
  split
  · rename_i rest
    rw [List.cons.injEq, and_iff_right rfl]
    constructor
    · intro h
      split at h
      · rename_i hlast
        obtain ⟨front, rfl⟩ := List.getLast?_eq_some_iff.1 hlast
        rw [List.dropLast_concat] at h
        rw [Option.some.inj h]
      · cases h
    · rintro rfl
      simp
  · rename_i hfirst
    constructor
    · intro h
      cases h
    · -- a text of this form would have matched the first pattern
      rintro rfl
      exact absurd rfl (hfirst _)

theorem portableDefault_doubleQuoted (body : String) :
    portableDefault ("\"" ++ body ++ "\"") = String.ofList (Text.quote body.toList) := by
  have hinside : insideDoubleQuotes? ("\"" ++ body ++ "\"").toList = some body.toList :=
    insideDoubleQuotes?_eq_some_iff.2 (by simp)
  rw [portableDefault, hinside]

theorem portableDefault_expression {raw : String} (h : raw.toList.head? = some '$') :
    portableDefault raw = "OBJECTSCRIPT " ++ String.ofList (Text.quote raw.toList) := by
  -- an expression does not begin with a double quote
  have hinside : insideDoubleQuotes? raw.toList = none := by
    rw [Option.eq_none_iff_forall_ne_some]
    intro body hbody
    rw [insideDoubleQuotes?_eq_some_iff.1 hbody] at h
    cases h
  rw [portableDefault, hinside]
  simp [h]

theorem portableDefault_other {raw : String} (hquoted : ∀ body, raw ≠ "\"" ++ body ++ "\"")
    (hexpression : raw.toList.head? ≠ some '$') : portableDefault raw = raw := by
  have hinside : insideDoubleQuotes? raw.toList = none := by
    rw [Option.eq_none_iff_forall_ne_some]
    intro body hbody
    refine hquoted (String.ofList body) (String.toList_inj.1 ?_)
    simp [insideDoubleQuotes?_eq_some_iff.1 hbody]
  rw [portableDefault, hinside]
  simp [hexpression]

/-- `portableDefault raw = raw` if `raw` begins neither with a double quote nor with a dollar
sign. -/
theorem portableDefault_of_head? {raw : String} {c : Char} (hfirst : raw.toList.head? = some c)
    (hquote : c ≠ '"') (hdollar : c ≠ '$') : portableDefault raw = raw := by
  refine portableDefault_other ?_ ?_
  · rintro body rfl
    rw [String.append_assoc, String.toList_append] at hfirst
    exact hquote (Option.some.inj hfirst).symm
  · rw [hfirst]
    exact fun h => hdollar (Option.some.inj h)

/-- `portableDefault (portableDefault raw) = portableDefault raw`, as a literal begins with a single
quote and the mark of an expression with a letter. -/
theorem portableDefault_portableDefault (raw : String) :
    portableDefault (portableDefault raw) = portableDefault raw := by
  by_cases hquoted : ∃ body, raw = "\"" ++ body ++ "\""
  · obtain ⟨body, rfl⟩ := hquoted
    rw [portableDefault_doubleQuoted]
    exact portableDefault_of_head? (c := '\'') (by simp [Text.quote]) (by decide) (by decide)
  · -- not between double quotes, so an expression or left alone
    by_cases hexpression : raw.toList.head? = some '$'
    · rw [portableDefault_expression hexpression]
      exact portableDefault_of_head? (c := 'O') (by simp) (by decide) (by decide)
    · rw [portableDefault_other (not_exists.1 hquoted) hexpression,
        portableDefault_other (not_exists.1 hquoted) hexpression]

/-- **Caché's defaults in the shared form lose nothing.** A text between double quotes becomes a
literal for the text. What begins with a dollar sign becomes a literal for the whole default, marked
with its language. Every other default stays as it is. So neither two texts nor two expressions come
out alike. Whether a default is a text between double quotes can be told from its bytes, and then
its first and its last byte are cut off between characters. -/
theorem cache_portable :
    (∀ body : String, ∃ literal,
      cache.portable (some ("\"" ++ body ++ "\"")) = some (String.ofList literal) ∧
        Text.IsLiteral literal body.toList ∧ Text.unquote? literal = some body.toList) ∧
    (∀ raw : String, raw.toList.head? = some '$' → ∃ literal,
      cache.portable (some raw) = some ("OBJECTSCRIPT " ++ String.ofList literal) ∧
        Text.IsLiteral literal raw.toList ∧ Text.unquote? literal = some raw.toList) ∧
    (∀ raw : String, (∀ body, raw ≠ "\"" ++ body ++ "\"") → raw.toList.head? ≠ some '$' →
      cache.portable (some raw) = some raw) ∧
    (∀ body body' : String, cache.portable (some ("\"" ++ body ++ "\"")) =
      cache.portable (some ("\"" ++ body' ++ "\"")) → body = body') ∧
    (∀ raw raw' : String, raw.toList.head? = some '$' → raw'.toList.head? = some '$' →
      cache.portable (some raw) = cache.portable (some raw') → raw = raw') ∧
    ∀ raw : String,
      ((2 ≤ raw.utf8ByteSize ∧ raw.toList.head? = some '"' ∧ raw.toList.getLast? = some '"') ↔
        ∃ body, raw = "\"" ++ body ++ "\"") ∧
      ∀ body, raw = "\"" ++ body ++ "\"" →
        String.Pos.Raw.IsValid raw ⟨1⟩ ∧ String.Pos.Raw.IsValid raw ⟨raw.utf8ByteSize - 1⟩ ∧
          raw.toByteArray.extract 1 (raw.utf8ByteSize - 1) = body.toByteArray := by
  refine ⟨?_, ?_, ?_, ?_, ?_, ?_⟩
  · intro body
    refine ⟨Text.quote body.toList, ?_, Text.isLiteral_quote _, Text.unquote?_quote _⟩
    rw [cache_portable_some, portableDefault_doubleQuoted]
  · intro raw hraw
    refine ⟨Text.quote raw.toList, ?_, Text.isLiteral_quote _, Text.unquote?_quote _⟩
    rw [cache_portable_some, portableDefault_expression hraw]
  · intro raw hquoted hexpression
    rw [cache_portable_some, portableDefault_other hquoted hexpression]
  · intro body body' hsame
    rw [cache_portable_some, cache_portable_some, portableDefault_doubleQuoted,
      portableDefault_doubleQuoted] at hsame
    exact String.toList_inj.1 (Text.quote_inj (String.ofList_injective (Option.some.inj hsame)))
  · intro raw raw' hraw hraw' hsame
    rw [cache_portable_some, cache_portable_some, portableDefault_expression hraw,
      portableDefault_expression hraw', Option.some.injEq, String.append_right_inj] at hsame
    exact String.toList_inj.1 (Text.quote_inj (String.ofList_injective hsame))
  · exact fun raw => ⟨Text.exists_doubleQuoted_iff, fun body => Text.bytes_doubleQuoted⟩

theorem cache_portable_umlaut :
    (∃ literal, cache.portable (some "\"'ü''\"") = some (String.ofList literal) ∧
      Text.unquote? literal = some "'ü''".toList) ∧
    (∃ literal, cache.portable (some "$h('ü')") =
        some ("OBJECTSCRIPT " ++ String.ofList literal) ∧
      Text.unquote? literal = some "$h('ü')".toList) ∧
    cache.portable (some "\"") = some "\"" ∧ cache.portable (some "\"ü") = some "\"ü" ∧
    cache.portable (some "\"ü\"") ≠ cache.portable (some "\"u\"") ∧
    cache.portable (some "$ü") ≠ cache.portable (some "$u") ∧
    String.Pos.Raw.IsValid "\"ü\"" ⟨3⟩ := by
  obtain ⟨hquoted, hexpression, hother, hapart, hapartMarked, hbytes⟩ := cache_portable
  have hplain (raw : String) (h : ¬(2 ≤ raw.utf8ByteSize ∧ raw.toList.head? = some '"' ∧
      raw.toList.getLast? = some '"')) (body : String) : raw ≠ "\"" ++ body ++ "\"" :=
    fun hraw => h ((hbytes raw).1.2 ⟨body, hraw⟩)
  obtain ⟨literal, hliteral, -, hread⟩ := hquoted "'ü''"
  obtain ⟨literal', hliteral', -, hread'⟩ := hexpression "$h('ü')" (by decide)
  refine ⟨⟨literal, hliteral, hread⟩, ⟨literal', hliteral', hread'⟩, ?_, ?_, ?_, ?_, ?_⟩
  · exact hother "\"" (hplain _ (by decide)) (by decide)
  · exact hother "\"ü" (hplain _ (by decide)) (by decide)
  · exact fun h => absurd (hapart "ü" "u" h) (by decide)
  · exact fun h => absurd (hapartMarked "$ü" "$u" (by decide) (by decide) h) (by decide)
  · exact ((hbytes "\"ü\"").2 "ü" (by decide)).2.1

/-! ### What holds of every way of reading defaults -/

/-- `d` is a dialect whose two ways of reading a default fit together. -/
structure Coherent (d : Dialect) : Prop where
  /-- A default that is in the shared form already stays as it is. -/
  portable_portable : ∀ raw, d.portable (d.portable raw) = d.portable raw
  /-- There is no default exactly if none is reported or the product numbers the rows. -/
  portable_eq_none_iff : ∀ raw, d.portable raw = none ↔ raw = none ∨ d.numbersRows raw = true
  /-- White space around a default does not matter for whether the product numbers the rows. -/
  numbersRows_padded : ∀ (before after : String) (raw : Option String),
    (∀ c ∈ before.toList, Text.isBlank c = true) → (∀ c ∈ after.toList, Text.isBlank c = true) →
      d.numbersRows (raw.map fun text => before ++ text ++ after) = d.numbersRows raw
  /-- No default in the shared form says that the product numbers the rows. -/
  numbersRows_portable : ∀ raw, d.numbersRows (d.portable raw) = false

theorem coherent_generic : generic.Coherent where
  portable_portable _ := rfl
  portable_eq_none_iff _ := by simp [generic]
  numbersRows_padded _ _ _ _ _ := rfl
  numbersRows_portable _ := rfl

theorem coherent_cache : cache.Coherent where
  portable_portable raw := by
    cases raw with
    | none => rfl
    | some text => exact congrArg some (portableDefault_portableDefault text)
  portable_eq_none_iff raw := by simp [cache]
  numbersRows_padded _ _ _ _ _ := rfl
  numbersRows_portable _ := rfl

/-- `drawsOnSystemSequence (before ++ text ++ after) = drawsOnSystemSequence text` for white space
`before` and `after`, which is trimmed first. -/
theorem drawsOnSystemSequence_padded {before after : String}
    (hbefore : ∀ c ∈ before.toList, Text.isBlank c = true)
    (hafter : ∀ c ∈ after.toList, Text.isBlank c = true) (text : String) :
    drawsOnSystemSequence (before ++ text ++ after) = drawsOnSystemSequence text := by
  unfold drawsOnSystemSequence
  rw [String.toList_append, String.toList_append, Text.trim_append_blank hafter,
    Text.trim_blank_append hbefore]

theorem coherent_h2 : h2.Coherent where
  portable_portable raw := by
    cases raw with
    | none => rfl
    | some text => cases h : drawsOnSystemSequence text <;> simp [h2, Option.filter, h]
  portable_eq_none_iff raw := by
    cases raw with
    | none => simp [h2]
    | some text => cases h : drawsOnSystemSequence text <;> simp [h2, h]
  numbersRows_padded before after raw hbefore hafter := by
    cases raw with
    | none => rfl
    | some text => exact drawsOnSystemSequence_padded hbefore hafter text
  numbersRows_portable raw := by
    cases raw with
    | none => rfl
    | some text => cases h : drawsOnSystemSequence text <;> simp [h2, Option.filter, h]

theorem coherent_ofProduct (product : String) : (ofProduct product).Coherent := by
  unfold ofProduct
  dsimp only
  split
  · exact coherent_h2
  · split
    · exact coherent_cache
    · exact coherent_generic

end Dialect

/-! ### The columns of a snapshot -/

theorem mem_columnsOfRows {dialect : Dialect} {owner : ColumnOwner} {rows : List ColumnRow}
    {column : Column} (h : column ∈ dialect.columnsOfRows owner rows) :
    ∃ row, lastRow? rows column.name = some row ∧ column = dialect.columnOfRow owner row := by
  obtain ⟨name, -, hcolumn⟩ := List.mem_filterMap.1 h
  obtain ⟨row, hrow, rfl⟩ := Option.map_eq_some_iff.1 hcolumn
  refine ⟨row, ?_, rfl⟩
  rwa [ColumnRow.name_described, column_of_lastRow? hrow]

namespace Reader

variable {r : Reader} {s : Snapshot}

/-- `c.columnsOf owner` are the columns that the rows in `r.rowsAbout rows owner.name` describe. -/
theorem Contents.columnsOf_eq {objects : List ObjectRow} {rows : List ColumnRow} {c : Containers}
    (h : r.Contents objects rows c) {owner : ColumnOwner} (howner : c.holds owner = true) :
    c.columnsOf owner = r.dialect.columnsOfRows owner (r.rowsAbout rows owner.name) := by
  cases owner with
  | table name =>
    obtain ⟨table, htable⟩ := OrderedMap.contains_iff.1 howner
    have hget := h.table name
    rw [htable] at hget
    split at hget
    · obtain rfl := Option.some.inj hget
      rw [Containers.columnsOf, htable]
      rfl
    · cases hget
  | view name =>
    obtain ⟨view, hview⟩ := OrderedMap.contains_iff.1 howner
    have hget := h.view name
    rw [hview] at hget
    split at hget
    · obtain ⟨definition, -, hdefinition⟩ := Option.map_eq_some_iff.1 hget.symm
      rw [Containers.columnsOf, hview, ← hdefinition]
      rfl
    · cases hget

/-- Every column of a snapshot is `columnOfRow` of the last live row about it, `lastRow?`. -/
theorem exists_row_of_mem_columns (hs : r.read.outcome = .ok s) {rows : List ColumnRow}
    (hrows : r.source.answer (.columns r.scope) = .ok rows) {column : Column}
    (h : column ∈ s.columns) :
    ∃ row, lastRow? (r.rowsAbout rows column.owner.name) column.name = some row ∧
      column = r.dialect.columnOfRow column.owner row := by
  obtain ⟨_, _, hlisted, -, -⟩ := reachesForeignKeys_of_read hs
  obtain ⟨objects, hobjects, -⟩ := readContainers_eq_ok_iff.1 hlisted
  obtain ⟨howner, hcolumn⟩ := (wellFormed_of_read hs).mem_columns_iff.1 h
  rw [(contents_of_read hobjects hrows hs).columnsOf_eq howner] at hcolumn
  exact mem_columnsOfRows hcolumn

end Reader

namespace Dialect

/-- If `d` is coherent, a column either is numbered by the product and has no default, or has a
default exactly if one was reported. -/
theorem Coherent.columnOfRow {d : Dialect} (h : d.Coherent) (owner : ColumnOwner)
    (row : ColumnRow) :
    (d.columnOfRow owner row).autoIncrement = true ∧
        (d.columnOfRow owner row).defaultValue = none ∨
      (d.columnOfRow owner row).autoIncrement = false ∧
        ((d.columnOfRow owner row).defaultValue.isSome = true ↔ row.rawDefault.isSome = true) := by
  show d.numbersRows row.rawDefault = true ∧ d.portable row.rawDefault = none ∨
    d.numbersRows row.rawDefault = false ∧
      ((d.portable row.rawDefault).isSome = true ↔ row.rawDefault.isSome = true)
  have hnone := h.portable_eq_none_iff row.rawDefault
  cases hnumbers : d.numbersRows row.rawDefault with
  | true => exact .inl ⟨rfl, hnone.2 (.inr hnumbers)⟩
  | false =>
    -- the product does not number the rows, so no default is taken away
    right
    simp only [hnumbers, Bool.false_eq_true, or_false] at hnone
    rw [Option.isSome_iff_ne_none, Option.isSome_iff_ne_none, ne_eq, hnone]
    exact ⟨rfl, Iff.rfl⟩

/-- **The defaults of every product are read coherently.** For whichever product a dialect is: a
default in the shared form stays as it is, and there is none exactly if none was reported or the
product numbers the rows; white space around what is reported does not change whether it numbers
them, and no default in the shared form says that it does. So in a snapshot that is taken with this
dialect, every column is described by the last live row about it, and either is numbered and has no
default, or has a default exactly if the row has one. -/
theorem defaults_coherent (product : String) :
    (ofProduct product).Coherent ∧
    ∀ (r : Reader) (s : Snapshot), r.dialect = ofProduct product → r.read.outcome = .ok s →
      ∃ rows, r.source.answer (.columns r.scope) = .ok rows ∧
        ∀ column ∈ s.columns, ∃ row,
          lastRow? (r.rowsAbout rows column.owner.name) column.name = some row ∧
          column = (ofProduct product).columnOfRow column.owner row ∧
          (column.autoIncrement = true ∧ column.defaultValue = none ∨
            column.autoIncrement = false ∧
              (column.defaultValue.isSome = true ↔ row.rawDefault.isSome = true)) := by
  refine ⟨coherent_ofProduct product, ?_⟩
  intro r s hdialect hs
  obtain ⟨_, _, -, hfound, -⟩ := Reader.reachesForeignKeys_of_read hs
  obtain ⟨rows, hrows, -⟩ := Reader.readColumns_eq_ok_iff.1 hfound
  refine ⟨rows, hrows, ?_⟩
  intro column hcolumn
  obtain ⟨row, hrow, heq⟩ := Reader.exists_row_of_mem_columns hs hrows hcolumn
  rw [hdialect] at heq
  have hdefault := (coherent_ofProduct product).columnOfRow column.owner row
  rw [← heq] at hdefault
  exact ⟨row, hrow, heq, hdefault⟩

/-- A ferry that an H2 database keeps the trips of. The trips are numbered by the database, cost
nothing unless a fare is given, and have no default for the cars. -/
def ferry : Reader where
  source := Listing.source
    { objects := [⟨.table, "trips", none, none⟩]
      columns := [
        { ColumnRow.ofNumber "trips" "number" 10 with
          rawDefault := some " (NEXT VALUE FOR PUBLIC.SYSTEM_SEQUENCE_7)" },
        { ColumnRow.ofNumber "trips" "fare" 10 with rawDefault := some "0" },
        .ofNumber "trips" "cars" 10] }
  dialect := ofProduct " H2 "

theorem defaults_coherent_ferry :
    (ofProduct " H2 ").numbersRows (some "\t(NEXT VALUE FOR PUBLIC.SYSTEM_SEQUENCE_7)\n") =
      (ofProduct " H2 ").numbersRows (some "(NEXT VALUE FOR PUBLIC.SYSTEM_SEQUENCE_7)") ∧
    ∃ s, ferry.read.outcome = .ok s ∧
      s.columns.map (fun column => (column.name, column.autoIncrement, column.defaultValue)) =
        [("number", true, none), ("fare", false, some "0"), ("cars", false, none)] ∧
      ∀ column ∈ s.columns, column.autoIncrement = true ∧ column.defaultValue = none ∨
        column.autoIncrement = false := by
  obtain ⟨hcoherent, hcolumns⟩ := defaults_coherent " H2 "
  obtain ⟨s, hs, hfound⟩ : ∃ s, ferry.read.outcome = .ok s ∧
      s.columns.map (fun column => (column.name, column.autoIncrement, column.defaultValue)) =
        [("number", true, none), ("fare", false, some "0"), ("cars", false, none)] :=
    ⟨_, rfl, by decide⟩
  obtain ⟨rows, -, hdescribed⟩ := hcolumns ferry s rfl hs
  refine ⟨?_, s, hs, hfound, ?_⟩
  · exact hcoherent.numbersRows_padded "\t" "\n" (some "(NEXT VALUE FOR PUBLIC.SYSTEM_SEQUENCE_7)")
      (List.forall_mem_singleton.2 (by decide)) (List.forall_mem_singleton.2 (by decide))
  · intro column hcolumn
    obtain ⟨row, -, -, hdefault⟩ := hdescribed column hcolumn
    exact hdefault.imp_right And.left

end Dialect

end SchemaSnapshot

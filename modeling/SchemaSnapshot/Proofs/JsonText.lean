import SchemaSnapshot.Json
import Mathlib.Data.List.Basic

/-!
# The text of a JSON value tells the value

No two values have the same compact text. A text does not have to be read to the end for this: each
piece of it shows by itself where it ends (`ShowsEnd`), given how the text can go on after it. A
string ends at the first quote that is not escaped, a number at the first character that is no part
of a numeral, and a list or an object at its closing bracket, as no item begins with one. Which
clause of the grammar a piece belongs to is told by its first character (`Json.Kind.ofFirst?`).
`Json.showsEnd_write` puts these together by induction along the tree, and `Json.render_inj` is the
conclusion for whole texts.
-/

namespace SchemaSnapshot

/-! ### Pieces that show where they end -/

/-- `write a` shows where it ends, if nothing but what `follows` allows comes after it: where a text
begins with it, and equally with the text of some `b`, then `b` is `a` and the two texts go on
alike. -/
def ShowsEnd {α : Type} (follows : List Char → Prop) (write : α → List Char) (a : α) : Prop :=
  ∀ b rest rest', follows rest → follows rest' → write a ++ rest = write b ++ rest' →
    a = b ∧ rest = rest'

section ShowsEnd

variable {α β : Type} {follows : List Char → Prop} {write : α → List Char}

/-- If `read` reads `a` off the front of every text that begins with `write a`, then `write a` shows
where it ends. -/
theorem showsEnd_of_read (read : List Char → Option (α × List Char))
    (h : ∀ a rest, follows rest → read (write a ++ rest) = some (a, rest)) (a : α) :
    ShowsEnd follows write a := by
  intro b rest rest' hrest hrest' heq
  have hread := h a rest hrest
  rw [heq, h b rest' hrest'] at hread
  simpa [eq_comm] using hread

theorem ShowsEnd.cons {a : α} (h : ShowsEnd follows write a) (c : Char) :
    ShowsEnd follows (fun a => c :: write a) a := by
  intro b rest rest' hrest hrest' heq
  exact h b rest rest' hrest hrest' (List.cons.inj heq).2

/-- Pieces `write a` in a row, followed by `close`, show their end if no piece begins with
`close`. -/
theorem showsEnd_flatMap (close : Char) {l : List α}
    (hfollows : ∀ (l : List α) rest, follows (l.flatMap write ++ close :: rest))
    (hopens : ∀ a rest rest', write a ++ rest ≠ close :: rest')
    (h : ∀ a ∈ l, ShowsEnd follows write a) :
    ShowsEnd (fun _ => True) (fun l => l.flatMap write ++ [close]) l := by
  intro l' rest rest' _ _ heq
  simp only [List.append_assoc, List.singleton_append] at heq
  induction l generalizing l' with
  | nil =>
    cases l' with
    | nil => simpa using heq
    | cons b tail =>
      rw [List.flatMap_cons, List.append_assoc] at heq
      exact absurd heq.symm (hopens b _ _)
  | cons a l ih =>
    cases l' with
    | nil =>
      rw [List.flatMap_cons, List.append_assoc] at heq
      exact absurd heq (hopens a _ _)
    | cons b tail =>
      simp only [List.flatMap_cons, List.append_assoc] at heq
      obtain ⟨rfl, htail⟩ :=
        h a List.mem_cons_self b _ _ (hfollows l rest) (hfollows tail rest') heq
      obtain ⟨rfl, hrest⟩ := ih (fun x hx => h x (List.mem_cons_of_mem _ hx)) tail htail
      exact ⟨rfl, hrest⟩

end ShowsEnd

namespace Json

/-! ### Strings -/

/-- The number that the hexadecimal digit `c` stands for. -/
def hexValue (c : Char) : Nat :=
  if c.isDigit then c.toNat - 48 else c.toNat - 87

/-- The character that `letter` stands for behind a backslash. -/
def letterMeaning (letter : Char) : Char :=
  if letter = 'b' then Char.ofNat 0x08
  else if letter = 't' then Char.ofNat 0x09
  else if letter = 'n' then Char.ofNat 0x0A
  else if letter = 'f' then Char.ofNat 0x0C
  else if letter = 'r' then Char.ofNat 0x0D
  else letter

/-- Reads one character of a string off the front of a text, `none` if nothing is left. -/
def unescape? : List Char → Option (Char × List Char)
  | [] => none
  | '\\' :: 'u' :: '0' :: '0' :: high :: low :: rest =>
    some (Char.ofNat (16 * hexValue high + hexValue low), rest)
  | '\\' :: letter :: rest => some (letterMeaning letter, rest)
  | c :: rest => some (c, rest)

theorem unescape?_escape (c : Char) (rest : List Char) :
    unescape? (escape c ++ rest) = some (c, rest) := by
  have hletter {letter : Char} {n : Nat}
      (hread : unescape? ('\\' :: letter :: rest) = some (Char.ofNat n, rest))
      (hc : c.toNat = n) : unescape? (['\\', letter] ++ rest) = some (c, rest) := by
    rw [← hc, Char.ofNat_toNat] at hread
    exact hread
  have hnumber :
      ∀ n < 0x20, 16 * hexValue (hexDigit (n / 16)) + hexValue (hexDigit (n % 16)) = n := by
    decide
  -- one case for each way of writing a character
  unfold escape
  split
  · subst_vars
    rfl
  split
  · subst_vars
    rfl
  split
  · exact hletter rfl ‹_›
  split
  · exact hletter rfl ‹_›
  split
  · exact hletter rfl ‹_›
  split
  · exact hletter rfl ‹_›
  split
  · exact hletter rfl ‹_›
  split
  · rename_i hlt
    show some (Char.ofNat (16 * hexValue (hexDigit (c.toNat / 16)) +
      hexValue (hexDigit (c.toNat % 16))), rest) = _
    rw [hnumber _ hlt, Char.ofNat_toNat]
  · -- no escape, so the first character is neither `"` nor `\`
    rename_i hquote hbackslash _ _ _ _ _ _
    rw [List.singleton_append, unescape?.eq_def]
    split <;> simp_all

theorem escape_append_ne (c : Char) (rest rest' : List Char) : escape c ++ rest ≠ '"' :: rest' := by
  unfold escape
  split_ifs <;> simp [*]

/-- `writeString text` shows its end, whatever comes after it. -/
theorem showsEnd_writeString (text : String) : ShowsEnd (fun _ => True) writeString text := by
  intro text' rest rest' _ _ heq
  have hescape (c : Char) : ShowsEnd (fun _ => True) escape c :=
    showsEnd_of_read unescape? (fun c rest _ => unescape?_escape c rest) c
  have hends := showsEnd_flatMap '"' (fun _ _ => trivial) escape_append_ne
    fun c (_ : c ∈ text.toList) => hescape c
  obtain ⟨htext, hrest⟩ := hends text'.toList rest rest' trivial trivial (List.cons.inj heq).2
  exact ⟨String.toList_inj.1 htext, hrest⟩

/-! ### Numbers -/

/-- Whether `c` is one of the characters of whole numbers. -/
def isNumeral (c : Char) : Bool :=
  c.isDigit || c == '-'

/-- `rest` does not carry a numeral on. -/
def EndsNumeral (rest : List Char) : Prop :=
  ∀ c tail, rest = c :: tail → isNumeral c = false

/-- `rest` does not carry a value on: it neither adds digits to a number nor turns a whole number
into a fraction. -/
def EndsValue (rest : List Char) : Prop :=
  EndsNumeral rest ∧ ∀ tail, rest ≠ 'e' :: tail

theorem endsNumeral_cons {c : Char} (hc : isNumeral c = false) (rest : List Char) :
    EndsNumeral (c :: rest) := by
  rintro _ _ ⟨⟩
  exact hc

theorem endsValue_nil : EndsValue [] :=
  ⟨by rintro _ _ ⟨⟩, by rintro _ ⟨⟩⟩

theorem endsValue_cons {c : Char} (hc : isNumeral c = false) (he : c ≠ 'e') (rest : List Char) :
    EndsValue (c :: rest) := by
  refine ⟨endsNumeral_cons hc rest, ?_⟩
  · rintro _ ⟨⟩
    exact he rfl

theorem endsValue_comma (rest : List Char) : EndsValue (',' :: rest) :=
  endsValue_cons (by decide) (by decide) rest

theorem isNumeral_of_mem_writeInt {n : Int} {c : Char} (h : c ∈ Text.writeInt n) :
    isNumeral c = true := by
  cases n with
  | ofNat n => simp [isNumeral, Text.isDigit_of_mem_writeNat h]
  | negSucc n =>
    rcases List.mem_cons.1 h with rfl | h
    · rfl
    · simp [isNumeral, Text.isDigit_of_mem_writeNat h]

theorem takeWhile_isNumeral {l rest : List Char} (h : ∀ c ∈ l, isNumeral c = true)
    (hrest : EndsNumeral rest) :
    (l ++ rest).takeWhile isNumeral = l ∧ (l ++ rest).dropWhile isNumeral = rest := by
  rw [List.takeWhile_append_of_pos h, List.dropWhile_append_of_pos h]
  cases rest with
  | nil => simp
  | cons c tail => simp [hrest c tail rfl]

theorem showsEnd_writeInt (n : Int) : ShowsEnd EndsNumeral Text.writeInt n := by
  refine showsEnd_of_read (fun text =>
    (Text.readInt? (text.takeWhile isNumeral)).map (·, text.dropWhile isNumeral)) ?_ n
  intro n rest hrest
  obtain ⟨htake, hdrop⟩ := takeWhile_isNumeral (fun c => isNumeral_of_mem_writeInt) hrest
  rw [htake, hdrop, Text.readInt?_writeInt]
  rfl

theorem showsEnd_writeNat (n : Nat) : ShowsEnd EndsNumeral Text.writeNat n := by
  -- `n` is read as the integer that it is
  intro m rest rest' hrest hrest' heq
  obtain ⟨hsame, hrest⟩ := showsEnd_writeInt (n : Int) m rest rest' hrest hrest' heq
  exact ⟨Int.ofNat.inj hsame, hrest⟩

/-! ### Lists -/

/-- `',' :: commaSeparated parts = parts.flatMap (',' :: ·)` if there is a part. -/
theorem cons_commaSeparated (part : List Char) (parts : List (List Char)) :
    ',' :: commaSeparated (part :: parts) = (part :: parts).flatMap (',' :: ·) := by
  induction parts generalizing part with
  | nil => simp [commaSeparated]
  | cons next parts ih =>
    have hrest : commaSeparated (part :: next :: parts) =
        part ++ ',' :: commaSeparated (next :: parts) := by
      simp [commaSeparated, List.intercalate_cons_cons]
    rw [hrest, ih]
    rfl

theorem cons_commaSeparated_map {α : Type} (write : α → List Char) (a : α) (l : List α) :
    ',' :: commaSeparated ((a :: l).map write) = (a :: l).flatMap fun a => ',' :: write a := by
  rw [List.map_cons, cons_commaSeparated, ← List.map_cons, List.flatMap_map]

theorem commaSeparated_cons_append {α : Type} (write : α → List Char) (a : α) (l : List α)
    (rest : List Char) :
    commaSeparated ((a :: l).map write) ++ rest =
      write a ++ ((l.flatMap fun a => ',' :: write a) ++ rest) := by
  have hcons := cons_commaSeparated_map write a l
  rw [List.flatMap_cons, List.cons_append, List.cons.injEq] at hcons
  rw [hcons.2, List.append_assoc]

/-- A list in front of `close` shows its end if every item does and no item begins with `close`. -/
theorem showsEnd_commaSeparated {α : Type} {write : α → List Char} (close : Char) {l : List α}
    (hcomma : ',' ≠ close) (hclose : ∀ rest, EndsValue (close :: rest))
    (hopens : ∀ a rest rest', write a ++ rest ≠ close :: rest')
    (h : ∀ a ∈ l, ShowsEnd EndsValue write a) :
    ShowsEnd (fun _ => True) (fun l => commaSeparated (l.map write) ++ [close]) l := by
  intro l' rest rest' _ _ heq
  simp only [List.append_assoc, List.singleton_append] at heq
  -- an empty list is closed at once, where the other one would begin with an item
  cases l with
  | nil =>
    cases l' with
    | nil => exact ⟨rfl, (List.cons.inj heq).2⟩
    | cons b tail =>
      rw [commaSeparated_cons_append] at heq
      exact absurd heq.symm (hopens b _ _)
  | cons a l =>
    cases l' with
    | nil =>
      rw [commaSeparated_cons_append] at heq
      exact absurd heq (hopens a _ _)
    | cons b tail =>
      -- With a comma in front of each, the elements follow one another without exception.
      have hfollows (l : List α) (rest : List Char) :
          EndsValue ((l.flatMap fun a => ',' :: write a) ++ close :: rest) := by
        cases l with
        | nil => exact hclose rest
        | cons a l => exact endsValue_comma _
      have hends := showsEnd_flatMap close hfollows (fun _ _ _ heq => hcomma (List.cons.inj heq).1)
        (fun a ha => (h a ha).cons ',')
      apply hends (b :: tail) rest rest' trivial trivial
      simp only [List.append_assoc, List.singleton_append, ← cons_commaSeparated_map]
      exact congrArg (',' :: ·) heq

/-! ### Values -/

theorem writeItems_eq_map (items : List Json) : writeItems items = items.map write := by
  induction items with
  | nil => rfl
  | cons item rest ih => rw [writeItems, ih, List.map_cons]

/-- The characters of a field: its name, `:` and its value. -/
def writeField (field : String × Json) : List Char :=
  writeString field.1 ++ ':' :: write field.2

theorem writeFields_eq_map (fields : List (String × Json)) :
    writeFields fields = fields.map writeField := by
  induction fields with
  | nil => rfl
  | cons field rest ih =>
    rw [writeFields, ih, List.map_cons]
    rfl

/-- The clauses of the grammar that a value can be written by. -/
inductive Kind where
  | null
  | bool (value : Bool)
  | number
  | str
  | arr
  | obj

/-- The clause of the grammar that a value is written by. -/
def kind : Json → Kind
  | .null => .null
  | .bool value => .bool value
  | .int _ => .number
  | .fraction _ _ => .number
  | .str _ => .str
  | .arr _ => .arr
  | .obj _ => .obj

/-- The clause of the values whose text begins with `c`. -/
def Kind.ofFirst? (c : Char) : Option Kind :=
  if isNumeral c then some .number
  else if c = 'n' then some .null
  else if c = 't' then some (.bool true)
  else if c = 'f' then some (.bool false)
  else if c = '"' then some .str
  else if c = '[' then some .arr
  else if c = Char.ofNat 0x7B then some .obj
  else none

theorem writeInt_eq_cons (n : Int) :
    ∃ c rest, Text.writeInt n = c :: rest ∧ isNumeral c = true := by
  obtain ⟨c, rest, hcons⟩ : ∃ c rest, Text.writeInt n = c :: rest := by
    cases n with
    | ofNat n => exact List.exists_cons_of_ne_nil (Text.writeNat_ne_nil n)
    | negSucc n => exact ⟨_, _, rfl⟩
  refine ⟨c, rest, hcons, isNumeral_of_mem_writeInt (n := n) ?_⟩
  rw [hcons]
  exact List.mem_cons_self

theorem write_eq_cons (j : Json) :
    ∃ c rest, write j = c :: rest ∧ Kind.ofFirst? c = some j.kind := by
  have hnumber {c : Char} (hc : isNumeral c = true) : Kind.ofFirst? c = some .number := if_pos hc
  cases j with
  | int n =>
    obtain ⟨c, rest, hcons, hc⟩ := writeInt_eq_cons n
    exact ⟨c, rest, hcons, hnumber hc⟩
  | fraction mantissa places =>
    obtain ⟨c, rest, hcons, hc⟩ := writeInt_eq_cons mantissa
    refine ⟨c, rest ++ 'e' :: '-' :: Text.writeNat places, ?_, hnumber hc⟩
    rw [write, hcons]
    rfl
  | bool value => cases value <;> exact ⟨_, _, rfl, rfl⟩
  | _ => exact ⟨_, _, rfl, rfl⟩

theorem kind_eq_of_append {j j' : Json} {rest rest' : List Char}
    (h : write j ++ rest = write j' ++ rest') : j.kind = j'.kind := by
  obtain ⟨c, more, hj, hc⟩ := write_eq_cons j
  obtain ⟨c', more', hj', hc'⟩ := write_eq_cons j'
  rw [hj, hj', List.cons_append, List.cons_append, List.cons.injEq] at h
  rw [h.1, hc'] at hc
  exact (Option.some.inj hc).symm

theorem write_append_ne {c : Char} (hc : Kind.ofFirst? c = none) (j : Json)
    (rest rest' : List Char) : write j ++ rest ≠ c :: rest' := by
  obtain ⟨first, more, hj, hfirst⟩ := write_eq_cons j
  rw [hj]
  rintro ⟨⟩
  rw [hc] at hfirst
  cases hfirst

theorem writeField_append_ne {c : Char} (hc : '"' ≠ c) (field : String × Json)
    (rest rest' : List Char) : writeField field ++ rest ≠ c :: rest' :=
  fun heq => hc (List.cons.inj heq).1

theorem showsEnd_writeField {field : String × Json} (h : ShowsEnd EndsValue write field.2) :
    ShowsEnd EndsValue writeField field := by
  intro field' rest rest' hrest hrest' heq
  simp only [writeField, List.append_assoc, List.cons_append] at heq
  obtain ⟨hname, hcontent⟩ := showsEnd_writeString field.1 field'.1 _ _ trivial trivial heq
  obtain ⟨hcontent, hrest⟩ := h field'.2 rest rest' hrest hrest' (List.cons.inj hcontent).2
  exact ⟨Prod.ext hname hcontent, hrest⟩

/-- `write (.int n) ++ rest ≠ write (.fraction mantissa places) ++ rest'`: after a mantissa there is
an `e`, and after a whole number there is none. -/
theorem write_int_append_ne {rest : List Char} (hrest : EndsValue rest) (n mantissa : Int)
    (places : Nat) (rest' : List Char) :
    write (.int n) ++ rest ≠ write (.fraction mantissa places) ++ rest' := by
  intro heq
  rw [write, write, List.append_assoc] at heq
  obtain ⟨-, htail⟩ := showsEnd_writeInt n mantissa rest _ hrest.1
    (endsNumeral_cons (by decide) _) heq
  exact hrest.2 _ htail

theorem write_fraction_inj {mantissa mantissa' : Int} {places places' : Nat}
    {rest rest' : List Char} (hrest : EndsNumeral rest) (hrest' : EndsNumeral rest')
    (heq : write (.fraction mantissa places) ++ rest =
      write (.fraction mantissa' places') ++ rest') :
    Json.fraction mantissa places = .fraction mantissa' places' ∧ rest = rest' := by
  -- two mantissas end at the `e`, and the places follow
  rw [write, write, List.append_assoc, List.append_assoc] at heq
  obtain ⟨rfl, htail⟩ := showsEnd_writeInt mantissa mantissa' _ _
    (endsNumeral_cons (by decide) _) (endsNumeral_cons (by decide) _) heq
  have hplaces := (List.cons.inj (List.cons.inj htail).2).2
  obtain ⟨rfl, hrest⟩ := showsEnd_writeNat places places' rest rest' hrest hrest' hplaces
  exact ⟨rfl, hrest⟩

theorem write_arr_inj {items items' : List Json} {rest rest' : List Char}
    (h : ∀ item ∈ items, ShowsEnd EndsValue write item)
    (heq : write (.arr items) ++ rest = write (.arr items') ++ rest') :
    Json.arr items = .arr items' ∧ rest = rest' := by
  have hends := showsEnd_commaSeparated ']' (by decide) (endsValue_cons (by decide) (by decide))
    (write_append_ne rfl) h
  simp only [write, writeItems_eq_map] at heq
  -- `[` in front, then the items with commas, then `]`
  obtain ⟨rfl, hrest⟩ := hends items' rest rest' trivial trivial (List.cons.inj heq).2
  exact ⟨rfl, hrest⟩

theorem write_obj_inj {fields fields' : List (String × Json)} {rest rest' : List Char}
    (h : ∀ field ∈ fields, ShowsEnd EndsValue write field.2)
    (heq : write (.obj fields) ++ rest = write (.obj fields') ++ rest') :
    Json.obj fields = .obj fields' ∧ rest = rest' := by
  have hends := showsEnd_commaSeparated (Char.ofNat 0x7D) (by decide)
    (endsValue_cons (by decide) (by decide)) (writeField_append_ne (by decide))
    fun field hfield => showsEnd_writeField (h field hfield)
  simp only [write, writeFields_eq_map] at heq
  obtain ⟨rfl, hrest⟩ := hends fields' rest rest' trivial trivial (List.cons.inj heq).2
  exact ⟨rfl, hrest⟩

/-- Induction along the tree: the items of `.arr items` and the values of the fields of
`.obj fields` come before it. -/
theorem induct {P : Json → Prop} (null : P .null) (bool : ∀ value, P (.bool value))
    (int : ∀ n, P (.int n)) (fraction : ∀ mantissa places, P (.fraction mantissa places))
    (str : ∀ text, P (.str text)) (arr : ∀ items, (∀ item ∈ items, P item) → P (.arr items))
    (obj : ∀ fields, (∀ field ∈ fields, P field.2) → P (.obj fields)) : ∀ j, P j
  | .null => null
  | .bool value => bool value
  | .int n => int n
  | .fraction mantissa places => fraction mantissa places
  | .str text => str text
  | .arr items => arr items fun item _ => induct null bool int fraction str arr obj item
  | .obj fields => obj fields fun field h => by
    have := List.sizeOf_lt_of_mem h
    exact induct null bool int fraction str arr obj field.2
termination_by j => sizeOf j
decreasing_by
  all_goals simp_wf
  · have := List.sizeOf_lt_of_mem ‹_›
    omega
  · cases field
    simp at this ⊢
    omega

/-- **A value shows its end** where the text after it does not carry it on. -/
theorem showsEnd_write (j : Json) : ShowsEnd EndsValue write j := by
  induction j using induct with
  | null =>
    intro b rest rest' _ _ heq
    have hkind := kind_eq_of_append heq
    cases b with
    | null => simpa [write] using heq
    | _ => cases hkind
  | bool value =>
    intro b rest rest' _ _ heq
    have hkind := kind_eq_of_append heq
    cases b with
    | bool value' =>
      cases hkind
      exact ⟨rfl, List.append_cancel_left heq⟩
    | _ => cases hkind
  | int n =>
    intro b rest rest' hrest hrest' heq
    have hkind := kind_eq_of_append heq
    cases b with
    | int m =>
      obtain ⟨rfl, hrest⟩ := showsEnd_writeInt n m rest rest' hrest.1 hrest'.1 heq
      exact ⟨rfl, hrest⟩
    | fraction => exact absurd heq (write_int_append_ne hrest _ _ _ _)
    | _ => cases hkind
  | fraction mantissa places =>
    intro b rest rest' hrest hrest' heq
    have hkind := kind_eq_of_append heq
    cases b with
    | int => exact absurd heq.symm (write_int_append_ne hrest' _ _ _ _)
    | fraction => exact write_fraction_inj hrest.1 hrest'.1 heq
    | _ => cases hkind
  | str text =>
    intro b rest rest' _ _ heq
    have hkind := kind_eq_of_append heq
    cases b with
    | str text' =>
      obtain ⟨rfl, hrest⟩ := showsEnd_writeString text text' rest rest' trivial trivial heq
      exact ⟨rfl, hrest⟩
    | _ => cases hkind
  | arr items ih =>
    intro b rest rest' _ _ heq
    have hkind := kind_eq_of_append heq
    cases b with
    | arr => exact write_arr_inj ih heq
    | _ => cases hkind
  | obj fields ih =>
    intro b rest rest' _ _ heq
    have hkind := kind_eq_of_append heq
    cases b with
    | obj => exact write_obj_inj ih heq
    | _ => cases hkind

/-- `j.render = j'.render ↔ j = j'`: a text tells its value. -/
theorem render_inj {j j' : Json} : j.render = j'.render ↔ j = j' := by
  constructor
  · intro h
    have hwrite : write j ++ [] = write j' ++ [] := by
      rw [List.append_nil, List.append_nil, ← String.toList_ofList (l := write j),
        ← String.toList_ofList (l := write j')]
      exact congrArg String.toList h
    exact (showsEnd_write j j' [] [] endsValue_nil endsValue_nil hwrite).1
  · exact congrArg render

end Json

end SchemaSnapshot

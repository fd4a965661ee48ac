import SchemaSnapshot.Sqlite.Catalog
import SchemaSnapshot.Text.Case
import Mathlib

/-!
# What a declared type says

The type of a column is declared as a text, with a name and often with numbers in parentheses, such
as `DECIMAL(10, 2)`. Numbers are described without regard to how they are read (`Text.Numeral`,
`Text.Padded`), and `Text.readInt?_eq_some_iff` says that reading finds them. What stands in the
parentheses has no letters in it, so it neither makes nor breaks a keyword of the name
(`Text.mentions_append`). `declaredType_read` says what is read from a name with arguments: the
numbers in them, and the affinity of the name alone.
-/

namespace SchemaSnapshot

namespace Text

/-! ### Numbers as they may be written -/

/-- A whole number as it may be written: in decimal digits, one at least, with a sign in front or
without. -/
inductive Numeral : List Char → Int → Prop
  | plain {digits : List Char} (hne : digits ≠ []) (h : ∀ c ∈ digits, c.isDigit = true) :
    Numeral digits (Nat.ofDigitChars 10 digits 0)
  | plus {digits : List Char} (hne : digits ≠ []) (h : ∀ c ∈ digits, c.isDigit = true) :
    Numeral ('+' :: digits) (Nat.ofDigitChars 10 digits 0)
  | minus {digits : List Char} (hne : digits ≠ []) (h : ∀ c ∈ digits, c.isDigit = true) :
    Numeral ('-' :: digits) (-(Nat.ofDigitChars 10 digits 0 : Int))

theorem readDigits?_eq_some_iff {l : List Char} {value n : Nat} :
    readDigits? value l = some n ↔
      (∀ c ∈ l, c.isDigit = true) ∧ Nat.ofDigitChars 10 l value = n := by
  constructor
  · intro hread
    have hdigits : ∀ c ∈ l, c.isDigit = true := by
      induction l generalizing value with
      | nil => simp
      | cons c rest ih =>
        rw [readDigits?] at hread
        split at hread
        · rename_i hc
          exact List.forall_mem_cons.2 ⟨hc, ih hread⟩
        · cases hread
    rw [readDigits?_of_isDigit hdigits] at hread
    exact ⟨hdigits, Option.some.inj hread⟩
  · rintro ⟨hdigits, rfl⟩
    exact readDigits?_of_isDigit hdigits value

theorem readNat?_eq_some_iff {l : List Char} {n : Nat} :
    readNat? l = some n ↔
      l ≠ [] ∧ (∀ c ∈ l, c.isDigit = true) ∧ Nat.ofDigitChars 10 l 0 = n := by
  cases l with
  | nil => simp [readNat?]
  | cons c rest => rw [readNat?, readDigits?_eq_some_iff, and_iff_right (List.cons_ne_nil c rest)]

/-- `readInt? text = some n ↔ Numeral text n`: the number that is written is found, and all else is
refused. -/
theorem readInt?_eq_some_iff {text : List Char} {n : Int} :
    readInt? text = some n ↔ Numeral text n := by
  constructor
  · intro hread
    unfold readInt? at hread
    split at hread
    · obtain ⟨_, hnumber, rfl⟩ := Option.map_eq_some_iff.1 hread
      obtain ⟨value, hvalue, hcast⟩ := Option.bind_eq_some_iff.1 hnumber
      obtain rfl := Option.some.inj hcast
      obtain ⟨hne, hdigits, rfl⟩ := readNat?_eq_some_iff.1 hvalue
      exact .minus hne hdigits
    · obtain ⟨value, hvalue, rfl⟩ := Option.map_eq_some_iff.1 hread
      obtain ⟨hne, hdigits, rfl⟩ := readNat?_eq_some_iff.1 hvalue
      exact .plus hne hdigits
    · obtain ⟨value, hvalue, rfl⟩ := Option.map_eq_some_iff.1 hread
      obtain ⟨hne, hdigits, rfl⟩ := readNat?_eq_some_iff.1 hvalue
      exact .plain hne hdigits
  · intro hnumeral
    cases hnumeral with
    | plain hne hdigits =>
      rw [readInt?_of_isDigit hdigits, readNat?_eq_some_iff.2 ⟨hne, hdigits, rfl⟩]
      rfl
    | plus hne hdigits =>
      rw [readInt?, readNat?_eq_some_iff.2 ⟨hne, hdigits, rfl⟩]
      rfl
    | minus hne hdigits =>
      rw [readInt?, readNat?_eq_some_iff.2 ⟨hne, hdigits, rfl⟩]
      rfl

theorem numeral_writeInt (n : Int) : Numeral (writeInt n) n :=
  readInt?_eq_some_iff.1 (readInt?_writeInt n)

/-- A character of a `Numeral` is a digit, `+` or `-`. -/
theorem Numeral.mem {text : List Char} {n : Int} (h : Numeral text n) {c : Char} (hc : c ∈ text) :
    c.isDigit = true ∨ c = '+' ∨ c = '-' := by
  cases h with
  | plain _ hdigits => exact .inl (hdigits c hc)
  | plus _ hdigits => exact (List.mem_cons.1 hc).elim (.inr ∘ .inl) (.inl ∘ hdigits c)
  | minus _ hdigits => exact (List.mem_cons.1 hc).elim (.inr ∘ .inr) (.inl ∘ hdigits c)

/-- Digits and signs are found from `+` to `9` among the characters. -/
theorem Numeral.toNat_bounds {text : List Char} {n : Int} (h : Numeral text n) {c : Char}
    (hc : c ∈ text) : 43 ≤ c.toNat ∧ c.toNat ≤ 57 := by
  rcases h.mem hc with hdigit | rfl | rfl
  · -- the code points of `'0'` and `'9'` are 48 and 57
    have hrange : 48 ≤ c.toNat ∧ c.toNat ≤ 57 := by
      simpa [Char.isDigit, UInt32.le_iff_toNat_le] using hdigit
    omega
  · decide
  · decide

/-! ### White space around a text -/

/-- `padded` is `text` with white space around it, or with none. -/
def Padded (padded text : List Char) : Prop :=
  ∃ before after, (∀ c ∈ before, isBlank c = true) ∧ (∀ c ∈ after, isBlank c = true) ∧
    padded = before ++ text ++ after

theorem padded_trim (text : List Char) : Padded text (trim text) := by
  -- What trimming takes away at the end is what it takes away at the start of the reversed text.
  have hend :
      trimStart text = trim text ++ ((trimStart text).reverse.takeWhile isBlank).reverse := by
    rw [trim, trimEnd, ← List.reverse_append, List.takeWhile_append_dropWhile, List.reverse_reverse]
  refine ⟨text.takeWhile isBlank, ((trimStart text).reverse.takeWhile isBlank).reverse, ?_, ?_, ?_⟩
  · exact fun c hc => List.mem_takeWhile_imp hc
  · exact fun c hc => List.mem_takeWhile_imp (List.mem_reverse.1 hc)
  · rw [List.append_assoc, ← hend, trimStart, List.takeWhile_append_dropWhile]

/-- `trim padded = text` if there is no white space in `text` itself. -/
theorem Padded.trim_eq {padded text : List Char} (h : Padded padded text)
    (htext : ∀ c ∈ text, isBlank c = false) : trim padded = text := by
  obtain ⟨before, after, hbefore, hafter, rfl⟩ := h
  -- without white space there is nothing to drop
  have hself (l : List Char) (hl : ∀ c ∈ l, isBlank c = false) : l.dropWhile isBlank = l := by
    cases l with
    | nil => rfl
    | cons c rest => rw [List.dropWhile_cons, hl c List.mem_cons_self, if_neg Bool.false_ne_true]
  rw [trim_append_blank hafter, trim_blank_append hbefore, trim, trimStart, hself text htext,
    trimEnd, hself text.reverse fun c hc => htext c (List.mem_reverse.1 hc), List.reverse_reverse]

/-- `isBlank c = false` for every character of a `Numeral`. -/
theorem Numeral.isBlank_eq_false {text : List Char} {n : Int} (h : Numeral text n) {c : Char}
    (hc : c ∈ text) : isBlank c = false := by
  have hbounds := h.toNat_bounds hc
  simp only [isBlank, Bool.or_eq_false_iff, Bool.and_eq_false_iff, decide_eq_false_iff_not,
    beq_eq_false_iff_ne]
  omega

/-! ### Letters in keywords -/

/-- `P c` for every capital `c`, if `P` is true of the 26 capitals one by one. -/
theorem of_isUpper {P : Char → Prop} (h : ∀ n < 26, P (Char.ofNat (65 + n))) {c : Char}
    (hc : c.isUpper = true) : P c := by
  have hrange : 65 ≤ c.toNat ∧ c.toNat ≤ 90 := by
    simpa [Char.isUpper, UInt32.le_iff_toNat_le] using hc
  have hletter := h (c.toNat - 65) (by omega)
  rwa [Nat.add_sub_cancel' hrange.1, Char.ofNat_toNat] at hletter

/-- Small letters and capitals contribute the same to a keyword:
`capitals c.toLower = capitals c`. -/
theorem capitals_toLower (c : Char) : capitals c.toLower = capitals c := by
  -- The capitals are gone through one by one; every other character is its own small letter.
  by_cases hc : c.isUpper = true
  · exact of_isUpper (P := fun c => capitals c.toLower = capitals c) (by decide) hc
  · rw [Char.toLower_eq_of_not_isUpper hc]

theorem isBlank_toLower (c : Char) : isBlank c.toLower = isBlank c := by
  by_cases hc : c.isUpper = true
  · exact of_isUpper (P := fun c => isBlank c.toLower = isBlank c) (by decide) hc
  · rw [Char.toLower_eq_of_not_isUpper hc]

/-- `mentions a.toList keyword = mentions b.toList keyword` if `a` and `b` differ in the case of
ASCII letters only. -/
theorem mentions_congr {a b : String} (h : foldCase a = foldCase b) (keyword : String) :
    mentions a.toList keyword = mentions b.toList keyword := by
  have hfold (text : String) :
      text.toList.flatMap capitals = (foldCase text).flatMap capitals := by
    rw [foldCase, List.flatMap_map]
    exact List.flatMap_congr fun c _ => (capitals_toLower c).symm
  rw [mentions, mentions, hfold a, hfold b, h]

theorem all_isBlank_congr {a b : String} (h : foldCase a = foldCase b) :
    a.toList.all isBlank = b.toList.all isBlank := by
  have hfold (text : String) : text.toList.all isBlank = (foldCase text).all isBlank := by
    rw [foldCase, List.all_map]
    exact congrArg text.toList.all (funext fun c => (isBlank_toLower c).symm)
  rw [hfold a, hfold b, h]

/-- `c` contributes no letter to a keyword. -/
def Letterless (c : Char) : Prop :=
  ∀ k ∈ capitals c, k.isUpper = false

/-- `Letterless c` if `c` is no letter of ASCII and none of the `capitalForms`. -/
theorem letterless_of_toNat {c : Char} (hcapital : ¬(65 ≤ c.toNat ∧ c.toNat ≤ 90))
    (hsmall : ¬(97 ≤ c.toNat ∧ c.toNat ≤ 122))
    (hform : ∀ form ∈ capitalForms, c.toNat ≠ form.1) : Letterless c := by
  -- `c` is none of the characters with a form in ASCII
  have hlookup : capitalForms.lookup c.toNat = none :=
    List.lookup_eq_none_iff.2 fun form hmem => bne_iff_ne.2 (hform form hmem)
  have hlower : ¬c.isLower = true := by
    simpa [Char.isLower, UInt32.le_iff_toNat_le] using hsmall
  have hupper : c.isUpper = false := by
    simpa [Char.isUpper, UInt32.le_iff_toNat_le] using hcapital
  intro k hk
  rw [capitals, hlookup, Option.getD_none, Char.toUpper_eq_of_not_isLower hlower,
    List.mem_singleton] at hk
  rw [hk, hupper]

/-- Below `A` no character contributes a letter. -/
theorem letterless_of_ascii {c : Char} (hascii : c.toNat < 65) : Letterless c := by
  have hforms : ∀ form ∈ capitalForms, 65 ≤ form.1 := by decide
  refine letterless_of_toNat (by omega) (by omega) ?_
  intro form hmem
  have hform := hforms form hmem
  omega

/-- White space is `Letterless`. -/
theorem letterless_of_isBlank {c : Char} (h : isBlank c = true) : Letterless c := by
  -- White space is neither a letter of ASCII nor among the characters with a form in ASCII.
  have hforms : ∀ form ∈ capitalForms, isBlank (Char.ofNat form.1) = false := by decide
  have hpoint : ¬(65 ≤ c.toNat ∧ c.toNat ≤ 90) ∧ ¬(97 ≤ c.toNat ∧ c.toNat ≤ 122) := by
    simp only [isBlank, Bool.or_eq_true, Bool.and_eq_true, decide_eq_true_eq, beq_iff_eq] at h
    omega
  refine letterless_of_toNat hpoint.1 hpoint.2 ?_
  rintro form hmem hform
  have hblank := hforms form hmem
  rw [← hform, Char.ofNat_toNat, h] at hblank
  cases hblank

theorem Numeral.letterless {text : List Char} {n : Int} (h : Numeral text n) :
    ∀ c ∈ text, Letterless c := by
  intro c hc
  have hbounds := h.toNat_bounds hc
  exact letterless_of_ascii (by omega)

/-- `mentions (text ++ tail) keyword = mentions text keyword` if the characters of `tail` are
`Letterless`. -/
theorem mentions_append {keyword : String} (hne : keyword ≠ "")
    (hkeyword : ∀ k ∈ keyword.toList, k.isUpper = true) (text : List Char) {tail : List Char}
    (htail : ∀ c ∈ tail, Letterless c) :
    mentions (text ++ tail) keyword = mentions text keyword := by
  have hletters : ∀ k ∈ tail.flatMap capitals, k ∉ keyword.toList := by
    intro k hk hmem
    obtain ⟨c, hc, hk⟩ := List.mem_flatMap.1 hk
    have hupper := hkeyword k hmem
    rw [htail c hc k hk] at hupper
    cases hupper
  -- A keyword that reaches into what follows would have a letter from there.
  have hreach (l : List Char) (hl : l <:+: tail.flatMap capitals)
      (hl' : ∀ k ∈ l, k ∈ keyword.toList) : l = [] := by
    rw [List.eq_nil_iff_forall_not_mem]
    exact fun k hk => hletters k (hl.subset hk) (hl' k hk)
  rw [Bool.eq_iff_iff, mentions, mentions, occurs_iff, occurs_iff, List.flatMap_append,
    List.infix_append_iff]
  constructor
  · rintro (hleft | hright | ⟨front, back, hsplit, hfront, hback⟩)
    · exact hleft
    · exact absurd (String.toList_inj.1 (hreach _ hright fun k hk => hk)) hne
    · obtain rfl := hreach back hback.isInfix fun k hk => by simp [hsplit, hk]
      rw [hsplit, List.append_nil]
      exact hfront.isInfix
  · exact .inl

/-- What is true of white space and of the characters of `text` is true of those of `padded`. -/
theorem Padded.forall_mem {padded text : List Char} (h : Padded padded text) {P : Char → Prop}
    (hblank : ∀ c, isBlank c = true → P c) (htext : ∀ c ∈ text, P c) : ∀ c ∈ padded, P c := by
  obtain ⟨before, after, hbefore, hafter, rfl⟩ := h
  intro c hc
  rcases List.mem_append.1 hc with hc | hc
  · exact (List.mem_append.1 hc).elim (fun hc => hblank c (hbefore c hc)) (htext c)
  · exact hblank c (hafter c hc)

end Text

namespace Sqlite

/-! ### Affinity -/

namespace Affinity

/-- The keywords that decide on an affinity. -/
def keywords : List String :=
  ["INT", "CHAR", "CLOB", "TEXT", "BLOB", "REAL", "FLOA", "DOUB"]

theorem letters_of_mem_keywords {keyword : String} (h : keyword ∈ keywords) :
    keyword ≠ "" ∧ ∀ k ∈ keyword.toList, k.isUpper = true := by
  simp only [keywords, List.mem_cons, List.not_mem_nil, or_false] at h
  rcases h with rfl | rfl | rfl | rfl | rfl | rfl | rfl | rfl <;> simp

/-- `ofDeclared a = ofDeclared b` if `a` and `b` mention the same of the `keywords` and are blank or
not alike. -/
theorem ofDeclared_congr {a b : String}
    (hmentions : ∀ keyword ∈ keywords,
      Text.mentions a.toList keyword = Text.mentions b.toList keyword)
    (hblank : a.toList.all Text.isBlank = b.toList.all Text.isBlank) :
    ofDeclared a = ofDeclared b := by
  simp only [keywords, List.forall_mem_cons] at hmentions
  obtain ⟨hint, hchar, hclob, htext, hblob, hreal, hfloa, hdoub, -⟩ := hmentions
  simp only [ofDeclared, hint, hchar, hclob, htext, hblob, hreal, hfloa, hdoub, hblank]

theorem ofDeclared_of_foldCase {a b : String} (h : Text.foldCase a = Text.foldCase b) :
    ofDeclared a = ofDeclared b :=
  ofDeclared_congr (fun keyword _ => Text.mentions_congr h keyword) (Text.all_isBlank_congr h)

/-- `ofDeclared (base ++ tail) = ofDeclared base` if the characters of `tail` are `Letterless`. -/
theorem ofDeclared_append {base : String} (hbase : ∃ c ∈ base.toList, Text.isBlank c = false)
    {tail : String} (htail : ∀ c ∈ tail.toList, Text.Letterless c) :
    ofDeclared (base ++ tail) = ofDeclared base := by
  apply ofDeclared_congr
  · intro keyword hkeyword
    obtain ⟨hne, hletters⟩ := letters_of_mem_keywords hkeyword
    rw [String.toList_append, Text.mentions_append hne hletters _ htail]
  · -- Neither side is blank, because the type is not.
    obtain ⟨c, hc, hblank⟩ := hbase
    have hnot (l : List Char) (hl : c ∈ l) : l.all Text.isBlank = false :=
      List.all_eq_false.2 ⟨c, hl, by simp [hblank]⟩
    rw [hnot _ hc, hnot _ (by rw [String.toList_append]; exact List.mem_append_left _ hc)]

end Affinity

/-! ### The arguments of a type -/

/-- A search for `mark` passes over `front`, in which it does not occur. -/
theorem splitAtFirst?_append {mark : Char} {front : List Char} (h : mark ∉ front)
    (text : List Char) :
    splitAtFirst? mark (front ++ text) =
      (splitAtFirst? mark text).map fun (before, after) => (front ++ before, after) := by
  induction front with
  | nil => simp
  | cons c rest ih =>
    obtain ⟨hc, hrest⟩ := not_or.1 (List.mem_cons.not.1 h)
    rw [List.cons_append, splitAtFirst?, if_neg (Ne.symm hc), ih hrest, Option.map_map]
    rfl

theorem splitAtFirst?_append_cons {mark : Char} {front : List Char} (h : mark ∉ front)
    (back : List Char) : splitAtFirst? mark (front ++ mark :: back) = some (front, back) := by
  rw [splitAtFirst?_append h, splitAtFirst?, if_pos rfl, Option.map_some]
  exact congrArg (fun before => some (before, back)) (List.append_nil front)

theorem splitAtFirst?_of_not_mem {mark : Char} {text : List Char} (h : mark ∉ text) :
    splitAtFirst? mark text = none := by
  have hnone := splitAtFirst?_append h []
  rwa [List.append_nil] at hnone

/-- `arguments? (base ++ tail) = arguments? tail` if there is no parenthesis in `base`. -/
theorem arguments?_append {base : List Char} (hbase : '(' ∉ base) (tail : List Char) :
    arguments? (base ++ tail) = arguments? tail := by
  unfold arguments?
  rw [splitAtFirst?_append hbase]
  cases splitAtFirst? '(' tail <;> rfl

theorem arguments?_parenthesis (inside : List Char) :
    arguments? ('(' :: inside) = (splitAtFirst? ')' inside).map (·.1) := by
  show (splitAtFirst? ')' inside >>= fun (arguments, _) => some arguments) = _
  cases splitAtFirst? ')' inside <;> rfl

namespace TypeArguments

theorem ofDeclared_append {base : String} (hbase : '(' ∉ base.toList) (tail : String) :
    ofDeclared (base ++ tail) = ofDeclared tail := by
  rw [ofDeclared, ofDeclared, String.toList_append, arguments?_append hbase]

theorem ofDeclared_parenthesis (inside : String) :
    ofDeclared ("(" ++ inside) =
      ((splitAtFirst? ')' inside.toList).map (·.1)).elim {} ofArguments := by
  rw [ofDeclared, String.toList_append]
  exact congrArg (Option.elim · {} ofArguments) (arguments?_parenthesis inside.toList)

/-- A type without a parenthesis has no arguments: `ofDeclared text = {}`. -/
theorem ofDeclared_of_not_mem {text : String} (h : '(' ∉ text.toList) : ofDeclared text = {} := by
  rw [ofDeclared, arguments?, splitAtFirst?_of_not_mem h]
  rfl

/-- A type with `(` and `)` behind `base` has the arguments up to the first `)`. -/
theorem ofDeclared_arguments {base arguments : String} (hbase : '(' ∉ base.toList)
    (harguments : ')' ∉ arguments.toList) (rest : String) :
    ofDeclared (base ++ "(" ++ arguments ++ ")" ++ rest) = ofArguments arguments.toList := by
  -- the first `)` behind the parenthesis closes it
  have hsplit : splitAtFirst? ')' (arguments ++ ")" ++ rest).toList =
      some (arguments.toList, rest.toList) := by
    rw [String.toList_append, String.toList_append, List.append_assoc]
    exact splitAtFirst?_append_cons harguments rest.toList
  have hassoc : base ++ "(" ++ arguments ++ ")" ++ rest =
      base ++ ("(" ++ (arguments ++ ")" ++ rest)) := by
    simp only [String.append_assoc]
  rw [hassoc, ofDeclared_append hbase, ofDeclared_parenthesis, hsplit]
  rfl

/-- `ofDeclared (before ++ "(" ++ after) = {}` if the parenthesis is not closed. -/
theorem ofDeclared_unclosed {before after : String} (hbefore : '(' ∉ before.toList)
    (hafter : ')' ∉ after.toList) : ofDeclared (before ++ "(" ++ after) = {} := by
  rw [String.append_assoc, ofDeclared_append hbefore, ofDeclared_parenthesis,
    splitAtFirst?_of_not_mem hafter]
  rfl

theorem ofArguments_one {x : List Char} (hx : ',' ∉ x) :
    ofArguments x = { size := argumentValue x } := by
  rw [ofArguments, splitAtFirst?_of_not_mem hx]

theorem ofArguments_two {x y : List Char} (hx : ',' ∉ x) (hy : ',' ∉ y) :
    ofArguments (x ++ ',' :: y) = { size := argumentValue x, digits := argumentValue y } := by
  rw [ofArguments, splitAtFirst?_append_cons hx]
  dsimp only
  rw [splitAtFirst?_of_not_mem hy]

theorem ofArguments_more {x y : List Char} (hx : ',' ∉ x) (hy : ',' ∉ y) (more : List Char) :
    ofArguments (x ++ ',' :: (y ++ ',' :: more)) =
      { size := argumentValue x, digits := argumentValue y } := by
  rw [ofArguments, splitAtFirst?_append_cons hx]
  dsimp only
  rw [splitAtFirst?_append_cons hy]

end TypeArguments

/-! ### The number that an argument is -/

/-- `argument` is a number that fits into a word, with white space around it or without. -/
def IsWord (argument : List Char) (value : Int32) : Prop :=
  ∃ number, Text.Padded argument number ∧ Text.Numeral number value.toInt

/-- `argument` counts as `value`: it is this number, or it is none that fits and `value` is 0. -/
def CountsAs (argument : List Char) (value : Int32) : Prop :=
  IsWord argument value ∨ (∀ word, ¬IsWord argument word) ∧ value = 0

theorem isWord_iff {argument : List Char} {value : Int32} :
    IsWord argument value ↔
      (Text.readInt? (Text.trim argument) >>= int32?) = some value := by
  constructor
  · rintro ⟨number, hpadded, hnumeral⟩
    rw [hpadded.trim_eq fun c => hnumeral.isBlank_eq_false,
      Text.readInt?_eq_some_iff.2 hnumeral]
    exact int32?_toInt value
  · intro h
    obtain ⟨n, hread, hword⟩ := Option.bind_eq_some_iff.1 h
    refine ⟨_, Text.padded_trim argument, ?_⟩
    rw [toInt_of_int32? hword]
    exact Text.readInt?_eq_some_iff.1 hread

theorem countsAs_iff {argument : List Char} {value : Int32} :
    CountsAs argument value ↔ argumentValue argument = value := by
  simp only [CountsAs, isWord_iff, argumentValue]
  cases Text.readInt? (Text.trim argument) >>= int32? with
  | none => simp [eq_comm]
  | some word => simp

/-- `writeInt` of a 32-bit word is read as this word, with white space around it or without. -/
theorem isWord_writeInt {argument : List Char} {value : Int32}
    (h : Text.Padded argument (Text.writeInt value.toInt)) : IsWord argument value :=
  ⟨_, h, Text.numeral_writeInt _⟩

/-- `mark ∉ argument` if `mark` is neither white space nor part of a number. -/
theorem not_mem_of_padded {argument : List Char} {n : Int} (mark : Char)
    (h : Text.Padded argument (Text.writeInt n)) (hblank : Text.isBlank mark = false)
    (hmark : mark.isDigit = false ∧ mark ≠ '+' ∧ mark ≠ '-') : mark ∉ argument := by
  intro hmem
  refine h.forall_mem (P := (· ≠ mark)) ?_ ?_ mark hmem rfl
  · rintro c hc rfl
    rw [hblank] at hc
    cases hc
  · rintro c hc rfl
    rcases (Text.numeral_writeInt n).mem hc with hdigit | hplus | hminus
    · rw [hmark.1] at hdigit
      cases hdigit
    · exact hmark.2.1 hplus
    · exact hmark.2.2 hminus

/-- Arguments that count as `v` and `w` are the size and the number of digits, whatever stands
behind them. -/
theorem TypeArguments.ofDeclared_of_countsAs {base x y : String} {v w : Int32}
    (hbase : '(' ∉ base.toList) (hx : ',' ∉ x.toList ∧ ')' ∉ x.toList)
    (hy : ',' ∉ y.toList ∧ ')' ∉ y.toList) (hv : CountsAs x.toList v) (hw : CountsAs y.toList w)
    (rest : String) :
    ofDeclared (base ++ "(" ++ x ++ ")" ++ rest) = ⟨v, 0⟩ ∧
    ofDeclared (base ++ "(" ++ (x ++ "," ++ y) ++ ")" ++ rest) = ⟨v, w⟩ ∧
    ∀ more : String, ')' ∉ more.toList →
      ofDeclared (base ++ "(" ++ (x ++ "," ++ y ++ "," ++ more) ++ ")" ++ rest) = ⟨v, w⟩ := by
  obtain rfl := countsAs_iff.1 hv
  obtain rfl := countsAs_iff.1 hw
  have hcomma : (",".toList : List Char) = [','] := rfl
  refine ⟨?_, ?_, fun more hmore => ?_⟩
  · rw [ofDeclared_arguments hbase hx.2, ofArguments_one hx.1]
  · rw [ofDeclared_arguments hbase (by simp [hx.2, hy.2])]
    simp only [String.toList_append, hcomma, List.append_assoc, List.singleton_append]
    exact ofArguments_two hx.1 hy.1
  · rw [ofDeclared_arguments hbase (by simp [hx.2, hy.2, hmore])]
    simp only [String.toList_append, hcomma, List.append_assoc, List.singleton_append]
    exact ofArguments_more hx.1 hy.1 more.toList

/-- Numbers with white space around them are `Letterless`. -/
theorem letterless_of_padded {argument : List Char} {n : Int}
    (h : Text.Padded argument (Text.writeInt n)) : ∀ c ∈ argument, Text.Letterless c :=
  h.forall_mem (fun _ => Text.letterless_of_isBlank) (Text.numeral_writeInt n).letterless

/-- `ofDeclared` gives the affinity of `base`, whatever numbers stand in parentheses behind it. -/
theorem Affinity.ofDeclared_numbers {base x y : String} {m n : Int}
    (hbase : ∃ c ∈ base.toList, Text.isBlank c = false)
    (hx : Text.Padded x.toList (Text.writeInt m)) (hy : Text.Padded y.toList (Text.writeInt n)) :
    ofDeclared (base ++ "(" ++ x ++ ")") = ofDeclared base ∧
    ofDeclared (base ++ "(" ++ (x ++ "," ++ y) ++ ")") = ofDeclared base := by
  -- `(`, `,` and `)` come before the letters
  have hmark (mark : Char) (h : mark.toNat < 65) : ∀ c ∈ [mark], Text.Letterless c :=
    List.forall_mem_singleton.2 (Text.letterless_of_ascii h)
  have hletterless (arguments : String) (h : ∀ c ∈ arguments.toList, Text.Letterless c) :
      ofDeclared (base ++ "(" ++ arguments ++ ")") = ofDeclared base := by
    rw [String.append_assoc, String.append_assoc]
    refine ofDeclared_append hbase ?_
    simp only [String.toList_append, List.forall_mem_append]
    exact ⟨hmark '(' (by decide), h, hmark ')' (by decide)⟩
  refine ⟨hletterless x (letterless_of_padded hx), hletterless _ ?_⟩
  simp only [String.toList_append, List.forall_mem_append]
  exact ⟨⟨letterless_of_padded hx, hmark ',' (by decide)⟩, letterless_of_padded hy⟩

/-- `'(' ∈ Text.foldCase text ↔ '(' ∈ text.toList`: a parenthesis has no case. -/
theorem parenthesis_mem_foldCase {text : String} :
    '(' ∈ Text.foldCase text ↔ '(' ∈ text.toList := by
  rw [Text.foldCase, List.mem_map]
  constructor
  · rintro ⟨c, hc, hlower⟩
    by_cases hupper : c.isUpper = true
    · exact absurd hlower (Text.of_isUpper (P := fun c => c.toLower ≠ '(') (by decide) hupper)
    · rw [Char.toLower_eq_of_not_isUpper hupper] at hlower
      exact hlower ▸ hc
  · exact fun h => ⟨'(', h, rfl⟩

/-- **Declared types are read back.** Take a name of a type that is not blank and has no opening
parenthesis. Behind it come up to two numbers in parentheses, written in decimal with any white
space around them: these are the size and the number of digits, whatever follows the closing
parenthesis, and if nothing follows, the affinity is that of the name alone, and with it the type
code. More generally each of the first two arguments counts as the number that it is, or as 0 if it
is none that fits, without regard to the other, and further arguments count for nothing. A type
without a parenthesis, or with one that is not closed, has neither size nor digits. The case of the
ASCII letters in the name does not matter for any of this. -/
theorem declaredType_read {base : String} (hbase : ∃ c ∈ base.toList, Text.isBlank c = false)
    (hopen : '(' ∉ base.toList) :
    (∀ (p s : Int32) (x y : String), Text.Padded x.toList (Text.writeInt p.toInt) →
      Text.Padded y.toList (Text.writeInt s.toInt) →
      (∀ rest, TypeArguments.ofDeclared (base ++ "(" ++ x ++ ")" ++ rest) = ⟨p, 0⟩ ∧
        TypeArguments.ofDeclared (base ++ "(" ++ (x ++ "," ++ y) ++ ")" ++ rest) = ⟨p, s⟩) ∧
      Affinity.ofDeclared (base ++ "(" ++ x ++ ")") = Affinity.ofDeclared base ∧
      Affinity.ofDeclared (base ++ "(" ++ (x ++ "," ++ y) ++ ")") = Affinity.ofDeclared base) ∧
    (∀ (x y more rest : String) (v w : Int32), ',' ∉ x.toList → ')' ∉ x.toList →
      ',' ∉ y.toList → ')' ∉ y.toList → ')' ∉ more.toList →
      CountsAs x.toList v → CountsAs y.toList w →
        TypeArguments.ofDeclared (base ++ "(" ++ x ++ ")" ++ rest) = ⟨v, 0⟩ ∧
        TypeArguments.ofDeclared (base ++ "(" ++ (x ++ "," ++ y) ++ ")" ++ rest) = ⟨v, w⟩ ∧
        TypeArguments.ofDeclared (base ++ "(" ++ (x ++ "," ++ y ++ "," ++ more) ++ ")" ++ rest) =
          ⟨v, w⟩) ∧
    (∀ argument, ∃! value, CountsAs argument value) ∧
    (∀ text : String, '(' ∉ text.toList → TypeArguments.ofDeclared text = ⟨0, 0⟩) ∧
    (∀ before after : String, '(' ∉ before.toList → ')' ∉ after.toList →
      TypeArguments.ofDeclared (before ++ "(" ++ after) = ⟨0, 0⟩) ∧
    ∀ base' : String, Text.sameIgnoringCase base' base = true → ∀ tail : String,
      Affinity.ofDeclared (base' ++ tail) = Affinity.ofDeclared (base ++ tail) ∧
      TypeArguments.ofDeclared (base' ++ tail) = TypeArguments.ofDeclared (base ++ tail) := by
  -- Neither mark can be part of a number, so the marks that are written are the first ones found.
  have hnumber {argument : List Char} {n : Int} (h : Text.Padded argument (Text.writeInt n)) :
      ',' ∉ argument ∧ ')' ∉ argument :=
    ⟨not_mem_of_padded ',' h (by decide) (by decide),
      not_mem_of_padded ')' h (by decide) (by decide)⟩
  refine ⟨fun p s x y hx hy => ⟨fun rest => ?_, Affinity.ofDeclared_numbers hbase hx hy⟩,
    fun x y more rest v w hx hx' hy hy' hmore hv hw => ?_, fun argument => ?_,
    fun text => TypeArguments.ofDeclared_of_not_mem,
    fun before after => TypeArguments.ofDeclared_unclosed, fun base' hsame tail => ⟨?_, ?_⟩⟩
  · obtain ⟨hone, htwo, -⟩ := TypeArguments.ofDeclared_of_countsAs hopen (hnumber hx) (hnumber hy)
      (.inl (isWord_writeInt hx)) (.inl (isWord_writeInt hy)) rest
    exact ⟨hone, htwo⟩
  · obtain ⟨hone, htwo, hmany⟩ :=
      TypeArguments.ofDeclared_of_countsAs hopen ⟨hx, hx'⟩ ⟨hy, hy'⟩ hv hw rest
    exact ⟨hone, htwo, hmany more hmore⟩
  · exact ⟨_, countsAs_iff.2 rfl, fun value hvalue => (countsAs_iff.1 hvalue).symm⟩
  · apply Affinity.ofDeclared_of_foldCase
    simp only [Text.foldCase, String.toList_append, List.map_append]
    exact congrArg (· ++ _) (Text.sameIgnoringCase_iff.1 hsame)
  · -- `base'` has no parenthesis either, so both are read from `tail`
    have hopen' : '(' ∉ base'.toList := by
      rwa [← parenthesis_mem_foldCase, Text.sameIgnoringCase_iff.1 hsame, parenthesis_mem_foldCase]
    rw [TypeArguments.ofDeclared_append hopen, TypeArguments.ofDeclared_append hopen']

theorem declaredType_read_decimal :
    TypeArguments.ofDeclared "DECIMAL( -2147483648 ,\t2147483647) NOT NULL" =
      ⟨-2147483648, 2147483647⟩ ∧
    TypeArguments.ofDeclared "DECIMAL(2147483648,5,x)" = ⟨0, 5⟩ ∧
    TypeArguments.ofDeclared "Decimal(2147483648,5,x)" = ⟨0, 5⟩ ∧
    Affinity.ofDeclared "Decimal( -2147483648 ,\t2147483647)" = .numeric := by
  have hname : ∃ c ∈ "DECIMAL".toList, Text.isBlank c = false := ⟨'D', by simp, by decide⟩
  obtain ⟨hnumbers, harguments, -, -, -, hcase⟩ := declaredType_read hname (by simp)
  obtain ⟨hread, -, haffinity⟩ := hnumbers (-2147483648) 2147483647 " -2147483648 " "\t2147483647"
    ⟨[' '], [' '], by simp; decide, by simp; decide, rfl⟩
    ⟨['\t'], [], by simp; decide, by simp, rfl⟩
  have hlarge := (harguments "2147483648" "5" "x" "" 0 5 (by simp) (by simp) (by simp) (by simp)
    (by simp) (countsAs_iff.2 rfl) (countsAs_iff.2 rfl)).2.2
  have hmixed := hcase "Decimal" (by decide)
  refine ⟨(hread " NOT NULL").2, hlarge, ?_, ?_⟩
  · exact (hmixed "(2147483648,5,x)").2.trans hlarge
  · calc Affinity.ofDeclared "Decimal( -2147483648 ,\t2147483647)"
      _ = Affinity.ofDeclared "DECIMAL( -2147483648 ,\t2147483647)" :=
        (hmixed "( -2147483648 ,\t2147483647)").1
      _ = Affinity.ofDeclared "DECIMAL" := haffinity
      _ = .numeric := rfl

end Sqlite

end SchemaSnapshot

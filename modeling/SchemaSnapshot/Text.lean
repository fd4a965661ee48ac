/-!
# Texts and numbers

Texts are looked at as lists of characters. Four things are done with them throughout: whole numbers
are written and read in decimal (`readInt?_writeInt : readInt? (writeInt n) = some n`), white space
is trimmed off (`trim_append_blank`, `trim_blank_append`), and keywords are looked for
(`occurs_iff`). A whole number becomes a machine word only if it fits (`int32?`, `int16?`).
-/

namespace SchemaSnapshot

/-! ### Machine words as whole numbers

Type codes, sizes and positions are signed words of 16 or 32 bits. Outside the program they are
plain whole numbers: `int32?_toInt` and `int16?_toInt` say that every word is found again from
its number, and `toInt_of_int32?` that it is found from no other. -/

/-- The 32-bit word of `n`, if `-2^31 ≤ n < 2^31`. -/
def int32? (n : Int) : Option Int32 :=
  if h : Int32.minValue.toInt ≤ n ∧ n ≤ Int32.maxValue.toInt then
    some (Int32.ofIntLE n h.1 h.2)
  else
    none

/-- The 16-bit word of `n`, if `-2^15 ≤ n < 2^15`. -/
def int16? (n : Int) : Option Int16 :=
  if h : Int16.minValue.toInt ≤ n ∧ n ≤ Int16.maxValue.toInt then
    some (Int16.ofIntLE n h.1 h.2)
  else
    none

theorem int32?_toInt (x : Int32) : int32? x.toInt = some x := by
  rw [int32?, dif_pos ⟨x.minValue_le_toInt, x.toInt_le⟩, Int32.ofIntLE_toInt]

theorem toInt_of_int32? {n : Int} {x : Int32} (h : int32? n = some x) : x.toInt = n := by
  unfold int32? at h
  split at h
  · obtain rfl := Option.some.inj h
    rw [Int32.toInt_ofIntLE]
  · cases h

theorem int16?_toInt (x : Int16) : int16? x.toInt = some x := by
  rw [int16?, dif_pos ⟨x.minValue_le_toInt, x.toInt_le⟩, Int16.ofIntLE_toInt]

end SchemaSnapshot

namespace SchemaSnapshot.Text

/-! ### Decimal numerals

A numeral is a non-empty run of ASCII digits, with a minus sign in front of a negative number.
`readInt?` also takes a plus sign and leading zeros. A number is read at its full size: whether it
fits into a machine word is another question. -/

/-- The decimal digits of `n`, the most significant first. -/
def writeNat (n : Nat) : List Char :=
  Nat.toDigits 10 n

/-- The decimal numeral of a whole number, `-` in front if it is negative. -/
def writeInt : Int → List Char
  | .ofNat n => writeNat n
  | .negSucc n => '-' :: writeNat (n + 1)

/-- `writeInt n` as a text, for messages. -/
def decimal (n : Int) : String :=
  String.ofList (writeInt n)

/-- Reads digits onto the number `value` that is already there: `10 * value + d` for each digit
`d`. -/
def readDigits? (value : Nat) : List Char → Option Nat
  | [] => some value
  | c :: rest => if c.isDigit then readDigits? (10 * value + (c.toNat - 48)) rest else none

/-- Reads a run of digits, `none` for the empty one. -/
def readNat? : List Char → Option Nat
  | [] => none
  | c :: rest => readDigits? 0 (c :: rest)

/-- Reads a whole number with an optional sign, `+` or `-`. -/
def readInt? : List Char → Option Int
  | '-' :: digits => (readNat? digits).map fun n => -(n : Int)
  | '+' :: digits => (readNat? digits).map Int.ofNat
  | digits => (readNat? digits).map Int.ofNat

theorem isDigit_of_mem_writeNat {n : Nat} {c : Char} (h : c ∈ writeNat n) : c.isDigit = true :=
  Nat.isDigit_of_mem_toDigits (by decide) (by decide) h

theorem writeNat_ne_nil (n : Nat) : writeNat n ≠ [] :=
  Nat.toDigits_ne_nil

theorem readDigits?_of_isDigit {l : List Char} (h : ∀ c ∈ l, c.isDigit = true) (value : Nat) :
    readDigits? value l = some (Nat.ofDigitChars 10 l value) := by
  induction l generalizing value with
  | nil => rfl
  | cons c rest ih =>
    rw [readDigits?, if_pos (h c List.mem_cons_self), Nat.ofDigitChars_cons]
    exact ih (fun x hx => h x (List.mem_cons_of_mem _ hx)) _

theorem readNat?_writeNat (n : Nat) : readNat? (writeNat n) = some n := by
  have hread : readNat? (writeNat n) = readDigits? 0 (writeNat n) := by
    obtain ⟨c, rest, hcons⟩ := List.exists_cons_of_ne_nil (writeNat_ne_nil n)
    rw [hcons, readNat?]
  rw [hread, readDigits?_of_isDigit fun c => isDigit_of_mem_writeNat, writeNat,
    Nat.ofDigitChars_ten_toDigits]

theorem readInt?_of_isDigit {l : List Char} (h : ∀ c ∈ l, c.isDigit = true) :
    readInt? l = (readNat? l).map Int.ofNat := by
  unfold readInt?
  split
  · exact absurd (h '-' List.mem_cons_self) (by decide)
  · exact absurd (h '+' List.mem_cons_self) (by decide)
  · rfl

theorem readInt?_writeInt (n : Int) : readInt? (writeInt n) = some n := by
  cases n with
  | ofNat n =>
    show readInt? (writeNat n) = _
    rw [readInt?_of_isDigit fun c => isDigit_of_mem_writeNat, readNat?_writeNat]
    rfl
  | negSucc n =>
    show (readNat? (writeNat (n + 1))).map (fun n => -(n : Int)) = _
    rw [readNat?_writeNat]
    rfl

/-! ### White space and trimming

The `White_Space` property of Unicode is what separates a word from its surroundings in product
names, declared types and raw defaults; `trim` takes such characters off both ends of a text. -/

/-- The 25 characters with the property `White_Space`: tabulator to carriage return, the ASCII
space, next line, the no-break space, and the spaces and separators outside Latin-1. -/
def isBlank (c : Char) : Bool :=
  let n := c.toNat
  (0x09 ≤ n && n ≤ 0x0D) || n == 0x20 || n == 0x85 || n == 0xA0 || n == 0x1680 ||
    (0x2000 ≤ n && n ≤ 0x200A) || n == 0x2028 || n == 0x2029 || n == 0x202F || n == 0x205F ||
    n == 0x3000

/-- `isBlank c = true` for the white space of ASCII. -/
theorem isBlank_of_isWhitespace {c : Char} (h : c.isWhitespace = true) : isBlank c = true := by
  simp only [Char.isWhitespace, Bool.or_eq_true, decide_eq_true_eq] at h
  rcases h with ((rfl | rfl) | rfl) | rfl <;> decide

/-- `text` without the white space at its front. -/
def trimStart (text : List Char) : List Char :=
  text.dropWhile isBlank

/-- `text` without the white space at its back. -/
def trimEnd (text : List Char) : List Char :=
  (text.reverse.dropWhile isBlank).reverse

/-- `text` without the white space at both ends. What stands between two other characters stays as
it is. -/
def trim (text : List Char) : List Char :=
  trimEnd (trimStart text)

theorem dropWhile_isBlank_append {space : List Char} (h : ∀ c ∈ space, isBlank c = true)
    (text : List Char) : (space ++ text).dropWhile isBlank = text.dropWhile isBlank := by
  induction space with
  | nil => rfl
  | cons c rest ih =>
    simp only [List.mem_cons, forall_eq_or_imp] at h
    simp [h.1, ih h.2]

theorem trimStart_blank_append {space : List Char} (h : ∀ c ∈ space, isBlank c = true)
    (text : List Char) : trimStart (space ++ text) = trimStart text :=
  dropWhile_isBlank_append h text

theorem trimEnd_append_blank {space : List Char} (h : ∀ c ∈ space, isBlank c = true)
    (text : List Char) : trimEnd (text ++ space) = trimEnd text := by
  rw [trimEnd, List.reverse_append, dropWhile_isBlank_append (by simpa using h), trimEnd]

/-- `trim (space ++ text) = trim text` for white space `space`. -/
theorem trim_blank_append {space : List Char} (h : ∀ c ∈ space, isBlank c = true)
    (text : List Char) : trim (space ++ text) = trim text := by
  rw [trim, trimStart_blank_append h, trim]

theorem trimStart_append_of_mem {text : List Char} {c : Char} (hc : c ∈ text)
    (hblank : isBlank c = false) (rest : List Char) :
    trimStart (text ++ rest) = trimStart text ++ rest := by
  induction text with
  | nil => simp at hc
  | cons d tail ih =>
    by_cases hd : isBlank d = true
    · have hne : c ≠ d := by rintro rfl; simp [hd] at hblank
      simpa [trimStart, List.dropWhile, hd] using ih ((List.mem_cons.1 hc).resolve_left hne)
    · simp [trimStart, List.dropWhile, hd]

/-- `trim (text ++ space) = trim text` for white space `space`. -/
theorem trim_append_blank {space : List Char} (h : ∀ c ∈ space, isBlank c = true)
    (text : List Char) : trim (text ++ space) = trim text := by
  by_cases htext : ∀ c ∈ text, isBlank c = true
  · -- Nothing but white space on either side: both sides are empty.
    have hall : ∀ c ∈ text ++ space, isBlank c = true := by
      intro c hc
      exact (List.mem_append.1 hc).elim (htext c) (h c)
    have hleft := trimStart_blank_append hall []
    have hright := trimStart_blank_append htext []
    rw [List.append_nil] at hleft hright
    rw [trim, trim, hleft, hright]
  · obtain ⟨c, hc, hblank⟩ : ∃ c ∈ text, isBlank c = false := by simpa using htext
    rw [trim, trimStart_append_of_mem hc hblank, trimEnd_append_blank h, trim]

/-! ### Keywords in any case

A declared type is recognised by a Latin keyword anywhere in its upper-case form. Upper case is
Unicode's, in which a few characters outside ASCII turn into ASCII capitals: `ß` into `SS`, the
dotless `ı` into `I`, the ligature `ﬂ` into `FL`. Characters whose upper-case form holds no ASCII
letter stand for themselves, which changes no search for a keyword in ASCII capitals. -/

/-- The characters outside ASCII whose upper-case form has an ASCII letter in it, with that form. -/
def capitalForms : List (Nat × List Char) :=
  [(0x00DF, ['S', 'S']),
   (0x0131, ['I']),
   (0x0149, [Char.ofNat 0x02BC, 'N']),
   (0x017F, ['S']),
   (0x01F0, ['J', Char.ofNat 0x030C]),
   (0x1E96, ['H', Char.ofNat 0x0331]),
   (0x1E97, ['T', Char.ofNat 0x0308]),
   (0x1E98, ['W', Char.ofNat 0x030A]),
   (0x1E99, ['Y', Char.ofNat 0x030A]),
   (0x1E9A, ['A', Char.ofNat 0x02BE]),
   (0xFB00, ['F', 'F']),
   (0xFB01, ['F', 'I']),
   (0xFB02, ['F', 'L']),
   (0xFB03, ['F', 'F', 'I']),
   (0xFB04, ['F', 'F', 'L']),
   (0xFB05, ['S', 'T']),
   (0xFB06, ['S', 'T'])]

/-- The upper-case form of `c`, exact as far as ASCII letters go. -/
def capitals (c : Char) : List Char :=
  (capitalForms.lookup c.toNat).getD [c.toUpper]

/-- Whether `word` is a contiguous part of a text. -/
def occurs (word : List Char) : List Char → Bool
  | [] => word.isEmpty
  | c :: rest => word.isPrefixOf (c :: rest) || occurs word rest

theorem occurs_iff {word text : List Char} : occurs word text = true ↔ word <:+: text := by
  induction text with
  | nil => simp [occurs]
  | cons c rest ih => simp [occurs, List.infix_cons_iff, ih]

/-- Whether `keyword`, written in ASCII capitals, occurs in the upper-case form of `text`. -/
def mentions (text : List Char) (keyword : String) : Bool :=
  occurs keyword.toList (text.flatMap capitals)

end SchemaSnapshot.Text

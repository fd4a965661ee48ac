import SchemaSnapshot.Text.Case
import SchemaSnapshot.Text

/-!
# Dialects

Products differ in how they report the default of a column. A dialect says which reported defaults
mean that the product numbers the rows by itself, and turns the others into a form that all products
share. `Dialect.ofProduct` picks the dialect of a product by its name.
-/

namespace SchemaSnapshot.Text

/-! ### Quoted literals

A literal of the query language stands between two single quotes, and a single quote inside it is
written twice. `unquote? text = some body ↔ text = quote body` (`unquote?_eq_some_iff`), so no two
texts share a literal and a literal has one reading. -/

/-- The inside of the literal for a text: every single quote is doubled. -/
def doubleQuotes : List Char → List Char
  | [] => []
  | c :: rest => if c = '\'' then '\'' :: '\'' :: doubleQuotes rest else c :: doubleQuotes rest

/-- The literal for `body`. -/
def quote (body : List Char) : List Char :=
  '\'' :: (doubleQuotes body ++ ['\''])

/-- Reads the rest of a literal, past its opening quote. Two quotes stand for one, a single quote
must be the last character, and a literal that never closes is refused. -/
def readQuoted? : List Char → Option (List Char)
  | [] => none
  | ['\''] => some []
  | '\'' :: '\'' :: rest => (readQuoted? rest).map ('\'' :: ·)
  | c :: rest => if c = '\'' then none else (readQuoted? rest).map (c :: ·)

/-- The text that a literal stands for: `unquote? (quote body) = some body`. -/
def unquote? : List Char → Option (List Char)
  | '\'' :: rest => readQuoted? rest
  | _ => none

theorem readQuoted?_doubleQuotes (body : List Char) :
    readQuoted? (doubleQuotes body ++ ['\'']) = some body := by
  induction body with
  | nil => rfl
  | cons c rest ih =>
    by_cases h : c = '\''
    · subst h
      -- A doubled quote: the reader takes both and goes on.
      simp only [doubleQuotes, ite_true, List.cons_append]
      rw [readQuoted?, ih, Option.map_some]
    · simp [doubleQuotes, h, readQuoted?, ih]

theorem unquote?_quote (body : List Char) : unquote? (quote body) = some body :=
  readQuoted?_doubleQuotes body

theorem eq_doubleQuotes_of_readQuoted? {text body : List Char} (h : readQuoted? text = some body) :
    text = doubleQuotes body ++ ['\''] := by
  fun_induction readQuoted? text generalizing body with
  | case1 => simp at h
  | case2 => simp_all [doubleQuotes]
  | case3 rest ih =>
    obtain ⟨tail, htail, rfl⟩ := Option.map_eq_some_iff.1 h
    simp [doubleQuotes, ih htail]
  | case4 => simp at h
  | case5 c rest _ _ hc ih =>
    obtain ⟨tail, htail, rfl⟩ := Option.map_eq_some_iff.1 h
    simp [doubleQuotes, hc, ih htail]

theorem unquote?_eq_some_iff {text body : List Char} :
    unquote? text = some body ↔ text = quote body := by
  constructor
  · intro h
    unfold unquote? at h
    split at h
    · simp [quote, eq_doubleQuotes_of_readQuoted? h]
    · simp at h
  · rintro rfl
    exact unquote?_quote body

end SchemaSnapshot.Text

namespace SchemaSnapshot

/-! ### What a dialect is -/

/-- How a product reports the defaults of its columns. A missing default is read as such by every
dialect. -/
structure Dialect where
  name : String
  /-- Whether a reported default means that the product numbers the rows. -/
  numbersRows : Option String → Bool
  /-- The default in the shared form, `none` where the column has none. -/
  portable : Option String → Option String

namespace Dialect

/-- Defaults as they are reported, none of which means automatic numbering. -/
def generic : Dialect where
  name := "generic"
  numbersRows _ := false
  portable raw := raw

/-! ### H2

H2 numbers rows from a sequence of its own and reports the next value of that sequence as the
default. -/

/-- How the default of a column begins that is numbered by a system sequence. -/
def systemSequenceOpening : List Char :=
  "(NEXT VALUE FOR PUBLIC.SYSTEM_SEQUENCE_".toList

/-- Whether `raw` draws on a system sequence. White space around it does not matter. -/
def drawsOnSystemSequence (raw : String) : Bool :=
  systemSequenceOpening.isPrefixOf (Text.trim raw.toList)

/-- A default that draws on a system sequence means automatic numbering and no default. -/
def h2 : Dialect where
  name := "h2"
  numbersRows raw := raw.any drawsOnSystemSequence
  portable raw := raw.filter fun text => !drawsOnSystemSequence text

/-! ### Caché

Caché reports a string default between double quotes and an expression of its own language with a
dollar sign in front. -/

/-- What stands between two double quotes, which have to be different characters of the text. -/
def insideDoubleQuotes? : List Char → Option (List Char)
  | '"' :: rest => if rest.getLast? = some '"' then some rest.dropLast else none
  | _ => none

/-- The shared form of a default of Caché. A string becomes a quoted literal, an expression a
literal marked with its language, and all else stays as it is. -/
def portableDefault (raw : String) : String :=
  match insideDoubleQuotes? raw.toList with
  | some body => String.ofList (Text.quote body)
  | none =>
    if raw.toList.head? = some '$' then
      "OBJECTSCRIPT " ++ String.ofList (Text.quote raw.toList)
    else
      raw

/-- Strings and expressions in the shared form, none of which means automatic numbering. -/
def cache : Dialect where
  name := "cache"
  numbersRows _ := false
  portable raw := raw.map portableDefault

/-! ### The dialect of a product -/

/-- The names of products that report defaults as `h2` reads them, in small letters. -/
def h2Products : List String := ["h2"]

/-- The names of products that report defaults as `cache` reads them, in small letters. -/
def cacheProducts : List String :=
  ["cache", "intersystems cache", "caché", "intersystems caché"]

/-- The dialect of `product`. White space around the name and the case of its letters do not matter;
a product that is not known has the dialect `generic`. -/
def ofProduct (product : String) : Dialect :=
  let name := String.ofList ((Text.trim product.toList).flatMap Text.lowercase)
  if h2Products.contains name then h2
  else if cacheProducts.contains name then cache
  else generic

end Dialect

end SchemaSnapshot

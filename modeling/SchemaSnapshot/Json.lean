import SchemaSnapshot.Text

/-!
# JSON values and the types that have a JSON form

`Json` is the tree of a JSON text, with the fields of an object in the order in which they are
written. `JsonForm` is a type with a way into that tree and a way back, where the way back refuses
(`none`) what is not the form of any value. `Json.render` is the compact text of a tree.

Three conventions hold for every type of the library. A *record* is an object with its fields by
name, or the list of its fields in order; fields it does not know are ignored (`Json.record?`,
`Record.required`). A field that may be missing holds `null` or is left out (`Record.optional`). A
*choice* is the bare name of the alternative, or an object with that name as its only field and the
content of the alternative in it (`Json.choice?`).
-/

namespace SchemaSnapshot

/-- The tree of a JSON text. -/
inductive Json where
  | null
  | bool (value : Bool)
  | int (value : Int)
  /-- A number that is not written as a whole number: `mantissa / 10 ^ places`. -/
  | fraction (mantissa : Int) (places : Nat)
  | str (text : String)
  | arr (items : List Json)
  | obj (fields : List (String × Json))
deriving Inhabited

/-- A type whose values have a JSON form. -/
class JsonForm (α : Type) where
  /-- The form of a value. -/
  encode : α → Json
  /-- The value of a form, `none` if it is not the form of any. -/
  decode? : Json → Option α

export JsonForm (encode decode?)

/-! ### Plain values -/

/-- The text of a string value. -/
def Json.text? : Json → Option String
  | .str text => some text
  | _ => none

/-- The whole number of a number value. A number written as a fraction is refused, even if it is
whole. -/
def Json.int? : Json → Option Int
  | .int n => some n
  | _ => none

/-- The truth value of a Boolean value. -/
def Json.bool? : Json → Option Bool
  | .bool b => some b
  | _ => none

/-- The items of a list value. -/
def Json.items? : Json → Option (List Json)
  | .arr items => some items
  | _ => none

instance : JsonForm String := ⟨.str, Json.text?⟩

instance : JsonForm Bool := ⟨.bool, Json.bool?⟩

/-- A whole number that does not fit into the word is refused: `int32?` finds none. -/
instance : JsonForm Int32 := ⟨fun x => .int x.toInt, fun j => j.int? >>= int32?⟩

/-- A whole number that does not fit into the word is refused: `int16?` finds none. -/
instance : JsonForm Int16 := ⟨fun x => .int x.toInt, fun j => j.int? >>= int16?⟩

/-- `decode?` of a list is `none` as soon as one item is refused. -/
instance {α : Type} [JsonForm α] : JsonForm (List α) where
  encode l := .arr (l.map encode)
  decode? j := j.items? >>= List.mapM decode?

/-- `none` is written as `null`. -/
instance {α : Type} [JsonForm α] : JsonForm (Option α) where
  encode
    | some a => encode a
    | none => .null
  decode?
    | .null => some none
    | j => (decode? j).map some

/-! ### Records -/

/-- The fields of a record, by name. -/
abbrev Record := List (String × Json)

/-- Reads a record with the fields `names`. An object gives its fields by name; a list gives them in
the order of `names`, and has to give all of them. -/
def Json.record? (names : List String) : Json → Option Record
  | .obj fields => some fields
  | .arr items => if items.length = names.length then some (names.zip items) else none
  | _ => none

/-- `record?` where a list may leave out the last of `names`. -/
def Json.partialRecord? (names : List String) : Json → Option Record
  | .obj fields => some fields
  | .arr items => if items.length ≤ names.length then some (names.zip items) else none
  | _ => none

/-- What the field `name` of `r` holds, the first one if there are several. -/
def Record.field? (r : Record) (name : String) : Option Json :=
  r.lookup name

/-- The value of the field `name`, which has to be there. -/
def Record.required {α : Type} [JsonForm α] (r : Record) (name : String) : Option α :=
  r.field? name >>= decode?

/-- The value of a field that may be left out or `null`. -/
def Record.optional {α : Type} [JsonForm α] (r : Record) (name : String) : Option (Option α) :=
  match r.field? name with
  | none => some none
  | some j => decode? j

/-- The value of a field, `default` where it is left out. A field that is there has to hold a
value. -/
def Record.withDefault {α : Type} [JsonForm α] (r : Record) (name : String) (default : α) :
    Option α :=
  match r.field? name with
  | none => some default
  | some j => decode? j

/-! ### Choices -/

/-- The name and the content of a choice. The content of a bare name is `null`. -/
def Json.choice? : Json → Option (String × Json)
  | .str name => some (name, .null)
  | .obj [(name, content)] => some (name, content)
  | _ => none

/-- The name of a choice without content. -/
def Json.bareChoice? (j : Json) : Option String :=
  match j.choice? with
  | some (name, .null) => some name
  | _ => none

namespace Json

/-! ### The compact text of a value

A value is written without any white space, the fields of an object in their order. Inside a string
only the quote, the backslash and the control characters are escaped; all else stands for itself. -/

/-- The hexadecimal digit for `n`, in small letters. -/
def hexDigit (n : Nat) : Char :=
  Nat.digitChar n

/-- The characters that stand for `c` inside a string. Five control characters have a letter of
their own, the others are written by number. -/
def escape (c : Char) : List Char :=
  if c = '"' then ['\\', '"']
  else if c = '\\' then ['\\', '\\']
  else if c.toNat = 0x08 then ['\\', 'b']
  else if c.toNat = 0x09 then ['\\', 't']
  else if c.toNat = 0x0A then ['\\', 'n']
  else if c.toNat = 0x0C then ['\\', 'f']
  else if c.toNat = 0x0D then ['\\', 'r']
  else if c.toNat < 0x20 then
    ['\\', 'u', '0', '0', hexDigit (c.toNat / 16), hexDigit (c.toNat % 16)]
  else [c]

/-- `text` between quotes, its characters escaped. -/
def writeString (text : String) : List Char :=
  '"' :: (text.toList.flatMap escape ++ ['"'])

/-- The texts `parts` with commas between them. -/
def commaSeparated (parts : List (List Char)) : List Char :=
  [','].intercalate parts

mutual

/-- The characters of a value. -/
def write : Json → List Char
  | .null => ['n', 'u', 'l', 'l']
  | .bool true => ['t', 'r', 'u', 'e']
  | .bool false => ['f', 'a', 'l', 's', 'e']
  | .int n => Text.writeInt n
  | .fraction mantissa places => Text.writeInt mantissa ++ 'e' :: '-' :: Text.writeNat places
  | .str text => writeString text
  | .arr items => '[' :: (commaSeparated (writeItems items) ++ [']'])
  | .obj fields => Char.ofNat 0x7B :: (commaSeparated (writeFields fields) ++ [Char.ofNat 0x7D])

/-- The characters of each item of a list. -/
def writeItems : List Json → List (List Char)
  | [] => []
  | item :: rest => write item :: writeItems rest

/-- The characters of each field of an object, a colon between name and content. -/
def writeFields : List (String × Json) → List (List Char)
  | [] => []
  | (name, content) :: rest => (writeString name ++ ':' :: write content) :: writeFields rest

end

/-- The compact text of `j`. -/
def render (j : Json) : String :=
  String.ofList (write j)

end Json

end SchemaSnapshot

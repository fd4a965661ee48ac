/-!
# Texts that differ in case

Two ways to leave case aside are in use. Databases compare many of their own words (object kinds,
schema names, unquoted identifiers) without regard to the case of the 26 Latin letters and of no
other character: `sameIgnoringCase a b` is `foldCase a = foldCase b` (`sameIgnoringCase_iff`). Names
of products, and tables under a primary key, are compared in the small form that Unicode gives to
each character (`lowercase`).
-/

namespace SchemaSnapshot.Text

/-! ### Comparison without regard to ASCII case -/

/-- The case-blind form of `text`: `A` to `Z` become `a` to `z`, and every other character, however
it is cased elsewhere, stands for itself. -/
def foldCase (text : String) : List Char :=
  text.toList.map Char.toLower

/-- Whether `a` and `b` differ in the case of ASCII letters at most. -/
def sameIgnoringCase (a b : String) : Bool :=
  foldCase a == foldCase b

theorem sameIgnoringCase_iff {a b : String} :
    sameIgnoringCase a b = true ↔ foldCase a = foldCase b := by
  simp [sameIgnoringCase]

theorem foldCase_append (a b : String) : foldCase (a ++ b) = foldCase a ++ foldCase b := by
  rw [foldCase, String.toList_append, List.map_append]
  rfl

/-! ### Bytes -/

/-- `c.utf8Size = 1` for a character `c` of ASCII. -/
theorem utf8Size_of_lt {c : Char} (h : c.toNat < 128) : c.utf8Size = 1 :=
  Char.utf8Size_eq_one_iff.2 (UInt32.le_iff_toNat_le.2 (Nat.le_of_lt_succ h))

/-- `c.toLower.utf8Size = c.utf8Size`. -/
theorem utf8Size_toLower (c : Char) : c.toLower.utf8Size = c.utf8Size := by
  by_cases hc : c.val ≥ 'A'.val ∧ c.val ≤ 'Z'.val
  · have hcapital : 65 ≤ c.toNat ∧ c.toNat ≤ 90 := by
      simpa [UInt32.le_iff_toNat_le] using hc
    have hsmall : c.toLower.toNat = (c.toNat + 32) % 2 ^ 32 := by
      rw [show c.toLower = _ from dif_pos hc]
      exact UInt32.toNat_add _ _
    rw [utf8Size_of_lt (by omega), utf8Size_of_lt (by omega)]
  · exact congrArg Char.utf8Size (dif_neg hc)

/-- `a.utf8ByteSize = b.utf8ByteSize` if `a` and `b` differ in ASCII case at most. -/
theorem utf8ByteSize_of_foldCase {a b : String} (h : foldCase a = foldCase b) :
    a.utf8ByteSize = b.utf8ByteSize := by
  have hfold (l : List Char) : (String.ofList (l.map Char.toLower)).utf8ByteSize =
      (String.ofList l).utf8ByteSize := by
    induction l with
    | nil => rfl
    | cons c rest ih =>
      rw [List.map_cons, String.ofList_cons, String.ofList_cons, String.utf8ByteSize_append,
        String.utf8ByteSize_append, String.utf8ByteSize_singleton, String.utf8ByteSize_singleton,
        utf8Size_toLower, ih]
  have hbytes (text : String) : (String.ofList (foldCase text)).utf8ByteSize =
      text.utf8ByteSize := by
    rw [foldCase, hfold, String.ofList_toList]
  rw [← hbytes a, h, hbytes b]

/-- The first `count` bytes of `text`, `none` if `text` is shorter or a character would be cut in
two. -/
def firstBytes? (text : String) (count : Nat) : Option String :=
  if h : String.Pos.Raw.IsValid text ⟨count⟩ then
    some (text.sliceTo ⟨⟨count⟩, h⟩).copy
  else
    none

theorem firstBytes?_eq_some_iff {text first : String} {count : Nat} :
    firstBytes? text count = some first ↔
      ∃ rest, text = first ++ rest ∧ first.utf8ByteSize = count := by
  unfold firstBytes?
  split
  · rw [Option.some.injEq, String.copy_sliceTo_eq_iff_exists_splits]
    refine exists_congr fun rest => ⟨?_, ?_⟩
    · rintro ⟨hsplit, hplace⟩
      exact ⟨hsplit, (congrArg String.Pos.Raw.byteIdx hplace).symm⟩
    · rintro ⟨hsplit, rfl⟩
      exact ⟨hsplit, rfl⟩
  · rename_i hplace
    constructor
    · intro hnone
      cases hnone
    · rintro ⟨rest, rfl, rfl⟩
      exact absurd (String.Pos.Raw.isValid_iff_exists_append.2 ⟨first, rest, rfl, rfl⟩) hplace

/-! ### Openings

Whether a text opens with some word is found out by cutting off as many bytes as the word has
(`opensIgnoringCase`). The cut may come out wrong, past the end of the text or inside a character.
But a letter has one byte in either case, so the bytes that are compared are the characters that
should be (`opensIgnoringCase_iff`). -/

/-- Whether `text` begins with `opening`, but for ASCII case. As many bytes of `text` are compared
as `opening` has. -/
def opensIgnoringCase (opening text : String) : Bool :=
  (firstBytes? text opening.utf8ByteSize).any (sameIgnoringCase · opening)

/-- Bytes or characters make no difference: `text` opens with `opening` exactly if
`text = first ++ rest` for some `first` that differs from `opening` in ASCII case at most. -/
theorem opensIgnoringCase_iff {opening text : String} :
    opensIgnoringCase opening text = true ↔
      ∃ first rest, text = first ++ rest ∧ sameIgnoringCase first opening = true := by
  rw [opensIgnoringCase, Option.any_eq_true]
  refine exists_congr fun first => ?_
  rw [firstBytes?_eq_some_iff]
  constructor
  · rintro ⟨⟨rest, htext, -⟩, hsame⟩
    exact ⟨rest, htext, hsame⟩
  · rintro ⟨rest, htext, hsame⟩
    exact ⟨⟨rest, htext, utf8ByteSize_of_foldCase (sameIgnoringCase_iff.1 hsame)⟩, hsame⟩

theorem opensIgnoringCase_iff_prefix {opening text : String} :
    opensIgnoringCase opening text = true ↔ foldCase opening <+: foldCase text := by
  rw [opensIgnoringCase_iff]
  constructor
  · rintro ⟨first, rest, rfl, hsame⟩
    rw [foldCase_append, sameIgnoringCase_iff.1 hsame]
    exact List.prefix_append _ _
  · rintro ⟨tail, htail⟩
    obtain ⟨first, rest, htext, hfirst, -⟩ := List.map_eq_append_iff.1 htail.symm
    refine ⟨String.ofList first, String.ofList rest, ?_, ?_⟩
    · rw [← String.ofList_append, ← htext, String.ofList_toList]
    · rw [sameIgnoringCase_iff, foldCase, String.toList_ofList, hfirst]

/-- `opensIgnoringCase opening a = opensIgnoringCase opening b` if `a` and `b` differ in ASCII case
at most. -/
theorem opensIgnoringCase_congr {opening a b : String} (h : foldCase a = foldCase b) :
    opensIgnoringCase opening a = opensIgnoringCase opening b := by
  rw [Bool.eq_iff_iff, opensIgnoringCase_iff_prefix, opensIgnoringCase_iff_prefix, h]

/-! ### Lower case, character by character

The lower-case mapping of Unicode 17.0 on single characters. It looks at no neighbours, so a capital
sigma becomes `σ` wherever it stands, and one character can become two: the dotted capital `İ` is
the only one that does (`i` and a combining dot). The mapping is nearly everywhere a shift by a
constant over a run of neighbouring code points, or over every other code point of a run where
capitals and small letters alternate (`caseRuns`). -/

/-- A run of capitals: the code points `first`, `first + stride`, … up to `last` have their small
letter `shift` code points further on. -/
structure CaseRun where
  first : Nat
  last : Nat
  stride : Nat
  shift : Int

/-- Whether `point` is one of the capitals of `run`. -/
def CaseRun.covers (run : CaseRun) (point : Nat) : Bool :=
  run.first ≤ point && point ≤ run.last && (point - run.first) % run.stride == 0

/-- Every capital with a small letter of its own, 1487 characters in 185 runs. -/
def caseRuns : List CaseRun :=
  [ ⟨0x41, 0x5A, 1, 32⟩, ⟨0xC0, 0xD6, 1, 32⟩, ⟨0xD8, 0xDE, 1, 32⟩, ⟨0x100, 0x12E, 2, 1⟩,
    ⟨0x132, 0x136, 2, 1⟩, ⟨0x139, 0x147, 2, 1⟩, ⟨0x14A, 0x176, 2, 1⟩, ⟨0x178, 0x178, 1, -121⟩,
    ⟨0x179, 0x17D, 2, 1⟩, ⟨0x181, 0x181, 1, 210⟩, ⟨0x182, 0x184, 2, 1⟩, ⟨0x186, 0x186, 1, 206⟩,
    ⟨0x187, 0x187, 1, 1⟩, ⟨0x189, 0x18A, 1, 205⟩, ⟨0x18B, 0x18B, 1, 1⟩, ⟨0x18E, 0x18E, 1, 79⟩,
    ⟨0x18F, 0x18F, 1, 202⟩, ⟨0x190, 0x190, 1, 203⟩, ⟨0x191, 0x191, 1, 1⟩, ⟨0x193, 0x193, 1, 205⟩,
    ⟨0x194, 0x194, 1, 207⟩, ⟨0x196, 0x196, 1, 211⟩, ⟨0x197, 0x197, 1, 209⟩, ⟨0x198, 0x198, 1, 1⟩,
    ⟨0x19C, 0x19C, 1, 211⟩, ⟨0x19D, 0x19D, 1, 213⟩, ⟨0x19F, 0x19F, 1, 214⟩, ⟨0x1A0, 0x1A4, 2, 1⟩,
    ⟨0x1A6, 0x1A6, 1, 218⟩, ⟨0x1A7, 0x1A7, 1, 1⟩, ⟨0x1A9, 0x1A9, 1, 218⟩, ⟨0x1AC, 0x1AC, 1, 1⟩,
    ⟨0x1AE, 0x1AE, 1, 218⟩, ⟨0x1AF, 0x1AF, 1, 1⟩, ⟨0x1B1, 0x1B2, 1, 217⟩, ⟨0x1B3, 0x1B5, 2, 1⟩,
    ⟨0x1B7, 0x1B7, 1, 219⟩, ⟨0x1B8, 0x1B8, 1, 1⟩, ⟨0x1BC, 0x1BC, 1, 1⟩, ⟨0x1C4, 0x1C4, 1, 2⟩,
    ⟨0x1C5, 0x1C5, 1, 1⟩, ⟨0x1C7, 0x1C7, 1, 2⟩, ⟨0x1C8, 0x1C8, 1, 1⟩, ⟨0x1CA, 0x1CA, 1, 2⟩,
    ⟨0x1CB, 0x1DB, 2, 1⟩, ⟨0x1DE, 0x1EE, 2, 1⟩, ⟨0x1F1, 0x1F1, 1, 2⟩, ⟨0x1F2, 0x1F4, 2, 1⟩,
    ⟨0x1F6, 0x1F6, 1, -97⟩, ⟨0x1F7, 0x1F7, 1, -56⟩, ⟨0x1F8, 0x21E, 2, 1⟩, ⟨0x220, 0x220, 1, -130⟩,
    ⟨0x222, 0x232, 2, 1⟩, ⟨0x23A, 0x23A, 1, 10795⟩, ⟨0x23B, 0x23B, 1, 1⟩, ⟨0x23D, 0x23D, 1, -163⟩,
    ⟨0x23E, 0x23E, 1, 10792⟩, ⟨0x241, 0x241, 1, 1⟩, ⟨0x243, 0x243, 1, -195⟩,
    ⟨0x244, 0x244, 1, 69⟩, ⟨0x245, 0x245, 1, 71⟩, ⟨0x246, 0x24E, 2, 1⟩, ⟨0x370, 0x372, 2, 1⟩,
    ⟨0x376, 0x376, 1, 1⟩, ⟨0x37F, 0x37F, 1, 116⟩, ⟨0x386, 0x386, 1, 38⟩, ⟨0x388, 0x38A, 1, 37⟩,
    ⟨0x38C, 0x38C, 1, 64⟩, ⟨0x38E, 0x38F, 1, 63⟩, ⟨0x391, 0x3A1, 1, 32⟩, ⟨0x3A3, 0x3AB, 1, 32⟩,
    ⟨0x3CF, 0x3CF, 1, 8⟩, ⟨0x3D8, 0x3EE, 2, 1⟩, ⟨0x3F4, 0x3F4, 1, -60⟩, ⟨0x3F7, 0x3F7, 1, 1⟩,
    ⟨0x3F9, 0x3F9, 1, -7⟩, ⟨0x3FA, 0x3FA, 1, 1⟩, ⟨0x3FD, 0x3FF, 1, -130⟩, ⟨0x400, 0x40F, 1, 80⟩,
    ⟨0x410, 0x42F, 1, 32⟩, ⟨0x460, 0x480, 2, 1⟩, ⟨0x48A, 0x4BE, 2, 1⟩, ⟨0x4C0, 0x4C0, 1, 15⟩,
    ⟨0x4C1, 0x4CD, 2, 1⟩, ⟨0x4D0, 0x52E, 2, 1⟩, ⟨0x531, 0x556, 1, 48⟩, ⟨0x10A0, 0x10C5, 1, 7264⟩,
    ⟨0x10C7, 0x10C7, 1, 7264⟩, ⟨0x10CD, 0x10CD, 1, 7264⟩, ⟨0x13A0, 0x13EF, 1, 38864⟩,
    ⟨0x13F0, 0x13F5, 1, 8⟩, ⟨0x1C89, 0x1C89, 1, 1⟩, ⟨0x1C90, 0x1CBA, 1, -3008⟩,
    ⟨0x1CBD, 0x1CBF, 1, -3008⟩, ⟨0x1E00, 0x1E94, 2, 1⟩, ⟨0x1E9E, 0x1E9E, 1, -7615⟩,
    ⟨0x1EA0, 0x1EFE, 2, 1⟩, ⟨0x1F08, 0x1F0F, 1, -8⟩, ⟨0x1F18, 0x1F1D, 1, -8⟩,
    ⟨0x1F28, 0x1F2F, 1, -8⟩, ⟨0x1F38, 0x1F3F, 1, -8⟩, ⟨0x1F48, 0x1F4D, 1, -8⟩,
    ⟨0x1F59, 0x1F5F, 2, -8⟩, ⟨0x1F68, 0x1F6F, 1, -8⟩, ⟨0x1F88, 0x1F8F, 1, -8⟩,
    ⟨0x1F98, 0x1F9F, 1, -8⟩, ⟨0x1FA8, 0x1FAF, 1, -8⟩, ⟨0x1FB8, 0x1FB9, 1, -8⟩,
    ⟨0x1FBA, 0x1FBB, 1, -74⟩, ⟨0x1FBC, 0x1FBC, 1, -9⟩, ⟨0x1FC8, 0x1FCB, 1, -86⟩,
    ⟨0x1FCC, 0x1FCC, 1, -9⟩, ⟨0x1FD8, 0x1FD9, 1, -8⟩, ⟨0x1FDA, 0x1FDB, 1, -100⟩,
    ⟨0x1FE8, 0x1FE9, 1, -8⟩, ⟨0x1FEA, 0x1FEB, 1, -112⟩, ⟨0x1FEC, 0x1FEC, 1, -7⟩,
    ⟨0x1FF8, 0x1FF9, 1, -128⟩, ⟨0x1FFA, 0x1FFB, 1, -126⟩, ⟨0x1FFC, 0x1FFC, 1, -9⟩,
    ⟨0x2126, 0x2126, 1, -7517⟩, ⟨0x212A, 0x212A, 1, -8383⟩, ⟨0x212B, 0x212B, 1, -8262⟩,
    ⟨0x2132, 0x2132, 1, 28⟩, ⟨0x2160, 0x216F, 1, 16⟩, ⟨0x2183, 0x2183, 1, 1⟩,
    ⟨0x24B6, 0x24CF, 1, 26⟩, ⟨0x2C00, 0x2C2F, 1, 48⟩, ⟨0x2C60, 0x2C60, 1, 1⟩,
    ⟨0x2C62, 0x2C62, 1, -10743⟩, ⟨0x2C63, 0x2C63, 1, -3814⟩, ⟨0x2C64, 0x2C64, 1, -10727⟩,
    ⟨0x2C67, 0x2C6B, 2, 1⟩, ⟨0x2C6D, 0x2C6D, 1, -10780⟩, ⟨0x2C6E, 0x2C6E, 1, -10749⟩,
    ⟨0x2C6F, 0x2C6F, 1, -10783⟩, ⟨0x2C70, 0x2C70, 1, -10782⟩, ⟨0x2C72, 0x2C72, 1, 1⟩,
    ⟨0x2C75, 0x2C75, 1, 1⟩, ⟨0x2C7E, 0x2C7F, 1, -10815⟩, ⟨0x2C80, 0x2CE2, 2, 1⟩,
    ⟨0x2CEB, 0x2CED, 2, 1⟩, ⟨0x2CF2, 0x2CF2, 1, 1⟩, ⟨0xA640, 0xA66C, 2, 1⟩,
    ⟨0xA680, 0xA69A, 2, 1⟩, ⟨0xA722, 0xA72E, 2, 1⟩, ⟨0xA732, 0xA76E, 2, 1⟩,
    ⟨0xA779, 0xA77B, 2, 1⟩, ⟨0xA77D, 0xA77D, 1, -35332⟩, ⟨0xA77E, 0xA786, 2, 1⟩,
    ⟨0xA78B, 0xA78B, 1, 1⟩, ⟨0xA78D, 0xA78D, 1, -42280⟩, ⟨0xA790, 0xA792, 2, 1⟩,
    ⟨0xA796, 0xA7A8, 2, 1⟩, ⟨0xA7AA, 0xA7AA, 1, -42308⟩, ⟨0xA7AB, 0xA7AB, 1, -42319⟩,
    ⟨0xA7AC, 0xA7AC, 1, -42315⟩, ⟨0xA7AD, 0xA7AD, 1, -42305⟩, ⟨0xA7AE, 0xA7AE, 1, -42308⟩,
    ⟨0xA7B0, 0xA7B0, 1, -42258⟩, ⟨0xA7B1, 0xA7B1, 1, -42282⟩, ⟨0xA7B2, 0xA7B2, 1, -42261⟩,
    ⟨0xA7B3, 0xA7B3, 1, 928⟩, ⟨0xA7B4, 0xA7C2, 2, 1⟩, ⟨0xA7C4, 0xA7C4, 1, -48⟩,
    ⟨0xA7C5, 0xA7C5, 1, -42307⟩, ⟨0xA7C6, 0xA7C6, 1, -35384⟩, ⟨0xA7C7, 0xA7C9, 2, 1⟩,
    ⟨0xA7CB, 0xA7CB, 1, -42343⟩, ⟨0xA7CC, 0xA7DA, 2, 1⟩, ⟨0xA7DC, 0xA7DC, 1, -42561⟩,
    ⟨0xA7F5, 0xA7F5, 1, 1⟩, ⟨0xFF21, 0xFF3A, 1, 32⟩, ⟨0x10400, 0x10427, 1, 40⟩,
    ⟨0x104B0, 0x104D3, 1, 40⟩, ⟨0x10570, 0x1057A, 1, 39⟩, ⟨0x1057C, 0x1058A, 1, 39⟩,
    ⟨0x1058C, 0x10592, 1, 39⟩, ⟨0x10594, 0x10595, 1, 39⟩, ⟨0x10C80, 0x10CB2, 1, 64⟩,
    ⟨0x10D50, 0x10D65, 1, 32⟩, ⟨0x118A0, 0x118BF, 1, 32⟩, ⟨0x16E40, 0x16E5F, 1, 32⟩,
    ⟨0x16EA0, 0x16EB8, 1, 27⟩, ⟨0x1E900, 0x1E921, 1, 34⟩ ]

/-- The runs of `caseRuns` ascend and do not overlap, so a character is in one at most. -/
theorem pairwise_caseRuns : caseRuns.Pairwise fun a b => a.last < b.first := by
  decide +kernel

/-- The small form of `c`. A character in none of the runs is its own small form. -/
def lowercase (c : Char) : List Char :=
  if c.toNat = 0x130 then
    ['i', Char.ofNat 0x307]
  else
    match caseRuns.find? (·.covers c.toNat) with
    | some run => [Char.ofNat (c.toNat + run.shift).toNat]
    | none => [c]

/-- The small forms of the characters of `text`, one after another. -/
def lowercaseText (text : String) : List Char :=
  text.toList.flatMap lowercase

end SchemaSnapshot.Text

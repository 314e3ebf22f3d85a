import Mathlib.Algebra.Order.Field.Rat
import Mathlib.Algebra.Order.Group.Abs
import Mathlib.Data.List.Forall2
import StoryKnobs.Json.Strings

/-!
# Property names in scripts

The name of a property is written as an identifier, as a text between quotes or as a number, and each
of them denotes a name: identifiers and texts by way of escapes, and a number by the digits in which
its value is printed. Which characters beyond the first 128 belong to identifiers is left open.

A text without special characters denotes itself between quotes. No quoted text that is followed by a
colon starts with the name that it denotes and a colon.
-/

namespace StoryKnobs.Script

open StoryKnobs.Json (hexValue?)

/-! ### Digits and escapes -/

def IsDigit (base : Nat) (char : Char) : Prop := ∃ value ∈ hexValue? char, value < base

def valueOf (base : Nat) (digits : List Char) : Nat :=
  digits.foldl (fun value digit => base * value + (hexValue? digit).getD 0) 0

/-- What stands behind the backslash of an escape, and the number of the character. -/
inductive Escape : List Char → Nat → Prop where
  | four {digits : List Char} (hlength : digits.length = 4)
      (hdigits : ∀ digit ∈ digits, IsDigit 16 digit) : Escape ('u' :: digits) (valueOf 16 digits)
  | braced {digits : List Char} (hne : digits ≠ [])
      (hdigits : ∀ digit ∈ digits, IsDigit 16 digit) (hbound : valueOf 16 digits ≤ 0x10FFFF) :
      Escape ('u' :: '\x7b' :: digits ++ ['\x7d']) (valueOf 16 digits)

/-! ### Identifiers -/

/-- The characters beyond the first 128 with which an identifier may start or go on. -/
structure Letters where
  start : Char → Bool
  part : Char → Bool

namespace Letters

def isStart (letters : Letters) (char : Char) : Bool :=
  if char.toNat < 128 then char.isAlpha || char == '$' || char == '_' else letters.start char

def isPart (letters : Letters) (char : Char) : Bool :=
  if char.toNat < 128 then char.isAlphanum || char == '$' || char == '_' else letters.part char

end Letters

/-- Whether a text is an identifier. Reserved words are names of properties like any other. -/
def IsIdentifier (letters : Letters) : List Char → Prop
  | [] => False
  | first :: others => letters.isStart first ∧ ∀ char ∈ others, letters.isPart char

inductive Spells : List Char → Char → Prop where
  | plain (char : Char) : Spells [char] char
  | escape {escape : List Char} {char : Char} (hescape : Escape escape char.toNat) :
      Spells ('\\' :: escape) char

def IdentifierName (letters : Letters) (key name : List Char) : Prop :=
  IsIdentifier letters name ∧ ∃ pieces, List.Forall₂ Spells pieces name ∧ key = pieces.flatten

/-! ### Quoted texts -/

/-- A character as numbers below `0x10000`. -/
def unitsOf (code : Nat) : List Nat :=
  if code < 0x10000 then [code]
  else [0xD800 + (code - 0x10000) / 0x400, 0xDC00 + (code - 0x10000) % 0x400]

def textUnits (chars : List Char) : List Nat := chars.flatMap fun char => unitsOf char.toNat

def singleEscapes : List (Char × Nat) :=
  [('\'', 0x27), ('"', 0x22), ('\\', 0x5C), ('b', 0x08), ('f', 0x0C), ('n', 0x0A), ('r', 0x0D),
    ('t', 0x09), ('v', 0x0B)]

def lineBreaks : List (List Char) := [['\n'], ['\r'], ['\r', '\n'], ['\u2028'], ['\u2029']]

/-- What stands between two quotes, and the text that it denotes. Numbers in base eight are not
escapes, and a line goes on behind a backslash at its end. -/
inductive StringBody (quote : Char) : List Char → List Nat → Prop where
  | nil : StringBody quote [] []
  | plain {char : Char} {rest : List Char} {units : List Nat} (hquote : char ≠ quote)
      (hplain : char ∉ ['\\', '\n', '\r']) (hrest : StringBody quote rest units) :
      StringBody quote (char :: rest) (unitsOf char.toNat ++ units)
  | single {char : Char} {unit : Nat} {rest : List Char} {units : List Nat}
      (hsingle : (char, unit) ∈ singleEscapes) (hrest : StringBody quote rest units) :
      StringBody quote ('\\' :: char :: rest) (unit :: units)
  | other {char : Char} {rest : List Char} {units : List Nat} (hdigit : ¬ IsDigit 10 char)
      (hmark : char ∉ ['x', 'u']) (hbreak : [char] ∉ lineBreaks)
      (hsingle : ∀ unit, (char, unit) ∉ singleEscapes) (hrest : StringBody quote rest units) :
      StringBody quote ('\\' :: char :: rest) (unitsOf char.toNat ++ units)
  | nul {rest : List Char} {units : List Nat} (hnext : ∀ char ∈ rest.head?, ¬ IsDigit 10 char)
      (hrest : StringBody quote rest units) : StringBody quote ('\\' :: '0' :: rest) (0 :: units)
  | hex {first second : Char} {rest : List Char} {units : List Nat} (hfirst : IsDigit 16 first)
      (hsecond : IsDigit 16 second) (hrest : StringBody quote rest units) :
      StringBody quote ('\\' :: 'x' :: first :: second :: rest)
        (valueOf 16 [first, second] :: units)
  | unicode {escape rest : List Char} {code : Nat} {units : List Nat}
      (hescape : Escape escape code) (hrest : StringBody quote rest units) :
      StringBody quote ('\\' :: escape ++ rest) (unitsOf code ++ units)
  | lineBreak {lineBreak rest : List Char} {units : List Nat} (hbreak : lineBreak ∈ lineBreaks)
      (hlongest : lineBreak = ['\r'] → rest.head? ≠ some '\n')
      (hrest : StringBody quote rest units) :
      StringBody quote ('\\' :: lineBreak ++ rest) units

def StringLiteral (quote : Char) (key name : List Char) : Prop :=
  ∃ body, key = quote :: body ++ [quote] ∧ StringBody quote body (textUnits name)

/-! ### Numbers -/

def Digits (base : Nat) (text digits : List Char) : Prop :=
  ∃ groups : List (List Char), groups ≠ [] ∧
    (∀ group ∈ groups, group ≠ [] ∧ ∀ digit ∈ group, IsDigit base digit) ∧
    text = ['_'].intercalate groups ∧ digits = groups.flatten

inductive Whole : List Char → List Char → Prop where
  | zero : Whole ['0'] ['0']
  | digits {text digits : List Char} (hdigits : Digits 10 text digits)
      (hhead : text.head? ≠ some '0') : Whole text digits

inductive Exponent : List Char → Int → Prop where
  | none : Exponent [] 0
  | up {mark : Char} {sign text digits : List Char} (hmark : mark ∈ ['e', 'E'])
      (hsign : sign ∈ [[], ['+']]) (hdigits : Digits 10 text digits) :
      Exponent (mark :: sign ++ text) (valueOf 10 digits)
  | down {mark : Char} {text digits : List Char} (hmark : mark ∈ ['e', 'E'])
      (hdigits : Digits 10 text digits) :
      Exponent (mark :: '-' :: text) (-valueOf 10 digits)

inductive DecimalLiteral : List Char → ℚ → Prop where
  | whole {text digits tail : List Char} {exponent : Int} (hwhole : Whole text digits)
      (hexponent : Exponent tail exponent) :
      DecimalLiteral (text ++ tail) (valueOf 10 digits * 10 ^ exponent)
  | point {text digits fraction places tail : List Char} {exponent : Int}
      (hwhole : Whole text digits)
      (hfraction : fraction = [] ∧ places = [] ∨ Digits 10 fraction places)
      (hexponent : Exponent tail exponent) :
      DecimalLiteral (text ++ '.' :: fraction ++ tail)
        (valueOf 10 (digits ++ places) * 10 ^ (exponent - places.length))
  | fraction {fraction places tail : List Char} {exponent : Int}
      (hfraction : Digits 10 fraction places) (hexponent : Exponent tail exponent) :
      DecimalLiteral ('.' :: fraction ++ tail)
        (valueOf 10 places * 10 ^ (exponent - places.length))

/-- A number with 53 binary digits; the numbers at the lower end have fewer. -/
def IsBinary (value : ℚ) (significand : Nat) : Prop :=
  significand < 2 ^ 53 ∧ ∃ exponent : Int,
    (2 ^ 52 ≤ significand ∧ -1074 ≤ exponent ∨ exponent = -1074) ∧
    value = significand * 2 ^ exponent

/-- The binary number next to `exact`; of two that are equally near, the even one. -/
def RoundsTo (exact value : ℚ) : Prop :=
  ∃ significand, IsBinary value significand ∧
    ∀ other another, IsBinary other another → other ≠ value →
      |exact - value| < |exact - other| ∨
        |exact - value| = |exact - other| ∧ significand % 2 = 0

structure ReadsBack (value : ℚ) (digits : Nat) (point : Int) : Prop where
  pos : 0 < digits
  rounds : RoundsTo (digits * 10 ^ (point - (Nat.toDigits 10 digits).length)) value

def layout (text : List Char) (point : Int) : List Char :=
  if text.length ≤ point ∧ point ≤ 21 then
    text ++ List.replicate (point - text.length).toNat '0'
  else if 0 < point ∧ point ≤ 21 then text.take point.toNat ++ '.' :: text.drop point.toNat
  else if -6 < point ∧ point ≤ 0 then '0' :: '.' :: List.replicate (-point).toNat '0' ++ text
  else
    let sign := if 0 < point then '+' else '-'
    let exponent := 'e' :: sign :: Nat.toDigits 10 (point - 1).natAbs
    match text with
    | first :: second :: others => first :: '.' :: second :: others ++ exponent
    | _ => text ++ exponent

/-- How a number is printed: with as few digits as possible. -/
inductive NumberText : ℚ → List Char → Prop where
  | zero : NumberText 0 ['0']
  | infinity {value : ℚ} (hbound : 2 ^ 1024 ≤ value) : NumberText value "Infinity".toList
  | finite {value : ℚ} {digits : Nat} {point : Int} (hpos : 0 < value) (hbound : value < 2 ^ 1024)
      (hreads : ReadsBack value digits point)
      (hshortest : ∀ other place, ReadsBack value other place →
        (Nat.toDigits 10 digits).length ≤ (Nat.toDigits 10 other).length) :
      NumberText value (layout (Nat.toDigits 10 digits) point)

def baseMarks : List (Char × Nat) :=
  [('b', 2), ('B', 2), ('o', 8), ('O', 8), ('x', 16), ('X', 16)]

/-- A number, and the text that its value is printed as. A number that ends in `n` is exact. -/
inductive NumericLiteral : List Char → List Char → Prop where
  | decimal {key name : List Char} {exact value : ℚ} (hdecimal : DecimalLiteral key exact)
      (hrounds : RoundsTo exact value) (htext : NumberText value name) : NumericLiteral key name
  | based {mark : Char} {base : Nat} {text digits name : List Char} {value : ℚ}
      (hmark : (mark, base) ∈ baseMarks) (hdigits : Digits base text digits)
      (hrounds : RoundsTo (valueOf base digits) value) (htext : NumberText value name) :
      NumericLiteral ('0' :: mark :: text) name
  | exact {text digits : List Char} (hwhole : Whole text digits) :
      NumericLiteral (text ++ ['n']) (Nat.toDigits 10 (valueOf 10 digits))
  | exactBased {mark : Char} {base : Nat} {text digits : List Char}
      (hmark : (mark, base) ∈ baseMarks) (hdigits : Digits base text digits) :
      NumericLiteral ('0' :: mark :: text ++ ['n']) (Nat.toDigits 10 (valueOf base digits))

inductive PropertyName (letters : Letters) (key name : List Char) : Prop where
  | identifier (hidentifier : IdentifierName letters key name)
  | quoted {quote : Char} (hquote : quote ∈ ['\'', '"']) (hliteral : StringLiteral quote key name)
  | numeric (hnumeric : NumericLiteral key name)

theorem numericLiteral_zero : NumericLiteral ['0'] ['0'] := by
  have hbinary : IsBinary 0 0 := ⟨by decide, -1074, .inr rfl, by simp⟩
  have hrounds : RoundsTo 0 0 := by
    refine ⟨0, hbinary, fun other _ _ hne => .inl ?_⟩
    rw [sub_zero, abs_zero, zero_sub, abs_neg]
    exact abs_pos.mpr hne
  have hdecimal : DecimalLiteral ['0'] 0 := by
    have hzero := DecimalLiteral.whole .zero .none
    have hvalue : valueOf 10 ['0'] = 0 := rfl
    rwa [hvalue, Nat.cast_zero, zero_mul, List.append_nil] at hzero
  exact .decimal hdecimal hrounds .zero

/-! ### Characters that are not in a name -/

def specials : List Char := [':', '\'', '\\', '\n', '\r']

variable {letters : Letters} {base code point : Nat} {char quote : Char}
  {key name text digits escape body rest : List Char} {units : List Nat}

theorem not_isDigit (hnone : hexValue? char = none) : ¬ IsDigit base char := by
  rintro ⟨value, hvalue, -⟩
  rw [hnone] at hvalue
  cases hvalue

theorem notMem_of_isDigit (hnone : hexValue? char = none)
    (hdigits : ∀ digit ∈ digits, IsDigit base digit) : char ∉ digits :=
  fun hmem => not_isDigit hnone (hdigits char hmem)

theorem notMem_escape (hnone : hexValue? char = none) (hmark : char ∉ ['u', '\x7b', '\x7d'])
    (hescape : Escape escape code) : char ∉ escape := by
  simp only [List.mem_cons, List.not_mem_nil, or_false, not_or] at hmark
  cases hescape with
  | four _ hdigits => simp [hmark, notMem_of_isDigit hnone hdigits]
  | braced _ hdigits _ => simp [hmark, notMem_of_isDigit hnone hdigits]

theorem hexValue?_of_mem_specials (hspecial : char ∈ specials) : hexValue? char = none := by
  simp only [specials, List.mem_cons, List.not_mem_nil, or_false] at hspecial
  rcases hspecial with rfl | rfl | rfl | rfl | rfl <;> rfl

theorem special_notMem_identifier (hname : IsIdentifier letters name) (hspecial : char ∈ specials) :
    char ∉ name := by
  have hletters : letters.isStart char = false ∧ letters.isPart char = false := by
    simp only [specials, List.mem_cons, List.not_mem_nil, or_false] at hspecial
    rcases hspecial with rfl | rfl | rfl | rfl | rfl <;> exact ⟨rfl, rfl⟩
  cases name with
  | nil => exact List.not_mem_nil
  | cons first others =>
      obtain ⟨hfirst, hothers⟩ := hname
      refine List.not_mem_cons_of_ne_of_not_mem ?_ fun hmem => ?_
      · rintro rfl
        exact absurd hfirst (by simp [hletters.1])
      · exact absurd (hothers char hmem) (by simp [hletters.2])

theorem IsIdentifier.identifierName (hname : IsIdentifier letters name) :
    IdentifierName letters name name := by
  refine ⟨hname, name.map ([·]), ?_, ?_⟩
  · rw [List.forall₂_map_left_iff]
    exact List.forall₂_same.mpr fun char _ => .plain char
  · rw [← List.flatMap_def, List.flatMap_singleton']

/-! ### Characters that are not in a number -/

def numberMarks : List Char := ['_', '.', '+', '-', 'n', 'o', 'O', 'x', 'X']

theorem notMem_digits (hnone : hexValue? char = none) (hmark : char ∉ numberMarks)
    (hdigits : Digits base text digits) : char ∉ text := by
  obtain ⟨groups, -, hgroups, rfl, -⟩ := hdigits
  have hunderscore : char ≠ '_' := fun heq => hmark (by rw [heq]; decide)
  clear digits
  induction groups with
  | nil => exact List.not_mem_nil
  | cons group groups ih =>
      obtain ⟨⟨-, hgroup⟩, hgroups⟩ := List.forall_mem_cons.mp hgroups
      have hfirst : char ∉ group := notMem_of_isDigit hnone hgroup
      cases groups with
      | nil => simpa using hfirst
      | cons other groups =>
          rw [List.intercalate_cons_cons]
          simp only [List.mem_append, List.mem_singleton, not_or]
          exact ⟨⟨hfirst, hunderscore⟩, ih hgroups⟩

theorem notMem_whole (hnone : hexValue? char = none) (hmark : char ∉ numberMarks)
    (hwhole : Whole text digits) : char ∉ text := by
  cases hwhole with
  | zero =>
      rw [List.mem_singleton]
      rintro rfl
      cases hnone
  | digits hdigits _ => exact notMem_digits hnone hmark hdigits

theorem notMem_exponent (hnone : hexValue? char = none) (hmark : char ∉ numberMarks)
    {exponent : Int} (hexponent : Exponent text exponent) : char ∉ text := by
  have hmark' (mark : Char) (hmem : mark ∈ ['e', 'E']) : char ≠ mark := by
    rintro rfl
    simp only [List.mem_cons, List.not_mem_nil, or_false] at hmem
    rcases hmem with rfl | rfl <;> cases hnone
  have hsign : char ≠ '+' ∧ char ≠ '-' :=
    ⟨fun heq => hmark (by rw [heq]; decide), fun heq => hmark (by rw [heq]; decide)⟩
  cases hexponent with
  | none => exact List.not_mem_nil
  | up hmem hplus hdigits =>
      simp only [List.mem_cons, List.not_mem_nil, or_false] at hplus
      rcases hplus with rfl | rfl <;>
        simp [hmark' _ hmem, hsign, notMem_digits hnone hmark hdigits]
  | down hmem hdigits => simp [hmark' _ hmem, hsign, notMem_digits hnone hmark hdigits]

theorem notMem_decimalLiteral (hnone : hexValue? char = none) (hmark : char ∉ numberMarks)
    {exact : ℚ} (hdecimal : DecimalLiteral text exact) : char ∉ text := by
  have hpoint : char ≠ '.' := fun heq => hmark (by rw [heq]; decide)
  cases hdecimal with
  | whole hwhole hexponent =>
      simp [notMem_whole hnone hmark hwhole, notMem_exponent hnone hmark hexponent]
  | @point _ _ fraction _ _ _ hwhole hfraction hexponent =>
      have hplaces : char ∉ fraction := by
        rcases hfraction with ⟨rfl, -⟩ | hfraction
        · exact List.not_mem_nil
        · exact notMem_digits hnone hmark hfraction
      simp [notMem_whole hnone hmark hwhole, hpoint, hplaces,
        notMem_exponent hnone hmark hexponent]
  | fraction hfraction hexponent =>
      simp [hpoint, notMem_digits hnone hmark hfraction, notMem_exponent hnone hmark hexponent]

theorem notMem_numericLiteral (hnone : hexValue? char = none) (hmark : char ∉ numberMarks)
    (hnumeric : NumericLiteral key name) : char ∉ key := by
  have hzero : char ≠ '0' := by
    rintro rfl
    cases hnone
  have hexact : char ≠ 'n' := fun heq => hmark (by rw [heq]; decide)
  have hbase {mark : Char} {base : Nat} (hmem : (mark, base) ∈ baseMarks) : char ≠ mark := by
    have hmarks : ∀ pair ∈ baseMarks, hexValue? pair.1 ≠ none ∨ pair.1 ∈ numberMarks := by decide
    rintro rfl
    exact (hmarks _ hmem).elim (absurd hnone) hmark
  cases hnumeric with
  | decimal hdecimal _ _ => exact notMem_decimalLiteral hnone hmark hdecimal
  | based hmem hdigits _ _ => simp [hzero, hbase hmem, notMem_digits hnone hmark hdigits]
  | exact hwhole => simp [hexact, notMem_whole hnone hmark hwhole]
  | exactBased hmem hdigits =>
      simp [hzero, hexact, hbase hmem, notMem_digits hnone hmark hdigits]

theorem special_notMem_numericLiteral (hnumeric : NumericLiteral key name)
    (hspecial : char ∈ specials) : char ∉ key := by
  refine notMem_numericLiteral (hexValue?_of_mem_specials hspecial) ?_ hnumeric
  simp only [specials, List.mem_cons, List.not_mem_nil, or_false] at hspecial
  rcases hspecial with rfl | rfl | rfl | rfl | rfl <;> decide

theorem colon_notMem_toDigits (value : Nat) : ':' ∉ Nat.toDigits 10 value :=
  fun hmem => absurd (Nat.isDigit_of_mem_toDigits (by decide) (by decide) hmem) (by decide)

theorem colon_notMem_layout {point : Int} (htext : ':' ∉ text) : ':' ∉ layout text point := by
  have hzeros (count : Nat) : ':' ∉ List.replicate count '0' := by
    rw [List.mem_replicate]
    exact fun hmem => absurd hmem.2 (by decide)
  have htake : ':' ∉ text.take point.toNat := fun hmem => htext (List.mem_of_mem_take hmem)
  have hdrop : ':' ∉ text.drop point.toNat := fun hmem => htext (List.mem_of_mem_drop hmem)
  have hsign : ':' ≠ if 0 < point then '+' else '-' := by
    split_ifs <;> decide
  unfold layout
  split_ifs
  · simp [htext, hzeros]
  · simp [htake, hdrop]
  · simp [htext, hzeros]
  all_goals
    dsimp only
    split
    · simp_all [colon_notMem_toDigits]
    · simp [htext, colon_notMem_toDigits]

theorem colon_notMem_numericName (hnumeric : NumericLiteral key name) : ':' ∉ name := by
  have htext {value : ℚ} (hname : NumberText value name) : ':' ∉ name := by
    cases hname with
    | zero => decide
    | infinity _ => decide
    | finite _ _ _ _ => exact colon_notMem_layout (colon_notMem_toDigits _)
  cases hnumeric with
  | decimal _ _ hname => exact htext hname
  | based _ _ _ hname => exact htext hname
  | exact _ => exact colon_notMem_toDigits _
  | exactBased _ _ => exact colon_notMem_toDigits _

/-! ### Names between quotes -/

/-- Without special characters, a text denotes itself between single quotes. -/
theorem stringBody_self (hspecial : ∀ char ∈ specials, char ∉ name) :
    StringBody '\'' name (textUnits name) := by
  induction name with
  | nil => exact .nil
  | cons first others ih =>
      have hfirst : first ∉ specials := fun hmem => hspecial first hmem List.mem_cons_self
      have hothers : StringBody '\'' others (textUnits others) :=
        ih fun char hchar hmem => hspecial char hchar (List.mem_cons_of_mem _ hmem)
      simp only [specials, List.mem_cons, List.not_mem_nil, or_false, not_or] at hfirst
      exact .plain hfirst.2.1 (by simp [hfirst]) hothers

/-- A character has one unit that is not the second half of a pair, and the colon has a unit of its
own. -/
theorem unitsOf_char (char : Char) :
    (unitsOf char.toNat).countP (!Json.isTrailing ·) = 1 ∧
      (unitsOf char.toNat).count 0x3A = if char = ':' then 1 else 0 := by
  have hvalid : char.toNat < 0xD800 ∨ 0xDFFF < char.toNat ∧ char.toNat < 0x110000 := char.valid
  have hcolon : char = ':' ↔ char.toNat = 0x3A := by
    rw [← Char.toNat_inj]
    rfl
  rw [unitsOf]
  split_ifs with hsmall hchar hchar
  · subst hchar
    decide
  · have htrailing : Json.isTrailing char.toNat = false := by
      rw [Json.isTrailing, Bool.and_eq_false_iff, decide_eq_false_iff_not, decide_eq_false_iff_not]
      omega
    rw [List.countP_singleton, htrailing, List.count_singleton, beq_eq_false_iff_ne.mpr]
    · exact ⟨rfl, rfl⟩
    · exact fun heq => hchar (hcolon.mpr heq)
  · exact absurd hsmall (by subst hchar; decide)
  · have hhigh : Json.isTrailing (0xD800 + (char.toNat - 0x10000) / 0x400) = false := by
      rw [Json.isTrailing, Bool.and_eq_false_iff, decide_eq_false_iff_not, decide_eq_false_iff_not]
      omega
    have hlow : Json.isTrailing (0xDC00 + (char.toNat - 0x10000) % 0x400) = true := by
      rw [Json.isTrailing, Bool.and_eq_true, decide_eq_true_iff, decide_eq_true_iff]
      omega
    constructor
    · rw [List.countP_cons, List.countP_singleton, hhigh, hlow]
      rfl
    · rw [List.count_eq_zero, List.mem_cons, List.mem_singleton]
      omega

theorem countP_textUnits (name : List Char) :
    (textUnits name).countP (!Json.isTrailing ·) = name.length := by
  induction name with
  | nil => rfl
  | cons first others ih =>
      rw [textUnits] at ih ⊢
      rw [List.flatMap_cons, List.countP_append, ih, (unitsOf_char first).1, List.length_cons,
        Nat.add_comm]

theorem count_textUnits (name : List Char) : (textUnits name).count 0x3A = name.count ':' := by
  induction name with
  | nil => rfl
  | cons first others ih =>
      rw [textUnits] at ih ⊢
      rw [List.flatMap_cons, List.count_append, ih, (unitsOf_char first).2, List.count_cons,
        Nat.add_comm]
      simp only [beq_iff_eq]

structure Shrinks (text : List Char) (units : List Nat) : Prop where
  length : units.countP (!Json.isTrailing ·) ≤ text.length
  colons : text.count ':' ≤ units.count 0x3A

namespace Shrinks

variable {other : List Char} {more : List Nat}

theorem append (hfront : Shrinks text units) (hback : Shrinks other more) :
    Shrinks (text ++ other) (units ++ more) where
  length := by
    rw [List.countP_append, List.length_append]
    exact Nat.add_le_add hfront.length hback.length
  colons := by
    rw [List.count_append, List.count_append]
    exact Nat.add_le_add hfront.colons hback.colons

theorem of_notMem (hcolon : ':' ∉ text) (hlength : units.length ≤ text.length) :
    Shrinks text units where
  length := List.countP_le_length.trans hlength
  colons := by
    rw [List.count_eq_zero_of_not_mem hcolon]
    exact Nat.zero_le _

theorem of_char (char : Char) : Shrinks [char] (unitsOf char.toNat) where
  length := (unitsOf_char char).1.le
  colons := by
    rw [(unitsOf_char char).2, List.count_singleton]
    simp only [beq_iff_eq, le_refl]

theorem of_escape (hescape : Escape escape code) : Shrinks ('\\' :: escape) (unitsOf code) := by
  have hcolon : ':' ∉ escape := notMem_escape rfl (by decide) hescape
  refine .of_notMem (List.not_mem_cons_of_ne_of_not_mem (by decide) hcolon) ?_
  have htext : 1 ≤ escape.length := by
    cases hescape with
    | four _ _ => exact Nat.succ_pos _
    | braced _ _ _ => exact Nat.succ_pos _
  calc
    (unitsOf code).length ≤ 2 := by
      rw [unitsOf]
      split_ifs <;> simp
    _ ≤ ('\\' :: escape).length := Nat.succ_le_succ htext

theorem of_stringBody (hbody : StringBody quote body units) : Shrinks body units := by
  have hsingles : ∀ pair ∈ singleEscapes, ':' ∉ ['\\', pair.1] := by decide
  have hbreaks : ∀ lineBreak ∈ lineBreaks, ':' ∉ '\\' :: lineBreak := by decide
  have hdigit {char : Char} (hchar : IsDigit 16 char) : ':' ≠ char := by
    rintro rfl
    exact not_isDigit rfl hchar
  induction hbody with
  | nil => exact .of_notMem List.not_mem_nil le_rfl
  | @plain first _ _ _ _ _ ih => exact (of_char first).append ih
  | @single _ unit _ _ hsingle _ ih =>
      have hpiece : Shrinks _ [unit] := .of_notMem (hsingles _ hsingle) (by simp)
      exact hpiece.append ih
  | @other first _ _ _ _ _ _ _ ih =>
      have hslash : Shrinks ['\\'] [] := .of_notMem (by decide) (Nat.zero_le _)
      exact (hslash.append (of_char first)).append ih
  | nul _ _ ih =>
      have hpiece : Shrinks ['\\', '0'] [0] := .of_notMem (by decide) (by decide)
      exact hpiece.append ih
  | @hex first second _ _ hfirst hsecond _ ih =>
      have hpiece : Shrinks ['\\', 'x', first, second] [valueOf 16 [first, second]] :=
        .of_notMem (by simp [hdigit hfirst, hdigit hsecond]) (by simp)
      exact hpiece.append ih
  | unicode hescape _ ih => exact (of_escape hescape).append ih
  | lineBreak hbreak _ _ ih =>
      have hpiece : Shrinks _ [] := .of_notMem (hbreaks _ hbreak) (Nat.zero_le _)
      exact hpiece.append ih

end Shrinks

/-- A text between quotes with a colon behind it does not start with what it denotes and a colon. -/
theorem StringLiteral.append_ne (hquote : quote ≠ ':') (hliteral : StringLiteral quote key name)
    (after rest : List Char) : name ++ ':' :: after ≠ key ++ rest := by
  obtain ⟨body, rfl, hbody⟩ := hliteral
  have hshrinks := Shrinks.of_stringBody hbody
  intro heq
  -- The name is not longer than the body, so all of it and the colon stand before the last quote.
  have hlength : (name ++ [':']).length ≤ (quote :: body).length := by
    have hname := hshrinks.length
    rw [countP_textUnits] at hname
    rw [List.length_append, List.length_singleton, List.length_cons]
    omega
  have hname : name ++ [':'] <+: name ++ ':' :: after := ⟨after, by simp⟩
  have hkey : quote :: body <+: name ++ ':' :: after := ⟨quote :: rest, by simp [heq]⟩
  have hprefix : name ++ [':'] <+: quote :: body :=
    List.prefix_of_prefix_length_le hname hkey hlength
  have hcolons := hprefix.sublist.count_le ':'
  have hbodyColons := hshrinks.colons
  rw [count_textUnits] at hbodyColons
  rw [List.count_append, List.count_singleton_self, List.count_cons_of_ne hquote] at hcolons
  omega

/-! ### Names that are written as they are -/

/-- A name that is the name of a property as it stands. -/
def IsVerbatim (letters : Letters) (name : List Char) : Prop :=
  IsIdentifier letters name ∨ NumericLiteral name name

theorem special_notMem_isVerbatim (hname : IsVerbatim letters name) (hspecial : char ∈ specials) :
    char ∉ name :=
  hname.elim (special_notMem_identifier · hspecial) (special_notMem_numericLiteral · hspecial)

end StoryKnobs.Script

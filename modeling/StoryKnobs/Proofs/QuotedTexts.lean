import Mathlib
import StoryKnobs.Proofs.Readers

/-!
# Quoted texts

A character can be written between quotes in several ways: as it is, by an escape of one letter, or
by the numbers of one or two units. Whichever way is taken, it is read as that character. The way in
which texts are quoted here is one of them, so a quoted text is read as the text that was quoted.
-/

namespace StoryKnobs.Json

def escapeLetters : List (Char × Char) :=
  [('"', '"'), ('\\', '\\'), ('/', '/'), ('b', '\x08'), ('f', '\x0c'), ('n', '\n'), ('r', '\r'),
    ('t', '\t')]

def IsHexDigit (char : Char) (digit : Nat) : Prop :=
  digit < 16 ∧ (char = hexDigit digit ∨ char = (hexDigit digit).toUpper)

inductive IsUnit : List Char → Nat → Prop where
  | digits {a b c d : Char} {first second third fourth : Nat} (ha : IsHexDigit a first)
      (hb : IsHexDigit b second) (hc : IsHexDigit c third) (hd : IsHexDigit d fourth) :
      IsUnit [a, b, c, d] (((first * 16 + second) * 16 + third) * 16 + fourth)

structure IsPlainChar (char : Char) : Prop where
  ne_quote : char ≠ '"'
  ne_backslash : char ≠ '\\'
  not_control : 0x20 ≤ char.toNat

/-- Ways to write a character between quotes. A character beyond the range of one unit is written by
a pair of them. -/
inductive SpellsChar : List Char → Char → Prop where
  | plain {char : Char} (hplain : IsPlainChar char) : SpellsChar [char] char
  | letter {letter char : Char} (hletter : (letter, char) ∈ escapeLetters) :
      SpellsChar ['\\', letter] char
  | unit {digits : List Char} {char : Char} (hdigits : IsUnit digits char.toNat) :
      SpellsChar ('\\' :: 'u' :: digits) char
  | pair {first second : List Char} {high low : Nat} {char : Char}
      (hfirst : IsUnit first (0xD800 + high)) (hhigh : high < 0x400)
      (hsecond : IsUnit second (0xDC00 + low)) (hlow : low < 0x400)
      (hchar : char.toNat = 0x10000 + high * 0x400 + low) :
      SpellsChar ('\\' :: 'u' :: (first ++ '\\' :: 'u' :: second)) char

inductive Spells : List Char → List Char → Prop where
  | nil : Spells [] []
  | cons {front back chars : List Char} {char : Char} (hchar : SpellsChar front char)
      (hchars : Spells back chars) : Spells (front ++ back) (char :: chars)

/-- What can stand between quotes. The numbers need not be those of characters. -/
inductive IsQuotable : List Char → Prop where
  | nil : IsQuotable []
  | plain {char : Char} {chars : List Char} (hplain : IsPlainChar char) (hchars : IsQuotable chars) :
      IsQuotable (char :: chars)
  | letter {letter char : Char} {chars : List Char} (hletter : (letter, char) ∈ escapeLetters)
      (hchars : IsQuotable chars) : IsQuotable ('\\' :: letter :: chars)
  | unit {digits chars : List Char} {number : Nat} (hdigits : IsUnit digits number)
      (hchars : IsQuotable chars) : IsQuotable ('\\' :: 'u' :: (digits ++ chars))

namespace Reader

variable {count number digit : Nat} {char letter : Char} {front digits body chars : List Char}

/-! ### Escapes -/

theorem hexValue?_of_isHexDigit (hdigit : IsHexDigit char digit) : hexValue? char = some digit := by
  obtain ⟨hlt, hchar⟩ := hdigit
  have hboth : ∀ digit < 16, hexValue? (hexDigit digit) = some digit ∧
      hexValue? (hexDigit digit).toUpper = some digit := by decide
  obtain rfl | rfl := hchar
  · exact (hboth digit hlt).1
  · exact (hboth digit hlt).2

theorem hexUnit_of_isUnit (hdigits : IsUnit digits number) (index : Nat) (rest : List Char) :
    hexUnit ⟨index, digits ++ rest⟩ = .ok (number, ⟨index + 4, rest⟩) := by
  obtain ⟨ha, hb, hc, hd⟩ := hdigits
  simp only [hexUnit, bind, StateT.bind, get, getThe, MonadStateOf.get, StateT.get, pure,
    StateT.pure, Except.pure, Except.bind, List.cons_append, List.nil_append,
    hexValue?_of_isHexDigit ha, hexValue?_of_isHexDigit hb, hexValue?_of_isHexDigit hc,
    hexValue?_of_isHexDigit hd, set, StateT.set]

theorem simpleEscape?_of_mem (hletter : (letter, char) ∈ escapeLetters) :
    simpleEscape? letter = some char ∧ letter ≠ 'u' := by
  simp only [escapeLetters, List.mem_cons, Prod.mk.injEq, List.not_mem_nil, or_false] at hletter
  rcases hletter with h | h | h | h | h | h | h | h <;> obtain ⟨rfl, rfl⟩ := h <;>
    exact ⟨rfl, by decide⟩

theorem peek?_cons (index : Nat) (char : Char) (rest : List Char) :
    peek? ⟨index, char :: rest⟩ = .ok (some char, ⟨index, char :: rest⟩) := rfl

theorem escapeBy_letter (unit : Reader Char) (hletter : (letter, char) ∈ escapeLetters) (index : Nat)
    (rest : List Char) : ∃ last,
      escapeBy unit ⟨index, letter :: rest⟩ = .ok (char, ⟨last, rest⟩) := by
  obtain ⟨hsimple, hne⟩ := simpleEscape?_of_mem hletter
  refine ⟨index + letter.utf8Size, ?_⟩
  rw [escapeBy, bind_eq_of_ok (peek?_cons index letter rest)]
  simp only [hsimple]
  rfl

theorem not_half_toNat (char : Char) :
    isTrailing char.toNat = false ∧ isLeading char.toNat = false := by
  have hvalid := char.valid
  simp only [UInt32.isValidChar, Nat.isValidChar] at hvalid
  change char.toNat < 0xd800 ∨ 0xdfff < char.toNat ∧ char.toNat < 0x110000 at hvalid
  simp only [isTrailing, isLeading, Bool.and_eq_false_iff, decide_eq_false_iff_not]
  omega

theorem unitEscape_of_isUnit (hdigits : IsUnit digits char.toNat) (index : Nat) (rest : List Char) :
    unitEscape ⟨index, digits ++ rest⟩ = .ok (char, ⟨index + 4, rest⟩) := by
  rw [unitEscape, bind_eq_of_ok (hexUnit_of_isUnit hdigits index rest), (not_half_toNat char).1,
    (not_half_toNat char).2, Char.ofNat_toNat]
  rfl

theorem pairMark_self (index : Nat) (char : Char) (rest : List Char) :
    pairMark char ⟨index, char :: rest⟩ = .ok ((), ⟨index + char.utf8Size, rest⟩) := by
  rw [pairMark, bind_eq_of_ok (peek?_cons index char rest)]
  dsimp only
  rw [if_pos (by simp)]
  rfl

theorem unitEscape_pair {first second : List Char} {high low : Nat}
    (hfirst : IsUnit first (0xD800 + high)) (hhigh : high < 0x400)
    (hsecond : IsUnit second (0xDC00 + low)) (hlow : low < 0x400)
    (hchar : char.toNat = 0x10000 + high * 0x400 + low) (index : Nat) (rest : List Char) :
    unitEscape ⟨index, first ++ '\\' :: 'u' :: (second ++ rest)⟩ =
      .ok (char, ⟨index + 10, rest⟩) := by
  have hleading : isTrailing (0xD800 + high) = false ∧ isLeading (0xD800 + high) = true := by
    simp only [isTrailing, isLeading, Bool.and_eq_false_iff, Bool.and_eq_true,
      decide_eq_false_iff_not, decide_eq_true_eq]
    omega
  have htrailing : isTrailing (0xDC00 + low) = true := by
    simp only [isTrailing, Bool.and_eq_true, decide_eq_true_eq]
    omega
  rw [unitEscape, bind_eq_of_ok (hexUnit_of_isUnit hfirst index _), hleading.1, hleading.2]
  rw [if_neg Bool.false_ne_true, if_pos rfl, bind_eq_of_ok (pairMark_self _ '\\' _),
    bind_eq_of_ok (pairMark_self _ 'u' _), bind_eq_of_ok (hexUnit_of_isUnit hsecond _ _), htrailing,
    if_pos rfl, Nat.add_sub_cancel_left, Nat.add_sub_cancel_left, ← hchar, Char.ofNat_toNat]
  rfl

/-! ### Texts that are read -/

theorem stringUpTo_of_spellsChar (hchar : SpellsChar front char) (count : Nat) (found : List Char)
    (index : Nat) (rest : List Char) : ∃ last,
      stringUpTo (count + 1) found ⟨index, front ++ rest⟩ =
        stringUpTo count (char :: found) ⟨last, rest⟩ := by
  have hescape {middle : Cursor} {last : Nat}
      (hunit : escapeBy unitEscape middle = .ok (char, ⟨last, rest⟩)) :
      (escapeBy unitEscape >>= fun char => stringUpTo count (char :: found)) middle =
        stringUpTo count (char :: found) ⟨last, rest⟩ := bind_eq_of_ok hunit
  cases hchar with
  | plain hplain =>
      have hquote := hplain.ne_quote
      have hbackslash := hplain.ne_backslash
      refine ⟨index + char.utf8Size, ?_⟩
      rw [List.singleton_append, stringUpTo, bind_eq_of_ok (peek?_cons index char rest)]
      simp only [if_neg (Nat.not_lt.mpr hplain.not_control)]
      rfl
  | letter hletter =>
      obtain ⟨last, hlast⟩ := escapeBy_letter unitEscape hletter (index + 1) rest
      exact ⟨last, hescape hlast⟩
  | unit hdigits => exact ⟨_, hescape (unitEscape_of_isUnit hdigits (index + 2) rest)⟩
  | pair hfirst hhigh hsecond hlow hchar =>
      have hunit := unitEscape_pair hfirst hhigh hsecond hlow hchar (index + 2) rest
      simp only [List.cons_append, List.append_assoc]
      exact ⟨_, hescape hunit⟩

theorem SpellsChar.length_pos (hchar : SpellsChar front char) : 0 < front.length := by
  cases hchar <;> exact Nat.zero_lt_succ _

theorem Spells.length_le (hbody : Spells body chars) : chars.length ≤ body.length := by
  induction hbody with
  | nil => exact Nat.le_refl _
  | cons hchar _ ih =>
      have := SpellsChar.length_pos hchar
      rw [List.length_append, List.length_cons]
      omega

theorem reads_stringUpTo (hbody : Spells body chars) (hcount : chars.length < count)
    (found : List Char) :
    Reads (stringUpTo count found) (body ++ ['"']) (String.ofList (found.reverse ++ chars)) := by
  induction hbody generalizing count found with
  | nil =>
      obtain ⟨count, rfl⟩ := Nat.exists_eq_add_of_le' hcount
      rw [List.append_nil]
      exact fun index rest _ => ⟨_, rfl⟩
  | @cons front back chars char hchar _ ih =>
      obtain ⟨count, rfl⟩ := Nat.exists_eq_add_of_le' (Nat.zero_lt_of_lt hcount)
      intro index rest _
      obtain ⟨middle, hmiddle⟩ :=
        stringUpTo_of_spellsChar hchar count found index (back ++ ['"'] ++ rest)
      obtain ⟨last, hlast⟩ := ih (Nat.lt_of_succ_lt_succ hcount) (char :: found) middle rest trivial
      refine ⟨last, ?_⟩
      rw [List.append_assoc, List.append_assoc, ← List.append_assoc _ ['"'], hmiddle, hlast,
        List.reverse_cons, List.append_assoc, List.singleton_append]

/-- **Quoted texts are read.** However a text is written between quotes, it is what is read. -/
theorem reads_string {text : String} (hbody : Spells body text.toList) :
    Reads string (body ++ ['"']) text := by
  have hreads (count : Nat) (hcount : (body ++ ['"']).length < count) :
      Reads (stringUpTo count []) (body ++ ['"']) text := by
    have hlength := Spells.length_le hbody
    rw [List.length_append, List.length_singleton] at hcount
    have hfound := reads_stringUpTo hbody (show text.toList.length < count by omega) []
    rwa [List.reverse_nil, List.nil_append, String.ofList_toList] at hfound
  exact ReadsBefore.withLength hreads

/-! ### Texts that are passed over -/

theorem reads_skipStringUpTo (hbody : IsQuotable body) (hcount : body.length < count) :
    Reads (skipStringUpTo count) (body ++ ['"']) () := by
  have hescape {char : Char} {count index last : Nat} {chars rest : List Char}
      (hunit : escapeBy (return Char.ofNat (← hexUnit)) ⟨index + 1, chars⟩ =
        .ok (char, ⟨last, rest⟩)) :
      skipStringUpTo (count + 1) ⟨index, '\\' :: chars⟩ = skipStringUpTo count ⟨last, rest⟩ := by
    change (escapeBy (return Char.ofNat (← hexUnit)) >>= fun _ => skipStringUpTo count)
      ⟨index + 1, chars⟩ = _
    exact bind_eq_of_ok hunit
  induction hbody generalizing count with
  | nil =>
      obtain ⟨count, rfl⟩ := Nat.exists_eq_add_of_le' hcount
      exact fun index rest _ => ⟨_, rfl⟩
  | @plain char chars hplain _ ih =>
      obtain ⟨count, rfl⟩ := Nat.exists_eq_add_of_le' (Nat.zero_lt_of_lt hcount)
      have hquote := hplain.ne_quote
      have hbackslash := hplain.ne_backslash
      rw [skipStringUpTo]
      refine ReadsBefore.ofPeek ?_
      simp only [if_neg (Nat.not_lt.mpr hplain.not_control)]
      exact (ih (Nat.lt_of_succ_lt_succ hcount)).advance
  | @letter letter char chars hletter _ ih =>
      obtain ⟨count, rfl⟩ := Nat.exists_eq_add_of_le' (Nat.zero_lt_of_lt hcount)
      intro index rest hrest
      obtain ⟨middle, hmiddle⟩ :=
        escapeBy_letter (return Char.ofNat (← hexUnit)) hletter (index + 1)
          (chars ++ ['"'] ++ rest)
      have hlt : chars.length < count := Nat.lt_of_succ_lt (Nat.lt_of_succ_lt_succ hcount)
      obtain ⟨last, hlast⟩ := ih hlt middle rest hrest
      exact ⟨last, (hescape hmiddle).trans hlast⟩
  | @unit digits chars number hdigits _ ih =>
      obtain ⟨count, rfl⟩ := Nat.exists_eq_add_of_le' (Nat.zero_lt_of_lt hcount)
      intro index rest hrest
      have hunit : escapeBy (return Char.ofNat (← hexUnit))
          ⟨index + 1, 'u' :: (digits ++ (chars ++ ['"'] ++ rest))⟩ =
            .ok (Char.ofNat number, ⟨index + 6, chars ++ ['"'] ++ rest⟩) := by
        change (hexUnit >>= fun number => pure (Char.ofNat number)) ⟨index + 2, _⟩ = _
        rw [bind_eq_of_ok (hexUnit_of_isUnit hdigits _ _)]
        rfl
      have hlt : chars.length < count := by
        simp only [List.length_cons, List.length_append] at hcount
        omega
      obtain ⟨last, hlast⟩ := ih hlt (index + 6) rest hrest
      refine ⟨last, ?_⟩
      simp only [List.cons_append, List.append_assoc] at hunit hlast ⊢
      exact (hescape hunit).trans hlast

theorem reads_skipString (hbody : IsQuotable body) : Reads skipString (body ++ ['"']) () := by
  refine ReadsBefore.withLength fun count hcount => reads_skipStringUpTo hbody ?_
  rw [List.length_append] at hcount
  omega

/-! ### The way in which texts are quoted -/

theorem isHexDigit_hexDigit {digit : Nat} (hdigit : digit < 16) :
    IsHexDigit (hexDigit digit) digit := ⟨hdigit, .inl rfl⟩

theorem spellsChar_escape (char : Char) : SpellsChar (escape char) char := by
  rw [escape]
  split_ifs with hquote hbackslash hline hreturn htab hback hform hcontrol
  · obtain rfl : char = '"' := by simpa using hquote
    exact .letter (by decide)
  · obtain rfl : char = '\\' := by simpa using hbackslash
    exact .letter (by decide)
  · obtain rfl : char = '\n' := by simpa using hline
    exact .letter (by decide)
  · obtain rfl : char = '\r' := by simpa using hreturn
    exact .letter (by decide)
  · obtain rfl : char = '\t' := by simpa using htab
    exact .letter (by decide)
  · obtain rfl : char = '\x08' := Char.toNat_inj.mp (by simpa using hback)
    exact .letter (by decide)
  · obtain rfl : char = '\x0c' := Char.toNat_inj.mp (by simpa using hform)
    exact .letter (by decide)
  · have hunit : IsUnit ['0', '0', hexDigit (char.toNat / 16), hexDigit (char.toNat % 16)]
        (((0 * 16 + 0) * 16 + char.toNat / 16) * 16 + char.toNat % 16) :=
      .digits (isHexDigit_hexDigit (by decide)) (isHexDigit_hexDigit (by decide))
        (isHexDigit_hexDigit (by omega)) (isHexDigit_hexDigit (by omega))
    rw [show ((0 * 16 + 0) * 16 + char.toNat / 16) * 16 + char.toNat % 16 = char.toNat by omega]
      at hunit
    exact .unit hunit
  · simp only [beq_iff_eq] at hquote hbackslash
    exact .plain ⟨hquote, hbackslash, Nat.not_lt.mp hcontrol⟩

theorem spells_escape (chars : List Char) : Spells (chars.flatMap escape) chars := by
  induction chars with
  | nil => exact .nil
  | cons char chars ih =>
      rw [List.flatMap_cons]
      exact .cons (spellsChar_escape char) ih

theorem toList_quote (text : String) :
    (quote text).toList = '"' :: (text.toList.flatMap escape ++ ['"']) := String.toList_ofList

end Reader

end StoryKnobs.Json

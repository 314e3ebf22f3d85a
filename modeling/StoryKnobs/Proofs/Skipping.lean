import Mathlib
import StoryKnobs.Proofs.Documents

/-!
# Values that are passed over

The texts of JSON values, with any blanks, escapes and notations of numbers, and at any depth. The
value of a member that nobody asks for is passed over, whatever it is.
-/

namespace StoryKnobs.Json

def IsDigits (chars : List Char) : Prop := chars ≠ [] ∧ ∀ char ∈ chars, isDigit char = true

/-- Digits in front of the point, where a zero stands alone. -/
def IsWhole (chars : List Char) : Prop :=
  chars = ['0'] ∨ IsDigits chars ∧ chars.head? ≠ some '0'

def IsFraction (chars : List Char) : Prop :=
  chars = [] ∨ ∃ digits, IsDigits digits ∧ chars = '.' :: digits

def IsExponent (chars : List Char) : Prop :=
  chars = [] ∨ ∃ mark sign digits, (mark = 'e' ∨ mark = 'E') ∧
    (sign = [] ∨ sign = ['+'] ∨ sign = ['-']) ∧ IsDigits digits ∧ chars = mark :: (sign ++ digits)

def IsUnsigned (chars : List Char) : Prop :=
  ∃ whole fraction exponent, IsWhole whole ∧ IsFraction fraction ∧ IsExponent exponent ∧
    chars = whole ++ (fraction ++ exponent)

def IsMember (key value chars : List Char) : Prop :=
  ∃ gap before, Reader.IsGap gap ∧ Reader.IsGap before ∧
    chars = '"' :: (key ++ ['"'] ++ (gap ++ [':'] ++ (before ++ value)))

inductive IsValue : List Char → Prop where
  | null : IsValue ['n', 'u', 'l', 'l']
  | true : IsValue ['t', 'r', 'u', 'e']
  | false : IsValue ['f', 'a', 'l', 's', 'e']
  | number {chars : List Char} (hchars : IsUnsigned chars) : IsValue chars
  | negative {chars : List Char} (hchars : IsUnsigned chars) : IsValue ('-' :: chars)
  | string {body : List Char} (hbody : IsQuotable body) : IsValue ('"' :: (body ++ ['"']))
  | array {texts : List (List Char)} {chars : List Char} (hlist : Reader.IsList ']' texts chars)
      (htexts : ∀ text ∈ texts, IsValue text) : IsValue ('[' :: chars)
  | object {members : List (List Char × List Char)} {texts : List (List Char)} {chars : List Char}
      (hlist : Reader.IsList '\x7d' texts chars)
      (hmembers : List.Forall₂ (fun member text => IsMember member.1 member.2 text) members texts)
      (hkeys : ∀ member ∈ members, IsQuotable member.1)
      (hvalues : ∀ member ∈ members, IsValue member.2) : IsValue ('\x7b' :: chars)

namespace Reader

variable {whole fraction exponent chars gap key value : List Char} {onEnd onOther : Cause}
  {depth : Nat} {follow : List Char → Prop}

/-! ### Numbers -/

def NoDigit (rest : List Char) : Prop := ∀ char ∈ rest.head?, isDigit char = false

theorem isDigit_of_isNumberPart {char : Char} (hchar : isNumberPart char = false) :
    isDigit char = false ∧ char ≠ '.' ∧ char ≠ 'e' ∧ char ≠ 'E' := by
  simpa [isNumberPart, and_assoc] using hchar

theorem noDigit_of_isEnd (hend : IsEnd chars) : NoDigit chars :=
  fun char hchar => (isDigit_of_isNumberPart (hend char hchar)).1

theorem takeWhile_isDigit (hchars : ∀ char ∈ chars, isDigit char = true) {rest : List Char}
    (hrest : NoDigit rest) : (chars ++ rest).takeWhile isDigit = chars := by
  have hstop : rest.takeWhile isDigit = [] := by
    cases rest with
    | nil => rfl
    | cons char rest => exact List.takeWhile_cons_of_neg (by simpa using hrest char rfl)
  rw [List.takeWhile_append_of_pos hchars, hstop, List.append_nil]

theorem reads_digits (hchars : ∀ char ∈ chars, isDigit char = true) :
    ReadsBefore NoDigit digits chars chars := by
  intro index rest hrest
  refine ⟨index + chars.length, ?_⟩
  have htake := takeWhile_isDigit hchars hrest
  change Except.ok (List.takeWhile isDigit (chars ++ rest), Cursor.mk _ _) = _
  rw [htake, List.drop_left]

theorem reads_wholeDigits (hwhole : IsWhole whole) :
    ReadsBefore NoDigit (wholeDigits onEnd) whole whole := by
  rcases hwhole with rfl | ⟨⟨hne, hdigits⟩, hhead⟩
  · intro index rest hrest
    refine ⟨index + Char.utf8Size '0', ?_⟩
    cases rest with
    | nil => rfl
    | cons char rest =>
        have hchar : isDigit char = false := hrest char rfl
        change (if isDigit char then stopNext .badNumber else pure ['0'] : Reader (List Char)) _ = _
        rw [if_neg (by simp [hchar])]
        rfl
  · obtain ⟨char, chars, rfl⟩ := List.exists_cons_of_ne_nil hne
    have hzero : char ≠ '0' := fun hchar => hhead (congrArg some hchar)
    rw [wholeDigits]
    refine ReadsBefore.ofPeek ?_
    simp only [hdigits char List.mem_cons_self, if_true]
    exact reads_digits hdigits

theorem reads_fractionDigits {digits : List Char} (hdigits : IsDigits digits) :
    ReadsBefore NoDigit (fractionDigits onEnd) ('.' :: digits) digits := by
  rw [fractionDigits]
  refine ReadsBefore.advance ?_
  intro index rest hrest
  obtain ⟨last, hlast⟩ := reads_digits hdigits.2 index rest hrest
  refine ⟨last, ?_⟩
  rw [bind_eq_of_ok hlast, if_neg (by simpa using hdigits.1)]
  rfl

theorem reads_exponentDigits (onEnd : Cause) (mark : Char) {sign digits : List Char}
    (hdigits : IsDigits digits) (hsign : sign = [] ∨ sign = ['+'] ∨ sign = ['-']) : ∃ negative,
      ReadsBefore NoDigit (exponentDigits onEnd) (mark :: (sign ++ digits)) (negative, digits) := by
  obtain ⟨hne, hchars⟩ := hdigits
  obtain ⟨char, chars, rfl⟩ := List.exists_cons_of_ne_nil hne
  have hchar : isDigit char = true := hchars char List.mem_cons_self
  have hreads (negative : Bool) {next : Option Char → Reader (Bool × List Char)}
      (hnext : next (some char) = do return (negative, ← Reader.digits)) :
      ReadsBefore NoDigit (pure negative >>= fun _ => peek? >>= next) (char :: chars)
        (negative, char :: chars) := by
    refine ReadsBefore.ofPeek ?_
    rw [hnext]
    exact (reads_digits hchars).map
  rcases hsign with rfl | rfl | rfl
  · have hplus : char ≠ '+' := by
      rintro rfl
      cases hchar
    have hminus : char ≠ '-' := by
      rintro rfl
      cases hchar
    refine ⟨false, ReadsBefore.advance (ReadsBefore.ofPeek ?_)⟩
    split
    next heq => exact absurd (Option.some.inj heq) hplus
    next heq => exact absurd (Option.some.inj heq) hminus
    next => exact hreads false (by simp only [hchar, if_true])
  · refine ⟨false, ReadsBefore.advance (ReadsBefore.ofPeek (ReadsBefore.advance ?_))⟩
    exact hreads false (by simp only [hchar, if_true])
  · refine ⟨true, ReadsBefore.advance (ReadsBefore.ofPeek (ReadsBefore.advance ?_))⟩
    exact hreads true (by simp only [hchar, if_true])

theorem head_of_isExponent (hexponent : IsExponent exponent) {rest : List Char}
    (hrest : IsEnd rest) : ∀ char ∈ (exponent ++ rest).head?, isDigit char = false ∧ char ≠ '.' := by
  rcases hexponent with rfl | ⟨mark, sign, digits, hmark, -, -, rfl⟩
  · intro char hchar
    have hend := isDigit_of_isNumberPart (hrest char hchar)
    exact ⟨hend.1, hend.2.1⟩
  · rintro _ ⟨⟩
    obtain rfl | rfl := hmark <;> decide

theorem reads_exponent (onEnd : Cause) (hexponent : IsExponent exponent) :
    ReadsBefore IsEnd (do if ← seesExponent then let _ ← exponentDigits onEnd) exponent () := by
  have hsees (cursor : Cursor) : seesExponent cursor =
      .ok (cursor.rest.head? == some 'e' || cursor.rest.head? == some 'E', cursor) := rfl
  intro index rest hrest
  rw [bind_eq_of_ok (hsees _)]
  rcases hexponent with rfl | ⟨mark, sign, digits, hmark, hsign, hdigits, rfl⟩
  · have hhead : (rest.head? == some 'e' || rest.head? == some 'E') = false := by
      cases rest with
      | nil => rfl
      | cons char rest =>
          obtain ⟨-, -, hlower, hupper⟩ := isDigit_of_isNumberPart (hrest char rfl)
          simp [hlower, hupper]
    refine ⟨index, ?_⟩
    rw [List.nil_append, hhead]
    rfl
  · obtain ⟨negative, hreads⟩ := reads_exponentDigits onEnd mark hdigits hsign
    obtain ⟨last, hlast⟩ := hreads index rest (noDigit_of_isEnd hrest)
    refine ⟨last, ?_⟩
    rw [if_pos (by simpa using hmark), bind_eq_of_ok hlast]
    rfl

/-- At the end of a number there is neither a point nor an exponent. -/
theorem reads_skipNumber (hchars : IsUnsigned chars) : ReadsBefore IsEnd skipNumber chars () := by
  obtain ⟨whole, fraction, exponent, hwhole, hfraction, hexponent, rfl⟩ := hchars
  rw [skipNumber]
  refine ReadsBefore.bind (reads_wholeDigits hwhole) ?_ ?_
  · rcases hfraction with rfl | ⟨digits, hdigits, rfl⟩
    · intro index rest hrest
      obtain ⟨last, hlast⟩ := reads_exponent .badNumber hexponent index rest hrest
      refine ⟨last, ?_⟩
      have hpoint : ((exponent ++ rest).head? == some '.') = false := by
        rw [beq_eq_false_iff_ne]
        exact fun hpoint => (head_of_isExponent hexponent hrest '.' hpoint).2 rfl
      change (if (exponent ++ rest).head? == some '.' then _ else _ : Reader Unit) _ = _
      rw [if_neg (by rw [hpoint]; exact Bool.false_ne_true)]
      exact hlast
    · refine ReadsBefore.ofPeek ?_
      dsimp only
      rw [if_pos (by rfl)]
      exact ReadsBefore.bind (reads_fractionDigits hdigits) (reads_exponent _ hexponent)
        fun rest hrest char hchar => (head_of_isExponent hexponent hrest char hchar).1
  · intro rest hrest char hchar
    rw [List.append_assoc] at hchar
    rcases hfraction with rfl | ⟨digits, hdigits, rfl⟩
    · exact (head_of_isExponent hexponent hrest char hchar).1
    · cases hchar
      rfl

/-! ### Values -/

theorem head_of_isUnsigned (hchars : IsUnsigned chars) :
    ∃ digit tail, chars = digit :: tail ∧ isDigit digit = true := by
  obtain ⟨whole, fraction, exponent, hwhole, -, -, rfl⟩ := hchars
  rcases hwhole with rfl | ⟨⟨hne, hdigits⟩, -⟩
  · exact ⟨'0', _, rfl, rfl⟩
  · obtain ⟨digit, tail, rfl⟩ := List.exists_cons_of_ne_nil hne
    exact ⟨digit, _, rfl, hdigits digit List.mem_cons_self⟩

theorem skipItems_eq (item : Reader Unit) (closing : Char) (onEnd onOther : Cause) (count : Nat) :
    skipItems item closing onEnd onOther count =
      (do let _ ← items item closing onEnd onOther count) := by
  induction count with
  | zero => rfl
  | succ count ih =>
      rw [skipItems, items]
      simp only [bind_assoc]
      refine bind_congr fun _ => bind_congr fun next => ?_
      cases next with
      | none => rfl
      | some char =>
          dsimp only
          split_ifs
          · rfl
          · rw [ih]
            simp only [bind_assoc, pure_bind]
          · rfl

theorem skipBetween_eq (item : Reader Unit) (closing : Char) (onEnd onOther : Cause) :
    skipBetween item closing onEnd onOther = (do let _ ← between item closing onEnd onOther) := by
  rw [skipBetween, between]
  simp only [bind_assoc]
  refine bind_congr fun next => ?_
  cases next with
  | none => rfl
  | some char =>
      dsimp only
      split_ifs
      · rfl
      · simp only [bind_assoc, skipItems_eq]

theorem reads_skipBetween {item : Reader Unit} {closing : Char} {texts : List (List Char)}
    (hclosing : IsClosing closing) (hlist : IsList closing texts chars)
    (hitems : ∀ text ∈ texts, ReadsItem item text ()) :
    ReadsBefore follow (skipBetween item closing onEnd onOther) chars () := by
  have hvalues : List.Forall₂ (ReadsItem item) texts (texts.map fun _ => ()) := by
    rwa [List.forall₂_map_right_iff, List.forall₂_same]
  rw [skipBetween_eq]
  exact (reads_between hclosing hlist hvalues).map

theorem IsMember.length_lt (hmember : IsMember key value chars) : value.length < chars.length := by
  obtain ⟨gap, before, -, -, rfl⟩ := hmember
  simp only [List.length_cons, List.length_append]
  omega

theorem exists_of_forall₂_right {α β : Type} {relation : α → β → Prop} {parts : List α}
    {others : List β} {other : β} (hall : List.Forall₂ relation parts others)
    (hmem : other ∈ others) : ∃ part ∈ parts, relation part other := by
  induction hall with
  | nil => exact absurd hmem List.not_mem_nil
  | @cons part _ _ _ hfirst _ ih =>
      rcases List.mem_cons.mp hmem with rfl | hmem
      · exact ⟨part, List.mem_cons_self, hfirst⟩
      · obtain ⟨found, hfound, hrelation⟩ := ih hmem
        exact ⟨found, List.mem_cons_of_mem _ hfound, hrelation⟩

theorem readsItem_skipKey {reader : Reader Unit} (hmember : IsMember key value chars)
    (hkey : IsQuotable key) (hvalue : ReadsItem reader value ()) :
    ReadsItem (do skipKey; reader) chars () := by
  obtain ⟨gap, before, hgap, hbefore, rfl⟩ := hmember
  refine ⟨⟨'"', _, rfl, rfl, by simp [IsClosing]⟩, fun front hfront => ?_⟩
  have hskip : Reads skipKey (front ++ '"' :: (key ++ ['"'] ++ (gap ++ [':']))) () := by
    rw [skipKey]
    exact ReadsBefore.ofToken hfront rfl
      (ReadsBefore.advance ((reads_skipString hkey).bind (reads_colon hgap)))
  have hreads : ReadsBefore IsEnd (do skipKey; reader)
      (front ++ '"' :: (key ++ ['"'] ++ (gap ++ [':'])) ++ (before ++ value)) () :=
    hskip.bind (hvalue.reads before hbefore)
  simpa only [List.append_assoc, List.cons_append] using hreads

theorem ne_of_isDigit {digit other : Char} (hdigit : isDigit digit = true)
    (hother : isDigit other = false) : digit ≠ other := by
  rintro rfl
  rw [hdigit] at hother
  cases hother

theorem isBlank_of_isDigit {digit : Char} (hdigit : isDigit digit = true) :
    isBlank digit = false := by
  simp only [isBlank, Bool.or_eq_false_iff, beq_eq_false_iff_ne]
  refine ⟨⟨⟨?_, ?_⟩, ?_⟩, ?_⟩ <;> exact ne_of_isDigit hdigit rfl

theorem readsItem_skipNumber (hchars : IsUnsigned chars) :
    ReadsItem (skipValueUpTo (depth + 1)) chars () := by
  have hreads := reads_skipNumber hchars
  obtain ⟨digit, tail, rfl, hdigit⟩ := head_of_isUnsigned hchars
  have hopen : ¬ IsClosing digit :=
    not_or.mpr ⟨ne_of_isDigit hdigit rfl, ne_of_isDigit hdigit rfl⟩
  rw [skipValueUpTo]
  refine readsItem_of_token (isBlank_of_isDigit hdigit) hopen ?_
  split
  any_goals
    rename_i heq
    exact absurd (Option.some.inj heq) (ne_of_isDigit hdigit rfl)
  next heq => cases heq
  next char _ _ _ _ _ _ _ heq =>
    obtain rfl := Option.some.inj heq
    rwa [if_pos hdigit]

/-- Whatever the value of a member is, it is passed over. -/
theorem readsItem_skipValueUpTo (hchars : IsValue chars) (hdepth : chars.length ≤ depth) :
    ReadsItem (skipValueUpTo (depth + 1)) chars () := by
  induction hchars generalizing depth with
  | null =>
      rw [skipValueUpTo]
      exact readsItem_of_token rfl (by simp [IsClosing]) (reads_keyword _).before
  | true =>
      rw [skipValueUpTo]
      exact readsItem_of_token rfl (by simp [IsClosing]) (reads_keyword _).before
  | false =>
      rw [skipValueUpTo]
      exact readsItem_of_token rfl (by simp [IsClosing]) (reads_keyword _).before
  | number hchars => exact readsItem_skipNumber hchars
  | negative hchars =>
      rw [skipValueUpTo]
      exact readsItem_of_token rfl (by simp [IsClosing]) (reads_skipNumber hchars).advance
  | string hbody =>
      rw [skipValueUpTo]
      exact readsItem_of_token rfl (by simp [IsClosing]) (reads_skipString hbody).before.advance
  | @array texts chars hlist _ ih =>
      rw [skipValueUpTo]
      refine readsItem_of_token rfl (by simp [IsClosing])
        (ReadsBefore.advance (reads_skipBetween (.inl rfl) hlist fun text hmem => ?_))
      have hlength := Nat.lt_of_lt_of_le (hlist.length_lt_of_mem hmem) (Nat.le_of_succ_le hdepth)
      obtain ⟨more, rfl⟩ := Nat.exists_eq_add_of_lt hlength
      exact ih text hmem (Nat.le_add_right _ _)
  | @object members texts chars hlist hmembers hkeys _ ih =>
      rw [skipValueUpTo]
      refine readsItem_of_token rfl (by simp [IsClosing])
        (ReadsBefore.advance (reads_skipBetween (.inr rfl) hlist fun text hmem => ?_))
      obtain ⟨member, hmember, hwritten⟩ := exists_of_forall₂_right hmembers hmem
      have hlength := Nat.lt_of_lt_of_le (hlist.length_lt_of_mem hmem) (Nat.le_of_succ_le hdepth)
      have hvalue := Nat.lt_trans (IsMember.length_lt hwritten) hlength
      obtain ⟨more, rfl⟩ := Nat.exists_eq_add_of_lt hvalue
      exact readsItem_skipKey hwritten (hkeys member hmember)
        (ih member hmember (Nat.le_add_right _ _))

/-- **Values are passed over.** Behind the text of any value, with any blanks in front of it, reading
goes on. -/
theorem readsItem_skipValue (hchars : IsValue chars) : ReadsItem skipValue chars () where
  head := (readsItem_skipValueUpTo hchars (Nat.le_refl _)).head
  reads gap hgap := by
    refine ReadsBefore.withLength fun count hcount => ?_
    rw [List.length_append] at hcount
    obtain ⟨more, rfl⟩ := Nat.exists_eq_add_of_lt hcount
    exact (readsItem_skipValueUpTo hchars (by omega)).reads gap hgap

end Reader

end StoryKnobs.Json

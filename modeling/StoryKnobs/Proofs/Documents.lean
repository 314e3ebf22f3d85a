import Mathlib
import StoryKnobs.Proofs.QuotedTexts

/-!
# Documents read back

Values are written in one piece or spread over lines. Both ways write the parts of a value between
brackets, with commas between them and blanks around them, so both are read back by the same reader
as the value that was written. Numbers are left out: not all of them can be read back.
-/

namespace StoryKnobs.Json

namespace Reader

variable {α : Type} {reader item : Reader α} {chars gap before after text : List Char} {value : α}
  {closing : Char} {onEnd onOther : Cause} {texts : List (List Char)} {values : List α}
  {follow : List Char → Prop}

/-! ### Items between brackets -/

def IsClosing (char : Char) : Prop := char = ']' ∨ char = '\x7d'

/-- `reader` reads `chars` as `value`, with any blanks in front of them. They start neither with a
blank nor with the end of an array or an object. -/
structure ReadsItem (reader : Reader α) (chars : List Char) (value : α) : Prop where
  head : ∃ char tail, chars = char :: tail ∧ isBlank char = false ∧ ¬ IsClosing char
  reads : ∀ gap, IsGap gap → ReadsBefore IsEnd reader (gap ++ chars) value

/-- What stands behind an item: more items, each behind a comma, and the bracket `closing`, all with
blanks around them. -/
inductive IsListTail (closing : Char) : List (List Char) → List Char → Prop where
  | close {gap : List Char} (hgap : IsGap gap) : IsListTail closing [] (gap ++ [closing])
  | next {gap before text chars : List Char} {texts : List (List Char)} (hgap : IsGap gap)
      (hbefore : IsGap before) (htail : IsListTail closing texts chars) :
      IsListTail closing (text :: texts) (gap ++ ',' :: (before ++ (text ++ chars)))

/-- What stands behind an opening bracket: items with commas between them and blanks around them, and
the bracket `closing`. -/
inductive IsList (closing : Char) : List (List Char) → List Char → Prop where
  | empty {gap : List Char} (hgap : IsGap gap) : IsList closing [] (gap ++ [closing])
  | items {gap text chars : List Char} {texts : List (List Char)} (hgap : IsGap gap)
      (htail : IsListTail closing texts chars) : IsList closing (text :: texts) (gap ++ (text ++ chars))

theorem IsClosing.isBlank (hclosing : IsClosing closing) : Reader.isBlank closing = false := by
  obtain rfl | rfl := hclosing <;> rfl

theorem IsClosing.ne_comma (hclosing : IsClosing closing) : ',' ≠ closing := by
  obtain rfl | rfl := hclosing <;> decide

theorem IsClosing.isEnd (hclosing : IsClosing closing) (hgap : IsGap gap) :
    IsEnd (gap ++ closing :: chars) := by
  obtain rfl | rfl := hclosing <;> exact isEnd_append hgap rfl

theorem IsListTail.isEnd (hclosing : IsClosing closing) (htail : IsListTail closing texts chars)
    (rest : List Char) : IsEnd (chars ++ rest) := by
  cases htail with
  | close hgap =>
      rw [List.append_assoc]
      exact hclosing.isEnd hgap
  | next hgap _ _ =>
      rw [List.append_assoc]
      exact isEnd_append hgap rfl

theorem IsListTail.length_lt (htail : IsListTail closing texts chars) :
    texts.length < chars.length := by
  induction htail with
  | close => simp
  | next _ _ _ ih =>
      simp only [List.length_append, List.length_cons]
      omega

theorem IsListTail.length_lt_of_mem (htail : IsListTail closing texts chars) (hmem : text ∈ texts) :
    text.length < chars.length := by
  induction htail with
  | close => exact absurd hmem List.not_mem_nil
  | next _ _ _ ih =>
      simp only [List.length_append, List.length_cons]
      rcases List.mem_cons.mp hmem with rfl | hmem
      · omega
      · have := ih hmem
        omega

theorem IsList.length_lt_of_mem (hlist : IsList closing texts chars) (hmem : text ∈ texts) :
    text.length < chars.length := by
  cases hlist with
  | empty => exact absurd hmem List.not_mem_nil
  | items _ htail =>
      have hpos := htail.length_lt
      simp only [List.length_append]
      rcases List.mem_cons.mp hmem with rfl | hmem
      · omega
      · have := htail.length_lt_of_mem hmem
        omega

theorem reads_items (hclosing : IsClosing closing) (htail : IsListTail closing texts chars)
    (hitem : ReadsItem item text value) (hitems : List.Forall₂ (ReadsItem item) texts values)
    {count : Nat} (hcount : texts.length < count) (hgap : IsGap gap) :
    ReadsBefore follow (items item closing onEnd onOther count) (gap ++ (text ++ chars))
      (value :: values) := by
  induction htail generalizing text value values count gap with
  | close hafter =>
      cases hitems
      obtain ⟨count, rfl⟩ := Nat.exists_eq_add_of_le' (Nat.zero_lt_of_lt hcount)
      rw [items, ← List.append_assoc]
      refine ReadsBefore.bind (hitem.reads gap hgap) (ReadsBefore.ofToken hafter hclosing.isBlank ?_)
        fun rest _ => (IsListTail.close hafter).isEnd hclosing rest
      dsimp only
      rw [if_pos (by simp)]
      exact (reads_pure _).advance
  | next hafter hbefore htail ih =>
      obtain ⟨count, rfl⟩ := Nat.exists_eq_add_of_le' (Nat.zero_lt_of_lt hcount)
      cases hitems with
      | cons hnext hitems =>
          rw [items, ← List.append_assoc]
          refine ReadsBefore.bind (hitem.reads gap hgap) (ReadsBefore.ofToken hafter rfl ?_)
            fun rest _ => (IsListTail.next hafter hbefore htail).isEnd hclosing rest
          dsimp only
          rw [if_neg (by simpa using hclosing.ne_comma), if_pos (by rfl)]
          exact (ih hnext hitems (Nat.lt_of_succ_lt_succ hcount) hbefore).map.advance

theorem reads_between (hclosing : IsClosing closing) (hlist : IsList closing texts chars)
    (hitems : List.Forall₂ (ReadsItem item) texts values) :
    ReadsBefore follow (between item closing onEnd onOther) chars values := by
  rw [between]
  cases hlist with
  | empty hgap =>
      cases hitems
      refine ReadsBefore.ofToken hgap hclosing.isBlank ?_
      dsimp only
      rw [if_pos (by simp)]
      exact (reads_pure _).advance
  | @items gap text chars texts hgap htail =>
      cases hitems with
      | @cons _ value _ values hitem hitems =>
          obtain ⟨char, tail, rfl, hblank, hopen⟩ := hitem.head
          have hreads (count : Nat) (hcount : (char :: (tail ++ chars)).length < count) :
              ReadsBefore follow (Reader.items item closing onEnd onOther count)
                (char :: (tail ++ chars)) (value :: values) := by
            have hlength := htail.length_lt
            simp only [List.length_cons, List.length_append] at hcount
            exact reads_items hclosing htail hitem hitems (by omega) isGap_nil
          refine ReadsBefore.ofToken hgap hblank ?_
          dsimp only
          rw [if_neg (by
            rw [beq_iff_eq]
            rintro rfl
            exact hopen hclosing)]
          exact ReadsBefore.withLength hreads

/-- Items with commas between them, where `before` stands in front of each and `after` behind the
last one, up to the bracket `closing`. -/
def enclosed (before after : List Char) (closing : Char) : List (List Char) → List Char
  | [] => [closing]
  | texts => before ++ (',' :: before).intercalate texts ++ (after ++ [closing])

theorem enclosed_cons (before after : List Char) (closing : Char) (text : List Char)
    (texts : List (List Char)) : enclosed before after closing (text :: texts) =
      before ++ (',' :: before).intercalate (text :: texts) ++ (after ++ [closing]) := rfl

theorem isList_enclosed (hbefore : IsGap before) (hafter : IsGap after) (closing : Char)
    (texts : List (List Char)) : IsList closing texts (enclosed before after closing texts) := by
  have htail (text : List Char) (texts : List (List Char)) : ∃ chars,
      (',' :: before).intercalate (text :: texts) ++ (after ++ [closing]) = text ++ chars ∧
        IsListTail closing texts chars := by
    induction texts generalizing text with
    | nil => exact ⟨after ++ [closing], by rw [List.intercalate_singleton], .close hafter⟩
    | cons next texts ih =>
        obtain ⟨chars, hchars, htail⟩ := ih next
        refine ⟨',' :: (before ++ (next ++ chars)), ?_, .next isGap_nil hbefore htail⟩
        rw [List.intercalate_cons_cons, List.append_assoc, List.append_assoc, hchars,
          List.cons_append]
  cases texts with
  | nil => exact .empty isGap_nil
  | cons text texts =>
      obtain ⟨chars, hchars, htail⟩ := htail text texts
      rw [enclosed_cons, List.append_assoc, hchars]
      exact .items hbefore htail

/-! ### Values -/

variable {depth : Nat}

theorem readsItem_of_token {next : Option Char → Reader α} {char : Char} {tail : List Char}
    (hblank : isBlank char = false) (hopen : ¬ IsClosing char)
    (hreads : ReadsBefore IsEnd (next (some char)) (char :: tail) value) :
    ReadsItem (peekToken? >>= next) (char :: tail) value where
  head := ⟨char, tail, rfl, hblank, hopen⟩
  reads _ hgap := ReadsBefore.ofToken hgap hblank hreads

/-- Blanks may stand around what is read from a text. -/
theorem ReadsItem.run_eq (hreads : ReadsItem reader chars value) (hbefore : IsGap before)
    (hafter : IsGap after) :
    reader.run (String.ofList (before ++ chars ++ after)) = .ok value :=
  run_of_reads (fun _ => isEnd_of_isGap) hafter (hreads.reads before hbefore) String.toList_ofList

theorem readsItem_null :
    ReadsItem (valueUpTo (depth + 1)) ['n', 'u', 'l', 'l'] .null := by
  rw [valueUpTo]
  exact readsItem_of_token rfl (by simp [IsClosing]) (reads_keyword _).before.map

theorem readsItem_true :
    ReadsItem (valueUpTo (depth + 1)) ['t', 'r', 'u', 'e'] (.bool true) := by
  rw [valueUpTo]
  exact readsItem_of_token rfl (by simp [IsClosing]) (reads_keyword _).before.map

theorem readsItem_false :
    ReadsItem (valueUpTo (depth + 1)) ['f', 'a', 'l', 's', 'e'] (.bool false) := by
  rw [valueUpTo]
  exact readsItem_of_token rfl (by simp [IsClosing]) (reads_keyword _).before.map

theorem readsItem_quote (text : String) :
    ReadsItem (valueUpTo (depth + 1)) (quote text).toList (.string text) := by
  rw [toList_quote, valueUpTo]
  exact readsItem_of_token rfl (by simp [IsClosing])
    (reads_string (spells_escape text.toList)).before.map.advance

theorem readsItem_array {elements : List Value} (hlist : IsList ']' texts chars)
    (helements : List.Forall₂ (ReadsItem (valueUpTo depth)) texts elements) :
    ReadsItem (valueUpTo (depth + 1)) ('[' :: chars) (.array elements) := by
  rw [valueUpTo]
  exact readsItem_of_token rfl (by simp [IsClosing])
    (reads_between (.inl rfl) hlist helements).map.advance

theorem readsItem_object {members : List (String × Value)} (hlist : IsList '\x7d' texts chars)
    (hmembers : List.Forall₂ (ReadsItem (member (valueUpTo depth))) texts members) :
    ReadsItem (valueUpTo (depth + 1)) ('\x7b' :: chars) (.object members) := by
  rw [valueUpTo]
  exact readsItem_of_token rfl (by simp [IsClosing])
    (reads_between (.inr rfl) hlist hmembers).map.advance

theorem readsItem_member (key : String) (hgap : IsGap gap) (hvalue : ReadsItem reader chars value) :
    ReadsItem (member reader) ((quote key).toList ++ ':' :: (gap ++ chars)) (key, value) := by
  rw [toList_quote, List.cons_append, member]
  refine readsItem_of_token rfl (by simp [IsClosing]) (ReadsBefore.advance ?_)
  exact (reads_string (spells_escape key.toList)).bind
    ((reads_colon isGap_nil).bind (hvalue.reads gap hgap).map)

end Reader

namespace Value

open Reader

inductive IsNumberFree : Value → Prop where
  | null : IsNumberFree null
  | bool (value : Bool) : IsNumberFree (bool value)
  | string (text : String) : IsNumberFree (string text)
  | array {elements : List Value} (helements : ∀ element ∈ elements, IsNumberFree element) :
      IsNumberFree (array elements)
  | object {members : List (String × Value)}
      (hmembers : ∀ member ∈ members, IsNumberFree member.2) : IsNumberFree (object members)

theorem compactElements_eq (elements : List Value) :
    compactElements elements = elements.map compact := by
  induction elements with
  | nil => rfl
  | cons element elements ih => rw [compactElements, ih, List.map_cons]

theorem compactMembers_eq (members : List (String × Value)) : compactMembers members =
    members.map fun member => quote member.1 ++ ":" ++ compact member.2 := by
  induction members with
  | nil => rfl
  | cons member members ih => rw [compactMembers, ih, List.map_cons]

theorem prettyElements_eq (level : Nat) (elements : List Value) :
    prettyElements level elements = elements.map (prettyAt level) := by
  induction elements with
  | nil => rfl
  | cons element elements ih => rw [prettyElements, ih, List.map_cons]

theorem prettyMembers_eq (level : Nat) (members : List (String × Value)) :
    prettyMembers level members =
      members.map fun member => quote member.1 ++ ": " ++ prettyAt level member.2 := by
  induction members with
  | nil => rfl
  | cons member members ih => rw [prettyMembers, ih, List.map_cons]

/-- A way to write values, at any level of nesting: blanks stand before each part of a value, behind
the last one, and behind the colon of a member. -/
structure Style where
  write : Nat → Value → List Char
  before : Nat → List Char
  after : Nat → List Char
  middle : List Char
  isGap_before : ∀ level, IsGap (before level)
  isGap_after : ∀ level, IsGap (after level)
  isGap_middle : IsGap middle
  write_null : ∀ level, write level null = ['n', 'u', 'l', 'l']
  write_true : ∀ level, write level (bool true) = ['t', 'r', 'u', 'e']
  write_false : ∀ level, write level (bool false) = ['f', 'a', 'l', 's', 'e']
  write_string : ∀ level text, write level (string text) = (quote text).toList
  write_array : ∀ level elements, write level (array elements) =
    '[' :: enclosed (before level) (after level) ']' (elements.map (write (level + 1)))
  write_object : ∀ level members, write level (object members) =
    '\x7b' :: enclosed (before level) (after level) '\x7d' (members.map fun member =>
      (quote member.1).toList ++ ':' :: (middle ++ write (level + 1) member.2))

section

variable {α : Type} {text : α → String} {chars : α → List Char} {closing : Char}

theorem toList_joined (htext : ∀ part, (text part).toList = chars part) (parts : List α)
    (opening closing : Char) :
    (String.singleton opening ++ ",".intercalate (parts.map text) ++
        String.singleton closing).toList =
      opening :: enclosed [] [] closing (parts.map chars) := by
  simp only [String.toList_append, String.toList_singleton, String.toList_intercalate,
    List.map_map, Function.comp_def, htext]
  cases parts <;> rfl

theorem toList_spread (htext : ∀ part, (text part).toList = chars part) (parts : List α)
    (level : Nat) (opening closing : Char) :
    (spread level (String.singleton opening) (String.singleton closing) (parts.map text)).toList =
      opening :: enclosed (newLine (level + 1)).toList (newLine level).toList closing
        (parts.map chars) := by
  cases parts with
  | nil => simp [spread, enclosed]
  | cons part parts =>
      rw [spread, if_neg (by simp), List.map_cons, List.map_cons, enclosed_cons]
      simp [String.toList_intercalate, Function.comp_def, htext]

end

def Style.compact : Style where
  write _ value := value.compact.toList
  before _ := []
  after _ := []
  middle := []
  isGap_before _ := nofun
  isGap_after _ := nofun
  isGap_middle := nofun
  write_null _ := rfl
  write_true _ := rfl
  write_false _ := rfl
  write_string _ _ := rfl
  write_array level elements := by
    rw [Value.compact, compactElements_eq]
    exact toList_joined (fun _ => rfl) elements '[' ']'
  write_object level members := by
    rw [Value.compact, compactMembers_eq]
    exact toList_joined (fun member => by simp) members '\x7b' '\x7d'

theorem Style.write_compact (level : Nat) (value : Value) :
    Style.compact.write level value = value.compact.toList := rfl

theorem isGap_newLine (level : Nat) : IsGap (newLine level).toList := by
  intro char hmem
  simp only [newLine, String.toList_append, String.toList_ofList, List.mem_append,
    List.mem_replicate] at hmem
  obtain hline | ⟨-, rfl⟩ := hmem
  · obtain rfl : char = '\n' := by simpa using hline
    rfl
  · rfl

def Style.pretty : Style where
  write level value := (value.prettyAt level).toList
  before level := (newLine (level + 1)).toList
  after level := (newLine level).toList
  middle := [' ']
  isGap_before level := isGap_newLine (level + 1)
  isGap_after level := isGap_newLine level
  isGap_middle := by simp [IsGap, isBlank]
  write_null _ := by simp only [prettyAt]; rfl
  write_true _ := by simp only [prettyAt]; rfl
  write_false _ := by simp only [prettyAt]; rfl
  write_string _ _ := by simp only [prettyAt]; rfl
  write_array level elements := by
    rw [prettyAt, prettyElements_eq]
    exact toList_spread (fun _ => rfl) elements level '[' ']'
  write_object level members := by
    rw [prettyAt, prettyMembers_eq]
    exact toList_spread (fun member => by simp) members level '\x7b' '\x7d'

theorem Style.write_pretty (value : Value) : Style.pretty.write 0 value = value.pretty.toList := rfl

/-! ### Reading back -/

variable {value : Value} {level depth : Nat}

/-- A value is read back in whatever style it is written. The depth that is allowed is enough since
every part of a text is shorter than the text. -/
theorem Style.readsItem (style : Style) (hvalue : value.IsNumberFree)
    (hdepth : (style.write level value).length ≤ depth) :
    ReadsItem (valueUpTo (depth + 1)) (style.write level value) value := by
  induction hvalue generalizing level depth with
  | null =>
      rw [style.write_null]
      exact readsItem_null
  | bool value =>
      cases value with
      | false =>
          rw [style.write_false]
          exact readsItem_false
      | true =>
          rw [style.write_true]
          exact readsItem_true
  | string text =>
      rw [style.write_string]
      exact readsItem_quote text
  | @array elements _ ih =>
      rw [style.write_array] at hdepth ⊢
      have hlist := isList_enclosed (style.isGap_before level) (style.isGap_after level) ']'
        (elements.map (style.write (level + 1)))
      refine readsItem_array hlist ?_
      rw [List.forall₂_map_left_iff, List.forall₂_same]
      intro element hmem
      have hlength := Nat.le_trans (hlist.length_lt_of_mem (List.mem_map_of_mem hmem))
        (Nat.le_of_succ_le hdepth)
      obtain ⟨more, rfl⟩ := Nat.exists_eq_add_of_lt hlength
      exact ih element hmem (Nat.le_add_right _ _)
  | @object members _ ih =>
      rw [style.write_object] at hdepth ⊢
      have hlist := isList_enclosed (style.isGap_before level) (style.isGap_after level) '\x7d'
        (members.map fun member => (quote member.1).toList ++
          ':' :: (style.middle ++ style.write (level + 1) member.2))
      refine readsItem_object hlist ?_
      rw [List.forall₂_map_left_iff, List.forall₂_same]
      intro member hmem
      have hlength := Nat.le_trans (hlist.length_lt_of_mem (List.mem_map_of_mem hmem))
        (Nat.le_of_succ_le hdepth)
      obtain ⟨more, rfl⟩ := Nat.exists_eq_add_of_lt hlength
      refine readsItem_member member.1 style.isGap_middle (ih member hmem ?_)
      rw [List.length_append, List.length_cons, List.length_append]
      omega

theorem Style.parse_write (style : Style) (hvalue : value.IsNumberFree) :
    Value.parse (String.ofList (style.write 0 value)) = .ok value := by
  have hreads (count : Nat) (hcount : (style.write 0 value).length < count) :
      ReadsBefore IsEnd (valueUpTo count) (style.write 0 value) value := by
    obtain ⟨more, rfl⟩ := Nat.exists_eq_add_of_lt hcount
    exact (style.readsItem hvalue (Nat.le_add_right _ _)).reads [] isGap_nil
  refine run_of_reads (fun _ => isEnd_of_isGap) isGap_nil (ReadsBefore.withLength hreads) ?_
  rw [String.toList_ofList, List.append_nil]

/-- **Documents in one piece read back.** -/
theorem parse_compact (hvalue : value.IsNumberFree) : Value.parse value.compact = .ok value := by
  have hparse := Style.compact.parse_write hvalue
  rwa [Style.write_compact, String.ofList_toList] at hparse

/-- **Documents over several lines read back.** -/
theorem parse_pretty (hvalue : value.IsNumberFree) : Value.parse value.pretty = .ok value := by
  have hparse := Style.pretty.parse_write hvalue
  rwa [Style.write_pretty, String.ofList_toList] at hparse

end Value

end StoryKnobs.Json

import Mathlib
import StoryKnobs.Proofs.Skipping

/-!
# Records

A record is read from the text of an object, in whatever order and with whatever escapes and blanks
its members are written, and whatever other members there are. It is also read from the text of an
array with the values of its fields in order, and from a value of either kind.
-/

namespace StoryKnobs.Json

def WritesText (text : String) (chars : List Char) : Prop :=
  ∃ body, Spells body text.toList ∧ chars = '"' :: (body ++ ['"'])

def WritesArray (texts : List (List Char)) (chars : List Char) : Prop :=
  ∃ tail, Reader.IsList ']' texts tail ∧ chars = '[' :: tail

/-- A member with the name `member.1`, however it is spelled, and a value with the text `member.2`. -/
def WritesMember (member : String × List Char) (chars : List Char) : Prop :=
  ∃ key, Spells key member.1.toList ∧ IsMember key member.2 chars

def WritesObject (members : List (String × List Char)) (chars : List Char) : Prop :=
  ∃ texts tail, List.Forall₂ WritesMember members texts ∧ Reader.IsList '\x7d' texts tail ∧
    chars = '\x7b' :: tail

def knownNames {α : Type} (fields : List String) (members : List (String × α)) : List String :=
  (members.map Prod.fst).filter fields.contains

section

variable {α : Type} {fields : List String} {members : List (String × α)} {name : String} {value : α}

theorem knownNames_cons_of_contains (hname : fields.contains name = true) :
    knownNames fields ((name, value) :: members) = name :: knownNames fields members := by
  rw [knownNames, List.map_cons, List.filter_cons_of_pos hname, knownNames]

theorem knownNames_cons_of_not_contains (hname : fields.contains name = false) :
    knownNames fields ((name, value) :: members) = knownNames fields members := by
  rw [knownNames, List.map_cons, List.filter_cons_of_neg (by rw [hname]; exact Bool.false_ne_true),
    knownNames]

end

theorem knownNames_perm {α : Type} {fields : List String} {members others : List (String × α)}
    (hperm : members.Perm others) : (knownNames fields members).Perm (knownNames fields others) :=
  (hperm.map Prod.fst).filter _

theorem Value.Style.writesObject (style : Value.Style) (level : Nat)
    (members : List (String × Value)) :
    WritesObject (members.map fun member => (member.1, style.write (level + 1) member.2))
      (style.write level (.object members)) := by
  rw [style.write_object]
  refine ⟨_, _, ?_,
    Reader.isList_enclosed (style.isGap_before level) (style.isGap_after level) _ _, rfl⟩
  rw [List.forall₂_map_left_iff, List.forall₂_map_right_iff, List.forall₂_same]
  intro member _
  refine ⟨_, Reader.spells_escape member.1.toList, [], style.middle, Reader.isGap_nil,
    style.isGap_middle, ?_⟩
  simp [Reader.toList_quote]

namespace Reader

variable {α β : Type} {fields : List String} {reader : Reader α} {next : Bool → Reader β}
  {chars gap text : List Char} {texts : List (List Char)} {closing : Char} {isFirst : Bool}
  {result : β} {follow : List Char → Prop}

/-- What stands before the first item of a list, or behind an item that is not the last one. -/
def Continues (closing : Char) : Bool → List (List Char) → List Char → Prop
  | true => IsList closing
  | false => IsListTail closing

theorem Continues.length_le (hlist : Continues closing isFirst texts chars) :
    texts.length ≤ chars.length := by
  cases isFirst with
  | true =>
      cases hlist with
      | empty => exact Nat.zero_le _
      | items _ htail =>
          have := htail.length_lt
          simp only [List.length_append, List.length_cons]
          omega
  | false => exact Nat.le_of_lt (IsListTail.length_lt hlist)

/-! ### Objects -/

theorem reads_keyFollows_nil (hlist : Continues '\x7d' isFirst [] chars)
    (hnext : ReadsBefore follow (next false) ['\x7d'] result) :
    ReadsBefore follow (keyFollows isFirst >>= next) chars result := by
  rw [keyFollows, bind_assoc]
  cases isFirst with
  | true =>
      cases hlist with
      | empty hgap => exact ReadsBefore.ofToken hgap rfl hnext
  | false =>
      cases hlist with
      | close hgap => exact ReadsBefore.ofToken hgap rfl hnext

theorem reads_keyFollows_cons (hlist : Continues '\x7d' isFirst (('"' :: text) :: texts) chars) :
    ∃ tail, IsListTail '\x7d' texts tail ∧
      ∀ {next : Bool → Reader β} {result : β},
        ReadsBefore follow (next true) ('"' :: (text ++ tail)) result →
          ReadsBefore follow (keyFollows isFirst >>= next) chars result := by
  cases isFirst with
  | true =>
      cases hlist with
      | @items gap _ tail _ hgap htail =>
          refine ⟨tail, htail, fun hnext => ?_⟩
          rw [keyFollows, bind_assoc]
          exact ReadsBefore.ofToken hgap rfl hnext
  | false =>
      cases hlist with
      | @next gap before _ tail _ hgap hbefore htail =>
          refine ⟨tail, htail, fun hnext => ?_⟩
          rw [keyFollows, bind_assoc]
          refine ReadsBefore.ofToken hgap rfl ?_
          change ReadsBefore follow ((Reader.advance >>= fun _ => peekToken? >>= fun _ => _) >>= _) _ _
          simp only [bind_assoc]
          exact ReadsBefore.advance (ReadsBefore.ofToken hbefore rfl hnext)

/-- The members of an object are read in their order, except for those that are no fields. -/
theorem reads_membersUpTo {members : List (String × List Char)} {count : Nat}
    {found : List (String × α)} {meaning : String → α}
    {next : Except Cause (List (String × α)) → Reader β}
    (hlist : Continues '\x7d' isFirst texts chars)
    (hmembers : List.Forall₂ WritesMember members texts) (hcount : texts.length < count)
    (hnodup : (found.reverse.map Prod.fst ++ knownNames fields members).Nodup)
    (hknown : ∀ member ∈ members, fields.contains member.1 = true →
      ReadsItem reader member.2 (meaning member.1))
    (hother : ∀ member ∈ members, fields.contains member.1 = false → IsValue member.2)
    (hnext : ReadsBefore follow (next (.ok (found.reverse ++
      (knownNames fields members).map fun name => (name, meaning name)))) ['\x7d'] result) :
    ReadsBefore follow (membersUpTo fields reader count found isFirst >>= next) chars result := by
  induction hmembers generalizing isFirst count found chars with
  | nil =>
      obtain ⟨count, rfl⟩ := Nat.exists_eq_add_of_le' (Nat.zero_lt_of_lt hcount)
      rw [membersUpTo, bind_assoc]
      refine reads_keyFollows_nil hlist ?_
      simpa [knownNames] using hnext
  | @cons member text members texts hmember _ ih =>
      obtain ⟨count, rfl⟩ := Nat.exists_eq_add_of_le' (Nat.zero_lt_of_lt hcount)
      obtain ⟨name, value⟩ := member
      obtain ⟨key, hkey, gap, before, hgap, hbefore, rfl⟩ := hmember
      obtain ⟨tail, htail, hfollows⟩ := reads_keyFollows_cons hlist
      have hrest := Nat.lt_of_succ_lt_succ hcount
      obtain ⟨hfirst, hmore⟩ := List.forall_mem_cons.mp hknown
      obtain ⟨hskip, hskips⟩ := List.forall_mem_cons.mp hother
      rw [membersUpTo, bind_assoc]
      refine hfollows ?_
      simp only [if_true, bind_assoc]
      refine ReadsBefore.advance ?_
      rw [List.append_assoc]
      refine (reads_string hkey).bind ?_
      rw [List.append_assoc]
      cases hname : fields.contains name with
      | true =>
          rw [knownNames_cons_of_contains hname] at hnodup hnext
          have hnew : found.any (·.1 == name) = false := by
            refine List.any_eq_false.mpr fun other hother hsame => ?_
            refine List.disjoint_of_nodup_append hnodup ?_ List.mem_cons_self
            exact List.mem_map.mpr ⟨other, List.mem_reverse.mpr hother, eq_of_beq hsame⟩
          simp only [if_true, hnew, Bool.false_eq_true, if_false, bind_assoc]
          refine (reads_colon hgap).bind (ReadsBefore.bind ((hfirst hname).reads before hbefore) ?_
            fun rest _ => htail.isEnd (.inr rfl) rest)
          refine ih htail hrest ?_ hmore hskips ?_
          · simpa using hnodup
          · simpa using hnext
      | false =>
          rw [knownNames_cons_of_not_contains hname] at hnodup hnext
          simp only [Bool.false_eq_true, if_false, bind_assoc]
          exact (reads_colon hgap).bind (ReadsBefore.bind
            ((readsItem_skipValue (hskip hname)).reads before hbefore)
            (ih htail hrest hnodup hmore hskips hnext) fun rest _ => htail.isEnd (.inr rfl) rest)

/-! ### Arrays -/

theorem reads_elementFollows_cons {value : α} (hitem : ReadsItem reader text value)
    (hlist : Continues ']' isFirst (text :: texts) chars) :
    ∃ tail, IsListTail ']' texts tail ∧
      ∀ {next : Bool → Reader β} {result : β}, ReadsBefore follow (next true) (text ++ tail) result →
        ReadsBefore follow (elementFollows isFirst >>= next) chars result := by
  obtain ⟨char, start, rfl, hblank, hopen⟩ := hitem.head
  have hne : char ≠ ']' := fun hchar => hopen (.inl hchar)
  cases isFirst with
  | true =>
      cases hlist with
      | @items gap _ tail _ hgap htail =>
          refine ⟨tail, htail, fun hnext => ?_⟩
          rw [elementFollows, bind_assoc]
          refine ReadsBefore.ofToken hgap hblank ?_
          split
          next heq => cases heq
          next heq => exact absurd (Option.some.inj heq) hne
          next => exact hnext
  | false =>
      cases hlist with
      | @next gap before _ tail _ hgap hbefore htail =>
          refine ⟨tail, htail, fun hnext => ?_⟩
          rw [elementFollows, bind_assoc]
          refine ReadsBefore.ofToken hgap rfl ?_
          change ReadsBefore follow ((Reader.advance >>= fun _ => peekToken? >>= fun _ => _) >>= _) _ _
          simp only [bind_assoc]
          refine ReadsBefore.advance (ReadsBefore.ofToken hbefore hblank ?_)
          split
          next heq => exact absurd (Option.some.inj heq) hne
          next => exact hnext
          next heq => cases heq

theorem reads_elementsFor {shape : Shape} {found : List (String × α)} {values : List α}
    {next : Except Cause (List (String × α)) → Reader β}
    (hlist : Continues ']' found.isEmpty texts chars)
    (hitems : List.Forall₂ (ReadsItem reader) texts values)
    (hlength : fields.length = values.length)
    (hnext : ∀ gap, IsGap gap → ReadsBefore follow
      (next (.ok (found.reverse ++ fields.zip values))) (gap ++ [']']) result) :
    ReadsBefore follow (elementsFor shape reader fields found >>= next) chars result := by
  induction hitems generalizing fields found chars with
  | nil =>
      obtain rfl := List.eq_nil_of_length_eq_zero hlength
      rw [List.zip_nil_left, List.append_nil] at hnext
      rw [elementsFor, pure_bind]
      cases hempty : found.isEmpty with
      | true =>
          rw [hempty] at hlist
          cases hlist with
          | empty hgap => exact hnext _ hgap
      | false =>
          rw [hempty] at hlist
          cases hlist with
          | close hgap => exact hnext _ hgap
  | @cons text value texts values hitem _ ih =>
      obtain ⟨field, fields, rfl⟩ := List.exists_cons_of_length_eq_add_one hlength
      obtain ⟨tail, htail, hfollows⟩ := reads_elementFollows_cons hitem hlist
      rw [elementsFor, bind_assoc]
      refine hfollows ?_
      simp only [if_true, bind_assoc]
      refine ReadsBefore.bind (hitem.reads [] isGap_nil) (ih htail (Nat.succ_inj.mp hlength) ?_)
        fun rest _ => htail.isEnd (.inl rfl) rest
      simpa using hnext

/-! ### Records -/

theorem readsItem_record_of_object {shape : Shape} {finish : List (String × α) → Except Cause β}
    {members : List (String × List Char)} {meaning : String → α}
    (hobject : WritesObject members chars) (hnodup : (knownNames shape.fields members).Nodup)
    (hknown : ∀ member ∈ members, shape.fields.contains member.1 = true →
      ReadsItem reader member.2 (meaning member.1))
    (hother : ∀ member ∈ members, shape.fields.contains member.1 = false → IsValue member.2)
    (hfinish : finish ((knownNames shape.fields members).map fun name => (name, meaning name)) =
      .ok result) : ReadsItem (record shape reader finish) chars result := by
  obtain ⟨texts, tail, hmembers, hlist, rfl⟩ := hobject
  have hclose : Reads closeObject ['\x7d'] () := ReadsBefore.ofHead rfl (reads_advance _)
  have hreads (count : Nat) (hcount : tail.length < count) :
      ReadsBefore IsEnd (membersUpTo shape.fields reader count [] true >>= fun found =>
        Reader.closing closeObject passObjectEnd (found.bind finish)) tail result := by
    have hfirst : Continues '\x7d' true texts tail := hlist
    have hlength := hfirst.length_le
    refine reads_membersUpTo hfirst hmembers (by omega) hnodup hknown hother ?_
    rw [List.reverse_nil, List.nil_append, Except.bind, hfinish]
    exact hclose.before.map
  rw [record]
  exact readsItem_of_token rfl (by simp [IsClosing])
    (ReadsBefore.advance (ReadsBefore.withLength hreads))

theorem readsItem_record_of_array {shape : Shape} {finish : List (String × α) → Except Cause β}
    {values : List α} (harray : WritesArray texts chars)
    (hitems : List.Forall₂ (ReadsItem reader) texts values)
    (hlength : shape.fields.length = values.length)
    (hfinish : finish (shape.fields.zip values) = .ok result) :
    ReadsItem (record shape reader finish) chars result := by
  obtain ⟨tail, hlist, rfl⟩ := harray
  have hclose {gap : List Char} (hgap : IsGap gap) : Reads closeArray (gap ++ [']']) () :=
    ReadsBefore.ofToken hgap rfl (reads_advance _)
  rw [record]
  refine readsItem_of_token rfl (by simp [IsClosing]) (ReadsBefore.advance ?_)
  refine reads_elementsFor hlist hitems hlength fun gap hgap => ?_
  rw [List.reverse_nil, List.nil_append, Except.bind, hfinish]
  exact (hclose hgap).before.map

/-- A text that is asked for is read however it is spelled. -/
theorem readsItem_text {name : String} (expected : String) (htext : WritesText name chars) :
    ReadsItem (Reader.text expected) chars name := by
  obtain ⟨body, hbody, rfl⟩ := htext
  rw [Reader.text]
  exact readsItem_of_token rfl (by simp [IsClosing]) (reads_string hbody).before.advance

end Reader

/-! ### Records from values -/

namespace Value

variable {α β : Type} {shape : Shape} {part : Value → Except Cause α}
  {finish : List (String × α) → Except Cause β} {result : β}

theorem fieldsOf_eq {fields : List String} {members : List (String × Value)} {meaning : String → α}
    (hknown : ∀ member ∈ members, fields.contains member.1 = true →
      part member.2 = .ok (meaning member.1)) :
    fieldsOf fields part members =
      .ok ((knownNames fields members).map fun name => (name, meaning name)) := by
  induction members with
  | nil => rfl
  | cons member members ih =>
      obtain ⟨name, value⟩ := member
      obtain ⟨hfirst, hmore⟩ := List.forall_mem_cons.mp hknown
      rw [fieldsOf]
      cases hname : fields.contains name with
      | true =>
          rw [knownNames_cons_of_contains hname, if_pos rfl, hfirst hname, ih hmore]
          rfl
      | false =>
          rw [knownNames_cons_of_not_contains hname, if_neg Bool.false_ne_true, ih hmore]

theorem elementsOf_eq {fields : List String} {values : List Value} {parts : List α} {count : Nat}
    (hparts : List.Forall₂ (fun value found => part value = .ok found) values parts)
    (hlength : fields.length = parts.length) :
    elementsOf shape part count fields values = .ok (fields.zip parts) := by
  induction hparts generalizing fields count with
  | nil =>
      obtain rfl := List.eq_nil_of_length_eq_zero hlength
      rfl
  | cons hpart _ ih =>
      obtain ⟨field, fields, rfl⟩ := List.exists_cons_of_length_eq_add_one hlength
      rw [elementsOf, hpart, ih (Nat.succ_inj.mp hlength)]
      rfl

theorem asRecord_object {members : List (String × Value)} {meaning : String → α}
    (hknown : ∀ member ∈ members, shape.fields.contains member.1 = true →
      part member.2 = .ok (meaning member.1))
    (hfinish : finish ((knownNames shape.fields members).map fun name => (name, meaning name)) =
      .ok result) : (object members).asRecord shape part finish = .ok result := by
  rw [asRecord, fieldsOf_eq hknown, Except.bind, hfinish]

theorem asRecord_array {values : List Value} {parts : List α}
    (hparts : List.Forall₂ (fun value found => part value = .ok found) values parts)
    (hlength : shape.fields.length = parts.length)
    (hfinish : finish (shape.fields.zip parts) = .ok result) :
    (array values).asRecord shape part finish = .ok result := by
  rw [asRecord, elementsOf_eq hparts hlength, Except.bind, hfinish, hlength, ← hparts.length_eq]
  simp

end Value

end StoryKnobs.Json

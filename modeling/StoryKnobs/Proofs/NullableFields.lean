import Mathlib
import StoryKnobs.Proofs.Records

/-!
# Records whose fields may be null

The fields of a record may be read by a reader that takes `null` for no value. Where none of them is
`null`, this reads what is read without it. A field that is read stays among the fields that are
found, under a key that no other one has.
-/

namespace StoryKnobs.Json

inductive WritesNullable : Option String → List Char → Prop where
  | null : WritesNullable none ['n', 'u', 'l', 'l']
  | text {name : String} {chars : List Char} (htext : WritesText name chars) :
      WritesNullable (some name) chars

namespace Reader

variable {α β γ δ : Type} {reader : Reader α} {other : Reader β} {value : α} {result : β}
  {cursor last : Cursor}

theorem bind_eq_ok_iff {next : α → Reader β} :
    (reader >>= next) cursor = .ok (result, last) ↔
      ∃ value middle, reader cursor = .ok (value, middle) ∧
        next value middle = .ok (result, last) := by
  change (reader cursor).bind (fun pair => next pair.1 pair.2) = _ ↔ _
  cases reader cursor with
  | error stop => exact ⟨nofun, nofun⟩
  | ok pair =>
      constructor
      · exact fun hnext => ⟨pair.1, pair.2, rfl, hnext⟩
      · rintro ⟨_, _, ⟨⟩, hnext⟩
        exact hnext

/-! ### Readers that never give a value -/

def Fails (reader : Reader α) : Prop := ∀ cursor pair, reader cursor ≠ .ok pair

theorem fails_stop (cause : Cause) : Fails (stop cause : Reader α) := fun _ _ => nofun

theorem fails_stopNext (cause : Cause) : Fails (stopNext cause : Reader α) := fun _ _ => nofun

theorem Fails.behind {next : α → Reader β} (hnext : ∀ value, Fails (next value)) :
    Fails (reader >>= next) := by
  rintro cursor ⟨result, last⟩ hread
  obtain ⟨value, middle, -, hlast⟩ := bind_eq_ok_iff.mp hread
  exact hnext value middle _ hlast

theorem fails_wrongType (expected : String) : Fails (wrongType expected : Reader α) := by
  rw [wrongType]
  refine Fails.behind fun head => ?_
  split
  · exact Fails.behind fun _ => fails_stop _
  · exact Fails.behind fun _ => fails_stop _
  · exact Fails.behind fun _ => fails_stop _
  · exact Fails.behind fun _ => Fails.behind fun _ => fails_stop _
  · exact Fails.behind fun _ => Fails.behind fun _ => fails_stop _
  · exact fails_stop _
  · exact fails_stop _
  · split
    · exact Fails.behind fun _ => fails_stop _
    · exact fails_stopNext _
  · exact fails_stopNext _

/-! ### Readers that give the same -/

/-- `reader` gives `value` just where `other` gives `result`, and both stop at the same place. -/
def Matches (reader : Reader α) (value : α) (other : Reader β) (result : β) : Prop :=
  ∀ cursor last, reader cursor = .ok (value, last) ↔ other cursor = .ok (result, last)

theorem Fails.matches (hreader : Fails reader) (hother : Fails other) :
    Matches reader value other result :=
  fun cursor last => iff_of_false (hreader cursor (value, last)) (hother cursor (result, last))

theorem matches_pure {left : α} {right : β} (hsame : left = value ↔ right = result) :
    Matches (pure left) value (pure right) result := by
  intro cursor last
  have hleft : (pure left : Reader α) cursor = .ok (left, cursor) := rfl
  have hright : (pure right : Reader β) cursor = .ok (right, cursor) := rfl
  simp only [hleft, hright, Except.ok.injEq, Prod.mk.injEq, hsame]

/-- The values that are read first are related wherever the readers behind them give the results. -/
theorem Matches.bind (related : α → β → Prop) {next : α → Reader γ} {otherNext : β → Reader δ}
    {left : γ} {right : δ}
    (hreader : ∀ value result, related value result → Matches reader value other result)
    (hnext : ∀ value result, related value result →
      Matches (next value) left (otherNext result) right)
    (hleft : ∀ value cursor middle last, reader cursor = .ok (value, middle) →
      next value middle = .ok (left, last) → ∃ result, related value result)
    (hright : ∀ result middle last, otherNext result middle = .ok (right, last) →
      ∃ value, related value result) :
    Matches (reader >>= next) left (other >>= otherNext) right := by
  intro cursor last
  rw [bind_eq_ok_iff, bind_eq_ok_iff]
  constructor
  · rintro ⟨value, middle, hvalue, hlast⟩
    obtain ⟨result, hrelated⟩ := hleft value cursor middle last hvalue hlast
    exact ⟨result, middle, (hreader value result hrelated cursor middle).mp hvalue,
      (hnext value result hrelated middle last).mp hlast⟩
  · rintro ⟨result, middle, hresult, hlast⟩
    obtain ⟨value, hrelated⟩ := hright result middle last hlast
    exact ⟨value, middle, (hreader value result hrelated cursor middle).mpr hresult,
      (hnext value result hrelated middle last).mpr hlast⟩

theorem Matches.behind {next : α → Reader γ} {otherNext : α → Reader δ} {left : γ} {right : δ}
    (hnext : ∀ value, Matches (next value) left (otherNext value) right) :
    Matches (reader >>= next) left (reader >>= otherNext) right := by
  refine Matches.bind Eq ?_ ?_ (fun value _ _ _ _ _ => ⟨value, rfl⟩) fun value _ _ _ => ⟨value, rfl⟩
  · rintro value _ rfl cursor last
    exact Iff.rfl
  · rintro value _ rfl
    exact hnext value

/-! ### Texts that may be null -/

def token (cursor : Cursor) : Cursor := passBlanks cursor.index cursor.rest

theorem token_token (cursor : Cursor) : token (token cursor) = token cursor := by
  obtain ⟨index, chars⟩ := cursor
  induction chars generalizing index with
  | nil => rfl
  | cons char chars ih =>
      cases hblank : isBlank char with
      | true => simpa only [token, passBlanks, hblank, if_true] using ih (index + 1)
      | false => simp only [token, passBlanks, hblank, Bool.false_eq_true, if_false]

theorem peekToken?_eq (cursor : Cursor) :
    peekToken? cursor = .ok ((token cursor).rest.head?, token cursor) := rfl

theorem text_token (expected : String) (cursor : Cursor) :
    Reader.text expected (token cursor) = Reader.text expected cursor := by
  rw [Reader.text, bind_eq_of_ok (peekToken?_eq cursor),
    bind_eq_of_ok (peekToken?_eq (token cursor)), token_token]

theorem text_ne_ok_of_null {expected : String} (hnull : (token cursor).rest.head? = some 'n')
    (pair : String × Cursor) : Reader.text expected cursor ≠ .ok pair := by
  rw [Reader.text, bind_eq_of_ok (peekToken?_eq cursor), hnull]
  exact fails_wrongType expected (token cursor) pair

theorem orNull_of_null (hnull : (token cursor).rest.head? = some 'n') :
    orNull reader cursor = (do keyword ['n', 'u', 'l', 'l']; return none) (token cursor) := by
  rw [orNull, bind_eq_of_ok (peekToken?_eq cursor), hnull]
  rfl

theorem orNull_of_ne (hvalue : (token cursor).rest.head? ≠ some 'n') :
    orNull reader cursor = (do return some (← reader)) (token cursor) := by
  rw [orNull, bind_eq_of_ok (peekToken?_eq cursor)]
  refine congrFun ?_ (token cursor)
  split
  next hnull => exact absurd hnull hvalue
  next => rfl

theorem matches_orNull_text (expected text : String) :
    Matches (orNull (Reader.text expected)) (some text) (Reader.text expected) text := by
  intro cursor last
  by_cases hnull : (token cursor).rest.head? = some 'n'
  · rw [orNull_of_null hnull]
    refine iff_of_false (fun hread => ?_) (text_ne_ok_of_null hnull _)
    obtain ⟨_, _, -, ⟨⟩⟩ := bind_eq_ok_iff.mp hread
  · rw [orNull_of_ne hnull, bind_eq_ok_iff, text_token]
    constructor
    · rintro ⟨_, _, hread, ⟨⟩⟩
      exact hread
    · exact fun hread => ⟨text, last, hread, rfl⟩

theorem readsItem_orNull {text : Option String} {chars : List Char} (expected : String)
    (htext : WritesNullable text chars) :
    ReadsItem (orNull (Reader.text expected)) chars text := by
  cases htext with
  | null =>
      rw [orNull]
      exact readsItem_of_token rfl (by simp [IsClosing]) ((reads_keyword _).bind (reads_pure none))
  | @text name chars htext =>
      have hreads := ((readsItem_text expected htext).reads [] isGap_nil).map (f := some)
      obtain ⟨body, hbody, rfl⟩ := htext
      rw [orNull]
      exact readsItem_of_token rfl (by simp [IsClosing]) hreads

/-! ### What is found -/

structure IsFound (fields : List String) (found : List (String × α)) : Prop where
  nodup : (found.map Prod.fst).Nodup
  known : ∀ entry ∈ found, entry.1 ∈ fields

section

variable {shape : Shape} {fields : List String} {count : Nat} {found results : List (String × α)}
  {isFirst : Bool}

theorem IsFound.reverse (hfound : IsFound fields found) : IsFound fields found.reverse where
  nodup := by rw [List.map_reverse]; exact List.nodup_reverse.mpr hfound.nodup
  known entry hentry := hfound.known entry (List.mem_reverse.mp hentry)

theorem IsFound.lookup_eq (hfound : IsFound fields found) {key : String} (hmem : (key, value) ∈ found) :
    found.lookup key = some value := by
  obtain ⟨front, back, rfl⟩ := List.append_of_mem hmem
  refine List.lookup_eq_some_iff.mpr ⟨front, back, rfl, fun entry hentry => bne_iff_ne.mpr ?_⟩
  have hnodup := hfound.nodup
  rw [List.map_append, List.map_cons] at hnodup
  rintro rfl
  exact List.disjoint_of_nodup_append hnodup (List.mem_map_of_mem hentry) List.mem_cons_self

theorem isFound_nil : IsFound fields ([] : List (String × α)) := ⟨List.nodup_nil, nofun⟩

/-- What holds of the fields found before, and goes on to hold with each field that is not yet among
them, holds of those that are found in an object. -/
theorem membersUpTo_induction {motive : List (String × α) → Prop}
    (hstep : ∀ found key value, motive found → key ∈ fields → key ∉ found.map Prod.fst →
      motive ((key, value) :: found))
    (hfound : motive found)
    (hread : membersUpTo fields reader count found isFirst cursor = .ok (.ok results, last)) :
    ∃ final, motive final ∧ results = final.reverse := by
  induction count generalizing found isFirst cursor with
  | zero =>
      obtain ⟨⟩ := hread
      exact ⟨found, hfound, rfl⟩
  | succ count ih =>
      rw [membersUpTo] at hread
      obtain ⟨follows, cursor, -, hread⟩ := bind_eq_ok_iff.mp hread
      cases follows with
      | false =>
          obtain ⟨⟩ := hread
          exact ⟨found, hfound, rfl⟩
      | true =>
          obtain ⟨-, cursor, -, hread⟩ := bind_eq_ok_iff.mp hread
          obtain ⟨key, cursor, -, hread⟩ := bind_eq_ok_iff.mp hread
          cases hname : fields.contains key with
          | false =>
              simp only [hname, Bool.false_eq_true, if_false, bind_eq_ok_iff] at hread
              obtain ⟨-, _, -, -, cursor, -, hread⟩ := hread
              exact ih hfound hread
          | true =>
              cases hany : found.any (·.1 == key) with
              | true =>
                  simp only [hname, hany, if_true] at hread
                  obtain ⟨⟩ := hread
              | false =>
                  simp only [hname, hany, Bool.false_eq_true, if_true, if_false,
                    bind_eq_ok_iff] at hread
                  obtain ⟨-, _, -, value, cursor, -, hread⟩ := hread
                  refine ih (hstep found key value hfound (List.contains_iff_mem.mp hname) ?_) hread
                  rintro hmem
                  obtain ⟨entry, hentry, rfl⟩ := List.mem_map.mp hmem
                  exact List.any_eq_false.mp hany entry hentry (beq_self_eq_true _)

theorem isFound_of_membersUpTo
    (hread : membersUpTo fields reader count [] isFirst cursor = .ok (.ok results, last)) :
    IsFound fields results := by
  have hstep (found : List (String × α)) (key : String) (value : α) (hfound : IsFound fields found)
      (hkey : key ∈ fields) (hnew : key ∉ found.map Prod.fst) :
      IsFound fields ((key, value) :: found) :=
    ⟨List.nodup_cons.mpr ⟨hnew, hfound.nodup⟩, List.forall_mem_cons.mpr ⟨hkey, hfound.known⟩⟩
  obtain ⟨final, hfinal, rfl⟩ := membersUpTo_induction hstep isFound_nil hread
  exact hfinal.reverse

theorem mem_of_membersUpTo
    (hread : membersUpTo fields reader count found isFirst cursor = .ok (.ok results, last))
    {entry : String × α} (hentry : entry ∈ found) : entry ∈ results := by
  obtain ⟨final, hfinal, rfl⟩ := membersUpTo_induction (motive := fun found => entry ∈ found)
    (fun _ _ _ hfound _ _ => List.mem_cons_of_mem _ hfound) hentry hread
  exact List.mem_reverse.mpr hfinal

theorem elementsFor_eq_ok
    (hread : elementsFor shape reader fields found cursor = .ok (.ok results, last)) :
    ∃ values, values.length = fields.length ∧ results = found.reverse ++ fields.zip values := by
  induction fields generalizing found cursor with
  | nil =>
      obtain ⟨⟩ := hread
      exact ⟨[], rfl, (List.append_nil _).symm⟩
  | cons field fields ih =>
      rw [elementsFor] at hread
      obtain ⟨follows, cursor, -, hread⟩ := bind_eq_ok_iff.mp hread
      cases follows with
      | false => obtain ⟨⟩ := hread
      | true =>
          obtain ⟨value, cursor, -, hread⟩ := bind_eq_ok_iff.mp hread
          obtain ⟨values, hlength, rfl⟩ := ih hread
          refine ⟨value :: values, congrArg Nat.succ hlength, ?_⟩
          rw [List.reverse_cons, List.append_assoc]
          rfl

theorem isFound_of_elementsFor (hnodup : fields.Nodup)
    (hread : elementsFor shape reader fields [] cursor = .ok (.ok results, last)) :
    IsFound fields results := by
  obtain ⟨values, hlength, rfl⟩ := elementsFor_eq_ok hread
  rw [List.reverse_nil, List.nil_append]
  refine ⟨?_, fun entry hentry => (List.of_mem_zip hentry).1⟩
  rwa [List.map_fst_zip (Nat.le_of_eq hlength.symm)]

theorem mem_of_elementsFor
    (hread : elementsFor shape reader fields found cursor = .ok (.ok results, last))
    {entry : String × α} (hentry : entry ∈ found) : entry ∈ results := by
  obtain ⟨values, -, rfl⟩ := elementsFor_eq_ok hread
  exact List.mem_append_left _ (List.mem_reverse.mpr hentry)

end

/-! ### Records without null -/

def present (found : List (String × α)) : List (String × Option α) :=
  found.map fun entry => (entry.1, some entry.2)

section

variable {shape optionalShape : Shape} {fields : List String} {count : Nat}
  {found results : List (String × α)} {isFirst : Bool} {optional : Reader (Option α)}

theorem present_injective : Function.Injective (present : List (String × α) → _) := by
  refine List.map_injective_iff.mpr ?_
  rintro ⟨key, value⟩ ⟨other, result⟩ ⟨⟩
  rfl

theorem present_reverse_iff :
    (present found).reverse = present results ↔ found.reverse = results := by
  rw [present, ← List.map_reverse]
  exact present_injective.eq_iff

theorem null_not_mem_present {key : String} : (key, none) ∉ present found := by
  simp [present]

/-- A reader reads a field by `optional` as it reads it by `reader`, if `null` leads to no result. -/
theorem Matches.bind_present {next : Option α → Reader γ} {otherNext : α → Reader δ} {left : γ}
    {right : δ} (hoptional : ∀ value, Matches optional (some value) reader value)
    (hnext : ∀ value, Matches (next (some value)) left (otherNext value) right)
    (hnull : ∀ cursor last, next none cursor ≠ .ok (left, last)) :
    Matches (optional >>= next) left (reader >>= otherNext) right := by
  refine Matches.bind (fun option value => option = some value) ?_ ?_ ?_
    fun value _ _ _ => ⟨some value, rfl⟩
  · rintro _ value rfl
    exact hoptional value
  · rintro _ value rfl
    exact hnext value
  · rintro (_ | value) _ middle last - hlast
    · exact absurd hlast (hnull middle last)
    · exact ⟨value, rfl⟩

theorem matches_membersUpTo (found : List (String × α))
    (hoptional : ∀ value, Matches optional (some value) reader value) :
    Matches (membersUpTo fields optional count (present found) isFirst) (.ok (present results))
      (membersUpTo fields reader count found isFirst) (.ok results) := by
  induction count generalizing found isFirst with
  | zero => exact matches_pure (by simp only [Except.ok.injEq, present_reverse_iff])
  | succ count ih =>
      rw [membersUpTo, membersUpTo]
      refine Matches.behind fun follows => ?_
      cases follows with
      | false => exact matches_pure (by simp only [Except.ok.injEq, present_reverse_iff])
      | true =>
          refine Matches.behind fun _ => Matches.behind fun key => ?_
          have hany : (present found).any (·.1 == key) = found.any (·.1 == key) := by
            rw [present, List.any_map]
            rfl
          simp only [hany]
          split
          · split
            · exact matches_pure (by simp)
            · -- a field that is `null` would still be there at the end, where none is
              refine Matches.behind fun _ => Matches.bind_present hoptional
                (fun value => ih ((key, value) :: found)) ?_
              intro cursor last hread
              exact null_not_mem_present (mem_of_membersUpTo hread List.mem_cons_self)
          · exact Matches.behind fun _ => Matches.behind fun _ => ih found

theorem matches_elementsFor (found : List (String × α))
    (hoptional : ∀ value, Matches optional (some value) reader value) :
    Matches (elementsFor optionalShape optional fields (present found)) (.ok (present results))
      (elementsFor shape reader fields found) (.ok results) := by
  induction fields generalizing found with
  | nil => exact matches_pure (by simp only [Except.ok.injEq, present_reverse_iff])
  | cons field fields ih =>
      have hempty : (present found).isEmpty = found.isEmpty := List.isEmpty_map
      rw [elementsFor, elementsFor, hempty]
      refine Matches.behind fun follows => ?_
      cases follows with
      | false => exact matches_pure (by simp)
      | true =>
          refine Matches.bind_present hoptional
            (fun value => ih ((field, value) :: found)) ?_
          intro cursor last hread
          exact null_not_mem_present (mem_of_elementsFor hread List.mem_cons_self)

end

theorem closing_eq_ok_iff {close pass : Reader Unit} {outcome : Except Cause α} :
    closing close pass outcome cursor = .ok (value, last) ↔
      outcome = .ok value ∧ close cursor = .ok ((), last) := by
  cases outcome with
  | error cause =>
      rw [closing, bind_eq_ok_iff]
      exact iff_of_false (fun ⟨_, _, _, hstop⟩ => nomatch hstop) (fun houtcome => nomatch houtcome.1)
  | ok found =>
      rw [closing, bind_eq_ok_iff]
      constructor
      · rintro ⟨_, _, hclose, ⟨⟩⟩
        exact ⟨rfl, hclose⟩
      · rintro ⟨⟨⟩, hclose⟩
        exact ⟨(), last, hclose, rfl⟩

section

variable {shape optionalShape : Shape} {optional : Reader (Option α)} {close pass : Reader Unit}
  {finish : List (String × α) → Except Cause β}
  {optionalFinish : List (String × Option α) → Except Cause γ} {left : γ}

/-- Two records are made of what is found between the same brackets. What is found has each key once,
so that no second entry can hide a `null`. -/
theorem Matches.bind_closing {fields : List String}
    {found : Reader (Except Cause (List (String × Option α)))}
    {otherFound : Reader (Except Cause (List (String × α)))}
    (hfound : ∀ results, Matches found (.ok (present results)) otherFound (.ok results))
    (hisFound : ∀ results cursor last, found cursor = .ok (.ok results, last) →
      IsFound fields results)
    (hfinish : ∀ results, optionalFinish (present results) = .ok left ↔ finish results = .ok result)
    (hpresent : ∀ results, IsFound fields results → optionalFinish results = .ok left →
      ∃ plain, results = present plain) :
    Matches (found >>= fun results => closing close pass (results.bind optionalFinish)) left
      (otherFound >>= fun results => closing close pass (results.bind finish)) result := by
  refine Matches.bind (fun results plain =>
    ∃ entries, results = .ok (present entries) ∧ plain = .ok entries) ?_ ?_ ?_ ?_
  · rintro _ _ ⟨entries, rfl, rfl⟩
    exact hfound entries
  · rintro _ _ ⟨entries, rfl, rfl⟩ cursor last
    rw [closing_eq_ok_iff, closing_eq_ok_iff]
    exact and_congr_left' (hfinish entries)
  · rintro (cause | results) cursor middle last hread hclose
    · exact nomatch (closing_eq_ok_iff.mp hclose).1
    · obtain ⟨plain, rfl⟩ := hpresent results (hisFound results cursor middle hread)
        (closing_eq_ok_iff.mp hclose).1
      exact ⟨_, plain, rfl, rfl⟩
  · rintro (cause | results) middle last hclose
    · exact nomatch (closing_eq_ok_iff.mp hclose).1
    · exact ⟨_, results, rfl, rfl⟩

/-- **Records whose fields may be null** are read as other records, if what is made of the fields
found is the same where none is `null`, and is something else where one is. -/
theorem matches_record (hfields : optionalShape.fields = shape.fields)
    (hnodup : shape.fields.Nodup)
    (hoptional : ∀ value, Matches optional (some value) reader value)
    (hfinish : ∀ results, optionalFinish (present results) = .ok left ↔ finish results = .ok result)
    (hpresent : ∀ results, IsFound shape.fields results → optionalFinish results = .ok left →
      ∃ plain, results = present plain) :
    Matches (record optionalShape optional optionalFinish) left
      (record shape reader finish) result := by
  rw [record, record, hfields]
  refine Matches.behind fun head => ?_
  split
  · exact (fails_stopNext _).matches (fails_stopNext _)
  · refine Matches.behind fun _ => ?_
    exact Matches.bind_closing (fun _ => matches_elementsFor [] hoptional)
      (fun _ _ _ => isFound_of_elementsFor hnodup) hfinish hpresent
  · refine Matches.behind fun _ => Matches.behind fun cursor => ?_
    exact Matches.bind_closing (fun _ => matches_membersUpTo [] hoptional)
      (fun _ _ _ => isFound_of_membersUpTo) hfinish hpresent
  · exact (fails_wrongType _).matches (fails_wrongType _)

end

theorem run_eq_ok_iff {text : String} : reader.run text = .ok value ↔
    ∃ last, (do let value ← reader; ending; return value : Reader α) ⟨0, text.toList⟩ =
      .ok (value, last) := by
  rw [run]
  generalize (do let value ← reader; ending; return value : Reader α) ⟨0, text.toList⟩ = outcome
  obtain stop | ⟨other, last⟩ := outcome <;> simp

/-- Whole texts are read alike. -/
theorem Matches.run_eq_ok_iff (hmatches : Matches reader value other result) (text : String) :
    reader.run text = .ok value ↔ other.run text = .ok result := by
  rw [Reader.run_eq_ok_iff, Reader.run_eq_ok_iff]
  refine exists_congr fun last => ?_
  refine Matches.bind (fun left right => left = value ∧ right = result) ?_ ?_ ?_ ?_ _ last
  · rintro _ _ ⟨rfl, rfl⟩
    exact hmatches
  · rintro _ _ ⟨rfl, rfl⟩
    exact Matches.behind fun _ => matches_pure (iff_of_true rfl rfl)
  · intro left cursor middle last _ hend
    obtain ⟨_, _, _, ⟨⟩⟩ := bind_eq_ok_iff.mp hend
    exact ⟨result, rfl, rfl⟩
  · intro right middle last hend
    obtain ⟨_, _, _, ⟨⟩⟩ := bind_eq_ok_iff.mp hend
    exact ⟨value, rfl, rfl⟩

end Reader

end StoryKnobs.Json

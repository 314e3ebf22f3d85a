import StoryKnobs.Generate
import StoryKnobs.Proofs.PropertyNames
import StoryKnobs.Proofs.StoryLines

/-!
# The entry of an input

The line of an input holds the name of the input twice, as the name of a property and between quotes,
and both times as it is. So the line is an entry for that name if the name needs no other spelling,
and only then.
-/

namespace StoryKnobs

open Script (Letters IsVerbatim PropertyName StringLiteral)

theorem Declaration.knob_ne_select (declaration : Declaration) : declaration.knob ≠ .select := by
  obtain ⟨name, typeName, initializer⟩ := declaration
  cases typeName with
  | some typeName =>
      change ((Primitive.ofTypeName? typeName).map Primitive.knob).getD .text ≠ .select
      cases Primitive.ofTypeName? typeName with
      | none => decide
      | some primitive => cases primitive <;> decide
  | none =>
      cases initializer with
      | none => exact nofun
      | some initializer =>
          obtain ⟨literal, text⟩ := initializer
          cases literal <;> exact nofun

theorem Source.knob_ne_select_of_mem_inputs {source : Source} {input : Input}
    (hinput : input ∈ source.inputs) : input.knob ≠ .select := by
  rw [inputs, List.mem_filterMap] at hinput
  obtain ⟨finding, hfinding, hfound⟩ := hinput
  obtain ⟨decorator, -, rfl⟩ := List.mem_map.mp hfinding
  rw [findingOf] at hfound
  cases hdeclaration : source.decorated? decorator with
  | none =>
      rw [hdeclaration] at hfound
      cases hfound
  | some declaration =>
      rw [hdeclaration] at hfound
      cases hfound
      exact declaration.knob_ne_select

namespace Story

variable {letters : Letters} {prop : Input}

/-- A property whose name and whose label both denote `name`, and which has the knob `knob`. -/
def IsEntry (letters : Letters) (knob name line : String) : Prop :=
  ∃ key label args : String,
    line = "    " ++ key ++ ": " ++ knob ++ "('" ++ label ++ "', " ++ args ++ "),\n" ∧
    PropertyName letters key.toList name.toList ∧
    StringLiteral '\'' ('\'' :: label.toList ++ ['\'']) name.toList

/-- What denotes a name, with a colon behind it, can stand in the place of the name itself only if the
name needs no other spelling. -/
theorem isVerbatim_of_propertyName {key : String} {name after rest : List Char}
    (hkey : PropertyName letters key.toList name)
    (heq : name ++ ':' :: after = key.toList ++ ':' :: rest) : IsVerbatim letters name := by
  cases hkey with
  | identifier hidentifier =>
      exact .inl hidentifier.1
  | quoted hquote hliteral =>
      refine absurd heq (hliteral.append_ne ?_ after _)
      rintro rfl
      exact absurd hquote (by decide)
  | numeric hnumeric =>
      have hcolon : ':' ∉ key.toList := Script.special_notMem_numericLiteral hnumeric (by decide)
      have hname : ':' ∉ name := Script.colon_notMem_numericName hnumeric
      obtain ⟨hsame, -⟩ := Text.append_cons_inj hname hcolon heq
      rw [← hsame] at hnumeric
      exact .inr hnumeric

theorem propertyName_of_isVerbatim {name : List Char} (hname : IsVerbatim letters name) :
    PropertyName letters name name :=
  hname.elim (fun hidentifier => .identifier hidentifier.identifierName) .numeric

theorem options_eq_empty {knob : Knob} (hknob : knob ≠ .select) : options knob = "" := by
  cases knob with
  | select => exact absurd rfl hknob
  | _ => rfl

theorem propLine_def (prop : Input) : propLine prop =
    "    " ++ prop.name ++ ": " ++ prop.knob.name ++ "('" ++ prop.name ++ "', " ++
      options prop.knob ++ defaultText prop ++ "),\n" := rfl

theorem isEntry_propLine_iff : IsEntry letters prop.knob.name prop.name (propLine prop) ↔
    IsVerbatim letters prop.name.toList := by
  constructor
  · rintro ⟨key, label, args, hline, hkey, -⟩
    simp only [propLine_def, String.append_assoc, String.append_right_inj] at hline
    have hchars := congrArg String.toList hline
    simp only [String.toList_append] at hchars
    exact isVerbatim_of_propertyName hkey hchars
  · intro hname
    refine ⟨prop.name, prop.name, options prop.knob ++ defaultText prop, ?_,
      propertyName_of_isVerbatim hname, prop.name.toList, rfl, ?_⟩
    · simp only [propLine_def, String.append_assoc]
    · exact Script.stringBody_self fun char hspecial =>
        Script.special_notMem_isVerbatim hname hspecial

/-- **The line of an input.** For each input that is found in a source, the story has a line with the
name of the input, its knob, the name again and the first value. The line is an entry for the name
just if the name is an identifier or a number that is printed as it stands. -/
theorem isEntry_iff_of_mem_inputs (letters : Letters) {source : Source} {input : Input}
    (hinput : input ∈ source.inputs) :
    propLine input = "    " ++ input.name ++ ": " ++ input.knob.name ++ "('" ++ input.name ++
        "', " ++ defaultText input ++ "),\n" ∧
      input.knob ≠ .select ∧
      (IsEntry letters input.knob.name input.name (propLine input) ↔
        IsVerbatim letters input.name.toList) := by
  have hknob := Source.knob_ne_select_of_mem_inputs hinput
  refine ⟨?_, hknob, isEntry_propLine_iff⟩
  rw [propLine_def, options_eq_empty hknob, String.append_empty]

theorem isEntry_iff_of_mem_inputs_panel :
    let letters : Letters := ⟨fun _ => false, fun _ => false⟩
    let source := Source.parse ⟨"panel.ts"⟩
      "class Panel \x7b\n  @Input() size = 2;\n  @Input('0') first: string;\n\x7d\n"
    let size : Input := ⟨"size", .number, some "2"⟩
    let first : Input := ⟨"0", .text, some "''"⟩
    size ∈ source.inputs ∧ first ∈ source.inputs ∧
      IsEntry letters "number" "size" (propLine size) ∧
      IsEntry letters "text" "0" (propLine first) := by
  intro letters source size first
  have hinputs : source.inputs = [size, first] := by decide +kernel
  have hsize : size ∈ source.inputs := by simp [hinputs]
  have hfirst : first ∈ source.inputs := by simp [hinputs]
  have hsizeName : IsVerbatim letters size.name.toList := by
    have hchars : size.name.toList = ['s', 'i', 'z', 'e'] := by decide
    rw [hchars]
    exact .inl ⟨rfl, by simp [letters, Letters.isPart]⟩
  have hfirstName : IsVerbatim letters first.name.toList := by
    have hchars : first.name.toList = ['0'] := by decide
    rw [hchars]
    exact .inr Script.numericLiteral_zero
  exact ⟨hsize, hfirst, (isEntry_iff_of_mem_inputs letters hsize).2.2.mpr hsizeName,
    (isEntry_iff_of_mem_inputs letters hfirst).2.2.mpr hfirstName⟩

/-- A name with a dash is no name of a property as it stands. -/
theorem not_isEntry_of_dash :
    let input : Input := ⟨"my-alias", .text, some "''"⟩
    (Source.parse ⟨"card.ts"⟩
        "class A \x7b\n  @Input('my-alias') foo: string;\n\x7d\n").inputs = [input] ∧
      ∀ letters : Letters, ¬ IsEntry letters "text" "my-alias" (propLine input) := by
  intro input
  refine ⟨by decide +kernel, fun letters hentry => ?_⟩
  have hverbatim : IsVerbatim letters "my-alias".toList := isEntry_propLine_iff.mp hentry
  rcases hverbatim with ⟨-, hidentifier⟩ | hnumeric
  · have hdash : letters.isPart '-' = false := rfl
    have hpart : letters.isPart '-' = true := hidentifier '-' (by decide)
    rw [hdash] at hpart
    cases hpart
  · exact Script.notMem_numericLiteral rfl (by decide) hnumeric (show 'm' ∈ _ by decide)

end Story

end StoryKnobs

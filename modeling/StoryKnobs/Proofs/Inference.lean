import StoryKnobs.Proofs.Entries

/-!
# What is inferred about an input

The knob of an input follows from its type first, its first value from its initial value first. Where
both are taken from the type, they agree: the first value, written as the initial value of a field
without a type, leads to the same knob. No declaration leads to a choice, so a story of extracted
inputs has the helpers for texts, numbers and truth values at most.
-/

namespace StoryKnobs

open Syntax

namespace Primitive

theorem ofTypeName?_eq_none_iff {typeName : String} :
    ofTypeName? typeName = none ↔ typeName ∉ ["string", "number", "boolean"] := by
  by_cases hstring : typeName = "string"
  · simp [ofTypeName?, hstring]
  by_cases hnumber : typeName = "number"
  · simp [ofTypeName?, hnumber]
  by_cases hboolean : typeName = "boolean"
  · simp [ofTypeName?, hboolean]
  · simp [ofTypeName?, hstring, hnumber, hboolean]

end Primitive

def Source.untyped (text : String) : Source :=
  .parse ⟨"field.ts"⟩ ("class A \x7b @Input() a = " ++ text ++ " \x7d")

/-- The literal for a missing initial value, read as one, leads to the knob that it stands for. -/
theorem Primitive.inputs_untyped_zero (primitive : Primitive) :
    (Source.untyped primitive.zero).inputs = [⟨"a", primitive.knob, some primitive.zero⟩] := by
  cases primitive <;> decide +kernel

namespace Declaration

variable {declaration : Declaration}

theorem knob_eq_or (declaration : Declaration) :
    declaration.knob = .text ∨ declaration.knob = .number ∨ declaration.knob = .boolean := by
  have hselect := declaration.knob_ne_select
  cases hknob : declaration.knob with
  | text => exact .inl rfl
  | number => exact .inr (.inl rfl)
  | boolean => exact .inr (.inr rfl)
  | select => exact absurd hknob hselect

theorem defaultValue_of_initializer {initializer : Initializer}
    (hinitial : declaration.initializer = some initializer) :
    declaration.defaultValue = some initializer.text := by
  rw [defaultValue, hinitial]

theorem defaultValue_eq_none_iff : declaration.defaultValue = none ↔
    (∃ typeName, declaration.typeName = some typeName ∧
      typeName ∉ ["string", "number", "boolean"]) ∧ declaration.initializer = none := by
  obtain ⟨name, typeName, initializer⟩ := declaration
  cases initializer with
  | some initializer => simp [defaultValue]
  | none =>
      cases typeName with
      | none => simp [defaultValue]
      | some typeName =>
          simp only [defaultValue, Option.map_eq_none_iff, Primitive.ofTypeName?_eq_none_iff,
            Option.some.injEq, exists_eq_left', and_true]

/-- Without an initial value, the knob and the first value come from the same primitive type. -/
theorem exists_primitive {text : String} (hinitial : declaration.initializer = none)
    (hdefault : declaration.defaultValue = some text) :
    ∃ primitive : Primitive, declaration.knob = primitive.knob ∧ text = primitive.zero := by
  obtain ⟨name, typeName, initializer⟩ := declaration
  obtain rfl : initializer = none := hinitial
  cases typeName with
  | none => exact ⟨.string, rfl, (Option.some.inj hdefault).symm⟩
  | some typeName =>
      obtain ⟨primitive, hprimitive, htext⟩ := Option.map_eq_some_iff.mp hdefault
      refine ⟨primitive, ?_, htext.symm⟩
      change ((Primitive.ofTypeName? typeName).map Primitive.knob).getD .text = primitive.knob
      rw [hprimitive]
      rfl

theorem inputs_untyped {text : String} (hinitial : declaration.initializer = none)
    (hdefault : declaration.defaultValue = some text) :
    (Source.untyped text).inputs = [⟨"a", declaration.knob, some text⟩] := by
  obtain ⟨primitive, hknob, rfl⟩ := exists_primitive hinitial hdefault
  rw [hknob]
  exact primitive.inputs_untyped_zero

end Declaration

namespace Source

variable {source : Source}

/-! ### Members and what is inferred from them -/

/-- The type that a member states: the first named child of its annotation that is no comment. -/
def typeOf? (member : Node) : Option Node :=
  (member.childByField (typeField member.kind)).bind Node.firstNamedChild

def initialOf? (member : Node) : Option Node := member.childByField "value"

structure Inferred (source : Source) (member : Node) (input : Input) : Prop where
  knob : input.knob = .text ∨ input.knob = .number ∨ input.knob = .boolean
  missing : input.defaultValue = none ↔
    (∃ type, typeOf? member = some type ∧
      source.textOf type ∉ ["string", "number", "boolean"]) ∧ initialOf? member = none
  verbatim : ∀ value, initialOf? member = some value →
    input.defaultValue = some (source.textOf value)
  readBack : initialOf? member = none → ∀ text, input.defaultValue = some text →
    (untyped text).inputs = [⟨"a", input.knob, some text⟩]

def found (source : Source) : List (Node × Input) :=
  source.markers.filterMap fun decorator =>
    (source.findingOf decorator).input?.map (decorator, ·)

theorem map_snd_found (source : Source) : source.found.map Prod.snd = source.inputs := by
  rw [found, inputs, findings, List.filterMap_map, List.map_filterMap]
  refine List.filterMap_congr fun decorator _ => ?_
  rw [Option.map_map, Function.comp_apply]
  exact Option.map_id'

theorem states_of_declarationOf? {member : Node} {declaration : Declaration}
    (hdeclaration : source.declarationOf? member = some declaration) :
    declaration.typeName = (typeOf? member).map source.textOf ∧
      declaration.initializer = (initialOf? member).map fun value =>
        ⟨.ofNodeKind value.kind, source.textOf value⟩ := by
  cases hname : member.childByField "name" with
  | none => simp [declarationOf?, hname] at hdeclaration
  | some name =>
      simp only [declarationOf?, hname, Option.bind_eq_bind, Option.bind_some, Option.pure_def,
        Option.some.injEq] at hdeclaration
      subst hdeclaration
      exact ⟨rfl, rfl⟩

theorem input_of_mem_found {decorator : Node} {input : Input}
    (hfound : (decorator, input) ∈ source.found) :
    ∃ member declaration, memberOf? decorator = some member ∧
      source.declarationOf? member = some declaration ∧
      input = ⟨(source.aliasOf? decorator).getD declaration.name, declaration.knob,
        declaration.defaultValue⟩ := by
  obtain ⟨other, -, hentry⟩ := List.mem_filterMap.mp hfound
  obtain ⟨input', hinput, hpair⟩ := Option.map_eq_some_iff.mp hentry
  obtain ⟨rfl, rfl⟩ := Prod.mk.inj hpair
  cases hdecorated : source.decorated? other with
  | none =>
      rw [findingOf, hdecorated] at hinput
      cases hinput
  | some declaration =>
      rw [findingOf, hdecorated] at hinput
      obtain ⟨member, hmember, hdeclaration⟩ := Option.bind_eq_some_iff.mp hdecorated
      exact ⟨member, declaration, hmember, hdeclaration, (Option.some.inj hinput).symm⟩

theorem exists_declaration_of_mem_found {decorator : Node} {input : Input}
    (hfound : (decorator, input) ∈ source.found) :
    ∃ member declaration, memberOf? decorator = some member ∧
      source.declarationOf? member = some declaration ∧
      input.knob = declaration.knob ∧ input.defaultValue = declaration.defaultValue := by
  obtain ⟨member, declaration, hmember, hdeclaration, rfl⟩ := input_of_mem_found hfound
  exact ⟨member, declaration, hmember, hdeclaration, rfl, rfl⟩

theorem inferred_of_declarationOf? {member : Node} {declaration : Declaration} {input : Input}
    (hdeclaration : source.declarationOf? member = some declaration)
    (hknob : input.knob = declaration.knob)
    (hdefault : input.defaultValue = declaration.defaultValue) : source.Inferred member input := by
  obtain ⟨htype, hinitial⟩ := states_of_declarationOf? hdeclaration
  have hnone : declaration.initializer = none ↔ initialOf? member = none := by
    rw [hinitial, Option.map_eq_none_iff]
  constructor
  · rw [hknob]
    exact declaration.knob_eq_or
  · rw [hdefault, Declaration.defaultValue_eq_none_iff, hnone, htype]
    simp only [Option.map_eq_some_iff, ↓existsAndEq, and_true]
  · intro value hvalue
    rw [hvalue, Option.map_some] at hinitial
    rw [hdefault]
    exact Declaration.defaultValue_of_initializer hinitial
  · intro hmissing text htext
    rw [hdefault] at htext
    rw [hknob]
    exact Declaration.inputs_untyped (hnone.mpr hmissing) htext

end Source

namespace Story

/-! ### Helpers of a story of extracted inputs -/

/-- The import of helpers on a line of its own; no line if there are none. -/
def helperLines (helpers : List String) : List String :=
  if helpers = [] then [] else [importLine (", ".intercalate helpers) knobsPackage]

def CallsHelper (helper : String) (prop : Input) (line : String) : Prop :=
  line = "    " ++ prop.name ++ ": " ++ helper ++ "('" ++ prop.name ++ "', " ++
    defaultText prop ++ "),"

theorem knobImportLines_eq (props : List Input) :
    knobImportLines props = helperLines ((knobsOf props).map Knob.name) := by
  rw [knobImportLines, helperLines]
  cases knobsOf props with
  | nil => rfl
  | cons knob knobs => rfl

theorem sublist_helpers {props : List Input} (hprops : ∀ prop ∈ props, prop.knob ≠ .select) :
    ((knobsOf props).map Knob.name).Sublist ["text", "number", "boolean"] := by
  have hselect : props.any (·.knob == .select) = false := by
    rw [List.any_eq_false]
    intro prop hprop
    simpa using hprops prop hprop
  have hsplit : knobsOf props =
      [Knob.text, .number, .boolean].filter fun knob => props.any (·.knob == knob) := by
    rw [knobsOf, show importOrder = [.text, .number, .boolean] ++ [.select] from rfl,
      List.filter_append, List.filter_singleton, hselect]
    exact List.append_nil _
  rw [hsplit]
  exact List.filter_sublist.map Knob.name

theorem callsHelper_entry {prop : Input} (hprop : prop.knob ≠ .select) :
    CallsHelper prop.knob.name prop (entry prop) := by
  rw [CallsHelper, entry_def, options_eq_empty hprop, String.append_empty]

/-- The lines of a story without choices. Each line of an input calls a helper that is imported. -/
theorem exists_helpers (schema : Schema) {props : List Input}
    (hprops : ∀ prop ∈ props, prop.knob ≠ .select) :
    ∃ helpers lines : List String, helpers.Sublist ["text", "number", "boolean"] ∧
      List.Forall₂ (fun prop line => ∃ helper ∈ helpers, CallsHelper helper prop line) props lines ∧
      (ofSchema schema props).text = Text.ofLines (helperLines helpers ++
        ((ofSchema schema props).headLines ++ (lines ++ tailLines))) := by
  refine ⟨(knobsOf props).map Knob.name, props.map entry, sublist_helpers hprops, ?_, ?_⟩
  · refine List.forall₂_map_right_iff.mpr (List.forall₂_same.mpr fun prop hprop => ?_)
    exact ⟨prop.knob.name, List.mem_map_of_mem (knob_mem_knobsOf hprop),
      callsHelper_entry (hprops prop hprop)⟩
  · rw [text_eq, lines, ← knobImportLines_eq]
    rfl

end Story

namespace Source

/-- **What is inferred about the inputs of a source.** Each input comes from the member of its
decorator, with a knob, a first value and the reason for a missing one as `Inferred` says. Inputs of
one member differ in their names at most. A story of the inputs imports and calls no helper but
`text`, `number` and `boolean`. -/
theorem inputs_inferred (source : Source) :
    source.found.map Prod.snd = source.inputs ∧
    (∀ decorator input, (decorator, input) ∈ source.found →
      ∃ member, memberOf? decorator = some member ∧ source.Inferred member input) ∧
    (∀ decorator input other input', (decorator, input) ∈ source.found →
      (other, input') ∈ source.found → memberOf? decorator = memberOf? other →
      input' = { input with name := input'.name }) ∧
    ∀ schema : Schema, ∃ helpers lines : List String,
      helpers.Sublist ["text", "number", "boolean"] ∧
      List.Forall₂ (fun input line => ∃ helper ∈ helpers, Story.CallsHelper helper input line)
        source.inputs lines ∧
      (Story.ofSchema schema source.inputs).text = Text.ofLines (Story.helperLines helpers ++
        ((Story.ofSchema schema source.inputs).headLines ++ (lines ++ Story.tailLines))) := by
  refine ⟨map_snd_found source, ?_, ?_, ?_⟩
  · intro decorator input hfound
    obtain ⟨member, declaration, hmember, hdeclaration, hknob, hdefault⟩ :=
      exists_declaration_of_mem_found hfound
    exact ⟨member, hmember, inferred_of_declarationOf? hdeclaration hknob hdefault⟩
  · intro decorator input other input' hfound hfound' hsame
    obtain ⟨member, declaration, hmember, hdeclaration, hknob, hdefault⟩ :=
      exists_declaration_of_mem_found hfound
    obtain ⟨member', declaration', hmember', hdeclaration', hknob', hdefault'⟩ :=
      exists_declaration_of_mem_found hfound'
    rw [hmember, hmember', Option.some.injEq] at hsame
    subst hsame
    rw [hdeclaration, Option.some.injEq] at hdeclaration'
    subst hdeclaration'
    obtain ⟨name, knob, defaultValue⟩ := input
    obtain ⟨name', knob', defaultValue'⟩ := input'
    rw [Input.mk.injEq]
    exact ⟨rfl, hknob'.trans hknob.symm, hdefault'.trans hdefault.symm⟩
  · exact fun schema => Story.exists_helpers schema fun _ hinput =>
      knob_ne_select_of_mem_inputs hinput

def twin : Source :=
  .parse ⟨"twin.ts"⟩ "class A \x7b @Input() @Input('b') a: B; @Input() c: number \x7d"

theorem inputs_inferred_twin :
    let first : Input := ⟨"a", .text, none⟩
    let second : Input := ⟨"b", .text, none⟩
    let third : Input := ⟨"c", .number, some "0"⟩
    twin.inputs = [first, second, third] ∧ second = { first with name := "b" } ∧
      (untyped "0").inputs = [⟨"a", .number, some "0"⟩] := by
  intro first second third
  obtain ⟨hfound, hsame, hinitial⟩ : twin.found.map Prod.snd = [first, second, third] ∧
      (∃ entry ∈ twin.found, ∃ other ∈ twin.found, entry.2 = first ∧ other.2 = second ∧
        memberOf? entry.1 = memberOf? other.1) ∧
      ∃ entry ∈ twin.found, entry.2 = third ∧
        (memberOf? entry.1).map initialOf? = some none := by
    decide +kernel
  obtain ⟨hinputs, hinferred, hnames, -⟩ := inputs_inferred twin
  obtain ⟨⟨decorator, input⟩, hentry, ⟨other, input'⟩, hother, rfl, rfl, hmember⟩ := hsame
  obtain ⟨⟨decorator', input''⟩, hthird, rfl, hnone⟩ := hinitial
  obtain ⟨member, hmember', hrules⟩ := hinferred decorator' third hthird
  rw [hmember', Option.map_some, Option.some.injEq] at hnone
  exact ⟨hinputs.symm.trans hfound, hnames decorator first other second hentry hother hmember,
    hrules.readBack hnone "0" rfl⟩

end Source

end StoryKnobs

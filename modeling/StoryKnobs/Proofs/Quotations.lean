import StoryKnobs.Extraction
import StoryKnobs.Proofs.Bytes
import StoryKnobs.Proofs.Inference

/-!
# Inputs quote their source

The nodes of a tree may have ranges that are empty, end past the source or cut a character. Whatever
they are, no cut of an extraction fails, and what it says about an input stands in the source word for
word, apart from the literals for a missing first value.
-/

namespace StoryKnobs

open Syntax

open Text (Fault)

namespace Source

variable {source : Source}

/-! ### Extraction from bytes -/

theorem readText_eq_pure (source : Source) :
    source.readText = fun node => pure (source.textOf node) := by
  funext node
  rw [readText, Text.cut?_eq_ok]
  rfl

theorem readMarker_eq_pure (source : Source) :
    source.readMarker = fun decorator => pure (source.isMarker decorator) := by
  funext decorator
  simp only [readMarker, readText_eq_pure, pure_bind, List.anyM_pure]
  rfl

theorem readDeclaration_eq_pure (source : Source) :
    source.readDeclaration = fun member => pure (source.declarationOf? member) := by
  funext member
  rw [readDeclaration, declarationOf?, readText_eq_pure]
  cases member.childByField "name" with
  | none => rfl
  | some name =>
      cases (member.childByField (typeField member.kind)).bind Node.firstNamedChild <;>
        cases member.childByField "value" <;> rfl

theorem readAlias_eq_pure (source : Source) :
    source.readAlias = fun decorator => pure (source.aliasOf? decorator) := by
  funext decorator
  rw [readAlias, aliasOf?]
  cases (decorator.findKind "string").head? with
  | none => rfl
  | some literal =>
      simp only [readText_eq_pure, pure_bind, Text.cut?_eq_ok]
      rfl

theorem readFinding_eq_pure (source : Source) :
    source.readFinding = fun decorator => pure (source.findingOf decorator) := by
  funext decorator
  rw [readFinding, findingOf, decorated?, readDeclaration_eq_pure, readAlias_eq_pure,
    readText_eq_pure]
  cases memberOf? decorator with
  | none => rfl
  | some member =>
      rw [Option.bind_some]
      cases hdeclaration : source.declarationOf? member with
      | none => simp [hdeclaration]
      | some declaration => simp [hdeclaration]

/-- **No cut of an extraction fails**, and it finds the inputs of the source. -/
theorem readInputs_eq_ok (source : Source) : source.readInputs = .ok source.inputs := by
  have hdecorator (decorator : Node) :
      (if source.isMarker decorator then pure (source.findingOf decorator).input? else pure none :
          Except Fault (Option Input)) =
        pure (if source.isMarker decorator then (source.findingOf decorator).input? else none) := by
    split <;> rfl
  simp only [readInputs, readMarker_eq_pure, readFinding_eq_pure, pure_bind, hdecorator,
    List.mapM_pure]
  rw [List.filterMap_map, inputs, findings, markers, List.filterMap_map, List.filterMap_filter]
  rfl

/-! ### Stretches of the source -/

def IsQuoted (source : Source) (text : String) : Prop := text.toList <:+: source.text.toList

theorem isQuoted_textOf (source : Source) (node : Node) : source.IsQuoted (source.textOf node) := by
  rw [textOf]
  cases hslice : Text.slice source.text node.span.start node.span.stop with
  | none => exact List.nil_infix
  | some part => exact Text.isInfix_of_slice hslice

theorem isQuoted_of_aliasOf? {decorator : Node} {given : String}
    (halias : source.aliasOf? decorator = some given) : source.IsQuoted given ∧ given ≠ "" := by
  obtain ⟨literal, -, hunquote⟩ := Option.bind_eq_some_iff.mp halias
  obtain ⟨hslice, hne⟩ := Option.filter_eq_some_iff.mp hunquote
  refine ⟨(Text.isInfix_of_slice hslice).trans (source.isQuoted_textOf literal), ?_⟩
  rintro rfl
  cases hne

theorem exists_name_of_declarationOf? {member : Node} {declaration : Declaration}
    (hdeclaration : source.declarationOf? member = some declaration) :
    ∃ name, member.childByField "name" = some name ∧ declaration.name = source.textOf name := by
  obtain ⟨name, hname, hfields⟩ := Option.bind_eq_some_iff.mp hdeclaration
  exact ⟨name, hname, by rw [← Option.some.inj hfields]⟩

theorem isQuoted_or_mem_of_defaultValue {member : Node} {declaration : Declaration} {text : String}
    (hdeclaration : source.declarationOf? member = some declaration)
    (hdefault : declaration.defaultValue = some text) :
    source.IsQuoted text ∨ text ∈ ["''", "0", "false"] := by
  cases hinitial : declaration.initializer with
  | none =>
      obtain ⟨primitive, -, rfl⟩ := Declaration.exists_primitive hinitial hdefault
      right
      cases primitive <;> decide
  | some initializer =>
      left
      rw [Declaration.defaultValue_of_initializer hinitial, Option.some.injEq] at hdefault
      rw [(states_of_declarationOf? hdeclaration).2, Option.map_eq_some_iff] at hinitial
      obtain ⟨value, -, rfl⟩ := hinitial
      rw [← hdefault]
      exact source.isQuoted_textOf value

/-- **Extraction never faults and only quotes the source**, whatever the ranges of the nodes are. The
name of an input is a stretch of the source, which is empty only if the name of the member is. Its
first value is a stretch of the source or one of the literals for a missing one. -/
theorem inputs_quote_source (source : Source) :
    source.readInputs = .ok source.inputs ∧
    source.found.map Prod.snd = source.inputs ∧
    ∀ decorator input, (decorator, input) ∈ source.found →
      ∃ member name, memberOf? decorator = some member ∧
        member.childByField "name" = some name ∧
        source.IsQuoted input.name ∧ (input.name = "" → source.textOf name = "") ∧
        ∀ text, input.defaultValue = some text →
          source.IsQuoted text ∨ text ∈ ["''", "0", "false"] := by
  refine ⟨readInputs_eq_ok source, map_snd_found source, ?_⟩
  intro decorator input hfound
  obtain ⟨member, declaration, hmember, hdeclaration, rfl⟩ := input_of_mem_found hfound
  obtain ⟨name, hname, htext⟩ := exists_name_of_declarationOf? hdeclaration
  refine ⟨member, name, hmember, hname, ?_, ?_, ?_⟩
  · cases halias : source.aliasOf? decorator with
    | none => exact htext ▸ source.isQuoted_textOf name
    | some given => exact (isQuoted_of_aliasOf? halias).1
  · cases halias : source.aliasOf? decorator with
    | none => exact fun hempty => htext.symm.trans hempty
    | some given => exact fun hempty => absurd hempty (isQuoted_of_aliasOf? halias).2
  · exact fun text hdefault => isQuoted_or_mem_of_defaultValue hdeclaration hdefault

/-- A field with a name past the end of the source, an alias of one byte inside a character, and the
whole character for its value. -/
def torn : Source where
  path := ⟨"torn.ts"⟩
  text := "Input é"
  tree := .node ⟨"public_field_definition", true, ⟨0, 8⟩, none⟩ [
    .node ⟨"decorator", true, ⟨0, 7⟩, none⟩ [
      .leaf "identifier" true ⟨0, 5⟩, .leaf "string" true ⟨6, 7⟩],
    (Tree.leaf "property_identifier" true ⟨90, 95⟩).withField "name",
    (Tree.leaf "string" true ⟨6, 8⟩).withField "value"]

theorem inputs_quote_source_torn :
    let input : Input := ⟨"", .text, some "é"⟩
    torn.readInputs = .ok [input] ∧ torn.IsQuoted "é" ∧
      ∃ member name : Node, member.childByField "name" = some name ∧ name.span = ⟨90, 95⟩ ∧
        torn.textOf name = "" := by
  intro input
  obtain ⟨hread, hinputs, hquotes⟩ := inputs_quote_source torn
  obtain ⟨hfound, hname, hliterals⟩ : torn.found.map Prod.snd = [input] ∧
      (∀ entry ∈ torn.found, ((memberOf? entry.1).bind (·.childByField "name")).map Node.span =
        some ⟨90, 95⟩) ∧
      "é" ∉ ["''", "0", "false"] := by
    decide +kernel
  obtain ⟨⟨decorator, found⟩, hentry, rfl⟩ : ∃ entry ∈ torn.found, entry.2 = input := by
    refine List.mem_map.mp ?_
    rw [hfound]
    exact List.mem_singleton_self input
  obtain ⟨member, name, hmember, hchild, -, hempty, hdefault⟩ := hquotes decorator input hentry
  have hspan := hname _ hentry
  rw [hmember, Option.bind_some, hchild, Option.map_some, Option.some.injEq] at hspan
  refine ⟨?_, (hdefault "é" rfl).resolve_right hliterals, member, name, hchild, hspan, hempty rfl⟩
  rw [hread, ← hinputs, hfound]

end Source

end StoryKnobs

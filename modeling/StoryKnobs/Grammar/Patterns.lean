import StoryKnobs.Grammar.Types

/-!
# Patterns and parameters

The left-hand sides that take a value apart, and the parameters of functions. An object or an
array that turns out to be assigned to is made a pattern afterwards.
-/

namespace StoryKnobs.Grammar

open Rule Syntax

namespace Patterns

mutual

def ofTree : Tree → Tree
  | .node label children =>
    if !label.named then .node label children
    else
      match label.kind with
      | "object" => .node { label with kind := "object_pattern" } (ofTrees children)
      | "array" => .node { label with kind := "array_pattern" } (ofTrees children)
      | "pair" => .node { label with kind := "pair_pattern" } (ofTrees children)
      | "spread_element" => .node { label with kind := "rest_pattern" } (ofTrees children)
      | "assignment_expression" => .node { label with kind := "assignment_pattern" } children
      | "shorthand_property_identifier" =>
        .node { label with kind := "shorthand_property_identifier_pattern" } children
      | _ => .node label children

def ofTrees : List Tree → List Tree
  | [] => []
  | tree :: trees => ofTree tree :: ofTrees trees

end

section

variable {whole : List Char}

mutual

theorem spelledTree_ofTree : ∀ tree, SpelledTree whole tree → SpelledTree whole (ofTree tree)
  | .node label children => by
    intro hspelled
    obtain ⟨hlabel, hchildren⟩ := spelledTree_node.mp hspelled
    have htrees := spelledTree_ofTrees children hchildren
    rw [ofTree]
    have hrelabel {kind : String} {trees : List Tree} (hkind : isPlain kind)
        (htrees : ∀ tree ∈ trees, SpelledTree whole tree) :
        SpelledTree whole (.node { label with kind } trees) :=
      spelledTree_node.mpr ⟨.of_isPlain hkind, htrees⟩
    split
    · exact hspelled
    · split
      · exact hrelabel rfl htrees
      · exact hrelabel rfl htrees
      · exact hrelabel rfl htrees
      · exact hrelabel rfl htrees
      · exact hrelabel rfl hchildren
      · exact hrelabel rfl hchildren
      · exact hspelled

theorem spelledTree_ofTrees : ∀ trees : List Tree, (∀ tree ∈ trees, SpelledTree whole tree) →
    ∀ tree ∈ ofTrees trees, SpelledTree whole tree
  | [] => fun _ _ hmem => nomatch hmem
  | tree :: trees => by
    intro hspelled
    obtain ⟨htree, htrees⟩ := List.forall_mem_cons.mp hspelled
    exact List.forall_mem_cons.mpr
      ⟨spelledTree_ofTree tree htree, spelledTree_ofTrees trees htrees⟩

end

def ofForest (forest : Forest whole) : Forest whole := forest.map ofTree spelledTree_ofTree

end

variable {whole : List Char} (self : Rules whole) (context : Context)

def initializer : Rule whole := all [equals, field "value" (self .expression context)]

def withDefault (kind : String) (left : Rule whole)
    (hkind : isPlain kind := by exact Eq.refl true) : Rule whole := do
  let trees ← left
  if ← follows equals then
    let sign ← equals
    let right ← self .expression context.inner
    return wrap kind (setField "left" trees ++ sign ++ setField "right" right) hkind
  else return trees

def rest : Rule whole := node "rest_pattern" (all [mark "...", self .target context])

def objectMember : Rule whole := oneOf
  [rest self context,
    node "pair_pattern" <| all
      [field "key" (self .propertyName context), mark ":",
        field "value" (withDefault self context "assignment_pattern" (self .target context))],
    withDefault self context "object_assignment_pattern"
      (name "shorthand_property_identifier_pattern")]

def target : Rule whole := do
  match ← Rule.rest with
  | '\x7b' :: _ =>
    node "object_pattern" <| all
      [mark "\x7b", commaList (objectMember self context.inner), mark "\x7d"]
  | '[' :: _ =>
    node "array_pattern" <| all
      [mark "[",
        commaList (either (rest self context.inner)
          (withDefault self context.inner "assignment_pattern" (self .target context.inner))),
        mark "]"]
  | _ => name "identifier"

def parameter : Rule whole := do
  let head ← all
    [many (field "decorator" (self .decorator context)),
      maybe (Types.modifier context Types.accessibility),
      maybe (Types.modifier context Types.override),
      maybe (Types.modifier context (word "readonly")),
      field "pattern" (oneOf [rest self context, namedWord "this", self .target context])]
  let question ← maybe (mark "?")
  let tail ← all
    [field "type" (maybe (Types.colonType self context)), maybe (initializer self context)]
  if question.isEmpty then return wrap "required_parameter" (head ++ tail)
  else return wrap "optional_parameter" (head ++ question ++ tail)

def parameters : Rule whole :=
  node "formal_parameters" <| all
    [mark "(", markupComments, maybe (commaList1 (parameter self context.inner)), mark ")"]

end Patterns

end StoryKnobs.Grammar

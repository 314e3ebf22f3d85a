import StoryKnobs.Proofs.Declarations

/-!
# Siblings

The children of a node, seen from one of them: those before it, itself, and its siblings on the
right. The search for a method behind a decorator is the search for the first named sibling that is
neither a decorator nor a comment, so it depends on the subtrees of the siblings alone, and so does
what a decorator belongs to.
-/

namespace StoryKnobs

open Syntax

namespace Syntax.Node

variable {label : Label} {crumbs : List Crumb}

theorem exists_siblingsFrom_append_cons (label : Label) (crumbs : List Crumb)
    (left before : List Tree) (tree : Tree) (right : List Tree) :
    ∃ nodes, siblingsFrom label crumbs left (before ++ tree :: right) =
      nodes ++ ⟨tree, ⟨label, before.reverse ++ left, right⟩ :: crumbs⟩ ::
        siblingsFrom label crumbs (tree :: (before.reverse ++ left)) right := by
  induction before generalizing left with
  | nil => exact ⟨[], rfl⟩
  | cons first before ih =>
      obtain ⟨nodes, hnodes⟩ := ih (first :: left)
      refine ⟨⟨first, ⟨label, left, before ++ tree :: right⟩ :: crumbs⟩ :: nodes, ?_⟩
      rw [List.cons_append, siblingsFrom, hnodes, List.reverse_cons, List.append_assoc,
        List.singleton_append, List.cons_append]

/-- Each node of a list of children has the same parent, and the rest of the list on its right. -/
theorem of_siblingsFrom_eq_append_cons {left right : List Tree} {node : Node}
    {before after : List Node}
    (hsiblings : siblingsFrom label crumbs left right = before ++ node :: after) :
    node.parent = some ⟨.node label (left.reverse ++ right), crumbs⟩ ∧
      node.nextSiblings = after := by
  induction before generalizing left right with
  | nil =>
      cases right with
      | nil => cases hsiblings
      | cons tree right =>
          rw [siblingsFrom, List.nil_append, List.cons.injEq] at hsiblings
          obtain ⟨rfl, rfl⟩ := hsiblings
          exact ⟨rfl, rfl⟩
  | cons first before ih =>
      cases right with
      | nil => cases hsiblings
      | cons tree right =>
          rw [siblingsFrom, List.cons_append, List.cons.injEq] at hsiblings
          have hrest := ih hsiblings.2
          rwa [List.reverse_cons, List.append_assoc, List.singleton_append] at hrest

/-- A node is a child of its parent, and before the rest of the children. -/
theorem children_eq_append_cons_iff {parent node : Node} {after : List Node} :
    (∃ before, parent.children = before ++ node :: after) ↔
      node.parent = some parent ∧ node.nextSiblings = after := by
  constructor
  · rintro ⟨before, hchildren⟩
    have hnode := of_siblingsFrom_eq_append_cons hchildren
    obtain ⟨⟨label, children⟩, crumbs⟩ := parent
    exact hnode
  · rintro ⟨hparent, rfl⟩
    obtain ⟨tree, crumbs⟩ := node
    cases crumbs with
    | nil => cases hparent
    | cons crumb crumbs =>
        obtain ⟨label, left, right⟩ := crumb
        obtain rfl : (⟨.node label (left.reverse ++ tree :: right), crumbs⟩ : Node) = parent :=
          Option.some.inj hparent
        obtain ⟨before, hbefore⟩ :=
          exists_siblingsFrom_append_cons label crumbs [] left.reverse tree right
        rw [List.reverse_reverse, List.append_nil] at hbefore
        exact ⟨before, hbefore⟩

theorem mem_children_iff {parent node : Node} : node ∈ parent.children ↔ node.parent = some parent := by
  rw [List.mem_iff_append]
  constructor
  · rintro ⟨before, after, hchildren⟩
    exact (children_eq_append_cons_iff.mp ⟨before, hchildren⟩).1
  · intro hparent
    obtain ⟨before, hchildren⟩ := children_eq_append_cons_iff.mpr ⟨hparent, rfl⟩
    exact ⟨before, node.nextSiblings, hchildren⟩

theorem nextSiblings_of_eq_append_cons {node sibling : Node} {between after : List Node}
    (hsiblings : node.nextSiblings = between ++ sibling :: after) :
    sibling.parent = node.parent ∧ sibling.nextSiblings = after := by
  obtain ⟨tree, crumbs⟩ := node
  cases crumbs with
  | nil => exact absurd hsiblings (by simp [nextSiblings])
  | cons crumb crumbs =>
      obtain ⟨hparent, hafter⟩ := of_siblingsFrom_eq_append_cons hsiblings
      rw [List.reverse_cons, List.append_assoc, List.singleton_append] at hparent
      exact ⟨hparent, hafter⟩

end Syntax.Node

namespace Source

/-! ### The search for a method -/

def isPassed (label : Label) : Bool := label.kind == "decorator" || label.kind == Tree.commentKind

def isMethod (label : Label) : Bool := label.kind == "method_definition"

def stops (label : Label) : Bool := label.named && !isPassed label

theorem isMethod_iff {node : Node} :
    isMethod node.tree.label = true ↔ node.kind = "method_definition" := beq_iff_eq

theorem not_stops_iff {node : Node} : stops node.tree.label = false ↔
    (node.named = true → node.kind = "decorator" ∨ node.kind = "comment") := by
  have hpassed : isPassed node.tree.label = true ↔
      node.kind = "decorator" ∨ node.kind = "comment" := by
    rw [isPassed, Bool.or_eq_true, beq_iff_eq, beq_iff_eq]
    rfl
  rw [← hpassed, stops, Bool.and_eq_false_imp, Bool.not_eq_false']
  rfl

theorem stops_of_method {node : Node} (hkind : node.kind = "method_definition")
    (hnamed : node.named = true) : stops node.tree.label = true := by
  by_contra hstops
  have hpassed := not_stops_iff.mp (Bool.eq_false_iff.mpr hstops) hnamed
  rw [hkind] at hpassed
  revert hpassed
  decide

theorem methodAfter_cons (node : Node) (nodes : List Node) :
    methodAfter (node :: nodes) =
      if isPassed node.tree.label then methodAfter nodes
      else if isMethod node.tree.label then some node else none := rfl

/-- The search for a method is the search for the first sibling at which it comes to an end. -/
theorem methodAfter_named_eq (nodes : List Node) :
    methodAfter (nodes.filter Node.named) =
      (nodes.find? (stops ·.tree.label)).filter (isMethod ·.tree.label) := by
  induction nodes with
  | nil => rfl
  | cons node nodes ih =>
      have hstops : stops node.tree.label = (node.named && !isPassed node.tree.label) := rfl
      rw [List.find?_cons, hstops, List.filter_cons]
      cases hnamed : node.named with
      | false => rw [if_neg Bool.false_ne_true, ih, Bool.false_and]
      | true =>
          rw [if_pos rfl, methodAfter_cons, ih, Bool.true_and]
          cases isPassed node.tree.label with
          | true => rfl
          | false => rw [if_neg Bool.false_ne_true, Bool.not_false, Option.filter_some]

/-- A method is found just if it is named and only decorators, comments and unnamed siblings stand
before it. -/
theorem methodAfter_named_eq_some_iff {nodes : List Node} {method : Node} :
    methodAfter (nodes.filter Node.named) = some method ↔
      method.kind = "method_definition" ∧ method.named = true ∧
      ∃ between after, nodes = between ++ method :: after ∧
        ∀ sibling ∈ between, sibling.named = true →
          sibling.kind = "decorator" ∨ sibling.kind = "comment" := by
  rw [methodAfter_named_eq, Option.filter_eq_some_iff, List.find?_eq_some_iff_append, isMethod_iff]
  simp only [Bool.not_eq_true', not_stops_iff]
  constructor
  · rintro ⟨⟨hstops, between, after, hnodes, hbetween⟩, hkind⟩
    exact ⟨hkind, (Bool.and_eq_true_iff.mp hstops).1, between, after, hnodes, hbetween⟩
  · rintro ⟨hkind, hnamed, between, after, hnodes, hbetween⟩
    exact ⟨⟨stops_of_method hkind hnamed, between, after, hnodes, hbetween⟩, hkind⟩

/-! ### Members by their subtrees -/

theorem memberOf?_cons (tree : Tree) (crumb : Crumb) (crumbs : List Crumb) :
    memberOf? ⟨tree, crumb :: crumbs⟩ =
      if crumb.label.kind = "public_field_definition" ∨ crumb.label.kind = "method_definition" then
        some ⟨crumb.plug tree, crumbs⟩
      else if crumb.label.kind = "class_body" then
        methodAfter ((Node.nextSiblings ⟨tree, crumb :: crumbs⟩).filter Node.named)
      else none := by
  simp [memberOf?, Node.parent, Node.kind, Tree.kind, Crumb.plug, Tree.label]

/-- The subtree of the member that a decorator belongs to, where `tree` is the subtree of the
decorator and `crumb` leads from it to its parent. -/
def memberUnder? (crumb : Crumb) (tree : Tree) : Option Tree :=
  if crumb.label.kind = "public_field_definition" ∨ crumb.label.kind = "method_definition" then
    some (crumb.plug tree)
  else if crumb.label.kind = "class_body" then
    (crumb.right.find? (stops ·.label)).filter (isMethod ·.label)
  else none

/-- What a decorator belongs to depends on its parent and on the siblings on its right. -/
theorem map_tree_memberOf? (decorator : Node) :
    (memberOf? decorator).map Node.tree =
      decorator.crumbs.head?.bind (memberUnder? · decorator.tree) := by
  obtain ⟨tree, crumbs⟩ := decorator
  cases crumbs with
  | nil => rfl
  | cons crumb crumbs =>
      have hsiblings : (Node.nextSiblings ⟨tree, crumb :: crumbs⟩).map Node.tree = crumb.right :=
        Node.map_tree_siblingsFrom _ _ _ _
      rw [List.head?_cons, Option.bind_some, memberOf?_cons, memberUnder?]
      split_ifs with hholds hclass
      · rfl
      · rw [methodAfter_named_eq, ← hsiblings, List.find?_map, Option.filter_map]
        rfl
      · rfl

/-! ### What a decorator leads to, by subtrees -/

variable {source : Source}

def findingIn (source : Source) (decorator : Tree) (member : Option Tree) : Finding :=
  match member.bind fun tree => source.declarationOf? (Node.root tree) with
  | some declaration => .found {
      name := (source.aliasOf? (Node.root decorator)).getD declaration.name
      knob := declaration.knob
      defaultValue := declaration.defaultValue }
  | none => .skipped (source.lineOf (Node.root decorator)) (source.textOf (Node.root decorator))

theorem findingOf_eq (source : Source) (decorator : Node) :
    source.findingOf decorator =
      source.findingIn decorator.tree ((memberOf? decorator).map Node.tree) := by
  have hdecorated : source.decorated? decorator =
      ((memberOf? decorator).map Node.tree).bind fun tree =>
        source.declarationOf? (Node.root tree) := by
    rw [decorated?, Option.bind_map]
    refine Option.bind_congr fun member _ => ?_
    rw [Function.comp_apply, declarationOf?_eq, declarationOf?_eq]
    rfl
  have halias : source.aliasOf? decorator = source.aliasOf? (Node.root decorator.tree) := by
    rw [aliasOf?_eq, aliasOf?_eq]
    rfl
  rw [findingOf, findingIn, hdecorated, halias]
  rfl

def finding? (source : Source) (node : Node) : Option Finding :=
  if source.Marks node.tree then some (source.findingOf node) else none

theorem finding?_of_not_marks {node : Node} (hmarks : ¬ source.Marks node.tree) :
    source.finding? node = none := if_neg hmarks

theorem findings_eq_filterMap (source : Source) :
    source.findings = source.root.listing.filterMap source.finding? := by
  rw [findings, markers_eq_filter, ← List.filterMap_eq_filter, List.map_filterMap]
  refine List.filterMap_congr fun node _ => ?_
  by_cases hmarks : source.Marks node.tree
  · simp [finding?, hmarks]
  · simp [finding?, hmarks]

/-- Sources with the same text differ only in what stands where. -/
theorem finding?_congr {source other : Source} {node node' : Node} (htext : source.text = other.text)
    (htree : node.tree = node'.tree)
    (hmember : (memberOf? node).map Node.tree = (memberOf? node').map Node.tree) :
    source.finding? node = other.finding? node' := by
  rw [finding?, finding?, findingOf_eq, findingOf_eq, htree, hmember]
  obtain ⟨path, text, tree⟩ := source
  obtain ⟨path', text', tree'⟩ := other
  obtain rfl : text = text' := htext
  rfl

end Source

end StoryKnobs

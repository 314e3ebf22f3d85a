import StoryKnobs.Proofs.Siblings

/-!
# Statements at the top of a source

What a decorator leads to is found in its parent, so below a statement nothing depends on the
statements around it. The statement itself leads nowhere if it is a decorator, because the root of a
tree is neither a member nor the body of a class. Hence the statements of a source contribute their
inputs and notes one after another.
-/

namespace StoryKnobs

open Syntax

namespace Syntax

/-- A node of a tree, when the tree stands where `outer` leads up from. -/
def Node.under (outer : List Crumb) (node : Node) : Node := ⟨node.tree, node.crumbs ++ outer⟩

mutual

/-- The nodes of a tree are the same wherever it stands. -/
theorem listingOf_append (crumbs outer : List Crumb) (tree : Tree) :
    listingOf (crumbs ++ outer) tree = (listingOf crumbs tree).map (Node.under outer) := by
  cases tree with
  | node label children =>
      rw [listingOf, listingOf, List.map_cons, listingOfForest_append label crumbs outer [] children]
      rfl

theorem listingOfForest_append (label : Label) (crumbs outer : List Crumb)
    (left right : List Tree) :
    listingOfForest label (crumbs ++ outer) left right =
      (listingOfForest label crumbs left right).map (Node.under outer) := by
  cases right with
  | nil => rfl
  | cons tree right =>
      rw [listingOfForest, listingOfForest, List.map_append,
        ← listingOf_append (⟨label, left, right⟩ :: crumbs) outer tree,
        listingOfForest_append label crumbs outer (tree :: left) right]
      rfl

end

end Syntax

namespace Source

variable {source : Source} {label : Label}

/-- The kinds of nodes that may be markers, or lead from a decorator right below them to a member. -/
def memberKinds : List String :=
  ["decorator", "class_body", "public_field_definition", "method_definition"]

theorem memberUnder?_eq_none {crumb : Crumb} (hkind : crumb.label.kind ∉ memberKinds) (tree : Tree) :
    memberUnder? crumb tree = none := by
  simp only [memberKinds, List.mem_cons, List.not_mem_nil, or_false, not_or] at hkind
  rw [memberUnder?, if_neg (by simp [hkind]), if_neg hkind.2.1]

/-- Below a tree that a node belongs to, nothing matters that stands above the tree. -/
theorem finding?_under {inner : Label} {children : List Tree} {node : Node}
    (hnode : node ∈ listingOfForest inner [] [] children) (outer outer' : List Crumb) :
    source.finding? (node.under outer) = source.finding? (node.under outer') := by
  obtain ⟨left, right, -, hsuffix⟩ := suffix_of_mem_listingOfForest hnode
  have hcrumbs : node.crumbs ≠ [] := by
    intro hnil
    rw [hnil, List.suffix_nil] at hsuffix
    cases hsuffix
  refine finding?_congr rfl rfl ?_
  rw [map_tree_memberOf?, map_tree_memberOf?]
  change (node.crumbs ++ outer).head?.bind _ = (node.crumbs ++ outer').head?.bind _
  rw [List.head?_append_of_ne_nil _ hcrumbs, List.head?_append_of_ne_nil _ hcrumbs]
  rfl

/-- A statement leads to the same inputs and notes whatever stands on its sides. -/
theorem filterMap_finding?_statement (hroot : label.kind ∉ memberKinds)
    (left right left' right' : List Tree) (statement : Tree) :
    (listingOf [⟨label, left, right⟩] statement).filterMap source.finding? =
      (listingOf [⟨label, left', right'⟩] statement).filterMap source.finding? := by
  obtain ⟨inner, children⟩ := statement
  have hnowhere (crumb : Crumb) (hcrumb : crumb.label = label) :
      (memberOf? ⟨.node inner children, [crumb]⟩).map Node.tree = none := by
    rw [map_tree_memberOf?]
    exact memberUnder?_eq_none (hcrumb ▸ hroot) _
  have hfirst : source.finding? ⟨.node inner children, [⟨label, left, right⟩]⟩ =
      source.finding? ⟨.node inner children, [⟨label, left', right'⟩]⟩ :=
    finding?_congr rfl rfl ((hnowhere _ rfl).trans (hnowhere _ rfl).symm)
  have hbelow (outer : List Crumb) : (listingOfForest inner outer [] children).filterMap
      source.finding? = (listingOfForest inner [] [] children).filterMap fun node =>
        source.finding? (node.under outer) := by
    have hlisting := listingOfForest_append inner [] outer [] children
    rw [List.nil_append] at hlisting
    rw [hlisting, List.filterMap_map]
    rfl
  rw [listingOf, listingOf, List.filterMap_cons, List.filterMap_cons, hfirst, hbelow, hbelow]
  rw [List.filterMap_congr fun node hnode => finding?_under hnode _ _]

theorem filterMap_finding?_statements (hroot : label.kind ∉ memberKinds)
    (left statements : List Tree) :
    (listingOfForest label [] left statements).filterMap source.finding? =
      statements.flatMap fun statement =>
        (listingOf [⟨label, [], []⟩] statement).filterMap source.finding? := by
  induction statements generalizing left with
  | nil => rfl
  | cons statement statements ih =>
      rw [listingOfForest, List.filterMap_append, List.flatMap_cons, ih,
        filterMap_finding?_statement hroot left statements [] [] statement]

/-- What the markers of a source lead to, statement by statement. -/
theorem findings_flatMap (path : Path) (text : String) (hroot : label.kind ∉ memberKinds)
    (statements : List Tree) :
    (Source.mk path text (.node label statements)).findings = statements.flatMap fun statement =>
      (Source.mk path text (.node label [statement])).findings := by
  have hfindings (trees : List Tree) : (Source.mk path text (.node label trees)).findings =
      (listingOfForest label [] [] trees).filterMap
        (Source.mk path text (.node label statements)).finding? := by
    have hmarks : ¬ (Source.mk path text (.node label trees)).Marks (.node label trees) := by
      intro hmarks
      refine hroot ?_
      rw [show label.kind = "decorator" from hmarks.1]
      decide
    rw [findings_eq_filterMap]
    change (listingOf [] (.node label trees)).filterMap _ = _
    rw [listingOf, List.filterMap_cons, finding?_of_not_marks hmarks]
    exact List.filterMap_congr fun node _ => finding?_congr rfl rfl rfl
  rw [hfindings, filterMap_finding?_statements hroot]
  refine List.flatMap_congr fun statement _ => ?_
  rw [hfindings, filterMap_finding?_statements hroot, List.flatMap_singleton]

/-- **Statements are independent.** In a tree whose root is none of the nodes that decorators belong
to, the inputs of statements in a row are those of the first ones and those of the others, each taken
alone, and so are the notes. So what one statement contributes is what it contributes alone, and the
others keep what they contribute without it. -/
theorem inputs_of_statements (path : Path) (text : String) (hroot : label.kind ∉ memberKinds)
    (statements others : List Tree) :
    let source (trees : List Tree) : Source := ⟨path, text, .node label trees⟩
    ((source (statements ++ others)).inputs =
        (source statements).inputs ++ (source others).inputs ∧
      (source (statements ++ others)).skips =
        (source statements).skips ++ (source others).skips) ∧
    ∀ statement,
      (source (statements ++ statement :: others)).inputs =
        (source statements).inputs ++ (source [statement]).inputs ++ (source others).inputs ∧
      (source (statements ++ statement :: others)).skips =
        (source statements).skips ++ (source [statement]).skips ++ (source others).skips := by
  intro source
  have hfindings (trees : List Tree) : (source trees).findings =
      trees.flatMap fun tree => (source [tree]).findings := findings_flatMap path text hroot trees
  have happend (trees rest : List Tree) :
      (source (trees ++ rest)).inputs = (source trees).inputs ++ (source rest).inputs ∧
        (source (trees ++ rest)).skips = (source trees).skips ++ (source rest).skips := by
    have hsplit : (source (trees ++ rest)).findings =
        (source trees).findings ++ (source rest).findings := by
      rw [hfindings, List.flatMap_append, ← hfindings, ← hfindings]
    constructor
    · rw [inputs, hsplit, List.filterMap_append, inputs, inputs]
    · rw [skips, hsplit, List.filterMap_append, skips, skips]
  refine ⟨happend statements others, fun statement => ?_⟩
  obtain ⟨hinputs, hskips⟩ := happend statements (statement :: others)
  obtain ⟨hinputs', hskips'⟩ := happend [statement] others
  rw [hinputs, hskips, List.append_assoc, List.append_assoc, ← hinputs', ← hskips']
  exact ⟨rfl, rfl⟩

def pair : Source :=
  .parse ⟨"pair.ts"⟩ "@Input() class A \x7b @Input() a = 1 \x7d\nclass B \x7b @Input() b: B \x7d"

theorem inputs_of_statements_pair :
    let source (trees : List Tree) : Source := ⟨pair.path, pair.text, .node pair.tree.label trees⟩
    let first := pair.tree.children.take 1
    let second := pair.tree.children.drop 1
    source (first ++ second) = pair ∧
      (source first).inputs = [⟨"a", .number, some "1"⟩] ∧
      (source second).inputs = [⟨"b", .text, none⟩] ∧
      pair.inputs = (source first).inputs ++ (source second).inputs ∧
      pair.skips = (source first).skips ++ (source second).skips := by
  intro source first second
  have hpair : source (first ++ second) = pair := by
    have htree : Syntax.Tree.node pair.tree.label pair.tree.children = pair.tree := by
      cases pair.tree
      rfl
    change Source.mk pair.path pair.text (.node pair.tree.label (first ++ second)) = pair
    rw [List.take_append_drop, htree]
  obtain ⟨hroot, hfirst, hsecond⟩ : pair.tree.label.kind ∉ memberKinds ∧
      (source first).inputs = [⟨"a", .number, some "1"⟩] ∧
      (source second).inputs = [⟨"b", .text, none⟩] := by
    decide +kernel
  obtain ⟨⟨hinputs, hskips⟩, -⟩ := inputs_of_statements pair.path pair.text hroot first second
  change (source (first ++ second)).inputs = _ at hinputs
  change (source (first ++ second)).skips = _ at hskips
  rw [hpair] at hinputs hskips
  exact ⟨hpair, hfirst, hsecond, hinputs, hskips⟩

end Source

end StoryKnobs

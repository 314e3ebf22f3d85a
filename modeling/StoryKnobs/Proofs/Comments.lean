import StoryKnobs.Proofs.Siblings

/-!
# Trees without their comments

Comments may stand anywhere in a tree and mean nothing. Taking some of them away leaves a tree of the
same labels in the same order, and each search through it meets the same nodes as before, because no
search stops at a comment: the search for a marker, for the member of a decorator, for the child that
fills a field, for a type and for an alias. So a source keeps its inputs and its notes.
-/

namespace StoryKnobs

open Syntax

namespace Syntax

/-- A comment that fills no field and has nothing below it. -/
structure Tree.IsLoose (tree : Tree) : Prop where
  kind : tree.kind = "comment"
  children : tree.children = []
  field : tree.field = none

instance : DecidablePred Tree.IsLoose := fun tree =>
  decidable_of_iff (tree.kind = "comment" ∧ tree.children = [] ∧ tree.field = none)
    ⟨fun ⟨hkind, hchildren, hfield⟩ => ⟨hkind, hchildren, hfield⟩,
    fun ⟨hkind, hchildren, hfield⟩ => ⟨hkind, hchildren, hfield⟩⟩

mutual

/-- The tree without the chosen ones of the nodes below it, where `crumbs` lead from the tree up to
the root. -/
def Tree.without (chosen : Node → Bool) (crumbs : List Crumb) : Tree → Tree
  | .node label children => .node label (withoutForest chosen label crumbs [] children)

def withoutForest (chosen : Node → Bool) (label : Label) (crumbs : List Crumb) :
    List Tree → List Tree → List Tree
  | _, [] => []
  | left, tree :: right =>
    if chosen ⟨tree, ⟨label, left, right⟩ :: crumbs⟩ then
      withoutForest chosen label crumbs (tree :: left) right
    else
      tree.without chosen (⟨label, left, right⟩ :: crumbs) ::
        withoutForest chosen label crumbs (tree :: left) right

end

/-! ### Forests with and without comments -/

/-- What is left of a forest without some of its loose comments. -/
inductive Trims : List Tree → List Tree → Prop
  | nil : Trims [] []
  | drop {tree : Tree} {trees rest : List Tree} :
      tree.IsLoose → Trims trees rest → Trims (tree :: trees) rest
  | keep {label : Label} {children inner trees rest : List Tree} :
      Trims children inner → Trims trees rest →
        Trims (.node label children :: trees) (.node label inner :: rest)

structure TrimsTo (tree bare : Tree) : Prop where
  label : tree.label = bare.label
  children : Trims tree.children bare.children

variable {trees bare others rest : List Tree}

theorem Trims.keepTree {tree left : Tree} (htree : TrimsTo tree left) (htrees : Trims trees bare) :
    Trims (tree :: trees) (left :: bare) := by
  obtain ⟨label, children⟩ := tree
  obtain ⟨label', inner⟩ := left
  obtain rfl : label = label' := htree.label
  exact .keep htree.children htrees

theorem Trims.append (htrees : Trims trees bare) (hothers : Trims others rest) :
    Trims (trees ++ others) (bare ++ rest) := by
  induction htrees with
  | nil => exact hothers
  | drop hloose _ ih => exact .drop hloose ih
  | keep hchildren _ _ ih => exact .keep hchildren ih

theorem Trims.reverse (htrees : Trims trees bare) : Trims trees.reverse bare.reverse := by
  induction htrees with
  | nil => exact .nil
  | drop hloose _ ih =>
      have hdropped := ih.append (.drop hloose .nil)
      rwa [List.append_nil, ← List.reverse_cons] at hdropped
  | keep hchildren _ _ ih =>
      rw [List.reverse_cons, List.reverse_cons]
      exact ih.append (.keep hchildren .nil)

theorem preorderForest_cons_of_isLoose {tree : Tree} (hloose : tree.IsLoose) (trees : List Tree) :
    Tree.preorderForest (tree :: trees) = tree :: Tree.preorderForest trees := by
  obtain ⟨label, children⟩ := tree
  obtain rfl : children = [] := hloose.children
  rfl

/-- Without loose comments a forest has the same subtrees but for these comments. -/
theorem Trims.preorderForest (htrees : Trims trees bare) :
    Trims (Tree.preorderForest trees) (Tree.preorderForest bare) := by
  induction htrees with
  | nil => exact .nil
  | drop hloose _ ih =>
      rw [preorderForest_cons_of_isLoose hloose]
      exact .drop hloose ih
  | keep hchildren _ ihchildren ih =>
      rw [Tree.preorderForest, Tree.preorderForest, Tree.preorder, Tree.preorder]
      exact .keep hchildren (ihchildren.append ih)

theorem TrimsTo.preorder {tree left : Tree} (htree : TrimsTo tree left) :
    Trims tree.preorder left.preorder := by
  obtain ⟨label, children⟩ := tree
  obtain ⟨label', inner⟩ := left
  obtain rfl : label = label' := htree.label
  rw [Tree.preorder, Tree.preorder]
  exact .keep htree.children htree.children.preorderForest

def Overlooks (test : Label → Bool) : Prop :=
  ∀ label : Label, label.kind = "comment" → label.field = none → test label = false

/-- A search that overlooks loose comments finds the same tree without them. -/
theorem Trims.find? {test : Label → Bool} (htest : Overlooks test) (htrees : Trims trees bare) :
    Option.Rel TrimsTo (trees.find? (test ·.label)) (bare.find? (test ·.label)) := by
  induction htrees with
  | nil => exact .none
  | drop hloose _ ih =>
      rw [List.find?_cons, htest _ hloose.kind hloose.field]
      exact ih
  | @keep label children inner trees rest hchildren _ _ ih =>
      have hlabel (inner : List Tree) : test (Tree.node label inner).label = test label := rfl
      rw [List.find?_cons, List.find?_cons, hlabel, hlabel]
      cases test label with
      | true => exact .some ⟨rfl, hchildren⟩
      | false => exact ih

theorem Trims.exists_iff {test : Label → Bool} (htest : Overlooks test)
    (htrees : Trims trees bare) :
    (∃ tree ∈ trees, test tree.label = true) ↔ ∃ tree ∈ bare, test tree.label = true := by
  rw [← List.find?_isSome, ← List.find?_isSome]
  have hfound := htrees.find? htest
  generalize trees.find? _ = found at hfound ⊢
  generalize bare.find? _ = found' at hfound ⊢
  cases hfound with
  | none => exact Iff.rfl
  | some => exact Iff.rfl

/-! ### Deleting nodes -/

theorem mem_listingOf_self (crumbs : List Crumb) (tree : Tree) :
    ⟨tree, crumbs⟩ ∈ listingOf crumbs tree := by
  cases tree with
  | node label children =>
      rw [listingOf]
      exact List.mem_cons_self

mutual

theorem trimsTo_without {chosen : Node → Bool} {crumbs : List Crumb} {tree : Tree}
    (hchosen : ∀ node ∈ listingOf crumbs tree, chosen node = true → node.tree.IsLoose) :
    TrimsTo tree (tree.without chosen crumbs) := by
  cases tree with
  | node label children =>
      rw [Tree.without]
      refine ⟨rfl, trims_withoutForest fun node hnode => hchosen node ?_⟩
      rw [listingOf]
      exact List.mem_cons_of_mem _ hnode

theorem trims_withoutForest {chosen : Node → Bool} {label : Label} {crumbs : List Crumb}
    {left right : List Tree}
    (hchosen : ∀ node ∈ listingOfForest label crumbs left right,
      chosen node = true → node.tree.IsLoose) :
    Trims right (withoutForest chosen label crumbs left right) := by
  cases right with
  | nil =>
      rw [withoutForest]
      exact .nil
  | cons tree right =>
      simp only [listingOfForest, List.mem_append, or_imp, forall_and] at hchosen
      obtain ⟨htree, hright⟩ := hchosen
      rw [withoutForest]
      split_ifs with hdrop
      · exact .drop (htree _ (mem_listingOf_self _ tree) hdrop) (trims_withoutForest hright)
      · exact .keepTree (trimsTo_without htree) (trims_withoutForest hright)

end

mutual

/-- The labels that stay are those of the nodes that are not chosen, in pre-order. -/
theorem map_label_without {chosen : Node → Bool} {crumbs : List Crumb} {tree : Tree}
    (hroot : chosen ⟨tree, crumbs⟩ = false)
    (hchosen : ∀ node ∈ listingOf crumbs tree, chosen node = true → node.tree.children = []) :
    (tree.without chosen crumbs).preorder.map Tree.label =
      ((listingOf crumbs tree).filter (!chosen ·)).map (·.tree.label) := by
  cases tree with
  | node label children =>
      have hbelow := map_label_withoutForest fun node hnode =>
        hchosen node (by rw [listingOf]; exact List.mem_cons_of_mem _ hnode)
      rw [Tree.without, Tree.preorder, listingOf, List.map_cons, hbelow,
        List.filter_cons_of_pos (by simpa using hroot), List.map_cons]
      rfl

theorem map_label_withoutForest {chosen : Node → Bool} {label : Label} {crumbs : List Crumb}
    {left right : List Tree}
    (hchosen : ∀ node ∈ listingOfForest label crumbs left right,
      chosen node = true → node.tree.children = []) :
    (Tree.preorderForest (withoutForest chosen label crumbs left right)).map Tree.label =
      ((listingOfForest label crumbs left right).filter (!chosen ·)).map (·.tree.label) := by
  cases right with
  | nil =>
      rw [withoutForest]
      rfl
  | cons tree right =>
      simp only [listingOfForest, List.mem_append, or_imp, forall_and] at hchosen
      obtain ⟨htree, hright⟩ := hchosen
      rw [withoutForest, listingOfForest, List.filter_append, List.map_append,
        ← map_label_withoutForest hright]
      cases hdrop : chosen ⟨tree, ⟨label, left, right⟩ :: crumbs⟩ with
      | true =>
          have hleaf := htree _ (mem_listingOf_self _ tree) hdrop
          obtain ⟨inner, children⟩ := tree
          obtain rfl : children = [] := hleaf
          rw [if_pos rfl, listingOf, listingOfForest,
            List.filter_cons_of_neg (by simpa using hdrop)]
          rfl
      | false =>
          rw [if_neg Bool.false_ne_true, Tree.preorderForest, List.map_append,
            map_label_without hdrop htree]

end

end Syntax

namespace Source

variable {source : Source} {tree bare : Tree}

/-! ### What a source says without comments -/

theorem treeText_of_trimsTo (htree : TrimsTo tree bare) :
    source.treeText tree = source.treeText bare := by
  obtain ⟨label, children⟩ := tree
  obtain ⟨label', inner⟩ := bare
  obtain rfl : label = label' := htree.label
  rfl

theorem kind_of_trimsTo (htree : TrimsTo tree bare) : tree.kind = bare.kind :=
  congrArg Label.kind htree.label

/-- What is read off the trees found does not see comments, if no reading of a tree does. -/
theorem bind_eq_bind_of_rel {α β γ : Type} {relation : α → β → Prop} {value : α → Option γ}
    {value' : β → Option γ} {found : Option α} {found' : Option β}
    (hvalue : ∀ first second, relation first second → value first = value' second)
    (hfound : Option.Rel relation found found') : found.bind value = found'.bind value' := by
  cases hfound with
  | none => rfl
  | some hrelation => exact hvalue _ _ hrelation

theorem child?_of_trimsTo (name : String) (htree : TrimsTo tree bare) :
    Option.Rel TrimsTo (tree.child? name) (bare.child? name) := by
  have htest : Overlooks (·.field == some name) := fun label _ hfield => by simp [hfield]
  exact htree.children.find? htest

theorem firstNamed?_of_trimsTo (htree : TrimsTo tree bare) :
    Option.Rel TrimsTo tree.firstNamed? bare.firstNamed? := by
  have htest : Overlooks fun label => label.named && !(label.kind == Tree.commentKind) :=
    fun label hkind _ => by simp [hkind, Tree.commentKind]
  exact htree.children.find? htest

theorem firstString?_of_trimsTo (htree : TrimsTo tree bare) :
    Option.Rel TrimsTo tree.firstString? bare.firstString? := by
  have htest : Overlooks (·.kind == "string") := fun label hkind _ => by simp [hkind]
  exact htree.preorder.find? htest

theorem marks_iff_of_trimsTo (htree : TrimsTo tree bare) :
    source.Marks tree ↔ source.Marks bare := by
  have htest : Overlooks fun label =>
      (label.kind == "identifier" || label.kind == "property_identifier") &&
        source.treeText (.node label []) == "Input" :=
    fun label hcomment _ => by simp [hcomment]
  have hparts := htree.preorder.exists_iff htest
  simp only [Bool.and_eq_true, Bool.or_eq_true, beq_iff_eq] at hparts
  rw [Marks, Marks, kind_of_trimsTo htree]
  exact and_congr_right fun _ => hparts

theorem map_eq_map_of_rel {α β γ : Type} {relation : α → β → Prop} {value : α → γ}
    {value' : β → γ} {found : Option α} {found' : Option β}
    (hvalue : ∀ first second, relation first second → value first = value' second)
    (hfound : Option.Rel relation found found') : found.map value = found'.map value' := by
  rw [Option.map_eq_bind, Option.map_eq_bind]
  exact bind_eq_bind_of_rel (fun _ _ hrelation => congrArg some (hvalue _ _ hrelation)) hfound

def typeIn (source : Source) (name : String) (tree : Tree) : Option String :=
  ((tree.child? name).bind Tree.firstNamed?).map source.treeText

def initialIn (source : Source) (tree : Tree) : Option Initializer :=
  (tree.child? "value").map fun value => ⟨.ofNodeKind value.kind, source.treeText value⟩

theorem declarationOf?_root (source : Source) (tree : Tree) :
    source.declarationOf? (Node.root tree) = (tree.child? "name").map fun name =>
      ⟨source.treeText name, source.typeIn (typeField tree.kind) tree, source.initialIn tree⟩ :=
  declarationOf?_eq source (Node.root tree)

theorem typeIn_of_trimsTo (name : String) (htree : TrimsTo tree bare) :
    source.typeIn name tree = source.typeIn name bare := by
  rw [typeIn, typeIn, Option.map_bind, Option.map_bind]
  refine bind_eq_bind_of_rel (fun _ _ hrel => ?_) (child?_of_trimsTo name htree)
  exact map_eq_map_of_rel (fun _ _ => treeText_of_trimsTo) (firstNamed?_of_trimsTo hrel)

theorem initialIn_of_trimsTo (htree : TrimsTo tree bare) :
    source.initialIn tree = source.initialIn bare := by
  refine map_eq_map_of_rel (fun value value' hrel => ?_) (child?_of_trimsTo "value" htree)
  rw [kind_of_trimsTo hrel, treeText_of_trimsTo hrel]

theorem declarationOf?_of_trimsTo (htree : TrimsTo tree bare) :
    source.declarationOf? (Node.root tree) = source.declarationOf? (Node.root bare) := by
  rw [declarationOf?_root, declarationOf?_root, initialIn_of_trimsTo htree,
    typeIn_of_trimsTo _ htree, kind_of_trimsTo htree]
  exact map_eq_map_of_rel (fun _ _ hrel => by rw [treeText_of_trimsTo hrel])
    (child?_of_trimsTo "name" htree)

theorem aliasOf?_of_trimsTo (htree : TrimsTo tree bare) :
    source.aliasOf? (Node.root tree) = source.aliasOf? (Node.root bare) := by
  rw [aliasOf?_eq, aliasOf?_eq]
  exact bind_eq_bind_of_rel (fun _ _ hrel => congrArg unquote? (treeText_of_trimsTo hrel))
    (firstString?_of_trimsTo htree)

theorem findingIn_of_trimsTo {member member' : Option Tree} (htree : TrimsTo tree bare)
    (hmember : Option.Rel TrimsTo member member') :
    source.findingIn tree member = source.findingIn bare member' := by
  have hdeclaration : (member.bind fun tree => source.declarationOf? (Node.root tree)) =
      member'.bind fun tree => source.declarationOf? (Node.root tree) :=
    bind_eq_bind_of_rel (fun _ _ => declarationOf?_of_trimsTo) hmember
  have hspan : (Node.root tree).span = (Node.root bare).span := congrArg Label.span htree.label
  have hline : source.lineOf (Node.root tree) = source.lineOf (Node.root bare) := by
    rw [lineOf, hspan, lineOf]
  have htext : source.textOf (Node.root tree) = source.textOf (Node.root bare) :=
    treeText_of_trimsTo htree
  rw [findingIn, findingIn, hdeclaration, aliasOf?_of_trimsTo htree, hline, htext]

/-! ### What a decorator belongs to without comments -/

structure TrimsCrumb (crumb bare : Crumb) : Prop where
  label : crumb.label = bare.label
  left : Trims crumb.left bare.left
  right : Trims crumb.right bare.right

theorem TrimsCrumb.plug {crumb bareCrumb : Crumb} (hcrumb : TrimsCrumb crumb bareCrumb)
    (htree : TrimsTo tree bare) : TrimsTo (crumb.plug tree) (bareCrumb.plug bare) where
  label := hcrumb.label
  children := hcrumb.left.reverse.append (.keepTree htree hcrumb.right)

theorem memberUnder?_of_trims {crumb bareCrumb : Crumb} (hcrumb : TrimsCrumb crumb bareCrumb)
    (htree : TrimsTo tree bare) :
    Option.Rel TrimsTo (memberUnder? crumb tree) (memberUnder? bareCrumb bare) := by
  have hstops : Overlooks stops := fun label hkind _ => by
    simp [stops, isPassed, hkind, Tree.commentKind]
  have hfound := hcrumb.right.find? hstops
  rw [memberUnder?, memberUnder?, ← hcrumb.label]
  split_ifs
  · exact .some (hcrumb.plug htree)
  · generalize crumb.right.find? _ = found at hfound ⊢
    generalize bareCrumb.right.find? _ = found' at hfound ⊢
    cases hfound with
    | none => exact .none
    | @some method method' hrel =>
        rw [Option.filter_some, Option.filter_some, ← hrel.label]
        split_ifs
        · exact .some hrel
        · exact .none
  · exact .none

theorem finding?_of_trims {node bareNode : Node} (htree : TrimsTo node.tree bareNode.tree)
    (hcrumb : Option.Rel TrimsCrumb node.crumbs.head? bareNode.crumbs.head?) :
    source.finding? node = source.finding? bareNode := by
  have hmember : Option.Rel TrimsTo ((memberOf? node).map Node.tree)
      ((memberOf? bareNode).map Node.tree) := by
    rw [map_tree_memberOf?, map_tree_memberOf?]
    generalize node.crumbs.head? = crumb at hcrumb ⊢
    generalize bareNode.crumbs.head? = bareCrumb at hcrumb ⊢
    cases hcrumb with
    | none => exact .none
    | some hcrumb => exact memberUnder?_of_trims hcrumb htree
  rw [finding?, finding?, findingOf_eq, findingOf_eq, findingIn_of_trimsTo htree hmember]
  exact if_congr (marks_iff_of_trimsTo htree) rfl rfl

theorem filterMap_finding?_of_trims {label : Label} {left right bareLeft bareRight : List Tree}
    (hright : Trims right bareRight) (hleft : Trims left bareLeft) (crumbs crumbs' : List Crumb) :
    (listingOfForest label crumbs left right).filterMap source.finding? =
      (listingOfForest label crumbs' bareLeft bareRight).filterMap source.finding? := by
  induction hright generalizing label left bareLeft crumbs crumbs' with
  | nil => rfl
  | @drop tree right rest hloose hright ih =>
      have hmarks : ¬ source.Marks tree := by
        intro hmarks
        have hkind := hmarks.1
        rw [hloose.kind] at hkind
        revert hkind
        decide
      obtain ⟨inner, children⟩ := tree
      obtain rfl : children = [] := hloose.children
      rw [listingOfForest, List.filterMap_append, listingOf, listingOfForest, List.filterMap_cons,
        finding?_of_not_marks hmarks, ← ih (.drop hloose hleft) crumbs crumbs']
      rfl
  | @keep inner children bareChildren right rest hchildren hright ihchildren ih =>
      have htree : TrimsTo (.node inner children) (.node inner bareChildren) := ⟨rfl, hchildren⟩
      have hfirst : source.finding? ⟨.node inner children, ⟨label, left, right⟩ :: crumbs⟩ =
          source.finding? ⟨.node inner bareChildren, ⟨label, bareLeft, rest⟩ :: crumbs'⟩ :=
        finding?_of_trims htree (.some ⟨rfl, hleft, hright⟩)
      rw [listingOfForest, listingOfForest, List.filterMap_append, List.filterMap_append, listingOf,
        listingOf, List.filterMap_cons, List.filterMap_cons, hfirst,
        ihchildren .nil _ (⟨label, bareLeft, rest⟩ :: crumbs'),
        ih (.keep hchildren hleft) crumbs crumbs']

theorem filterMap_finding?_of_trimsTo (htree : TrimsTo tree bare) :
    (listingOf [] tree).filterMap source.finding? =
      (listingOf [] bare).filterMap source.finding? := by
  obtain ⟨label, children⟩ := tree
  obtain ⟨label', inner⟩ := bare
  obtain rfl : label = label' := htree.label
  have hchildren : Trims children inner := htree.children
  have hroot : source.finding? ⟨.node label children, []⟩ = source.finding? ⟨.node label inner, []⟩ :=
    finding?_of_trims htree .none
  rw [listingOf, listingOf, List.filterMap_cons, List.filterMap_cons, hroot,
    filterMap_finding?_of_trims hchildren .nil [] []]

/-- **Comments mean nothing.** Taking any set of comments out of a tree that are leaves, fill no field
and are not the root leaves the other nodes as they are, and the source has the same inputs and the
same notes as before. -/
theorem inputs_without_comments (source : Source) (chosen : Node → Bool)
    (hchosen : ∀ node ∈ source.root.listing, chosen node = true →
      node ≠ source.root ∧ node.tree.IsLoose) :
    let bare : Source := { source with tree := source.tree.without chosen [] }
    bare.tree.preorder.map Tree.label =
        (source.root.listing.filter (!chosen ·)).map (·.tree.label) ∧
      bare.inputs = source.inputs ∧ bare.skips = source.skips := by
  intro bare
  have hroot : chosen source.root = false := by
    by_contra hroot
    have hself : source.root ∈ source.root.listing := mem_listingOf_self [] source.tree
    exact (hchosen _ hself (by simpa using hroot)).1 rfl
  have htree : TrimsTo source.tree bare.tree :=
    trimsTo_without fun node hnode hnodeChosen => (hchosen node hnode hnodeChosen).2
  have hfindings : bare.findings = source.findings := by
    have hbare : bare.finding? = source.finding? := funext fun _ => finding?_congr rfl rfl rfl
    rw [findings_eq_filterMap, findings_eq_filterMap, hbare]
    exact (filterMap_finding?_of_trimsTo htree).symm
  refine ⟨map_label_without hroot fun node hnode hnodeChosen =>
    (hchosen node hnode hnodeChosen).2.children, ?_, ?_⟩
  · rw [inputs, hfindings, inputs]
  · rw [skips, hfindings, skips]

def shelf : Source := .parse ⟨"shelf.ts"⟩
  "class A \x7b @Input(/* 1 */ 'b') /* 2 */ set c(v) \x7b\x7d @Input() a: /* 3 */ number /* 4 */ = 2 \x7d"

theorem inputs_without_comments_shelf :
    let chosen (node : Node) : Bool := node.tree.kind == "comment"
    let bare : Source := { shelf with tree := shelf.tree.without chosen [] }
    (∀ node ∈ shelf.root.listing, chosen node = true →
      node ≠ shelf.root ∧ node.tree.IsLoose) ∧
    shelf.root.listing.countP chosen = 4 ∧
    shelf.inputs = [⟨"b", .text, some "''"⟩, ⟨"a", .number, some "2"⟩] ∧
    bare.inputs = shelf.inputs ∧ bare.skips = shelf.skips := by
  intro chosen bare
  obtain ⟨hchosen, hcount, hinputs⟩ :
      (∀ node ∈ shelf.root.listing, chosen node = true →
        node ≠ shelf.root ∧ node.tree.IsLoose) ∧
      shelf.root.listing.countP chosen = 4 ∧
      shelf.inputs = [⟨"b", .text, some "''"⟩, ⟨"a", .number, some "2"⟩] := by
    decide +kernel
  exact ⟨hchosen, hcount, hinputs, (inputs_without_comments shelf chosen hchosen).2⟩

end Source

end StoryKnobs

import Mathlib.Logic.Relation
import StoryKnobs.Proofs.Search
import StoryKnobs.Proofs.Siblings

/-!
# The nodes of a subtree

The subtree at a node consists of the nodes from which that node is reached by going up. Its listing
has the node first, and then the listings of its children. If the spans of children follow each
other inside the span of their parent, the nodes of a listing start in the order in which they are
listed.
-/

namespace StoryKnobs.Syntax

/-! ### Going up -/

/-- Going up from `inside` leads to `node`, perhaps at once. -/
def Node.Below (inside node : Node) : Prop :=
  Relation.ReflTransGen (fun child parent => child.parent = some parent) inside node

theorem listingOfForest_eq (label : Label) (crumbs : List Crumb) (left right : List Tree) :
    listingOfForest label crumbs left right =
      (Node.siblingsFrom label crumbs left right).flatMap Node.listing := by
  induction right generalizing left with
  | nil => rfl
  | cons tree right ih =>
      rw [listingOfForest, ih, Node.siblingsFrom, List.flatMap_cons]
      rfl

theorem listing_eq (node : Node) : node.listing = node :: node.children.flatMap Node.listing := by
  obtain ⟨⟨label, children⟩, crumbs⟩ := node
  rw [Node.listing, listingOf, listingOfForest_eq]
  rfl

theorem listing_subset_of_parent {node parent : Node} (hparent : node.parent = some parent) :
    node.listing ⊆ parent.listing := by
  intro inside hinside
  rw [listing_eq parent]
  exact List.mem_cons_of_mem _
    (List.mem_flatMap.mpr ⟨node, Node.mem_children_iff.mpr hparent, hinside⟩)

mutual

theorem below_of_mem_listingOf {crumbs : List Crumb} {tree : Tree} {inside : Node}
    (hinside : inside ∈ listingOf crumbs tree) : inside.Below ⟨tree, crumbs⟩ := by
  cases tree with
  | node label children =>
      rw [listingOf, List.mem_cons] at hinside
      rcases hinside with rfl | hinside
      · exact .refl
      · exact below_of_mem_listingOfForest hinside

theorem below_of_mem_listingOfForest {label : Label} {crumbs : List Crumb} {left right : List Tree}
    {inside : Node} (hinside : inside ∈ listingOfForest label crumbs left right) :
    inside.Below ⟨.node label (left.reverse ++ right), crumbs⟩ := by
  cases right with
  | nil => cases hinside
  | cons tree right =>
      rw [listingOfForest, List.mem_append] at hinside
      rcases hinside with hinside | hinside
      · exact (below_of_mem_listingOf hinside).tail rfl
      · have hbelow := below_of_mem_listingOfForest hinside
        rwa [List.reverse_cons, List.append_assoc, List.singleton_append] at hbelow

end

/-- The listing of a subtree has the nodes from which going up leads to its node, and no others. -/
theorem mem_listing_iff_below {node inside : Node} :
    inside ∈ node.listing ↔ inside.Below node := by
  constructor
  · exact below_of_mem_listingOf
  · intro hbelow
    induction hbelow with
    | refl =>
        rw [listing_eq]
        exact List.mem_cons_self
    | tail _ hparent ih => exact listing_subset_of_parent hparent ih

/-! ### Spans in order -/

namespace Tree

structure IsLaidOut (tree : Tree) : Prop where
  forward : tree.span.start ≤ tree.span.stop
  inside : ∀ child ∈ tree.children,
    tree.span.start ≤ child.span.start ∧ child.span.stop ≤ tree.span.stop
  ordered : tree.children.Pairwise fun child next => child.span.stop ≤ next.span.start

instance : DecidablePred IsLaidOut := fun tree =>
  decidable_of_iff (tree.span.start ≤ tree.span.stop ∧
      (∀ child ∈ tree.children,
        tree.span.start ≤ child.span.start ∧ child.span.stop ≤ tree.span.stop) ∧
      tree.children.Pairwise fun child next => child.span.stop ≤ next.span.start)
    ⟨fun ⟨hforward, hinside, hordered⟩ => ⟨hforward, hinside, hordered⟩,
      fun ⟨hforward, hinside, hordered⟩ => ⟨hforward, hinside, hordered⟩⟩

def InOrder (tree : Tree) : Prop := ∀ part ∈ tree.preorder, part.IsLaidOut

instance : DecidablePred InOrder := fun tree =>
  inferInstanceAs (Decidable (∀ part ∈ tree.preorder, part.IsLaidOut))

variable {tree part : Tree} {trees : List Tree}

theorem self_mem_preorder (tree : Tree) : tree ∈ tree.preorder := by
  cases tree with
  | node label children =>
      rw [preorder]
      exact List.mem_cons_self

theorem InOrder.isLaidOut (horder : tree.InOrder) : tree.IsLaidOut :=
  horder tree tree.self_mem_preorder

theorem InOrder.of_mem (horder : tree.InOrder) (hpart : part ∈ tree.preorder) : part.InOrder :=
  fun _ hmem => horder _ (mem_preorder_trans hpart hmem)

theorem InOrder.child {label : Label} (horder : (node label trees).InOrder) :
    ∀ child ∈ trees, child.InOrder := by
  intro child hchild
  apply horder.of_mem
  rw [preorder]
  exact List.mem_cons_of_mem _
    (Grammar.mem_preorderForest.mpr ⟨child, hchild, child.self_mem_preorder⟩)

mutual

/-- No part of a tree reaches beyond the span of the tree. -/
theorem InOrder.span_le {tree part : Tree} (horder : tree.InOrder) (hpart : part ∈ tree.preorder) :
    tree.span.start ≤ part.span.start ∧ part.span.stop ≤ tree.span.stop := by
  cases tree with
  | node label children =>
      rw [preorder, List.mem_cons] at hpart
      rcases hpart with rfl | hpart
      · exact ⟨le_rfl, le_rfl⟩
      · obtain ⟨child, hchild, hstart, hstop⟩ := exists_span_le horder.child hpart
        obtain ⟨hfirst, hlast⟩ := horder.isLaidOut.inside child hchild
        exact ⟨hfirst.trans hstart, hstop.trans hlast⟩

theorem exists_span_le {trees : List Tree} {part : Tree} (horder : ∀ tree ∈ trees, tree.InOrder)
    (hpart : part ∈ preorderForest trees) :
    ∃ tree ∈ trees, tree.span.start ≤ part.span.start ∧ part.span.stop ≤ tree.span.stop := by
  cases trees with
  | nil => cases hpart
  | cons tree trees =>
      obtain ⟨htree, hothers⟩ := List.forall_mem_cons.mp horder
      rw [preorderForest, List.mem_append] at hpart
      rcases hpart with hpart | hpart
      · exact ⟨tree, List.mem_cons_self, htree.span_le hpart⟩
      · obtain ⟨other, hother, hspan⟩ := exists_span_le hothers hpart
        exact ⟨other, List.mem_cons_of_mem _ hother, hspan⟩

end

mutual

theorem InOrder.pairwise_preorder {tree : Tree} (horder : tree.InOrder) :
    tree.preorder.Pairwise fun part next => part.span.start ≤ next.span.start := by
  cases tree with
  | node label children =>
      rw [preorder, List.pairwise_cons]
      refine ⟨?_, pairwise_preorderForest horder.child horder.isLaidOut.ordered⟩
      intro part hpart
      obtain ⟨child, hchild, hstart, -⟩ := exists_span_le horder.child hpart
      exact (horder.isLaidOut.inside child hchild).1.trans hstart

theorem pairwise_preorderForest {trees : List Tree} (horder : ∀ tree ∈ trees, tree.InOrder)
    (hordered : trees.Pairwise fun tree next => tree.span.stop ≤ next.span.start) :
    (preorderForest trees).Pairwise fun part next => part.span.start ≤ next.span.start := by
  cases trees with
  | nil => exact List.Pairwise.nil
  | cons tree trees =>
      obtain ⟨htree, hothers⟩ := List.forall_mem_cons.mp horder
      obtain ⟨hafter, hrest⟩ := List.pairwise_cons.mp hordered
      rw [preorderForest, List.pairwise_append]
      refine ⟨htree.pairwise_preorder, pairwise_preorderForest hothers hrest, ?_⟩
      intro part hpart next hnext
      obtain ⟨other, hother, hstart, -⟩ := exists_span_le hothers hnext
      calc
        part.span.start ≤ part.span.stop := (htree part hpart).forward
        _ ≤ tree.span.stop := (htree.span_le hpart).2
        _ ≤ other.span.start := hafter other hother
        _ ≤ next.span.start := hstart

end

end Tree

/-- The nodes of a subtree in order are listed as they start. -/
theorem pairwise_start_listing {node : Node} (horder : node.tree.InOrder) :
    node.listing.Pairwise fun first second => first.span.start ≤ second.span.start := by
  have hstarts := horder.pairwise_preorder
  rwa [← map_tree_listingOf node.crumbs node.tree, List.pairwise_map] at hstarts

end StoryKnobs.Syntax

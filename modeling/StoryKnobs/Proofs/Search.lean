import Mathlib.Data.List.Basic
import Mathlib.Data.List.Nodup
import Mathlib.Tactic.Common
import StoryKnobs.Syntax.Search

/-!
# What a search finds

The cursor of `Node.findAll` moves through the subtree of its start node one position at a time.
From any position on it has still to visit the subtree there and, for each step of the way back up
to the start node, the siblings on the right: `Cursor.remaining` lists these nodes, and one move
takes away exactly the first of them. Hence the search is the filter of the listing in pre-order,
in which no located node stands twice.
-/

namespace StoryKnobs.Syntax

/-! ### Listings -/

mutual

theorem length_listingOf (crumbs : List Crumb) (tree : Tree) :
    (listingOf crumbs tree).length = tree.size := by
  cases tree with
  | node label children =>
      rw [listingOf, List.length_cons, length_listingOfForest, Tree.size]

theorem length_listingOfForest (label : Label) (crumbs : List Crumb) (left right : List Tree) :
    (listingOfForest label crumbs left right).length = Tree.sizeForest right := by
  cases right with
  | nil => rfl
  | cons tree right =>
      rw [listingOfForest, List.length_append, length_listingOf, length_listingOfForest,
        Tree.sizeForest]

end

mutual

theorem map_tree_listingOf (crumbs : List Crumb) (tree : Tree) :
    (listingOf crumbs tree).map Node.tree = tree.preorder := by
  cases tree with
  | node label children =>
      rw [listingOf, List.map_cons, map_tree_listingOfForest, Tree.preorder]

theorem map_tree_listingOfForest (label : Label) (crumbs : List Crumb) (left right : List Tree) :
    (listingOfForest label crumbs left right).map Node.tree = Tree.preorderForest right := by
  cases right with
  | nil => rfl
  | cons tree right =>
      rw [listingOfForest, List.map_append, map_tree_listingOf, map_tree_listingOfForest,
        Tree.preorderForest]

end

mutual

theorem mem_preorder_trans {part inner tree : Tree} (hinner : inner ∈ tree.preorder)
    (hpart : part ∈ inner.preorder) : part ∈ tree.preorder := by
  cases tree with
  | node label children =>
      rw [Tree.preorder, List.mem_cons] at hinner
      rcases hinner with rfl | hinner
      · exact hpart
      · rw [Tree.preorder]
        exact List.mem_cons_of_mem _ (mem_preorderForest_trans hinner hpart)

theorem mem_preorderForest_trans {part inner : Tree} {trees : List Tree}
    (hinner : inner ∈ Tree.preorderForest trees) (hpart : part ∈ inner.preorder) :
    part ∈ Tree.preorderForest trees := by
  cases trees with
  | nil => exact absurd hinner List.not_mem_nil
  | cons tree trees =>
      rw [Tree.preorderForest, List.mem_append] at hinner ⊢
      rcases hinner with hinner | hinner
      · exact Or.inl (mem_preorder_trans hinner hpart)
      · exact Or.inr (mem_preorderForest_trans hinner hpart)

end

theorem mem_preorder_of_mem_listing {node inside : Node} {part : Tree}
    (hinside : inside ∈ node.listing) (hpart : part ∈ inside.tree.preorder) :
    part ∈ node.tree.preorder := by
  refine mem_preorder_trans ?_ hpart
  rw [← map_tree_listingOf node.crumbs node.tree]
  exact List.mem_map_of_mem hinside

/-- A statement about the subtree of each node listed is one about the subtrees in pre-order. -/
theorem exists_mem_listing_iff (node : Node) (test : Tree → Prop) :
    (∃ inside ∈ node.listing, test inside.tree) ↔ ∃ tree ∈ node.tree.preorder, test tree := by
  rw [← map_tree_listingOf node.crumbs node.tree]
  simp only [Node.listing, List.mem_map, exists_exists_and_eq_and]

/-- A list of children taken apart at one of them. The nodes before it have the subtrees of the
children on its left. -/
theorem listingOfForest_append_cons (label : Label) (crumbs : List Crumb) (tree : Tree)
    (left before after : List Tree) :
    ∃ nodes : List Node, nodes.map Node.tree = Tree.preorderForest before ∧
      listingOfForest label crumbs left (before ++ tree :: after) =
        nodes ++ listingOf (⟨label, before.reverse ++ left, after⟩ :: crumbs) tree ++
          listingOfForest label crumbs (tree :: (before.reverse ++ left)) after := by
  induction before generalizing left with
  | nil => exact ⟨[], rfl, by rw [List.nil_append, listingOfForest]; rfl⟩
  | cons first before ih =>
      obtain ⟨nodes, hnodes, hlisting⟩ := ih (first :: left)
      refine ⟨listingOf (⟨label, left, before ++ tree :: after⟩ :: crumbs) first ++ nodes, ?_, ?_⟩
      · rw [List.map_append, map_tree_listingOf, hnodes, Tree.preorderForest]
      · rw [List.cons_append, listingOfForest, hlisting]
        simp only [List.reverse_cons, List.append_assoc, List.singleton_append]

mutual

/-- The subtree of a node listed is a stretch of the listing. -/
theorem exists_listingOf_eq_append {crumbs : List Crumb} {tree : Tree} {node : Node}
    (hnode : node ∈ listingOf crumbs tree) :
    ∃ before after, listingOf crumbs tree = before ++ node.listing ++ after := by
  cases tree with
  | node label children =>
      rw [listingOf, List.mem_cons] at hnode
      rcases hnode with rfl | hnode
      · exact ⟨[], [], by rw [List.nil_append, List.append_nil, Node.listing]⟩
      · obtain ⟨before, after, hlisting⟩ := exists_listingOfForest_eq_append hnode
        refine ⟨⟨.node label children, crumbs⟩ :: before, after, ?_⟩
        rw [listingOf, hlisting, List.cons_append, List.cons_append]

theorem exists_listingOfForest_eq_append {label : Label} {crumbs : List Crumb}
    {left right : List Tree} {node : Node}
    (hnode : node ∈ listingOfForest label crumbs left right) :
    ∃ before after, listingOfForest label crumbs left right = before ++ node.listing ++ after := by
  cases right with
  | nil => simp [listingOfForest] at hnode
  | cons tree right =>
      rw [listingOfForest, List.mem_append] at hnode
      rcases hnode with hnode | hnode
      · obtain ⟨before, after, hlisting⟩ := exists_listingOf_eq_append hnode
        refine ⟨before, after ++ listingOfForest label crumbs (tree :: left) right, ?_⟩
        simp only [listingOfForest, hlisting, List.append_assoc]
      · obtain ⟨before, after, hlisting⟩ := exists_listingOfForest_eq_append hnode
        refine ⟨listingOf (⟨label, left, right⟩ :: crumbs) tree ++ before, after, ?_⟩
        simp only [listingOfForest, hlisting, List.append_assoc]

end

theorem exists_listing_eq_append {start node : Node} (hnode : node ∈ start.listing) :
    ∃ before after, start.listing = before ++ node.listing ++ after :=
  exists_listingOf_eq_append hnode

/-! ### No node is listed twice -/

mutual

/-- The way up from a node listed goes through the start of the listing. -/
theorem suffix_of_mem_listingOf {crumbs : List Crumb} {tree : Tree} {node : Node}
    (hnode : node ∈ listingOf crumbs tree) : crumbs <:+ node.crumbs := by
  cases tree with
  | node label children =>
      rw [listingOf, List.mem_cons] at hnode
      rcases hnode with rfl | hnode
      · exact List.suffix_refl crumbs
      · obtain ⟨left, right, _, hsuffix⟩ := suffix_of_mem_listingOfForest hnode
        exact (List.suffix_cons _ crumbs).trans hsuffix

/-- Below a list of children it goes through one of them, not left of the first. -/
theorem suffix_of_mem_listingOfForest {label : Label} {crumbs : List Crumb}
    {left right : List Tree} {node : Node}
    (hnode : node ∈ listingOfForest label crumbs left right) :
    ∃ left' right', left.length ≤ left'.length ∧
      ⟨label, left', right'⟩ :: crumbs <:+ node.crumbs := by
  cases right with
  | nil => simp [listingOfForest] at hnode
  | cons tree right =>
      rw [listingOfForest, List.mem_append] at hnode
      rcases hnode with hnode | hnode
      · exact ⟨left, right, Nat.le_refl _, suffix_of_mem_listingOf hnode⟩
      · obtain ⟨left', right', hlength, hsuffix⟩ := suffix_of_mem_listingOfForest hnode
        exact ⟨left', right', by rw [List.length_cons] at hlength; omega, hsuffix⟩

end

mutual

theorem nodup_listingOf (crumbs : List Crumb) (tree : Tree) : (listingOf crumbs tree).Nodup := by
  cases tree with
  | node label children =>
      rw [listingOf, List.nodup_cons]
      refine ⟨?_, nodup_listingOfForest label crumbs [] children⟩
      intro hmem
      obtain ⟨left, right, _, hsuffix⟩ := suffix_of_mem_listingOfForest hmem
      have hlength : crumbs.length + 1 ≤ crumbs.length := hsuffix.length_le
      omega

theorem nodup_listingOfForest (label : Label) (crumbs : List Crumb) (left right : List Tree) :
    (listingOfForest label crumbs left right).Nodup := by
  cases right with
  | nil => exact List.nodup_nil
  | cons tree right =>
      rw [listingOfForest]
      refine List.Nodup.append (nodup_listingOf _ tree) (nodup_listingOfForest _ _ _ right) ?_
      intro node hhere hlater
      obtain ⟨left', right', hlength, hsuffix⟩ := suffix_of_mem_listingOfForest hlater
      -- both ways up end in as many crumbs, so they name the same siblings on the left
      have hsame := List.suffix_of_suffix_length_le (suffix_of_mem_listingOf hhere) hsuffix
        (by simp)
      have hcrumb := hsame.eq_of_length (by simp)
      simp only [List.cons.injEq, Crumb.mk.injEq] at hcrumb
      rw [← hcrumb.1.2.1, List.length_cons] at hlength
      omega

end

/-! ### The way of a cursor -/

namespace Cursor

/-- The nodes that follow the subtree `tree` in pre-order, up to the start node. -/
def following (outer : List Crumb) : Tree → List Crumb → List Node
  | _, [] => []
  | tree, crumb :: inner =>
    listingOfForest crumb.label (inner ++ outer) (tree :: crumb.left) crumb.right ++
      following outer (crumb.plug tree) inner

def remaining (cursor : Cursor) : List Node :=
  cursor.node.listing ++ following cursor.outer cursor.tree cursor.inner

theorem following_of_climb_eq_none {outer : List Crumb} {tree : Tree} {inner : List Crumb}
    (hclimb : climb outer tree inner = none) : following outer tree inner = [] := by
  induction inner generalizing tree with
  | nil => rfl
  | cons crumb inner ih =>
      obtain ⟨label, left, right⟩ := crumb
      cases right with
      | nil =>
          rw [climb] at hclimb
          rw [following, ih hclimb, listingOfForest, List.append_nil]
      | cons next right => simp [climb] at hclimb

theorem following_of_climb_eq_some {outer : List Crumb} {tree : Tree} {inner : List Crumb}
    {cursor : Cursor} (hclimb : climb outer tree inner = some cursor) :
    following outer tree inner = cursor.remaining := by
  induction inner generalizing tree with
  | nil => simp [climb] at hclimb
  | cons crumb inner ih =>
      obtain ⟨label, left, right⟩ := crumb
      cases right with
      | nil =>
          rw [climb] at hclimb
          rw [following, ih hclimb, listingOfForest, List.nil_append]
      | cons next right =>
          rw [climb, Option.some.injEq] at hclimb
          subst hclimb
          rw [following, listingOfForest, remaining, following, List.append_assoc]
          congr 3
          simp [Crumb.plug]

/-- One move takes away the node at the position of the cursor, and nothing else. -/
theorem remaining_of_next_eq_some {cursor next : Cursor} (hnext : cursor.next = some next) :
    cursor.remaining = cursor.node :: next.remaining := by
  obtain ⟨⟨label, children⟩, inner, outer⟩ := cursor
  cases children with
  | nil =>
      have hclimb : climb outer (.node label []) inner = some next := by
        simpa [Cursor.next, Cursor.firstChild] using hnext
      rw [remaining, following_of_climb_eq_some hclimb]
      rfl
  | cons first others =>
      have hfirst : next = ⟨first, ⟨label, [], others⟩ :: inner, outer⟩ := by
        simpa [Cursor.next, Cursor.firstChild] using hnext.symm
      subst hfirst
      simp only [remaining, Cursor.node, Node.listing, following, listingOf, listingOfForest,
        List.cons_append, List.append_assoc, Crumb.plug, List.reverse_nil, List.nil_append]

theorem remaining_of_next_eq_none {cursor : Cursor} (hnext : cursor.next = none) :
    cursor.remaining = [cursor.node] := by
  obtain ⟨⟨label, children⟩, inner, outer⟩ := cursor
  cases children with
  | nil =>
      have hclimb : climb outer (.node label []) inner = none := by
        simpa [Cursor.next, Cursor.firstChild] using hnext
      rw [remaining, following_of_climb_eq_none hclimb]
      rfl
  | cons first others => simp [Cursor.next, Cursor.firstChild] at hnext

theorem collect_eq {test : Node → Bool} {count : Nat} {cursor : Cursor} {found : List Node}
    (hcount : cursor.remaining.length ≤ count) :
    cursor.collect test count found = found.reverse ++ cursor.remaining.filter test := by
  induction count generalizing cursor found with
  | zero =>
      have hempty : cursor.remaining = [] := List.eq_nil_of_length_eq_zero (by omega)
      rw [collect, hempty, List.filter_nil, List.append_nil]
  | succ count ih =>
      rw [collect]
      cases hnext : cursor.next with
      | none =>
          rw [remaining_of_next_eq_none hnext]
          by_cases htest : test cursor.node <;> simp [htest]
      | some next =>
          rw [remaining_of_next_eq_some hnext] at hcount ⊢
          have hcount' : next.remaining.length ≤ count := by
            rw [List.length_cons] at hcount
            omega
          simp only [ih hcount']
          by_cases htest : test cursor.node <;> simp [htest]

end Cursor

theorem remaining_ofNode (node : Node) : (Cursor.ofNode node).remaining = node.listing := by
  simp [Cursor.ofNode, Cursor.remaining, Cursor.node, Cursor.following]

/-- The search with a cursor is the filter of the listing in pre-order. -/
theorem findAll_eq_filter (node : Node) (test : Node → Bool) :
    node.findAll test = node.listing.filter test := by
  have hlength : node.listing.length = node.tree.size := length_listingOf node.crumbs node.tree
  have hfuel : (Cursor.ofNode node).remaining.length ≤ node.tree.size :=
    Nat.le_of_eq ((congrArg List.length (remaining_ofNode node)).trans hlength)
  rw [Node.findAll, Cursor.collect_eq hfuel, remaining_ofNode]
  rfl

end StoryKnobs.Syntax

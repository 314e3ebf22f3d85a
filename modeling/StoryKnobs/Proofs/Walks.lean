import StoryKnobs.Grammar.Program
import StoryKnobs.Proofs.Subtrees
import StoryKnobs.Syntax.Walk

/-!
# Searches come to an end

Each step of a search brings it nearer to its end by exactly one and keeps what it is going to
return: the nodes found so far, and the matches among those still to come. So a search looks at
every node of its subtree once, leaves every node once, and returns after these steps.
-/

namespace StoryKnobs.Syntax

namespace Cursor

def whole (cursor : Cursor) : Tree :=
  cursor.inner.foldl (fun tree crumb => crumb.plug tree) cursor.tree

structure Within (cursor : Cursor) (node : Node) : Prop where
  tree : cursor.whole = node.tree
  crumbs : cursor.outer = node.crumbs

theorem Within.below {cursor : Cursor} {node : Node} (hwithin : cursor.Within node) :
    cursor.node.Below node := by
  obtain ⟨tree, inner, outer⟩ := cursor
  induction inner generalizing tree with
  | nil =>
      obtain ⟨htree, hcrumbs⟩ := hwithin
      have hnode : Cursor.node ⟨tree, [], outer⟩ = node := congrArg₂ Node.mk htree hcrumbs
      rw [hnode]
      exact .refl
  | cons crumb inner ih =>
      have habove : Cursor.Within ⟨crumb.plug tree, inner, outer⟩ node :=
        ⟨hwithin.tree, hwithin.crumbs⟩
      exact .head rfl (ih _ habove)

/-- The steps to come once a position has been left. -/
def stepsAbove : List Crumb → Nat
  | [] => 0
  | crumb :: inner => 2 * Tree.sizeForest crumb.right + 1 + stepsAbove inner

end Cursor

namespace Walk

variable {test : Node → Bool} {walk next : Walk} {node : Node}

/-! ### Steps -/

/-- What a step can be: down to a first child, back from a node without children, across to a
sibling, up to the parent of a last child, or to the end at the start node. -/
inductive Step (test : Node → Bool) : Walk → Walk → Prop where
  | down (label : Label) (first : Tree) (others : List Tree) (inner outer : List Crumb)
      (found : List Node) :
      Step test (arriving ⟨.node label (first :: others), inner, outer⟩ found)
        (arriving ⟨first, ⟨label, [], others⟩ :: inner, outer⟩
          (found ++ [⟨.node label (first :: others), inner ++ outer⟩].filter test))
  | back (label : Label) (inner outer : List Crumb) (found : List Node) :
      Step test (arriving ⟨.node label [], inner, outer⟩ found)
        (leaving ⟨.node label [], inner, outer⟩
          (found ++ [⟨.node label [], inner ++ outer⟩].filter test))
  | across (tree sibling : Tree) (label : Label) (left right : List Tree)
      (inner outer : List Crumb) (found : List Node) :
      Step test (leaving ⟨tree, ⟨label, left, sibling :: right⟩ :: inner, outer⟩ found)
        (arriving ⟨sibling, ⟨label, tree :: left, right⟩ :: inner, outer⟩ found)
  | up (tree : Tree) (label : Label) (left : List Tree) (inner outer : List Crumb)
      (found : List Node) :
      Step test (leaving ⟨tree, ⟨label, left, []⟩ :: inner, outer⟩ found)
        (leaving ⟨Crumb.plug ⟨label, left, []⟩ tree, inner, outer⟩ found)
  | finish (tree : Tree) (outer : List Crumb) (found : List Node) :
      Step test (leaving ⟨tree, [], outer⟩ found) (returned found)

theorem step_cases (test : Node → Bool) (walk : Walk) :
    (∃ found, walk = returned found) ∨ Step test walk (walk.step test) := by
  have hlook (node : Node) (found : List Node) :
      (if test node then found ++ [node] else found) = found ++ [node].filter test := by
    by_cases htest : test node = true <;> simp [htest]
  cases walk with
  | arriving cursor found =>
      obtain ⟨⟨label, children⟩, inner, outer⟩ := cursor
      right
      cases children with
      | nil =>
          have hstep : Step test _ _ := .back label inner outer found
          rw [← hlook] at hstep
          exact hstep
      | cons first others =>
          have hstep : Step test _ _ := .down label first others inner outer found
          rw [← hlook] at hstep
          exact hstep
  | leaving cursor found =>
      obtain ⟨tree, inner, outer⟩ := cursor
      right
      cases inner with
      | nil => exact .finish tree outer found
      | cons crumb inner =>
          obtain ⟨label, left, right⟩ := crumb
          cases right with
          | nil => exact .up tree label left inner outer found
          | cons sibling right => exact .across tree sibling label left right inner outer found
  | returned found => exact .inl ⟨found, rfl⟩

def stepsLeft : Walk → Nat
  | arriving cursor _ => 2 * cursor.tree.size + Cursor.stepsAbove cursor.inner
  | leaving cursor _ => Cursor.stepsAbove cursor.inner + 1
  | returned _ => 0

def outcome (test : Node → Bool) : Walk → List Node
  | arriving cursor found => found ++ cursor.remaining.filter test
  | leaving cursor found =>
    found ++ (Cursor.following cursor.outer cursor.tree cursor.inner).filter test
  | returned found => found

def Stays (node : Node) (walk : Walk) : Prop :=
  ∀ cursor, walk.cursor? = some cursor → cursor.Within node

theorem Step.stepsLeft_eq (hstep : Step test walk next) : next.stepsLeft + 1 = walk.stepsLeft := by
  cases hstep <;>
    simp only [stepsLeft, Cursor.stepsAbove, Tree.size, Tree.sizeForest] <;> omega

theorem Step.outcome_eq (hstep : Step test walk next) : next.outcome test = walk.outcome test := by
  cases hstep with
  | down label first others inner outer found =>
      have hremaining : (Cursor.mk (.node label (first :: others)) inner outer).remaining =
          [⟨.node label (first :: others), inner ++ outer⟩] ++
            (Cursor.mk first (⟨label, [], others⟩ :: inner) outer).remaining :=
        Cursor.remaining_of_next_eq_some rfl
      rw [outcome, outcome, hremaining, List.filter_append, List.append_assoc]
  | back label inner outer found =>
      have hremaining : (Cursor.mk (.node label []) inner outer).remaining =
          [⟨.node label [], inner ++ outer⟩] ++ Cursor.following outer (.node label []) inner := rfl
      rw [outcome, outcome, hremaining, List.filter_append, List.append_assoc]
  | across tree sibling label left right inner outer found =>
      have hclimb : Cursor.climb outer tree (⟨label, left, sibling :: right⟩ :: inner) =
          some ⟨sibling, ⟨label, tree :: left, right⟩ :: inner, outer⟩ := rfl
      rw [outcome, outcome, Cursor.following_of_climb_eq_some hclimb]
  | up tree label left inner outer found =>
      rw [outcome, outcome, Cursor.following, listingOfForest, List.nil_append]
  | finish tree outer found =>
      rw [outcome, outcome, Cursor.following, List.filter_nil, List.append_nil]

theorem Step.stays (hstep : Step test walk next) (hstays : walk.Stays node) : next.Stays node := by
  intro cursor hcursor
  cases hstep with
  | across tree sibling label left right inner outer found =>
      obtain ⟨htree, hcrumbs⟩ := hstays _ rfl
      cases hcursor
      refine ⟨?_, hcrumbs⟩
      rw [← htree, Cursor.whole, Cursor.whole, List.foldl_cons, List.foldl_cons]
      simp [Crumb.plug]
  | finish tree outer found => cases hcursor
  | _ =>
      -- Up or down the crumbs, the tree at the start node is the same by definition.
      obtain ⟨htree, hcrumbs⟩ := hstays _ rfl
      cases hcursor
      exact ⟨htree, hcrumbs⟩

/-! ### Runs -/

theorem stepsLeft_run (count : Nat) (walk : Walk) :
    (walk.run test count).stepsLeft = walk.stepsLeft - count := by
  induction count generalizing walk with
  | zero => rfl
  | succ count ih =>
      rw [run, ih]
      rcases step_cases test walk with ⟨found, rfl⟩ | hstep
      · simp [step, stepsLeft]
      · have hsteps := hstep.stepsLeft_eq
        omega

theorem outcome_run (count : Nat) (walk : Walk) :
    (walk.run test count).outcome test = walk.outcome test := by
  induction count generalizing walk with
  | zero => rfl
  | succ count ih =>
      rw [run, ih]
      rcases step_cases test walk with ⟨found, rfl⟩ | hstep
      · rfl
      · exact hstep.outcome_eq

theorem Stays.run (hstays : walk.Stays node) (count : Nat) : (walk.run test count).Stays node := by
  induction count generalizing walk with
  | zero => exact hstays
  | succ count ih =>
      rw [Walk.run]
      apply ih
      rcases step_cases test walk with ⟨found, rfl⟩ | hstep
      · exact hstays
      · exact hstep.stays hstays

theorem stays_start (node : Node) : (start node).Stays node := by
  intro cursor hcursor
  cases hcursor
  exact ⟨rfl, rfl⟩

theorem exists_of_stepsLeft_eq_zero (hsteps : walk.stepsLeft = 0) :
    ∃ found, walk = returned found := by
  cases walk with
  | arriving cursor found =>
      obtain ⟨⟨label, children⟩, inner, outer⟩ := cursor
      simp only [stepsLeft, Tree.size] at hsteps
      omega
  | leaving cursor found => cases hsteps
  | returned found => exact ⟨found, rfl⟩

/-- A search returns once it has looked at every node of its subtree and left every one of them. -/
theorem run_start_eq_returned_iff {count : Nat} {found : List Node} :
    (start node).run test count = returned found ↔
      2 * node.tree.size ≤ count ∧ found = node.findAll test := by
  have hsteps : ((start node).run test count).stepsLeft = 2 * node.tree.size - count :=
    stepsLeft_run count (start node)
  have houtcome : ((start node).run test count).outcome test = node.findAll test := by
    rw [outcome_run, findAll_eq_filter, ← remaining_ofNode]
    exact List.nil_append _
  constructor
  · intro hrun
    rw [hrun] at hsteps houtcome
    exact ⟨Nat.sub_eq_zero_iff_le.mp hsteps.symm, houtcome⟩
  · rintro ⟨hcount, rfl⟩
    obtain ⟨found, hrun⟩ :=
      exists_of_stepsLeft_eq_zero (hsteps.trans (Nat.sub_eq_zero_of_le hcount))
    rw [hrun] at houtcome ⊢
    exact congrArg returned houtcome

/-- **A search finds the matches in a subtree and stays in it.** From any node, it returns after two
steps for each node of the subtree, and no sooner. Until then its cursor is in the subtree, and it
finds the matching nodes of the listing in pre-order, each of them once: those from which going up
leads to the start. In a tree in order they are found as they start. -/
theorem search_of_subtree (node : Node) (test : Node → Bool) :
    (∀ count found, (start node).run test count = returned found ↔
      2 * node.tree.size ≤ count ∧ found = node.findAll test) ∧
    (∀ count cursor, ((start node).run test count).cursor? = some cursor →
      cursor.node.Below node) ∧
    node.findAll test = node.listing.filter test ∧
    (∀ inside : Node, inside.listing = inside :: inside.children.flatMap Node.listing) ∧
    (node.findAll test).Nodup ∧
    (∀ inside, inside ∈ node.findAll test ↔ inside.Below node ∧ test inside = true) ∧
    (node.tree.InOrder →
      (node.findAll test).Pairwise fun first second => first.span.start ≤ second.span.start) := by
  rw [findAll_eq_filter]
  refine ⟨?_, ?_, rfl, listing_eq, (nodup_listingOf _ _).filter test, ?_, ?_⟩
  · intro count found
    rw [← findAll_eq_filter]
    exact run_start_eq_returned_iff
  · intro count cursor hcursor
    exact ((stays_start node).run count cursor hcursor).below
  · intro inside
    rw [List.mem_filter, mem_listing_iff_below]
  · intro horder
    exact (pairwise_start_listing horder).filter test

/-- The tree of a source can be in order. -/
theorem numbers_of_class_in_order :
    let root := Node.root (Grammar.parse "class A { b = [1, 2]; }" false)
    root.tree.InOrder ∧ (root.findAll fun node => node.kind == "number").Pairwise
      fun first second => first.span.start ≤ second.span.start := by
  intro root
  have horder : root.tree.InOrder := by decide +kernel
  obtain ⟨-, -, -, -, -, -, hstarts⟩ :=
    search_of_subtree root fun node => node.kind == "number"
  exact ⟨horder, hstarts horder⟩

end Walk

end StoryKnobs.Syntax

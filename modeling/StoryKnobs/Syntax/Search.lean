import StoryKnobs.Syntax.Node

/-!
# Searching a subtree

`Node.listing` lists the nodes of a subtree in pre-order by recursion on the tree. `Node.findAll`
visits the same nodes with a cursor that moves to a first child, a next sibling or a parent and
never leaves the subtree it started from.
-/

namespace StoryKnobs.Syntax

mutual

/-- The nodes of `tree` in pre-order, where `crumbs` lead from `tree` up to the root. -/
def listingOf (crumbs : List Crumb) : Tree → List Node
  | .node label children =>
    ⟨.node label children, crumbs⟩ :: listingOfForest label crumbs [] children

def listingOfForest (label : Label) (crumbs : List Crumb) : List Tree → List Tree → List Node
  | _, [] => []
  | left, tree :: right =>
    listingOf (⟨label, left, right⟩ :: crumbs) tree ++
      listingOfForest label crumbs (tree :: left) right

end

/-- The nodes of the subtree at `node`, itself first, in pre-order. -/
def Node.listing (node : Node) : List Node :=
  listingOf node.crumbs node.tree

/-- A position inside the subtree of a start node: the crumbs up to the start node, and those from
there up to the root. -/
structure Cursor where
  tree : Tree
  inner : List Crumb
  outer : List Crumb
deriving Repr, Inhabited

namespace Cursor

def ofNode (node : Node) : Cursor := ⟨node.tree, [], node.crumbs⟩

def node (cursor : Cursor) : Node := ⟨cursor.tree, cursor.inner ++ cursor.outer⟩

def firstChild : Cursor → Option Cursor
  | ⟨.node _ [], _, _⟩ => none
  | ⟨.node label (tree :: trees), inner, outer⟩ => some ⟨tree, ⟨label, [], trees⟩ :: inner, outer⟩

/-- The next sibling of the nearest position on the way up to the start node that has one. -/
def climb (outer : List Crumb) : Tree → List Crumb → Option Cursor
  | _, [] => none
  | tree, ⟨label, left, next :: right⟩ :: inner =>
    some ⟨next, ⟨label, tree :: left, right⟩ :: inner, outer⟩
  | tree, ⟨label, left, []⟩ :: inner => climb outer (Crumb.plug ⟨label, left, []⟩ tree) inner

def next (cursor : Cursor) : Option Cursor :=
  match cursor.firstChild with
  | some child => some child
  | none => climb cursor.outer cursor.tree cursor.inner

/-- Visits at most `count` positions from `cursor` on and lists the nodes that satisfy `test`. -/
def collect (test : Node → Bool) : Nat → Cursor → List Node → List Node
  | 0, _, found => found.reverse
  | count + 1, cursor, found =>
    let found := if test cursor.node then cursor.node :: found else found
    match cursor.next with
    | some cursor => collect test count cursor found
    | none => found.reverse

end Cursor

namespace Node

/-- The nodes of the subtree at `node` that satisfy `test`, in the order a cursor meets them. -/
def findAll (node : Node) (test : Node → Bool) : List Node :=
  (Cursor.ofNode node).collect test node.tree.size []

def findKind (node : Node) (kind : String) : List Node :=
  node.findAll (·.kind == kind)

end Node

end StoryKnobs.Syntax

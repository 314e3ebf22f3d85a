import StoryKnobs.Syntax.Tree

/-!
# Nodes located in their tree

A located node is a subtree together with the way back up to the root: for each ancestor its
label and the siblings left and right of the way. Moving to a parent, a child or a sibling keeps
the whole tree at hand.
-/

namespace StoryKnobs.Syntax

/-- One step of the way from a node up to its parent. The siblings on the left are listed from
the nearest to the farthest. -/
structure Crumb where
  label : Label
  left : List Tree
  right : List Tree
deriving DecidableEq, Repr, Inhabited

def Crumb.plug (crumb : Crumb) (tree : Tree) : Tree :=
  .node crumb.label (crumb.left.reverse ++ tree :: crumb.right)

/-- A subtree and the way from it up to the root of the whole tree. -/
structure Node where
  tree : Tree
  crumbs : List Crumb
deriving DecidableEq, Repr, Inhabited

namespace Node

def root (tree : Tree) : Node := ⟨tree, []⟩

def kind (node : Node) : String := node.tree.kind

def named (node : Node) : Bool := node.tree.named

def span (node : Node) : Span := node.tree.span

def parent : Node → Option Node
  | ⟨_, []⟩ => none
  | ⟨tree, crumb :: crumbs⟩ => some ⟨crumb.plug tree, crumbs⟩

def firstChild : Node → Option Node
  | ⟨.node _ [], _⟩ => none
  | ⟨.node label (tree :: trees), crumbs⟩ => some ⟨tree, ⟨label, [], trees⟩ :: crumbs⟩

def nextSibling : Node → Option Node
  | ⟨_, []⟩ => none
  | ⟨_, ⟨_, _, []⟩ :: _⟩ => none
  | ⟨tree, ⟨label, left, next :: right⟩ :: crumbs⟩ =>
    some ⟨next, ⟨label, tree :: left, right⟩ :: crumbs⟩

/-- Walks over the siblings on the right, given the siblings passed so far. -/
def siblingsFrom (label : Label) (crumbs : List Crumb) : List Tree → List Tree → List Node
  | _, [] => []
  | left, tree :: right =>
    ⟨tree, ⟨label, left, right⟩ :: crumbs⟩ :: siblingsFrom label crumbs (tree :: left) right

def children (node : Node) : List Node :=
  siblingsFrom node.tree.label node.crumbs [] node.tree.children

def nextSiblings : Node → List Node
  | ⟨_, []⟩ => []
  | ⟨tree, ⟨label, left, right⟩ :: crumbs⟩ =>
    siblingsFrom label crumbs (tree :: left) right

def childByField (node : Node) (name : String) : Option Node :=
  node.children.find? (·.tree.field == some name)

def firstNamedChild (node : Node) : Option Node :=
  node.children.find? fun child => child.named && !child.tree.isComment

end Node

end StoryKnobs.Syntax

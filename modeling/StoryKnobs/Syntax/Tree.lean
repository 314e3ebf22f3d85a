/-!
# Syntax trees

A tree of labelled nodes over a source text. Each node has a kind, a byte range, and possibly the
name of the field it fills in its parent. Rules of the grammar give named nodes; keywords and
punctuation marks give unnamed ones, whose kind is their own text.
-/

namespace StoryKnobs.Syntax

structure Span where
  start : Nat
  stop : Nat
deriving DecidableEq, Repr, Inhabited

/-- What a node says about itself, apart from its children. -/
structure Label where
  kind : String
  named : Bool
  span : Span
  field : Option String := none
deriving DecidableEq, Repr, Inhabited

inductive Tree where
  | node (label : Label) (children : List Tree)
deriving Repr, Inhabited

namespace Tree

mutual

def decEq : (tree other : Tree) → Decidable (tree = other)
  | node label children, node label' children' =>
    if hlabel : label = label' then
      match decEqForest children children' with
      | isTrue hchildren => isTrue (by rw [hlabel, hchildren])
      | isFalse hchildren => isFalse fun heq => hchildren (Tree.node.inj heq).2
    else isFalse fun heq => hlabel (Tree.node.inj heq).1

def decEqForest : (trees others : List Tree) → Decidable (trees = others)
  | [], [] => isTrue rfl
  | [], _ :: _ => isFalse (by simp)
  | _ :: _, [] => isFalse (by simp)
  | tree :: trees, other :: others =>
    match decEq tree other, decEqForest trees others with
    | isTrue htree, isTrue htrees => isTrue (by rw [htree, htrees])
    | isFalse htree, _ => isFalse fun heq => htree (List.cons.inj heq).1
    | _, isFalse htrees => isFalse fun heq => htrees (List.cons.inj heq).2

end

instance : DecidableEq Tree := decEq

def label : Tree → Label
  | node label _ => label

def children : Tree → List Tree
  | node _ children => children

def kind (tree : Tree) : String := tree.label.kind

def named (tree : Tree) : Bool := tree.label.named

def span (tree : Tree) : Span := tree.label.span

def field (tree : Tree) : Option String := tree.label.field

def leaf (kind : String) (named : Bool) (span : Span) : Tree :=
  node ⟨kind, named, span, none⟩ []

def withField (tree : Tree) (name : String) : Tree :=
  node { tree.label with field := some name } tree.children

def withKind (tree : Tree) (kind : String) : Tree :=
  node { tree.label with kind } tree.children

def commentKind : String := "comment"

/-- Kind of the comments that start with an opening markup bracket. -/
def markupCommentKind : String := "html_comment"

/-- Kind of the stretches of text that fit no rule of the grammar. -/
def errorKind : String := "ERROR"

def isComment (tree : Tree) : Bool := tree.kind == commentKind

/-- Comments may stand between any two tokens and take no part in a rule. -/
def isExtra (tree : Tree) : Bool := tree.isComment || tree.kind == markupCommentKind

mutual

def size : Tree → Nat
  | node _ children => sizeForest children + 1

def sizeForest : List Tree → Nat
  | [] => 0
  | tree :: trees => size tree + sizeForest trees

end

mutual

/-- All subtrees of a tree, itself first, then those of its children from left to right. -/
def preorder : Tree → List Tree
  | node label children => node label children :: preorderForest children

def preorderForest : List Tree → List Tree
  | [] => []
  | tree :: trees => preorder tree ++ preorderForest trees

end

/-- A token that the text lacks takes up no text. -/
def isMissing (tree : Tree) : Bool := !tree.named && tree.span.start == tree.span.stop

/-- Whether the text under a tree follows the grammar only after a repair: some part of it fits no
rule, or a token had to be supplied. -/
def hasError (tree : Tree) : Bool :=
  tree.preorder.any fun part => part.kind == errorKind || part.isMissing

end Tree

end StoryKnobs.Syntax

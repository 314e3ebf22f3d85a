import StoryKnobs.Syntax.Search

/-!
# Searches step by step

A search moves its cursor to the first child of a position, or else up until there is a next
sibling. It is at an end where it can go up no more, which is at the node that it started from.
-/

namespace StoryKnobs.Syntax

namespace Cursor

def nextSibling : Cursor → Option Cursor
  | ⟨_, [], _⟩ => none
  | ⟨_, ⟨_, _, []⟩ :: _, _⟩ => none
  | ⟨tree, ⟨label, left, next :: right⟩ :: inner, outer⟩ =>
    some ⟨next, ⟨label, tree :: left, right⟩ :: inner, outer⟩

/-- The position above, which is never above the start node. -/
def parent : Cursor → Option Cursor
  | ⟨_, [], _⟩ => none
  | ⟨tree, crumb :: inner, outer⟩ => some ⟨crumb.plug tree, inner, outer⟩

end Cursor

/-- What a search is about to do, and what it has found. -/
inductive Walk where
  /-- The subtree at the cursor comes next. -/
  | arriving (cursor : Cursor) (found : List Node)
  /-- The subtree at the cursor is done. -/
  | leaving (cursor : Cursor) (found : List Node)
  | returned (found : List Node)
deriving Repr, Inhabited

namespace Walk

def start (node : Node) : Walk := arriving (Cursor.ofNode node) []

def cursor? : Walk → Option Cursor
  | arriving cursor _ => some cursor
  | leaving cursor _ => some cursor
  | returned _ => none

variable (test : Node → Bool)

/-- One look at a node, or one attempt to go on from it. -/
def step : Walk → Walk
  | arriving cursor found =>
    let found := if test cursor.node then found ++ [cursor.node] else found
    match cursor.firstChild with
    | some child => arriving child found
    | none => leaving cursor found
  | leaving cursor found =>
    match cursor.nextSibling with
    | some sibling => arriving sibling found
    | none =>
      match cursor.parent with
      | some parent => leaving parent found
      | none => returned found
  | returned found => returned found

def run : Nat → Walk → Walk
  | 0, walk => walk
  | count + 1, walk => run count (walk.step test)

end Walk

end StoryKnobs.Syntax

import StoryKnobs.Proofs.Markers

/-!
# Declarations and aliases

What a member declares and what a decorator names depend on their subtrees alone: the children that
fill certain fields, and the first node of kind `string`.
-/

namespace StoryKnobs

open Syntax

namespace Syntax

namespace Tree

def child? (tree : Tree) (name : String) : Option Tree :=
  tree.children.find? (·.field == some name)

def firstNamed? (tree : Tree) : Option Tree :=
  tree.children.find? fun child => child.named && !child.isComment

def firstString? (tree : Tree) : Option Tree := tree.preorder.find? (·.kind == "string")

end Tree

namespace Node

theorem map_tree_siblingsFrom (label : Label) (crumbs : List Crumb) (left right : List Tree) :
    (siblingsFrom label crumbs left right).map Node.tree = right := by
  induction right generalizing left with
  | nil => rfl
  | cons tree right ih => rw [siblingsFrom, List.map_cons, ih]

theorem map_tree_children (node : Node) : node.children.map Node.tree = node.tree.children :=
  map_tree_siblingsFrom _ _ _ _

theorem map_tree_childByField (node : Node) (name : String) :
    (node.childByField name).map Node.tree = node.tree.child? name := by
  rw [Tree.child?, ← map_tree_children, List.find?_map]
  rfl

theorem map_tree_firstNamedChild (node : Node) :
    node.firstNamedChild.map Node.tree = node.tree.firstNamed? := by
  rw [Tree.firstNamed?, ← map_tree_children, List.find?_map]
  rfl

end Node

end Syntax

namespace Source

variable {source : Source}

theorem declarationOf?_eq (source : Source) (member : Node) :
    source.declarationOf? member = (member.tree.child? "name").map fun name => {
      name := source.treeText name
      typeName := ((member.tree.child? (typeField member.kind)).bind Tree.firstNamed?).map
        source.treeText
      initializer := (member.tree.child? "value").map fun value =>
        ⟨.ofNodeKind value.kind, source.treeText value⟩ } := by
  have htype : ((member.childByField (typeField member.kind)).bind Node.firstNamedChild).map
      source.textOf = ((member.tree.child? (typeField member.kind)).bind Tree.firstNamed?).map
        source.treeText := by
    rw [← Node.map_tree_childByField]
    cases member.childByField (typeField member.kind) with
    | none => rfl
    | some annotation =>
        rw [Option.map_some, Option.bind_some, Option.bind_some, ← Node.map_tree_firstNamedChild,
          Option.map_map]
        rfl
  have hvalue : (member.childByField "value").map (fun value =>
      (⟨.ofNodeKind value.kind, source.textOf value⟩ : Initializer)) =
        (member.tree.child? "value").map fun value =>
          ⟨.ofNodeKind value.kind, source.treeText value⟩ := by
    rw [← Node.map_tree_childByField, Option.map_map]
    rfl
  rw [← Node.map_tree_childByField member "name", ← htype, ← hvalue, declarationOf?]
  cases member.childByField "name" with
  | none => rfl
  | some name => rfl

/-! ### What a decorator names -/

/-- The text `body` between two quotes of the same sort. -/
def Quotes (text body : String) : Prop :=
  ∃ quote, (quote = '\'' ∨ quote = '"') ∧ text.toList = quote :: (body.toList ++ [quote])

theorem unquote?_of_quotes {text body : String} (hquotes : Quotes text body) :
    unquote? text = if body = "" then none else some body := by
  obtain ⟨quote, hquote, htext⟩ := hquotes
  have hsize : quote.utf8Size = 1 := by
    rcases hquote with rfl | rfl <;> rfl
  have hbytes : text.utf8ByteSize - 1 = 1 + String.utf8Len body.toList := by
    rw [← String.utf8Len_toList, htext, String.utf8Len_cons, String.utf8Len_append,
      String.utf8Len_cons, String.utf8Len_nil, hsize]
    omega
  have hslice : Text.slice text 1 (text.utf8ByteSize - 1) = some body := by
    have hparts : text.toList = [quote] ++ body.toList ++ [quote] := by
      rw [htext, List.singleton_append, List.cons_append]
    have hfound := Text.slice_of_toList_eq hparts
    rw [String.utf8Len_cons, String.utf8Len_nil, hsize, Nat.zero_add, String.ofList_toList]
      at hfound
    rw [hbytes, hfound]
  rw [unquote?, hslice]
  by_cases hempty : body = ""
  · subst hempty
    rfl
  · simp [hempty]

theorem aliasOf?_eq (source : Source) (decorator : Node) :
    source.aliasOf? decorator =
      decorator.tree.firstString?.bind fun literal => unquote? (source.treeText literal) := by
  rw [aliasOf?, Node.findKind, findAll_eq_filter, List.head?_filter, Tree.firstString?,
    ← map_tree_listingOf decorator.crumbs decorator.tree, List.find?_map]
  change _ = (Option.map Node.tree (decorator.listing.find? (·.kind == "string"))).bind _
  rw [Option.bind_map]
  rfl

end Source

end StoryKnobs

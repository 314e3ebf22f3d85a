import StoryKnobs.Proofs.Siblings

/-!
# Members and their decorators

A decorator belongs to the field or method that it is a child of, or to the method behind it in a
class body. Seen from a method in a class body, its decorators are those among its children and
those before it, back to the nearest named sibling that is neither a decorator nor a comment. So
nothing that stands before another member, or in another class, belongs to it.
-/

namespace StoryKnobs

open Syntax

namespace Syntax.Node

def aboveOf : Tree → List Crumb → List Node
  | _, [] => []
  | tree, crumb :: crumbs => ⟨crumb.plug tree, crumbs⟩ :: aboveOf (crumb.plug tree) crumbs

def above (node : Node) : List Node := aboveOf node.tree node.crumbs

def classBody? (node : Node) : Option Node := node.above.find? (·.kind == "class_body")

def nextNamedSibling (node : Node) : Option Node := node.nextSiblings.find? Node.named

theorem above_eq_cons {node parent : Node} (hparent : node.parent = some parent) :
    node.above = parent :: parent.above := by
  obtain ⟨tree, crumbs⟩ := node
  cases crumbs with
  | nil => cases hparent
  | cons crumb crumbs =>
      obtain rfl : (⟨crumb.plug tree, crumbs⟩ : Node) = parent := Option.some.inj hparent
      rfl

theorem classBody?_eq_some {node body : Node} (hparent : node.parent = some body)
    (hclass : body.kind = "class_body") : node.classBody? = some body := by
  rw [classBody?, above_eq_cons hparent, List.find?_cons, hclass]
  rfl

theorem classBody?_eq_of_parent {node parent : Node} (hparent : node.parent = some parent)
    (hclass : parent.kind ≠ "class_body") : node.classBody? = parent.classBody? := by
  rw [classBody?, above_eq_cons hparent, List.find?_cons, beq_eq_false_iff_ne.mpr hclass]
  rfl

theorem parent_ne_self (node : Node) : node.parent ≠ some node := by
  intro hparent
  have habove := congrArg List.length (above_eq_cons hparent)
  rw [List.length_cons] at habove
  omega

end Syntax.Node

namespace Source

/-! ### The scan over the siblings -/

/-- The scan for a method as a loop that goes on from one named sibling to the next. It is given up
when it has not ended after `turns` turns. -/
def scan : Nat → Option Node → Option (Option Node)
  | _, none => some none
  | 0, some _ => none
  | turns + 1, some node =>
    if isPassed node.tree.label then scan turns node.nextNamedSibling
    else some (if isMethod node.tree.label then some node else none)

/-- Each turn of the scan uses up one of the siblings on the right. -/
theorem scan_eq {node : Node} {turns : Nat} (hturns : node.nextSiblings.length ≤ turns) :
    scan turns node.nextNamedSibling =
      some (methodAfter (node.nextSiblings.filter Node.named)) := by
  induction turns generalizing node with
  | zero =>
      have hnil : node.nextSiblings = [] := List.eq_nil_of_length_eq_zero (by omega)
      rw [Node.nextNamedSibling, hnil]
      rfl
  | succ turns ih =>
      cases hnext : node.nextNamedSibling with
      | none =>
          have hunnamed : node.nextSiblings.filter Node.named = [] :=
            List.filter_eq_nil_iff.mpr (List.find?_eq_none.mp hnext)
          rw [hunnamed]
          rfl
      | some sibling =>
          obtain ⟨hnamed, between, after, hsiblings, hbetween⟩ :=
            List.find?_eq_some_iff_append.mp hnext
          obtain ⟨-, hafter⟩ := Node.nextSiblings_of_eq_append_cons hsiblings
          have hfilter : node.nextSiblings.filter Node.named =
              sibling :: sibling.nextSiblings.filter Node.named := by
            have hunnamed : between.filter Node.named = [] :=
              List.filter_eq_nil_iff.mpr (by simpa using hbetween)
            rw [hsiblings, List.filter_append, hunnamed, List.nil_append,
              List.filter_cons_of_pos hnamed, hafter]
          have hlength : sibling.nextSiblings.length ≤ turns := by
            rw [hsiblings, List.length_append, List.length_cons] at hturns
            rw [hafter]
            omega
          rw [hfilter, methodAfter_cons, scan, ih hlength]
          split_ifs
          · rfl
          · rfl
          · rfl

/-! ### The decorators of a member -/

def Holds (member decorator : Node) : Prop :=
  (member.kind = "public_field_definition" ∨ member.kind = "method_definition") ∧
    decorator ∈ member.children

/-- `decorator` stands before the method `method` in a class body, and the named siblings between
them are decorators and comments. The scan sees named nodes only, and a method is one like every
node that the grammar has a rule for. -/
def LeadsTo (decorator method : Node) : Prop :=
  method.kind = "method_definition" ∧ method.named = true ∧
    ∃ (body : Node) (before between after : List Node), body.kind = "class_body" ∧
      body.children = before ++ decorator :: (between ++ method :: after) ∧
      ∀ sibling ∈ between, sibling.named = true →
        sibling.kind = "decorator" ∨ sibling.kind = "comment"

theorem ne_class_of_member {kind : String}
    (hkind : kind = "public_field_definition" ∨ kind = "method_definition") :
    kind ≠ "class_body" := by
  rcases hkind with rfl | rfl
  · decide
  · decide

theorem memberOf?_of_parent {decorator parent : Node} (hparent : decorator.parent = some parent) :
    memberOf? decorator =
      if parent.kind = "public_field_definition" ∨ parent.kind = "method_definition" then
        some parent
      else if parent.kind = "class_body" then
        methodAfter (decorator.nextSiblings.filter Node.named)
      else none := by
  obtain ⟨tree, crumbs⟩ := decorator
  cases crumbs with
  | nil => cases hparent
  | cons crumb crumbs =>
      obtain rfl : (⟨crumb.plug tree, crumbs⟩ : Node) = parent := Option.some.inj hparent
      exact memberOf?_cons tree crumb crumbs

theorem memberOf?_of_class {decorator body : Node} (hparent : decorator.parent = some body)
    (hclass : body.kind = "class_body") :
    memberOf? decorator = methodAfter (decorator.nextSiblings.filter Node.named) := by
  rw [memberOf?_of_parent hparent, hclass]
  rfl

theorem leadsTo_iff {decorator method : Node} : LeadsTo decorator method ↔
    ∃ body, decorator.parent = some body ∧ body.kind = "class_body" ∧
      methodAfter (decorator.nextSiblings.filter Node.named) = some method := by
  simp only [methodAfter_named_eq_some_iff]
  constructor
  · rintro ⟨hkind, hnamed, body, before, between, after, hclass, hchildren, hbetween⟩
    obtain ⟨hparent, hsiblings⟩ := Node.children_eq_append_cons_iff.mp ⟨before, hchildren⟩
    exact ⟨body, hparent, hclass, hkind, hnamed, between, after, hsiblings, hbetween⟩
  · rintro ⟨body, hparent, hclass, hkind, hnamed, between, after, hsiblings, hbetween⟩
    obtain ⟨before, hchildren⟩ := Node.children_eq_append_cons_iff.mpr ⟨hparent, hsiblings⟩
    exact ⟨hkind, hnamed, body, before, between, after, hclass, hchildren, hbetween⟩

theorem memberOf?_eq_some_iff {decorator member : Node} :
    memberOf? decorator = some member ↔ Holds member decorator ∨ LeadsTo decorator member := by
  rw [Holds, Node.mem_children_iff, leadsTo_iff]
  cases hparent : decorator.parent with
  | none => simp [memberOf?, hparent]
  | some parent =>
      rw [memberOf?_of_parent hparent]
      simp only [Option.some.injEq, exists_eq_left']
      by_cases hholds : parent.kind = "public_field_definition" ∨ parent.kind = "method_definition"
      · have hclass : parent.kind ≠ "class_body" := ne_class_of_member hholds
        rw [if_pos hholds, Option.some.injEq]
        constructor
        · rintro rfl
          exact .inl ⟨hholds, rfl⟩
        · rintro (⟨-, rfl⟩ | ⟨hbody, -⟩)
          · rfl
          · exact absurd hbody hclass
      · rw [if_neg hholds]
        by_cases hclass : parent.kind = "class_body"
        · rw [if_pos hclass]
          constructor
          · exact fun hmethod => .inr ⟨hclass, hmethod⟩
          · rintro (⟨hmember, rfl⟩ | ⟨-, hmethod⟩)
            · exact absurd hmember hholds
            · exact hmethod
        · rw [if_neg hclass]
          constructor
          · intro hnone
            cases hnone
          · rintro (⟨hmember, rfl⟩ | ⟨hbody, -⟩)
            · exact absurd hmember hholds
            · exact absurd hbody hclass

theorem leadsTo_of_mem_run {body method decorator : Node} {before run after : List Node}
    (hclass : body.kind = "class_body") (hchildren : body.children = before ++ run ++ method :: after)
    (hkind : method.kind = "method_definition") (hnamed : method.named = true)
    (hrun : ∀ sibling ∈ run, sibling.named = true →
      sibling.kind = "decorator" ∨ sibling.kind = "comment")
    (hdecorator : decorator ∈ run) : LeadsTo decorator method := by
  obtain ⟨start, between, rfl⟩ := List.append_of_mem hdecorator
  refine ⟨hkind, hnamed, body, before ++ start, between, after, hclass, ?_, ?_⟩
  · simpa only [List.append_assoc, List.cons_append] using hchildren
  · intro sibling hsibling
    exact hrun sibling (List.mem_append_right _ (List.mem_cons_of_mem _ hsibling))

/-- What a decorator belongs to is in the same class as the decorator. -/
theorem classBody?_eq_of_memberOf? {decorator member : Node}
    (hmember : memberOf? decorator = some member) : decorator.classBody? = member.classBody? := by
  rcases memberOf?_eq_some_iff.mp hmember with ⟨hkind, hchild⟩ | hleads
  · exact Node.classBody?_eq_of_parent (Node.mem_children_iff.mp hchild) (ne_class_of_member hkind)
  · obtain ⟨-, -, body, before, between, after, hclass, hchildren, -⟩ := hleads
    have hdecorator : decorator ∈ body.children := by simp [hchildren]
    have hmethod : member ∈ body.children := by simp [hchildren]
    rw [Node.classBody?_eq_some (Node.mem_children_iff.mp hdecorator) hclass,
      Node.classBody?_eq_some (Node.mem_children_iff.mp hmethod) hclass]

/-- Between a decorator and a sibling that it belongs to stands no other member and no class. -/
theorem isPassed_of_memberOf? {decorator member body : Node} {before between after : List Node}
    (hmember : memberOf? decorator = some member)
    (hchildren : body.children = before ++ decorator :: (between ++ member :: after)) :
    ∀ sibling ∈ between, sibling.named = true →
      sibling.kind = "decorator" ∨ sibling.kind = "comment" := by
  obtain ⟨hparent, hsiblings⟩ := Node.children_eq_append_cons_iff.mp ⟨before, hchildren⟩
  obtain ⟨hsame, hafter⟩ := Node.nextSiblings_of_eq_append_cons hsiblings
  rcases memberOf?_eq_some_iff.mp hmember with ⟨-, hchild⟩ | hleads
  · -- the parent of a decorator is none of the siblings of the decorator
    have hself : member.parent = some member := by
      rw [hsame, Node.mem_children_iff.mp hchild]
    exact absurd hself (Node.parent_ne_self member)
  · obtain ⟨-, -, body', before', between', after', -, hchildren', hbetween'⟩ := hleads
    obtain ⟨-, hsiblings'⟩ := Node.children_eq_append_cons_iff.mp ⟨before', hchildren'⟩
    obtain ⟨-, hafter'⟩ := Node.nextSiblings_of_eq_append_cons hsiblings'
    have hlists : between ++ member :: after = between' ++ member :: after := by
      rw [← hsiblings, hsiblings', ← hafter, hafter']
    rwa [List.append_cancel_right hlists]

/-- **The decorators of a member.** A decorator belongs to a member just if the member is a field or
a method with the decorator among its children, or a method in a class body that the decorator leads
to. So a run of decorators and comments before a method leads to this method from each of its places,
a decorator belongs to a member of its own class with no other member or class in between, one that
stands in a class body itself never belongs to a field, and the scan over its siblings ends. -/
theorem decorators_of_member (member : Node) :
    (∀ decorator, memberOf? decorator = some member ↔
      Holds member decorator ∨ LeadsTo decorator member) ∧
    (∀ (body : Node) (before run after : List Node), body.kind = "class_body" →
      body.children = before ++ run ++ member :: after →
      member.kind = "method_definition" → member.named = true →
      (∀ sibling ∈ run, sibling.named = true →
        sibling.kind = "decorator" ∨ sibling.kind = "comment") →
      ∀ decorator ∈ run, memberOf? decorator = some member) ∧
    (∀ decorator, memberOf? decorator = some member →
      decorator.classBody? = member.classBody? ∧
      ∀ (body : Node) (before between after : List Node),
        body.children = before ++ decorator :: (between ++ member :: after) →
        ∀ other ∈ between, other.named = true →
          other.kind = "decorator" ∨ other.kind = "comment") ∧
    (∀ decorator body : Node, decorator.parent = some body → body.kind = "class_body" →
      (memberOf? decorator = some member → member.kind = "method_definition") ∧
      scan decorator.nextSiblings.length decorator.nextNamedSibling =
        some (memberOf? decorator)) := by
  refine ⟨fun decorator => memberOf?_eq_some_iff, ?_, ?_, ?_⟩
  · intro body before run after hclass hchildren hkind hnamed hrun decorator hdecorator
    exact memberOf?_eq_some_iff.mpr
      (.inr (leadsTo_of_mem_run hclass hchildren hkind hnamed hrun hdecorator))
  · intro decorator hmember
    exact ⟨classBody?_eq_of_memberOf? hmember,
      fun _ _ _ _ hchildren => isPassed_of_memberOf? hmember hchildren⟩
  · intro decorator body hparent hclass
    have hscan := memberOf?_of_class hparent hclass
    constructor
    · intro hmember
      rw [hscan] at hmember
      exact (methodAfter_named_eq_some_iff.mp hmember).1
    · rw [hscan]
      exact scan_eq (Nat.le_refl _)

def drawer : Source :=
  .parse ⟨"drawer.ts"⟩ "class A \x7b a = 1; @B() /* c */ @Input() m() \x7b\x7d \x7d"

def drawerBody : Node := (drawer.root.listing.find? (·.kind == "class_body")).getD drawer.root

def drawerPart (start stop : Nat) : List Node := (drawerBody.children.take stop).drop start

theorem decorators_of_member_drawer :
    ∃ method ∈ drawer.root.listing, method.kind = "method_definition" ∧
      (drawerPart 3 6).map Node.kind = ["decorator", "comment", "decorator"] ∧
      ∀ decorator ∈ drawerPart 3 6, memberOf? decorator = some method := by
  obtain ⟨⟨method, hmethod, hkind, hnamed, hchildren⟩, hclass, hkinds, hrun⟩ :
      (∃ method ∈ drawer.root.listing, method.kind = "method_definition" ∧ method.named = true ∧
        drawerBody.children = drawerPart 0 3 ++ drawerPart 3 6 ++ method :: drawerPart 7 8) ∧
      drawerBody.kind = "class_body" ∧
      (drawerPart 3 6).map Node.kind = ["decorator", "comment", "decorator"] ∧
      ∀ sibling ∈ drawerPart 3 6, sibling.named = true →
        sibling.kind = "decorator" ∨ sibling.kind = "comment" := by
    decide +kernel
  exact ⟨method, hmethod, hkind, hkinds,
    (decorators_of_member method).2.1 _ _ _ _ hclass hchildren hkind hnamed hrun⟩

end Source

end StoryKnobs

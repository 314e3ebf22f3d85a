import StoryKnobs.Proofs.Siblings

/-!
# The inputs of a class

A class body is a list of members between other trees without markers. A field holds its
decorators among its own children, a method or an accessor has them in front of it in the class
body. Either way the class body contributes the inputs of its members, in their order, and nothing
else.
-/

namespace StoryKnobs

open Syntax

structure Member where
  name : String
  /-- Text of the declared type, or of the result type of a method. -/
  typeName : Option String
  /-- Node kind and text of the initial value. -/
  initial : Option (String × String)
  /-- What the input decorator names, if there is one; the inner value is missing for `@Input()`. -/
  marker : Option (Option String)
deriving DecidableEq, Repr

namespace Member

/-- The declared type decides, then the node kind of the initial value. -/
def knob (member : Member) : Knob :=
  match member.typeName, member.initial with
  | some "string", _ => .text
  | some "number", _ => .number
  | some "boolean", _ => .boolean
  | some _, _ => .text
  | none, some ("number", _) => .number
  | none, some ("true", _) => .boolean
  | none, some ("false", _) => .boolean
  | none, _ => .text

/-- The initial value decides, then the declared type. -/
def defaultValue (member : Member) : Option String :=
  match member.initial, member.typeName with
  | some (_, text), _ => some text
  | none, some "string" => some "''"
  | none, some "number" => some "0"
  | none, some "boolean" => some "false"
  | none, some _ => none
  | none, none => some "''"

def input? (member : Member) : Option Input :=
  member.marker.map fun given => ⟨given.getD member.name, member.knob, member.defaultValue⟩

def declaration (member : Member) : Declaration where
  name := member.name
  typeName := member.typeName
  initializer := member.initial.map fun (kind, text) => ⟨.ofNodeKind kind, text⟩

theorem knob_declaration (member : Member) : member.declaration.knob = member.knob := by
  obtain ⟨name, typeName, initial, marker⟩ := member
  cases typeName with
  | some typeName =>
      by_cases hstring : typeName = "string"
      · subst hstring
        rfl
      by_cases hnumber : typeName = "number"
      · subst hnumber
        rfl
      by_cases hboolean : typeName = "boolean"
      · subst hboolean
        rfl
      · simp [declaration, Declaration.knob, Primitive.ofTypeName?, knob, hstring, hnumber,
          hboolean]
  | none =>
      cases initial with
      | none => rfl
      | some initial =>
          obtain ⟨kind, text⟩ := initial
          by_cases hstring : kind = "string"
          · subst hstring
            rfl
          by_cases hnumber : kind = "number"
          · subst hnumber
            rfl
          by_cases htrue : kind = "true"
          · subst htrue
            rfl
          by_cases hfalse : kind = "false"
          · subst hfalse
            rfl
          · simp [declaration, Declaration.knob, Literal.ofNodeKind, Literal.knob, knob, hstring,
              hnumber, htrue, hfalse]

theorem defaultValue_declaration (member : Member) :
    member.declaration.defaultValue = member.defaultValue := by
  obtain ⟨name, typeName, initial, marker⟩ := member
  cases initial with
  | some initial => rfl
  | none =>
      cases typeName with
      | none => rfl
      | some typeName =>
          by_cases hstring : typeName = "string"
          · subst hstring
            rfl
          by_cases hnumber : typeName = "number"
          · subst hnumber
            rfl
          by_cases hboolean : typeName = "boolean"
          · subst hboolean
            rfl
          · simp [declaration, Declaration.defaultValue, Primitive.ofTypeName?, defaultValue,
              hstring, hnumber, hboolean]

end Member

namespace Source

variable {source : Source}

/-! ### Trees of members -/

def Unmarked (source : Source) (trees : List Tree) : Prop :=
  ∀ part ∈ Tree.preorderForest trees, ¬ source.Marks part

instance (source : Source) (trees : List Tree) : Decidable (source.Unmarked trees) :=
  inferInstanceAs (Decidable (∀ _ ∈ _, _))

/-- A marker that names its input `given`, without another marker inside. -/
structure InputDecorator (source : Source) (given : Option String) (tree : Tree) : Prop where
  marks : source.Marks tree
  inside : source.Unmarked tree.children
  names : match given with
    | none => tree.firstString? = none
    | some name => name ≠ "" ∧
        ∃ literal, tree.firstString? = some literal ∧ Quotes (source.treeText literal) name

/-- Among the trees at most one holds markers, and this one is an input decorator. -/
def Decorated (source : Source) (marker : Option (Option String)) (trees : List Tree) : Prop :=
  match marker with
  | none => source.Unmarked trees
  | some given => ∃ before decorator after, trees = before ++ decorator :: after ∧
      source.Unmarked before ∧ source.InputDecorator given decorator ∧ source.Unmarked after

structure States (source : Source) (member : Member) (typeField : String) (tree : Tree) :
    Prop where
  name : (tree.child? "name").map source.treeText = some member.name
  type : ((tree.child? typeField).bind Tree.firstNamed?).map source.treeText = member.typeName
  initial : (tree.child? "value").map (fun value => (value.kind, source.treeText value)) =
    member.initial

structure FieldTree (source : Source) (member : Member) (tree : Tree) : Prop where
  kind : tree.kind = "public_field_definition"
  states : source.States member "type" tree
  decorated : source.Decorated member.marker tree.children

structure MethodTrees (source : Source) (member : Member) (lead : List Tree) (tree : Tree) :
    Prop where
  kind : tree.kind = "method_definition"
  named : tree.named = true
  states : source.States member "return_type" tree
  inside : source.Unmarked tree.children
  /-- In front of the method stand decorators, comments and marks. -/
  leading : ∀ part ∈ lead, part.named = true → part.kind = "decorator" ∨ part.kind = "comment"
  decorated : source.Decorated member.marker lead

/-- The trees between the braces of a class, read as members and trees without markers. -/
inductive ClassBody (source : Source) : List Tree → List Member → Prop
  | nil : ClassBody source [] []
  | other {tree : Tree} {trees : List Tree} {members : List Member} :
      source.Unmarked [tree] → ClassBody source trees members →
        ClassBody source (tree :: trees) members
  | field {member : Member} {tree : Tree} {trees : List Tree} {members : List Member} :
      source.FieldTree member tree → ClassBody source trees members →
        ClassBody source (tree :: trees) (member :: members)
  | method {member : Member} {lead : List Tree} {tree : Tree} {trees : List Tree}
      {members : List Member} :
      source.MethodTrees member lead tree → ClassBody source trees members →
        ClassBody source (lead ++ tree :: trees) (member :: members)

/-! ### Inputs of a part of the tree -/

def inputsAmong (source : Source) (nodes : List Node) : List Input :=
  ((nodes.filter fun node => source.Marks node.tree).map source.findingOf).filterMap Finding.input?

theorem inputs_eq_inputsAmong (source : Source) :
    source.inputs = source.inputsAmong source.root.listing := by
  rw [inputs, findings, markers_eq_filter, inputsAmong]

theorem inputsAmong_append (nodes others : List Node) :
    source.inputsAmong (nodes ++ others) =
      source.inputsAmong nodes ++ source.inputsAmong others := by
  simp only [inputsAmong, List.filter_append, List.map_append, List.filterMap_append]

theorem inputsAmong_cons_of_not_marks {node : Node} (nodes : List Node)
    (hnode : ¬ source.Marks node.tree) :
    source.inputsAmong (node :: nodes) = source.inputsAmong nodes := by
  rw [inputsAmong, List.filter_cons_of_neg (by simpa using hnode), inputsAmong]

theorem inputsAmong_eq_nil {nodes : List Node}
    (hnodes : ∀ node ∈ nodes, ¬ source.Marks node.tree) : source.inputsAmong nodes = [] := by
  rw [inputsAmong, List.filter_eq_nil_iff.mpr (by simpa using hnodes), List.map_nil,
    List.filterMap_nil]

theorem inputsAmong_eq_nil_of_unmarked {nodes : List Node} {trees : List Tree}
    (htrees : nodes.map Node.tree = Tree.preorderForest trees) (hunmarked : source.Unmarked trees) :
    source.inputsAmong nodes = [] := by
  refine inputsAmong_eq_nil fun node hnode => hunmarked node.tree ?_
  rw [← htrees]
  exact List.mem_map_of_mem hnode

theorem unmarked_cons_iff {tree : Tree} {trees : List Tree} :
    source.Unmarked (tree :: trees) ↔ source.Unmarked [tree] ∧ source.Unmarked trees := by
  simp only [Unmarked, Tree.preorderForest, List.append_nil, List.mem_append, or_imp,
    forall_and]

theorem inputsAmong_unmarked_append {trees : List Tree} (hunmarked : source.Unmarked trees)
    (label : Label) (crumbs : List Crumb) (left rest : List Tree) :
    ∃ left', source.inputsAmong (listingOfForest label crumbs left (trees ++ rest)) =
      source.inputsAmong (listingOfForest label crumbs left' rest) := by
  induction trees generalizing left with
  | nil => exact ⟨left, rfl⟩
  | cons tree trees ih =>
      obtain ⟨htree, htrees⟩ := unmarked_cons_iff.mp hunmarked
      obtain ⟨left', hleft'⟩ := ih htrees (tree :: left)
      have hnil :
          source.inputsAmong (listingOf (⟨label, left, trees ++ rest⟩ :: crumbs) tree) = [] :=
        inputsAmong_eq_nil_of_unmarked
          (by rw [map_tree_listingOf, Tree.preorderForest, Tree.preorderForest, List.append_nil])
          htree
      refine ⟨left', ?_⟩
      rw [List.cons_append, listingOfForest, inputsAmong_append, hnil, List.nil_append, hleft']

def inputOf (given : Option String) (declaration : Declaration) : Input :=
  ⟨given.getD declaration.name, declaration.knob, declaration.defaultValue⟩

theorem aliasOf?_of_inputDecorator {given : Option String} {decorator : Node}
    (hdecorator : source.InputDecorator given decorator.tree) :
    source.aliasOf? decorator = given := by
  rw [aliasOf?_eq]
  cases given with
  | none =>
      have hnone : decorator.tree.firstString? = none := hdecorator.names
      rw [hnone, Option.bind_none]
  | some name =>
      obtain ⟨hname, literal, hliteral, hquotes⟩ := hdecorator.names
      rw [hliteral, Option.bind_some, unquote?_of_quotes hquotes, if_neg hname]

theorem inputsAmong_inputDecorator {given : Option String} {tree : Tree} {crumbs : List Crumb}
    {declaration : Declaration} (hdecorator : source.InputDecorator given tree)
    (hdeclaration : source.decorated? ⟨tree, crumbs⟩ = some declaration) :
    source.inputsAmong (listingOf crumbs tree) = [inputOf given declaration] := by
  obtain ⟨label, children⟩ := tree
  have hinside : source.inputsAmong (listingOfForest label crumbs [] children) = [] :=
    inputsAmong_eq_nil_of_unmarked (map_tree_listingOfForest label crumbs [] children)
      hdecorator.inside
  have hfinding : source.findingOf ⟨.node label children, crumbs⟩ =
      .found (inputOf given declaration) := by
    have hgiven : source.aliasOf? ⟨.node label children, crumbs⟩ = given :=
      aliasOf?_of_inputDecorator hdecorator
    rw [findingOf, hdeclaration]
    simp only [hgiven, inputOf]
  rw [listingOf, ← List.singleton_append, inputsAmong_append, hinside, List.append_nil, inputsAmong,
    List.filter_cons_of_pos (by simpa using hdecorator.marks), List.filter_nil, List.map_singleton,
    hfinding]
  rfl

theorem inputsAmong_decorated {marker : Option (Option String)} {trees : List Tree}
    (hdecorated : source.Decorated marker trees) (label : Label) (crumbs : List Crumb)
    (left rest : List Tree) (declaration : Declaration)
    (hdeclaration : ∀ before decorator after, trees = before ++ decorator :: after →
      source.decorated? ⟨decorator, ⟨label, before.reverse ++ left, after ++ rest⟩ :: crumbs⟩ =
        some declaration) :
    ∃ left', source.inputsAmong (listingOfForest label crumbs left (trees ++ rest)) =
      (marker.map (inputOf · declaration)).toList ++
        source.inputsAmong (listingOfForest label crumbs left' rest) := by
  cases marker with
  | none =>
      obtain ⟨left', hleft'⟩ := inputsAmong_unmarked_append hdecorated label crumbs left rest
      exact ⟨left', by rw [hleft']; rfl⟩
  | some given =>
      obtain ⟨before, decorator, after, htrees, hbefore, hdecorator, hafter⟩ := hdecorated
      obtain ⟨nodes, hnodes, hlisting⟩ := listingOfForest_append_cons label crumbs decorator left
        before (after ++ rest)
      obtain ⟨left', hleft'⟩ := inputsAmong_unmarked_append hafter label crumbs
        (decorator :: (before.reverse ++ left)) rest
      refine ⟨left', ?_⟩
      rw [htrees, List.append_assoc, List.cons_append, hlisting, inputsAmong_append,
        inputsAmong_append, inputsAmong_eq_nil_of_unmarked hnodes hbefore, List.nil_append,
        inputsAmong_inputDecorator hdecorator (hdeclaration before decorator after htrees), hleft']
      rfl

/-! ### From decorators to members -/

theorem memberOf?_in_field {label : Label} {crumbs : List Crumb} {before after : List Tree}
    (decorator : Tree) (hkind : label.kind = "public_field_definition") :
    memberOf? ⟨decorator, ⟨label, before.reverse, after⟩ :: crumbs⟩ =
      some ⟨.node label (before ++ decorator :: after), crumbs⟩ := by
  rw [memberOf?_cons, if_pos (.inl hkind), Crumb.plug, List.reverse_reverse]

/-- A decorator in a class body belongs to the method behind it, past decorators, comments and
marks. -/
theorem memberOf?_before_method {label : Label} {method : Tree} {after : List Tree}
    (hclass : label.kind = "class_body") (hkind : method.kind = "method_definition")
    (hnamed : method.named = true)
    (hafter : ∀ part ∈ after, part.named = true → part.kind = "decorator" ∨ part.kind = "comment")
    (crumbs : List Crumb) (decorator : Tree) (left rest : List Tree) :
    ∃ crumbs', memberOf? ⟨decorator, ⟨label, left, after ++ method :: rest⟩ :: crumbs⟩ =
      some ⟨method, crumbs'⟩ := by
  have hpassed : ∀ part ∈ after, stops part.label = false := fun part hpart =>
    show stops (Node.root part).tree.label = false from not_stops_iff.mpr (hafter part hpart)
  have hstops : stops (Node.root method).tree.label = true := stops_of_method hkind hnamed
  have hfind : (after ++ method :: rest).find? (stops ·.label) = some method :=
    List.find?_eq_some_iff_append.mpr ⟨hstops, after, rest, rfl, by simpa using hpassed⟩
  have hunder : memberUnder? ⟨label, left, after ++ method :: rest⟩ decorator = some method := by
    have hmethod : isMethod method.label = true := beq_iff_eq.mpr hkind
    simp [memberUnder?, hclass, hfind, hmethod]
  have hmember := map_tree_memberOf? ⟨decorator, ⟨label, left, after ++ method :: rest⟩ :: crumbs⟩
  rw [List.head?_cons, Option.bind_some, hunder, Option.map_eq_some_iff] at hmember
  obtain ⟨⟨_, crumbs'⟩, hmember, rfl⟩ := hmember
  exact ⟨crumbs', hmember⟩

theorem declarationOf?_of_states {member : Member} {node : Node}
    (hstates : source.States member (typeField node.kind) node.tree) :
    source.declarationOf? node = some member.declaration := by
  obtain ⟨name, hname, htext⟩ := Option.map_eq_some_iff.mp hstates.name
  rw [declarationOf?_eq, hname, Option.map_some, hstates.type, htext, Member.declaration,
    ← hstates.initial, Option.map_map]
  rfl

theorem map_inputOf_declaration (member : Member) :
    member.marker.map (inputOf · member.declaration) = member.input? := by
  simp only [Member.input?, inputOf, Member.knob_declaration, Member.defaultValue_declaration]
  rfl

/-- **A field** contributes its input, whatever stands around it. -/
theorem inputsAmong_fieldTree {member : Member} {tree : Tree} (crumbs : List Crumb)
    (hfield : source.FieldTree member tree) :
    source.inputsAmong (listingOf crumbs tree) = member.input?.toList := by
  obtain ⟨label, children⟩ := tree
  have hkind : label.kind = "public_field_definition" := hfield.kind
  have hmarks : ¬ source.Marks (.node label children) := fun hmarks => by
    have hdecorator : label.kind = "decorator" := hmarks.1
    simp [hkind] at hdecorator
  have hstates : source.States member (typeField label.kind) (.node label children) := by
    have htype : typeField label.kind = "type" := by simp [typeField, hkind]
    rw [htype]
    exact hfield.states
  obtain ⟨left', hinputs⟩ := inputsAmong_decorated hfield.decorated label crumbs [] []
    member.declaration (by
      intro before decorator after hchildren
      have hchildren : children = before ++ decorator :: after := hchildren
      rw [List.append_nil, List.append_nil, decorated?, memberOf?_in_field decorator hkind,
        Option.bind_some, ← hchildren]
      exact declarationOf?_of_states hstates)
  rw [listingOf, inputsAmong_cons_of_not_marks _ hmarks, ← map_inputOf_declaration]
  rw [List.append_nil, listingOfForest] at hinputs
  exact hinputs.trans (List.append_nil _)

/-- **A method** contributes its input together with the decorators in front of it. -/
theorem inputsAmong_methodTrees {member : Member} {lead : List Tree} {tree : Tree} {label : Label}
    (hclass : label.kind = "class_body") (hmethod : source.MethodTrees member lead tree)
    (crumbs : List Crumb) (left rest : List Tree) :
    ∃ left', source.inputsAmong (listingOfForest label crumbs left (lead ++ tree :: rest)) =
      member.input?.toList ++ source.inputsAmong (listingOfForest label crumbs left' rest) := by
  have htypeField : typeField tree.kind = "return_type" := by simp [typeField, hmethod.kind]
  obtain ⟨left', hinputs⟩ := inputsAmong_decorated hmethod.decorated label crumbs left
    (tree :: rest) member.declaration (by
      intro before decorator after hlead
      obtain ⟨crumbs', hmember⟩ := memberOf?_before_method hclass hmethod.kind hmethod.named
        (fun part (hpart : part ∈ after) => hmethod.leading part (by simp [hlead, hpart])) crumbs
        decorator (before.reverse ++ left) rest
      rw [decorated?, hmember, Option.bind_some]
      refine declarationOf?_of_states ?_
      rw [show typeField (Node.kind ⟨tree, crumbs'⟩) = "return_type" from htypeField]
      exact hmethod.states)
  have htree : source.Unmarked [tree] := by
    obtain ⟨treeLabel, children⟩ := tree
    intro part hpart hmarks
    simp only [Tree.preorderForest, Tree.preorder, List.append_nil, List.mem_cons] at hpart
    rcases hpart with rfl | hpart
    · have hkind : treeLabel.kind = "method_definition" := hmethod.kind
      have hdecorator : treeLabel.kind = "decorator" := hmarks.1
      simp [hkind] at hdecorator
    · exact hmethod.inside part hpart hmarks
  obtain ⟨left'', hrest⟩ := inputsAmong_unmarked_append htree label crumbs left' rest
  refine ⟨left'', ?_⟩
  rw [hinputs, map_inputOf_declaration, ← hrest, List.singleton_append]

/-- By recursion on the reading of the class body. -/
theorem inputsAmong_classBody {trees : List Tree} {members : List Member} {label : Label}
    (hclass : label.kind = "class_body") (hbody : source.ClassBody trees members)
    (crumbs : List Crumb) (left : List Tree) :
    source.inputsAmong (listingOfForest label crumbs left trees) =
      members.filterMap Member.input? := by
  induction hbody generalizing left with
  | nil => rfl
  | other hunmarked _ ih =>
      obtain ⟨left', hinputs⟩ := inputsAmong_unmarked_append hunmarked label crumbs left _
      rw [← List.singleton_append, hinputs, ih]
  | @field member tree trees members hfield _ ih =>
      rw [listingOfForest, inputsAmong_append, inputsAmong_fieldTree _ hfield, ih]
      cases hinput : member.input? with
      | none => rw [List.filterMap_cons_none hinput, Option.toList_none, List.nil_append]
      | some input =>
          rw [List.filterMap_cons_some hinput, Option.toList_some, List.singleton_append]
  | @method member lead tree trees members hmethod _ ih =>
      obtain ⟨left', hinputs⟩ := inputsAmong_methodTrees hclass hmethod crumbs left trees
      rw [hinputs, ih]
      cases hinput : member.input? with
      | none => rw [List.filterMap_cons_none hinput, Option.toList_none, List.nil_append]
      | some input =>
          rw [List.filterMap_cons_some hinput, Option.toList_some, List.singleton_append]

/-- **Extraction from a class.** Wherever a class body stands in the tree, it contributes one input
for each of its members with an input decorator, in the order of the members; and if no marker of
the tree stands outside, these are all inputs of the source. -/
theorem inputs_of_classBody {body : Node} {members : List Member}
    (hbody : body ∈ source.root.listing) (hclass : body.kind = "class_body")
    (hmembers : source.ClassBody body.tree.children members) :
    (∃ before after, source.root.listing = before ++ body.listing ++ after ∧
      source.inputs = source.inputsAmong before ++ members.filterMap Member.input? ++
        source.inputsAmong after) ∧
    ((∀ node ∈ source.root.listing, source.Marks node.tree → node ∈ body.listing) →
      source.inputs = members.filterMap Member.input?) := by
  have hinside : source.inputsAmong body.listing = members.filterMap Member.input? := by
    obtain ⟨⟨label, children⟩, crumbs⟩ := body
    have hkind : label.kind = "class_body" := hclass
    have hmarks : ¬ source.Marks (.node label children) := fun hmarks => by
      have hdecorator : label.kind = "decorator" := hmarks.1
      simp [hkind] at hdecorator
    rw [Node.listing, listingOf, inputsAmong_cons_of_not_marks _ hmarks]
    exact inputsAmong_classBody hkind hmembers crumbs []
  obtain ⟨before, after, hlisting⟩ := exists_listing_eq_append hbody
  have hinputs : source.inputs = source.inputsAmong before ++ members.filterMap Member.input? ++
      source.inputsAmong after := by
    rw [inputs_eq_inputsAmong, hlisting, inputsAmong_append, inputsAmong_append, hinside]
  refine ⟨⟨before, after, hlisting, hinputs⟩, ?_⟩
  intro honly
  have hnodup : (before ++ body.listing ++ after).Nodup := hlisting ▸ nodup_listingOf _ _
  obtain ⟨hfirst, _, hlast⟩ := List.nodup_append.mp hnodup
  obtain ⟨_, _, hbefore⟩ := List.nodup_append.mp hfirst
  have hnilBefore : source.inputsAmong before = [] :=
    inputsAmong_eq_nil fun node hnode hmarks =>
      hbefore node hnode node (honly node (by simp [hlisting, hnode]) hmarks) rfl
  have hnilAfter : source.inputsAmong after = [] :=
    inputsAmong_eq_nil fun node hnode hmarks =>
      hlast node (List.mem_append_right _ (honly node (by simp [hlisting, hnode]) hmarks))
        node hnode rfl
  rw [hinputs, hnilBefore, hnilAfter, List.nil_append, List.append_nil]

/-! ### A class with a field and an accessor -/

def panel : Source :=
  .parse ⟨"panel.ts"⟩ "class A \x7b @B() @Input('b') a = 1; @Input() /* c */ set c(v) \x7b\x7d \x7d"

def panelMembers : List Member :=
  [⟨"a", none, some ("number", "1"), some (some "b")⟩, ⟨"c", none, none, some none⟩]

def panelBody : Node := (panel.root.listing.find? (·.kind == "class_body")).getD panel.root

def childAt (tree : Tree) (index : Nat) : Tree := tree.children.getD index tree

def panelField : Tree := childAt panelBody.tree 1

def panelSetter : Tree := childAt panelBody.tree 5

theorem panelField_shape :
    panelField.kind = "public_field_definition" ∧
    (panelField.child? "name").map panel.treeText = some "a" ∧
    ((panelField.child? "type").bind Tree.firstNamed?).map panel.treeText = none ∧
    (panelField.child? "value").map (fun value => (value.kind, panel.treeText value)) =
      some ("number", "1") ∧
    panelField.children = [childAt panelField 0] ++ childAt panelField 1 ::
      [childAt panelField 2, childAt panelField 3, childAt panelField 4] ∧
    panel.Unmarked [childAt panelField 0] ∧ panel.Marks (childAt panelField 1) ∧
    panel.Unmarked (childAt panelField 1).children ∧
    (childAt panelField 1).firstString?.map (fun literal => (panel.treeText literal).toList) =
      some ['\'', 'b', '\''] ∧
    panel.Unmarked [childAt panelField 2, childAt panelField 3, childAt panelField 4] := by
  decide +kernel

theorem panelSetter_shape :
    panelSetter.kind = "method_definition" ∧ panelSetter.named = true ∧
    (panelSetter.child? "name").map panel.treeText = some "c" ∧
    ((panelSetter.child? "return_type").bind Tree.firstNamed?).map panel.treeText = none ∧
    (panelSetter.child? "value").map (fun value => (value.kind, panel.treeText value)) = none ∧
    panel.Unmarked panelSetter.children ∧
    (∀ part ∈ [childAt panelBody.tree 3, childAt panelBody.tree 4], part.named = true →
      part.kind = "decorator" ∨ part.kind = "comment") ∧
    panel.Marks (childAt panelBody.tree 3) ∧
    panel.Unmarked (childAt panelBody.tree 3).children ∧
    (childAt panelBody.tree 3).firstString? = none ∧
    panel.Unmarked [childAt panelBody.tree 4] := by
  decide +kernel

theorem panelBody_shape :
    panelBody ∈ panel.root.listing ∧ panelBody.kind = "class_body" ∧
    panelBody.tree.children = childAt panelBody.tree 0 :: panelField :: childAt panelBody.tree 2 ::
      ([childAt panelBody.tree 3, childAt panelBody.tree 4] ++
        panelSetter :: [childAt panelBody.tree 6]) ∧
    panel.Unmarked [childAt panelBody.tree 0] ∧ panel.Unmarked [childAt panelBody.tree 2] ∧
    panel.Unmarked [childAt panelBody.tree 6] ∧
    ∀ node ∈ panel.root.listing, panel.Marks node.tree → node ∈ panelBody.listing := by
  decide +kernel

theorem classBody_panelBody : panel.ClassBody panelBody.tree.children panelMembers := by
  obtain ⟨_, _, hchildren, hopening, hsemicolon, hclosing, _⟩ := panelBody_shape
  have hfield : panel.FieldTree ⟨"a", none, some ("number", "1"), some (some "b")⟩ panelField := by
    obtain ⟨hkind, hname, htype, hvalue, hparts, hbefore, hmarks, hinside, hliteral, hafter⟩ :=
      panelField_shape
    obtain ⟨literal, hfirst, htext⟩ := Option.map_eq_some_iff.mp hliteral
    exact ⟨hkind, ⟨hname, htype, hvalue⟩, _, _, _, hparts, hbefore,
      ⟨hmarks, hinside, by decide, literal, hfirst, '\'', Or.inl rfl, htext⟩, hafter⟩
  have hsetter : panel.MethodTrees ⟨"c", none, none, some none⟩
      [childAt panelBody.tree 3, childAt panelBody.tree 4] panelSetter := by
    obtain ⟨hkind, hnamed, hname, htype, hvalue, hinside, hleading, hmarks, hdecorator, hnone,
      hafter⟩ := panelSetter_shape
    exact ⟨hkind, hnamed, ⟨hname, htype, hvalue⟩, hinside, hleading, [], _, _, rfl,
      by simp [Unmarked, Tree.preorderForest], ⟨hmarks, hdecorator, hnone⟩, hafter⟩
  rw [hchildren]
  exact .other hopening (.field hfield (.other hsemicolon (.method hsetter
    (.other hclosing .nil))))

theorem inputs_of_panelBody :
    panelBody ∈ panel.root.listing ∧ panelBody.kind = "class_body" ∧
    panel.ClassBody panelBody.tree.children panelMembers ∧
    panel.inputs = [⟨"b", .number, some "1"⟩, ⟨"c", .text, some "''"⟩] := by
  obtain ⟨hmem, hkind, _, _, _, _, honly⟩ := panelBody_shape
  have hinputs := (inputs_of_classBody hmem hkind classBody_panelBody).2 honly
  exact ⟨hmem, hkind, classBody_panelBody, hinputs⟩

end Source

end StoryKnobs

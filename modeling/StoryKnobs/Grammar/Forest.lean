import StoryKnobs.Syntax.Tree

/-!
# Forests over a text

A place in a text is known by the characters behind it and its offset in bytes. The nodes of kind
`string` keep to the text below them: they are keywords, or literals between quotes of which the
second one may have been supplied. No other way to make a forest exists than those below.
-/

namespace StoryKnobs.Grammar

open Syntax

variable {whole : List Char}

def byteCount : List Char → Nat
  | [] => 0
  | char :: chars => char.utf8Size + byteCount chars

theorem byteCount_append (chars others : List Char) :
    byteCount (chars ++ others) = byteCount chars + byteCount others := by
  induction chars with
  | nil => rw [List.nil_append, byteCount, Nat.zero_add]
  | cons char chars ih => rw [List.cons_append, byteCount, byteCount, ih, Nat.add_assoc]

theorem eq_nil_of_byteCount_eq_zero {chars : List Char} (hcount : byteCount chars = 0) :
    chars = [] := by
  cases chars with
  | nil => rfl
  | cons char chars =>
      have hpos := char.utf8Size_pos
      rw [byteCount] at hcount
      omega

/-! ### Places -/

/-- `rest` is what stands behind the first `offset` bytes of a text. -/
def IsPlace (whole rest : List Char) (offset : Nat) : Prop :=
  ∃ before, whole = before ++ rest ∧ offset = byteCount before

theorem IsPlace.start (whole : List Char) : IsPlace whole whole 0 := ⟨[], rfl, rfl⟩

theorem IsPlace.append {slice rest : List Char} {offset : Nat}
    (hplace : IsPlace whole (slice ++ rest) offset) :
    IsPlace whole rest (offset + byteCount slice) := by
  obtain ⟨before, rfl, rfl⟩ := hplace
  exact ⟨before ++ slice, (List.append_assoc _ _ _).symm, (byteCount_append _ _).symm⟩

theorem IsPlace.cons {char : Char} {rest : List Char} {offset : Nat}
    (hplace : IsPlace whole (char :: rest) offset) :
    IsPlace whole rest (offset + char.utf8Size) := by
  have hslice : IsPlace whole ([char] ++ rest) offset := hplace
  exact hslice.append

theorem IsPlace.drop {rest : List Char} {offset : Nat} (hplace : IsPlace whole rest offset)
    (count : Nat) : IsPlace whole (rest.drop count) (offset + byteCount (rest.take count)) := by
  refine IsPlace.append ?_
  rw [List.take_append_drop]
  exact hplace

/-- Of two places, the one with the greater offset is behind the other one. -/
theorem IsPlace.exists_append {rest other : List Char} {offset offset' : Nat}
    (hplace : IsPlace whole rest offset) (hother : IsPlace whole other offset')
    (hle : offset ≤ offset') :
    ∃ slice, rest = slice ++ other ∧ offset' = offset + byteCount slice := by
  obtain ⟨before, rfl, rfl⟩ := hplace
  obtain ⟨before', hwhole, rfl⟩ := hother
  rcases List.append_eq_append_iff.mp hwhole with ⟨slice, rfl, rfl⟩ | ⟨slice, rfl, rfl⟩
  · exact ⟨slice, rfl, byteCount_append _ _⟩
  · rw [byteCount_append] at hle
    obtain rfl := eq_nil_of_byteCount_eq_zero (by omega : byteCount slice = 0)
    exact ⟨[], rfl, by rw [List.append_nil]; rfl⟩

/-- The text of a span is `slice`. -/
def Covers (whole : List Char) (span : Span) (slice : List Char) : Prop :=
  ∃ rest, IsPlace whole (slice ++ rest) span.start ∧ span.stop = span.start + byteCount slice

theorem IsPlace.covers {slice rest : List Char} {offset : Nat}
    (hplace : IsPlace whole (slice ++ rest) offset) :
    Covers whole ⟨offset, offset + byteCount slice⟩ slice := ⟨rest, hplace, rfl⟩

theorem Covers.append {start middle stop : Nat} {slice other : List Char}
    (hslice : Covers whole ⟨start, middle⟩ slice) (hother : Covers whole ⟨middle, stop⟩ other) :
    Covers whole ⟨start, stop⟩ (slice ++ other) := by
  obtain ⟨rest, hplace, hmiddle⟩ := hslice
  obtain ⟨rest', hplace', hstop⟩ := hother
  dsimp only at hplace hmiddle hplace' hstop
  obtain ⟨gap, hrest, hgap⟩ := (hmiddle ▸ hplace.append).exists_append hplace' (Nat.le_refl _)
  obtain rfl := eq_nil_of_byteCount_eq_zero (by omega : byteCount gap = 0)
  obtain rfl : rest = other ++ rest' := hrest
  refine ⟨rest', by rwa [List.append_assoc], ?_⟩
  dsimp only
  rw [byteCount_append]
  omega

/-! ### Spelling -/

/-- Kind of the literals in quotes, and of the token of the keyword. -/
def literalKind : String := "string"

def isPlain (kind : String) : Bool := kind != literalKind

def quotes : List Char := ['\'', '"']

theorem mem_quotes_iff {char : Char} : char ∈ quotes ↔ char = '\'' ∨ char = '"' := by
  simp [quotes]

/-- Two quotes and what stands between them. A second quote that the text lacks has no width. -/
structure Quotation (whole : List Char) (quote : Char) (opening closing : Span) : Prop where
  quote_mem : quote ∈ quotes
  opens : Covers whole opening [quote]
  inside : ∃ body, Covers whole ⟨opening.stop, closing.start⟩ body
  closes : Covers whole closing [quote] ∨ Covers whole closing []

/-- The text of a node of kind `string` that has the label `label` and the children `children`. -/
inductive SpellsString (whole : List Char) (label : Label) : List Tree → Prop
  | keyword {children : List Tree} (hnamed : label.named = false)
      (hcovers : Covers whole label.span literalKind.toList) : SpellsString whole label children
  /-- A keyword that the text lacks. -/
  | supplied {children : List Tree} (hnamed : label.named = false)
      (hcovers : Covers whole label.span []) : SpellsString whole label children
  | literal {quote : Char} {opening closing : Tree} {inside : List Tree}
      (hnamed : label.named = true) (hspan : label.span = ⟨opening.span.start, closing.span.stop⟩)
      (hquotation : Quotation whole quote opening.span closing.span) :
      SpellsString whole label (opening :: (inside ++ [closing]))

def Spelled (whole : List Char) (label : Label) (children : List Tree) : Prop :=
  label.kind = literalKind → SpellsString whole label children

theorem Spelled.of_isPlain {label : Label} {children : List Tree} (hkind : isPlain label.kind) :
    Spelled whole label children := fun heq => absurd heq (bne_iff_ne.mp hkind)

theorem Spelled.of_token {kind : String} {span : Span} (hcovers : Covers whole span kind.toList) :
    Spelled whole ⟨kind, false, span, none⟩ [] := by
  rintro rfl
  exact .keyword rfl hcovers

theorem Spelled.withField {label : Label} {children : List Tree}
    (hspelled : Spelled whole label children) (field : Option String) :
    Spelled whole { label with field } children := by
  intro hkind
  cases hspelled hkind with
  | keyword hnamed hcovers => exact .keyword hnamed hcovers
  | supplied hnamed hcovers => exact .supplied hnamed hcovers
  | literal hnamed hspan hquotation => exact .literal hnamed hspan hquotation

def SpelledTree (whole : List Char) (tree : Tree) : Prop :=
  ∀ part ∈ tree.preorder, Spelled whole part.label part.children

theorem mem_preorderForest {part : Tree} {trees : List Tree} :
    part ∈ Tree.preorderForest trees ↔ ∃ tree ∈ trees, part ∈ tree.preorder := by
  induction trees with
  | nil => simp [Tree.preorderForest]
  | cons tree trees ih => simp [Tree.preorderForest, ih]

theorem spelledTree_node {label : Label} {children : List Tree} :
    SpelledTree whole (.node label children) ↔
      Spelled whole label children ∧ ∀ child ∈ children, SpelledTree whole child := by
  simp only [SpelledTree, Tree.preorder, List.forall_mem_cons, mem_preorderForest]
  refine and_congr_right fun _ => ?_
  constructor
  · exact fun hparts child hchild part hpart => hparts part ⟨child, hchild, hpart⟩
  · rintro hchildren part ⟨child, hchild, hpart⟩
    exact hchildren child hchild part hpart

theorem spelledTree_leaf {kind : String} {named : Bool} {span : Span}
    (hspelled : Spelled whole ⟨kind, named, span, none⟩ []) :
    SpelledTree whole (.leaf kind named span) :=
  spelledTree_node.mpr ⟨hspelled, fun _ hchild => nomatch hchild⟩

theorem SpelledTree.withField {tree : Tree} (hspelled : SpelledTree whole tree) (name : String) :
    SpelledTree whole (tree.withField name) := by
  cases tree with
  | node label children =>
      obtain ⟨hlabel, hchildren⟩ := spelledTree_node.mp hspelled
      exact spelledTree_node.mpr ⟨hlabel.withField _, hchildren⟩

/-! ### Forests -/

structure Forest (whole : List Char) where
  trees : List Tree
  spelled : ∀ tree ∈ trees, SpelledTree whole tree

namespace Forest

instance : EmptyCollection (Forest whole) := ⟨[], fun _ htree => nomatch htree⟩

instance : Append (Forest whole) where
  append forest other :=
    ⟨forest.trees ++ other.trees, fun tree htree =>
      (List.mem_append.mp htree).elim (forest.spelled tree) (other.spelled tree)⟩

def isEmpty (forest : Forest whole) : Bool := forest.trees.isEmpty

def any (forest : Forest whole) (test : Tree → Bool) : Bool := forest.trees.any test

def fills (forest : Forest whole) (name : String) : Bool := forest.any (·.field == some name)

def lastFills (forest : Forest whole) (name : String) : Bool :=
  (forest.trees.getLast?.map fun tree => tree.children.any (·.field == some name)).getD false

def reverse (forest : Forest whole) : Forest whole :=
  ⟨forest.trees.reverse, fun tree htree => forest.spelled tree (List.mem_reverse.mp htree)⟩

def map (change : Tree → Tree)
    (hchange : ∀ tree, SpelledTree whole tree → SpelledTree whole (change tree))
    (forest : Forest whole) : Forest whole where
  trees := forest.trees.map change
  spelled tree htree := by
    obtain ⟨before, hbefore, rfl⟩ := List.mem_map.mp htree
    exact hchange before (forest.spelled before hbefore)

def leaf (kind : String) (span : Span) (hkind : isPlain kind := by exact Eq.refl true) :
    Forest whole where
  trees := [.leaf kind true span]
  spelled tree htree := by
    obtain rfl := List.mem_singleton.mp htree
    exact spelledTree_leaf (.of_isPlain hkind)

def token (kind : String) (span : Span) (hcovers : Covers whole span kind.toList) :
    Forest whole where
  trees := [.leaf kind false span]
  spelled tree htree := by
    obtain rfl := List.mem_singleton.mp htree
    exact spelledTree_leaf (.of_token hcovers)

def stray (span : Span) : Forest whole where
  trees := [.leaf "" false span]
  spelled tree htree := by
    obtain rfl := List.mem_singleton.mp htree
    exact spelledTree_leaf (.of_isPlain (show isPlain "" from rfl))

def under (kind : String) (span : Span) (children : Forest whole)
    (hkind : isPlain kind := by exact Eq.refl true) : Forest whole where
  trees := [.node ⟨kind, true, span, none⟩ children.trees]
  spelled tree htree := by
    obtain rfl := List.mem_singleton.mp htree
    exact spelledTree_node.mpr ⟨.of_isPlain hkind, children.spelled⟩

theorem isPlain_singleton {quote : Char} (hquote : quote ∈ quotes) :
    isPlain (String.singleton quote) := by
  rcases mem_quotes_iff.mp hquote with rfl | rfl
  · rfl
  · rfl

def literal (quote : Char) (opening closing : Span) (inside : Forest whole)
    (hquotation : Quotation whole quote opening closing) : Forest whole where
  trees := [.node ⟨literalKind, true, ⟨opening.start, closing.stop⟩, none⟩
    (.leaf (.singleton quote) false opening ::
      (inside.trees ++ [.leaf (.singleton quote) false closing]))]
  spelled tree htree := by
    obtain rfl := List.mem_singleton.mp htree
    have hmark (span : Span) : SpelledTree whole (.leaf (.singleton quote) false span) :=
      spelledTree_leaf (.of_isPlain (isPlain_singleton hquotation.quote_mem))
    refine spelledTree_node.mpr ⟨fun _ => .literal rfl rfl hquotation, ?_⟩
    refine List.forall_mem_cons.mpr ⟨hmark opening, List.forall_mem_append.mpr ⟨inside.spelled, ?_⟩⟩
    exact List.forall_mem_singleton.mpr (hmark closing)

/-- Names the field that the first tree of the forest fills. -/
def withField (name : String) (forest : Forest whole) : Forest whole where
  trees := forest.trees.modifyHead (·.withField name)
  spelled tree htree := by
    obtain ⟨trees, hspelled⟩ := forest
    cases trees with
    | nil => exact hspelled tree htree
    | cons first trees =>
        obtain ⟨hfirst, htrees⟩ := List.forall_mem_cons.mp hspelled
        rcases List.mem_cons.mp htree with rfl | htree
        · exact hfirst.withField name
        · exact htrees tree htree

def renameField (name other : String) (forest : Forest whole) : Forest whole :=
  forest.map (fun tree => if tree.field == some name then tree.withField other else tree) <| by
    intro tree hspelled
    split
    · exact hspelled.withField other
    · exact hspelled

/-- Gives the kind `kind` to the named trees of the forest that `test` holds for. -/
def retag (test : Tree → Bool) (kind : String) (forest : Forest whole)
    (hkind : isPlain kind := by exact Eq.refl true) : Forest whole :=
  forest.map (fun tree => if tree.named && test tree then tree.withKind kind else tree) <| by
    intro tree hspelled
    split
    · cases tree with
      | node label children =>
          exact spelledTree_node.mpr ⟨.of_isPlain hkind, (spelledTree_node.mp hspelled).2⟩
    · exact hspelled

/-- The trees before the last one, and its children if it is of kind `kind`. -/
def openLast (kind : String) (forest : Forest whole) : Option (Forest whole × Forest whole) :=
  match hlast : forest.trees.getLast? with
  | some (.node label children) =>
    if label.kind == kind then
      some (⟨forest.trees.dropLast, fun tree htree =>
          forest.spelled tree (List.dropLast_subset _ htree)⟩,
        ⟨children, (spelledTree_node.mp (forest.spelled _ (List.mem_of_getLast? hlast))).2⟩)
    else none
  | none => none

def span (test : Tree → Bool) (forest : Forest whole) : Forest whole × Forest whole :=
  (⟨forest.trees.takeWhile test, fun tree htree =>
      forest.spelled tree (List.takeWhile_subset test htree)⟩,
    ⟨forest.trees.dropWhile test, fun tree htree =>
      forest.spelled tree ((List.dropWhile_sublist test).subset htree)⟩)

end Forest

end StoryKnobs.Grammar

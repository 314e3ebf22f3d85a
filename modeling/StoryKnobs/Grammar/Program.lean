import StoryKnobs.Grammar.Statements
import StoryKnobs.Grammar.Markup

/-!
# Programs

The symbols of the grammar get their meaning by recursion on a bound for the depth of the tree,
which the length of the text gives. A text that does not follow the grammar is read once more, and
then what fits no rule is passed over and a literal may do without its second quote.
-/

namespace StoryKnobs.Grammar

open Rule Syntax

variable {whole : List Char}

def ruleOf (self : Rules whole) (symbol : Symbol) (context : Context) : Rule whole :=
  match symbol with
  | .expression => Expressions.expression self context
  | .expressions => Expressions.expressions self context
  | .unary => Expressions.unary self context
  | .target => Patterns.target self context
  | .type => Types.type self context
  | .elementType => Types.element self context
  | .typeArguments => Types.typeArguments self context
  | .typeParameters => Types.typeParameters self context
  | .objectType => Types.objectType self context
  | .parameters => Patterns.parameters self context
  | .arguments => Expressions.arguments self context
  | .propertyName => Expressions.propertyName self context
  | .decorator => Classes.decorator self context
  | .statement => Statements.statement self context
  | .block => Statements.block self context
  | .classBody => Classes.classBody self context
  | .markupElement => Markup.element self context

/-- The symbols, where a part of the text is read to at most `depth` levels. -/
def rulesUpTo : Nat → Rules whole
  | 0 => fun _ _ => fail
  | depth + 1 => ruleOf (rulesUpTo depth)

def interpreterLine : Rule whole := do
  guard (← sees "#!")
  leaf "hash_bang_line" (runLength (· != '\n') (← rest))

def program (self : Rules whole) (context : Context) : Rule whole := all
  [maybe interpreterLine,
    many (either (self .statement context) (do
      guard context.recovers
      Classes.skipToken)),
    markupComments]

/-- The tree of a text, if all of it can be read. -/
def parseWith (text : String) (context : Context) :
    Option {tree : Tree // SpelledTree text.toList tree} := do
  let input := Input.ofChars text.toList
  let (trees, rest) ← program (rulesUpTo (8 * input.size + 16)) context input
  guard rest.rest.isEmpty
  let stop := rest.offset
  let forest := trees ++ rest.comments
  let start := (forest.trees.head?.map (·.span.start)).getD stop
  return ⟨.node ⟨"program", true, ⟨start, stop⟩, none⟩ forest.trees,
    spelledTree_node.mpr ⟨.of_isPlain (show isPlain "program" from rfl), forest.spelled⟩⟩

/-- The syntax tree of a text, with markup elements if `markup` holds. -/
def parse (text : String) (markup : Bool) : Tree :=
  let context : Context := { markup }
  match parseWith text context with
  | some tree => tree
  | none =>
    match parseWith text { context with recovers := true } with
    | some tree => tree
    | none => .leaf Tree.errorKind true ⟨0, text.utf8ByteSize⟩

/-- **The nodes of kind `string` in a syntax tree are keywords and literals.** -/
theorem parse_spelled (text : String) (markup : Bool) :
    SpelledTree text.toList (parse text markup) := by
  rw [parse]
  split
  · rename_i tree _
    exact tree.2
  · split
    · rename_i tree _
      exact tree.2
    · exact spelledTree_leaf (.of_isPlain (show isPlain Tree.errorKind from rfl))

end StoryKnobs.Grammar

import StoryKnobs.Grammar.Parser

/-!
# Symbols of the grammar

The parts of the grammar that refer to each other in a circle. Each module of the grammar defines
rules over an interpretation of these symbols, and `Grammar.Program` ties them together.
-/

namespace StoryKnobs.Grammar

variable {whole : List Char}

/-- What decides, apart from the text, how a part of the grammar is read. -/
structure Context where
  /-- Markup elements stand for expressions, and type assertions are not read. -/
  markup : Bool
  /-- A line break may end a statement here. -/
  lineEnds : Bool := true
  /-- `in` is an operator here. -/
  inOperator : Bool := true
  /-- A parenthesized head of a function may have a result type here. -/
  resultType : Bool := true
  /-- Text that fits no rule is passed over, and the second quote of a literal may be supplied. -/
  recovers : Bool := false

namespace Context

def inner (context : Context) : Context :=
  { context with lineEnds := false, inOperator := true, resultType := true }

def outer (context : Context) : Context :=
  { context with lineEnds := true, inOperator := true, resultType := true }

end Context

inductive Symbol where
  | expression
  | expressions
  | unary
  | target
  | type
  | elementType
  | typeArguments
  | typeParameters
  | objectType
  | parameters
  | arguments
  | propertyName
  | decorator
  | statement
  | block
  | classBody
  | markupElement

abbrev Rules (whole : List Char) := Symbol → Context → Rule whole

namespace Rule

/-- Whether a statement may end here although no semicolon follows: at the end of the text, before
a closing brace, or at a line break unless the next line goes on with the same statement.
`afterOperand` tells whether an operand of an expression has just been read. -/
def endsImplicitly (afterOperand : Bool) : Parser whole Bool := do
  let lineBreak ← lineBreak
  match ← rest with
  | [] => return true
  | '\x7d' :: _ => return true
  | char :: chars =>
    if !lineBreak then return false
    if ['`', ',', '.', ';', '*', '%', '>', '<', '=', '?', '^', '|', '&', '/', ':'].contains char then
      return false
    if char == '(' || char == '[' then return !afterOperand
    if char == '+' || char == '-' then return chars.head? == some char
    if char == '!' then return chars.head? != some '='
    return !((← seesWord "in") || (← seesWord "instanceof"))

/-- The end of a statement: a semicolon, or nothing where the statement ends implicitly. -/
def semicolon (afterOperand : Bool) : Rule whole := do
  if ← sees ";" then mark ";"
  else
    guard (← endsImplicitly afterOperand)
    empty

/-- Whether the next token goes on with what has been read: always between brackets, and otherwise
only on the same line. -/
def sameLine (context : Context) : Parser whole Bool :=
  return !context.lineEnds || !(← lineBreak)

/-- Elements between brackets, separated by commas, where elements may be missing and a comma may
follow the last one. -/
def commaList (element : Rule whole) : Rule whole :=
  all [maybe element, many (all [mark ",", maybe element])]

/-- At least one element, separated by commas, where a comma may follow the last one. -/
def commaList1 (element : Rule whole) : Rule whole :=
  all [sepBy element (mark ","), maybe (mark ",")]

/-- The sign of a definition or a default value. -/
def equals : Rule whole := markNot "=" ['=', '>']

end Rule

end StoryKnobs.Grammar

import StoryKnobs.Grammar.Operators
import StoryKnobs.Grammar.Patterns

/-!
# Expressions

Operands, what may follow an operand, operators, and functions.
-/

namespace StoryKnobs.Grammar

open Rule Syntax

namespace Expressions

variable {whole : List Char} (self : Rules whole) (context : Context)

def expressions : Rule whole := do
  let first ← self .expression context
  let others ← many (all [mark ",", self .expression context])
  if others.isEmpty then return first
  else return wrap "sequence_expression" (first ++ others)

def spread : Rule whole := node "spread_element" (all [mark "...", self .expression context])

def arguments : Rule whole :=
  let context := context.inner
  node "arguments" <| all
    [mark "(", markupComments,
      commaList (either (spread self context) (self .expression context)), mark ")"]

def computedName : Rule whole :=
  node "computed_property_name" <| all
    [mark "[", self .expression context.inner, mark "]"]

def privateName : Rule whole := do
  guard (← sees "#")
  let length := wordLength ((← rest).drop 1)
  guard (0 < length)
  leaf "private_property_identifier" (length + 1)

def propertyName : Rule whole := oneOf
  [name "property_identifier", privateName, quoted, number, computedName self context]

def method : Rule whole :=
  node "method_definition" <| all
    [Types.modifiers context, maybe (Types.methodSort context),
      field "name" (self .propertyName context), maybe (mark "?"), Types.signature self context,
      field "body" (self .block context.outer)]

def objectMember : Rule whole := oneOf
  [spread self context, method self context,
    node "pair" <| all
      [field "key" (self .propertyName context), mark ":",
        field "value" (self .expression context)],
    do
      let left ← name "shorthand_property_identifier"
      if ← follows equals then
        return wrap "object_assignment_pattern" (setField "left" left ++ (← equals) ++
          setField "right" (← self .expression context))
      else return left]

def object : Rule whole :=
  node "object" <| all
    [mark "\x7b", markupComments, commaList (objectMember self context.inner), mark "\x7d"]

def array : Rule whole :=
  let context := context.inner
  node "array" <| all
    [mark "[", markupComments,
      commaList (either (spread self context) (self .expression context)), mark "]"]

def parenthesized : Rule whole :=
  let context := context.inner
  node "parenthesized_expression" <| all
    [mark "(", markupComments, self .expressions context,
      maybe (field "type" (Types.colonType self context)), mark ")"]

def functionExpression : Rule whole := do
  let head ← all [maybe (word "async"), word "function"]
  let star ← maybe (mark "*")
  let tail ← all
    [field "name" (maybe (name "identifier")), Types.signature self context.inner,
      field "body" (self .block context.outer)]
  if star.isEmpty then return wrap "function_expression" (head ++ tail)
  else return wrap "generator_function" (head ++ star ++ tail)

def heritage : Rule whole :=
  let context := { context.inner with lineEnds := false }
  let superclass : Rule whole := do
    let value ← self .unary { context with resultType := false }
    let arguments ← maybe (self .typeArguments context)
    match value.openLast "instantiation_expression", arguments.isEmpty with
    | some (lead, parts), true => return lead ++ parts.renameField "function" "value"
    | _, _ => return setField "value" value ++ setField "type_arguments" arguments
  let extended : Rule whole := node "extends_clause" <|
    all [word "extends", sepBy superclass (mark ",")]
  let implemented : Rule whole := node "implements_clause" <|
    all [word "implements", sepBy (self .type context) (mark ",")]
  do
    let trees ← all [maybe extended, maybe implemented]
    if trees.isEmpty then empty else return wrap "class_heritage" trees

/-- A class after its decorators, where `start` reads the keywords. -/
def classFrom (start : Rule whole) : Rule whole := all
  [start,
    field "name" (maybe (do
      guard !((← seesWord "extends") || (← seesWord "implements"))
      name "type_identifier")),
    field "type_parameters" (maybe (self .typeParameters context)),
    maybe (heritage self context),
    field "body" (self .classBody context.outer)]

def classExpression : Rule whole :=
  node "class" <| all
    [many (field "decorator" (self .decorator context)), classFrom self context (word "class")]

def markupOrAssertion : Rule whole :=
  if context.markup then self .markupElement context.inner
  else node "type_assertion" (all [self .typeArguments context, self .unary context])

/-- `import` as a function, and the values of the running module. -/
def imported : Rule whole := oneOf
  [node "meta_property" (all [word "import", mark ".", word "meta"]), do
    let trees ← namedWord "import"
    guard ((← sees "(") || (← sees "."))
    return trees]

/-- Words that an operand may start with and that are no names. -/
def wordOperand : Rule whole := do
  match ← peekWord with
  | "this" => namedWord "this"
  | "super" => namedWord "super"
  | "true" => namedWord "true"
  | "false" => namedWord "false"
  | "null" => namedWord "null"
  | "undefined" => namedWord "undefined"
  | "function" => functionExpression self context
  | "async" => either (functionExpression self context) (name "identifier")
  | "class" => classExpression self context
  | "import" => imported
  | "" => fail
  | _ => name "identifier"

/-- An expression that no operator takes apart. -/
def operand : Rule whole := do
  match ← rest with
  | '(' :: _ => parenthesized self context
  | '[' :: _ => array self context
  | '\x7b' :: _ => object self context
  | '`' :: _ =>
    templateOf "template_string" "template_substitution" (self .expressions context.inner)
  | '\'' :: _ => quotedBy '\'' context.recovers
  | '"' :: _ => quotedBy '"' context.recovers
  | '/' :: _ => regex
  | '<' :: _ => markupOrAssertion self context
  | '#' :: _ => privateName
  | '@' :: _ => classExpression self context
  | '.' :: _ => number
  | char :: _ => if isDigit char then number else wordOperand self context
  | [] => fail

def endsInstantiation : Parser whole Bool := do
  match ← rest with
  | [] => return true
  | char :: _ =>
    return (← lineBreak) ||
      [';', ',', ')', ']', '\x7d', ':', '=', '\x7b', '`'].contains char

def memberName : Rule whole := field "property" (either privateName (name "property_identifier"))

/-- One suffix of the operand `base`; calls only if `calls` holds. -/
def suffix (calls : Bool) (base : Forest whole) : Rule whole := do
  match ← rest with
  | '.' :: '.' :: _ => fail
  | '.' :: _ =>
    return wrap "member_expression" (setField "object" base ++ (← all [mark ".", memberName]))
  | '[' :: _ =>
    return wrap "subscript_expression" (setField "object" base ++ (← all
      [mark "[", field "index" (self .expressions context.inner), mark "]"]))
  | '?' :: '.' :: char :: _ =>
    guard (!isDigit char && calls)
    if char == '(' || char == '<' then
      return wrap "call_expression" (setField "function" base ++ (← all
        [mark "?.", field "type_arguments" (maybe (self .typeArguments context)),
          field "arguments" (self .arguments context)]))
    let chain ← field "optional_chain" (node "optional_chain" (mark "?."))
    if char == '[' then
      return wrap "subscript_expression" (setField "object" base ++ chain ++ (← all
        [mark "[", field "index" (self .expressions context.inner), mark "]"]))
    return wrap "member_expression" (setField "object" base ++ chain ++ (← memberName))
  | '(' :: _ =>
    guard calls
    return wrap "call_expression" (setField "function" base ++
      setField "arguments" (← self .arguments context))
  | '`' :: _ =>
    guard calls
    return wrap "call_expression" (setField "function" base ++
      setField "arguments" (← operand self context))
  | '!' :: next =>
    guard (next.head? != some '=')
    guard (← sameLine context)
    return wrap "non_null_expression" (base ++ (← mark "!"))
  | '<' :: _ =>
    guard calls
    let arguments ← self .typeArguments context
    if ← sees "(" then
      return wrap "call_expression" (setField "function" base ++
        setField "type_arguments" arguments ++
        setField "arguments" (← self .arguments context))
    guard (← endsInstantiation)
    return wrap "instantiation_expression" (setField "function" base ++
      setField "type_arguments" arguments)
  | _ => fail

def suffixes (calls : Bool) : Nat → Forest whole → Rule whole
  | 0, base => pure base
  | count + 1, base => fun input =>
    match suffix self context calls base input with
    | some (trees, next) => suffixes calls count trees next
    | none => some (base, input)

def construction : Rule whole := oneOf
  [node "meta_property" (all [word "new", mark ".", word "target"]),
    do
      let sign ← word "new"
      let base ← if ← seesWord "new" then self .unary context else operand self context
      let callee ← suffixes self context false (← get).size base
      let tail ← all
        [field "type_arguments" (maybe (self .typeArguments context)),
          field "arguments" (maybe (self .arguments context))]
      return wrap "new_expression" (sign ++ setField "constructor" callee ++ tail)]

def primary : Rule whole := do
  let base ← if ← seesWord "new" then construction self context else operand self context
  let trees ← suffixes self context true (← get).size base
  if ((← sees "++") || (← sees "--")) && (← sameLine context) then
    return wrap "update_expression" (setField "argument" trees ++
      setField "operator" (← either (mark "++") (mark "--")))
  return trees

def unary : Rule whole := do
  let lead ← markupComments
  let operands := fun (sign : Rule whole) =>
    all [field "operator" sign, field "argument" (self .unary context)]
  let trees ← match ← rest with
    | '!' :: _ => node "unary_expression" (operands (mark "!"))
    | '~' :: _ => node "unary_expression" (operands (mark "~"))
    | '+' :: '+' :: _ => node "update_expression" (operands (mark "++"))
    | '-' :: '-' :: _ => node "update_expression" (operands (mark "--"))
    | '+' :: _ => node "unary_expression" (operands (mark "+"))
    | '-' :: _ => node "unary_expression" (operands (mark "-"))
    | _ => do
      match ← peekWord with
      | "typeof" => node "unary_expression" (operands (word "typeof"))
      | "void" => node "unary_expression" (operands (word "void"))
      | "delete" => node "unary_expression" (operands (word "delete"))
      | "await" => node "await_expression" (all [word "await", self .unary context])
      | _ => primary self context
  return lead ++ trees

/-- Operands read so far, each with the operator after it, the last one first. -/
abbrev Pending (whole : List Char) := List (Forest whole × Operator × Forest whole)

/-- Joins operands whose operator binds at least as strongly as the one to come. -/
def Pending.reduce (binds : Operator → Bool) (right : Forest whole) :
    Pending whole → Forest whole × Pending whole
  | [] => (right, [])
  | (left, operator, sign) :: pending =>
    if binds operator then
      reduce binds (wrap "binary_expression"
        (setField "left" left ++ setField "operator" sign ++ setField "right" right)) pending
    else (right, (left, operator, sign) :: pending)

def binaryOperator : Parser whole (Operator × Forest whole) := do
  match Operator.ofMarks? (← rest) with
  | some operator => return (operator, ← mark operator.text)
  | none =>
    if ← seesWord "instanceof" then
      return (⟨"instanceof", Operator.wordStrength, false⟩, ← word "instanceof")
    guard context.inOperator
    return (⟨"in", Operator.wordStrength, false⟩, ← word "in")

def conversion : Parser whole (Forest whole → Forest whole) := do
  guard (← sameLine context)
  if ← seesWord "as" then
    let trees ← all [word "as", either (word "const") (self .type context)]
    return fun left => wrap "as_expression" (left ++ trees)
  let trees ← all [word "satisfies", self .type context]
  return fun left => wrap "satisfies_expression" (left ++ trees)

def binaryFrom : Nat → Pending whole → Forest whole → Rule whole
  | 0, pending, right => return (Pending.reduce (fun _ => true) right pending).1
  | count + 1, pending, right => fun input =>
    match conversion self context input with
    | some (convert, next) =>
      let (left, pending) := Pending.reduce (Operator.wordStrength ≤ ·.strength) right pending
      binaryFrom count pending (convert left) next
    | none =>
      let step : Parser whole (Operator × Forest whole × Forest whole) := do
        let (operator, sign) ← binaryOperator context
        return (operator, sign, ← unary self context)
      match step input with
      | some ((operator, sign, operand), next) =>
        let binds := fun other : Operator =>
          operator.strength < other.strength ||
            (operator.strength == other.strength && !operator.rightToLeft)
        let (left, pending) := Pending.reduce binds right pending
        binaryFrom count ((left, operator, sign) :: pending) operand next
      | none => some ((Pending.reduce (fun _ => true) right pending).1, input)

def binary : Rule whole := do
  binaryFrom self context (← get).size [] (← unary self context)

def arrowHead : Rule whole :=
  let context := context.inner
  oneOf
    [field "parameter" (name "identifier"),
      all
        [field "type_parameters" (maybe (self .typeParameters context)),
          field "parameters" (self .parameters context)]]

def arrow : Rule whole := do
  let result : Rule whole :=
    if context.resultType then
      maybe (field "return_type" (Types.colonResult self context.inner))
    else empty
  let head : Rule whole := do
    let trees ← arrowHead self context
    let plain := trees.any (·.kind == "identifier")
    return trees ++ (← all [if plain then empty else result, mark "=>"])
  let start ← oneOf [head, all [word "async", head]]
  let body ← if ← sees "\x7b" then self .block context.outer else self .expression context
  return wrap "arrow_function" (start ++ setField "body" body)

def mayStartArrow : Parser whole Bool := do
  match ← rest with
  | '(' :: _ => return true
  | '<' :: _ => return true
  | chars =>
    let length := wordLength chars
    return 0 < length && ((← seesWord "async") || (← follows (all [name "identifier", mark "=>"])))

def yielded : Rule whole := do
  let sign ← word "yield"
  let star ← maybe (mark "*")
  let value ← maybe (do
    guard (← sameLine context)
    self .expression context)
  return wrap "yield_expression" (sign ++ star ++ value)

def ternary (condition : Forest whole) : Rule whole := do
  let sign ← mark "?"
  let branch := fun (resultType : Bool) => all
    [field "consequence"
      (self .expression { context with inOperator := true, resultType := resultType }),
      mark ":"]
  let consequence ← either (branch true) (branch false)
  return wrap "ternary_expression" (setField "condition" condition ++ sign ++ consequence ++
    setField "alternative" (← self .expression context))

def seesTernary : Parser whole Bool := do
  match ← rest with
  | '?' :: '?' :: _ => return false
  | '?' :: '.' :: char :: _ => return isDigit char
  | '?' :: _ => return true
  | _ => return false

def assignmentOrChoice : Rule whole := do
  let left ← binary self context
  if ← seesTernary then ternary self context left
  else if ← follows equals then
    return wrap "assignment_expression" (setField "left" (Patterns.ofForest left) ++
      (← equals) ++ setField "right" (← self .expression context))
  else
    match Operator.startsWithAny Operator.assignments (← rest) with
    | some text =>
      return wrap "augmented_assignment_expression" (setField "left" left ++
        setField "operator" (← mark text) ++ setField "right" (← self .expression context))
    | none => return left

def expression : Rule whole := do
  let lead ← markupComments
  let trees ← if ← seesWord "yield" then yielded self context
    else if ← mayStartArrow then either (arrow self context) (assignmentOrChoice self context)
    else assignmentOrChoice self context
  return lead ++ trees

end Expressions

end StoryKnobs.Grammar

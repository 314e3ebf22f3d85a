import StoryKnobs.Grammar.Expressions

/-!
# Classes

Decorators and the members of a class. The decorators of a field are children of the field; those
of a method stand before it in the class body.
-/

namespace StoryKnobs.Grammar

open Rule Syntax

namespace Classes

variable {whole : List Char} (self : Rules whole) (context : Context)

def decoratorPath : Rule whole :=
  Types.dotted "member_expression" "object" "property_identifier" (name "identifier")

def decoratorCall : Rule whole := do
  let path ← decoratorPath
  let call ← maybe <| all
    [field "type_arguments" (maybe (self .typeArguments context)),
      field "arguments" (self .arguments context)]
  if call.isEmpty then return path
  return wrap "call_expression" (setField "function" path ++ call)

def decorator : Rule whole :=
  node "decorator" <| all
    [mark "@",
      either
        (node "parenthesized_expression"
          (all [mark "(", decoratorCall self context.inner, mark ")"]))
        (decoratorCall self context)]

def staticBlock : Rule whole :=
  node "class_static_block" (all [word "static", field "body" (self .block context.outer)])

def fieldBody : Rule whole := all
  [Types.modifiers context, field "name" (self .propertyName context),
    maybe (either (mark "?") (mark "!")), field "type" (maybe (Types.colonType self context)),
    maybe (Patterns.initializer self context)]

/-- A method after its decorators, without a body unless `complete` holds. -/
def methodBody (complete : Bool) : Rule whole := all
  [Types.modifiers context, maybe (Types.methodSort context),
    field "name" (self .propertyName context), maybe (mark "?"), Types.signature self context,
    if complete then field "body" (self .block context.outer) else empty]

def memberEnd (afterOperand : Bool) : Rule whole := either (mark ",") (semicolon afterOperand)

/-- A field ends with its initial value, or with its name or type. -/
def fieldEnd (parts : Forest whole) : Rule whole :=
  memberEnd (parts.fills "value")

def skipToken : Rule whole := do
  let chars ← rest
  guard !chars.isEmpty
  let length := match wordLength chars, numberLength chars with
    | 0, 0 => 1
    | 0, length => length
    | length, _ => length
  node Tree.errorKind (stray length)

def memberAfter (decorators : Forest whole) : Rule whole :=
  let method : Rule whole := do
    let body ← methodBody self context true
    return decorators ++ wrap "method_definition" body ++ (← maybe (semicolon false))
  let signature : Rule whole := do
    guard decorators.isEmpty
    let body ← methodBody self context false
    let member := if body.any (·.kind == "abstract") then wrap "abstract_method_signature" body
      else wrap "method_signature" body
    return member ++ (← memberEnd false)
  let plain : Rule whole := do
    let body ← fieldBody self context
    return wrap "public_field_definition" (decorators ++ body) ++ (← fieldEnd body)
  let index : Rule whole := do
    guard decorators.isEmpty
    all [Types.indexSignature self context, memberEnd false]
  oneOf [index, method, signature, plain]

def decorators : Rule whole :=
  many (either (field "decorator" (self .decorator context)) markupComment)

/-- An error right after the last token, where a token is missing. -/
def missing (input : Input whole) : Forest whole :=
  .leaf Tree.errorKind ⟨input.afterOffset, input.afterOffset⟩

/-- A member without a proper end, or one that starts after tokens that fit no rule. -/
def recovered : Nat → Forest whole → Rule whole
  | 0, _ => fail
  | count + 1, found => do
    if ← sees "\x7d" then
      guard !found.isEmpty
      return found ++ missing (← get)
    oneOf
      [memberAfter self context found,
        do
          let body ← either (methodBody self context true) (fieldBody self context)
          if body.fills "body" then
            return found ++ wrap "method_definition" body ++ missing (← get)
          else return wrap "public_field_definition" (found ++ body) ++ missing (← get),
        do
          let skipped ← skipToken
          recovered count (found ++ skipped)]

def member : Rule whole := do
  let lead ← markupComments
  let trees ← oneOf
    [mark ";", staticBlock self context,
      do
        let found ← decorators self context
        either (memberAfter self context found) (do
          guard context.recovers
          recovered self context (← get).size found)]
  return lead ++ trees

def classBody : Rule whole :=
  let context := context.outer
  node "class_body" <| all
    [mark "\x7b", many (member self context), markupComments,
      if context.recovers then either (mark "\x7d") empty else mark "\x7d"]

end Classes

end StoryKnobs.Grammar

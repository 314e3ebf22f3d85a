import StoryKnobs.Grammar.Classes

/-!
# Statements and declarations
-/

namespace StoryKnobs.Grammar

open Rule Syntax

namespace Statements

variable {whole : List Char} (self : Rules whole) (context : Context)

/-- Words that start a statement or end one and so are no names where a statement may start. -/
def startWords : List String :=
  ["if", "else", "for", "while", "do", "try", "catch", "finally", "switch", "case", "default",
    "return", "throw", "break", "continue", "debugger", "with", "var", "const", "class", "import",
    "export", "enum", "extends", "in", "instanceof"]

def expressionStatement : Rule whole := do
  let text ← peekWord
  guard (!startWords.contains text || text == "import" || text == "class")
  guard !(← sees "\x7b")
  node "expression_statement" (all [self .expressions context, semicolon true])

def declarator : Rule whole :=
  node "variable_declarator" <| all
    [field "name" (self .target context), maybe (mark "!"),
      field "type" (maybe (Types.colonType self context)),
      maybe (Patterns.initializer self context)]

def variableDeclaration : Rule whole := do
  let isVar ← seesWord "var"
  let start ← oneOf
    [word "var", do
      let trees ← field "kind" (either (word "let") (word "const"))
      guard !((← seesWord "in") || (← seesWord "of") || (← seesWord "instanceof") ||
        (← seesWord "enum"))
      return trees]
  let parts ← sepBy (declarator self context) (mark ",")
  let ending ← semicolon (parts.lastFills "value")
  if isVar then return wrap "variable_declaration" (start ++ parts ++ ending)
  else return wrap "lexical_declaration" (start ++ parts ++ ending)

def functionDeclaration : Rule whole := do
  let head ← all [maybe (word "async"), word "function"]
  let star ← maybe (mark "*")
  let signature ← all [field "name" (name "identifier"), Types.signature self context.inner]
  if ← sees "\x7b" then
    let body ← field "body" (self .block context.outer)
    if star.isEmpty then return wrap "function_declaration" (head ++ signature ++ body)
    else return wrap "generator_function_declaration" (head ++ star ++ signature ++ body)
  return wrap "function_signature" (head ++ star ++ signature ++ (← semicolon false))

def classDeclaration : Rule whole := do
  let decorators ← many (field "decorator" (self .decorator context))
  let abstract ← maybe (word "abstract")
  let body ← Expressions.classFrom self context (word "class")
  guard (body.fills "name")
  if abstract.isEmpty then return wrap "class_declaration" (decorators ++ body)
  else return wrap "abstract_class_declaration" (decorators ++ abstract ++ body)

def interfaceDeclaration : Rule whole :=
  node "interface_declaration" <| all
    [word "interface", field "name" (name "type_identifier"),
      field "type_parameters" (maybe (self .typeParameters context)),
      maybe (node "extends_type_clause" (all
        [word "extends", sepBy (field "type" (self .type context.inner)) (mark ",")])),
      field "body" (do
        let trees ← self .objectType context
        return trees.retag (·.kind == "object_type") "interface_body")]

def typeAlias : Rule whole :=
  node "type_alias_declaration" <| all
    [word "type", field "name" (name "type_identifier"),
      field "type_parameters" (maybe (self .typeParameters context)), equals,
      field "value" (self .type context), semicolon false]

def enumDeclaration : Rule whole :=
  let context := context.inner
  let member := do
    let left ← field "name" (self .propertyName context)
    if ← follows equals then
      return wrap "enum_assignment" (left ++ (← Patterns.initializer self context))
    else return left
  node "enum_declaration" <| all
    [maybe (word "const"), word "enum", field "name" (name "identifier"),
      field "body" (node "enum_body" (all [mark "\x7b", commaList member, mark "\x7d"]))]

def moduleParts : Rule whole := all
  [field "name" (either quoted (do
      let first ← name "identifier"
      Types.dotted "nested_identifier" "object" "property_identifier" (pure first))),
    field "body" (maybe (self .block context))]

def namespaceDeclaration : Rule whole :=
  either
    (node "expression_statement" <|
      all [node "internal_module" (all [word "namespace", moduleParts self context]),
        maybe (semicolon false)])
    (do
      let trees ← node "module" (all [word "module", moduleParts self context])
      guard (trees.lastFills "body")
      return trees)

def moduleNames (kind : String) (hkind : isPlain kind := by exact Eq.refl true) : Rule whole :=
  let exported := either quoted (name "identifier")
  let typed := maybe (do
    let trees ← either (word "type") (word "typeof")
    guard !((← sees ",") || (← sees "\x7d") || (← seesWord "as"))
    return trees)
  all
    [mark "\x7b",
      commaList (node kind (all
        [typed, field "name" exported, maybe (all [word "as", field "alias" exported])]) hkind),
      mark "\x7d"]

def source : Rule whole := all [word "from", field "source" quoted]

def importAttribute : Rule whole :=
  node "import_attribute" <|
    all [either (word "with") (word "assert"), Expressions.object self context]

def importStatement : Rule whole :=
  let wholeModule := node "namespace_import" (all [mark "*", word "as", name "identifier"])
  let named := node "named_imports" (moduleNames "import_specifier")
  let clause := node "import_clause" <| oneOf
    [wholeModule, named,
      all [name "identifier", maybe (all [mark ",", either wholeModule named])]]
  let required := node "import_require_clause" <| all
    [name "identifier", mark "=", word "require", mark "(", field "source" quoted, mark ")"]
  let typed := maybe (do
    let trees ← either (word "type") (word "typeof")
    guard !((← seesWord "from") || (← sees ",") || (← sees "="))
    return trees)
  oneOf
    [node "import_statement" <| all
        [word "import", oneOf
          [field "source" quoted, all [typed, clause, source], all [typed, required],
            all [clause, source]],
          maybe (importAttribute self context), semicolon false],
      node "import_alias" <| all
        [word "import", name "identifier", mark "=",
          Types.dotted "nested_identifier" "object" "property_identifier" (name "identifier"),
          semicolon false]]

def declaration : Rule whole := oneOf
  [variableDeclaration self context, functionDeclaration self context,
    classDeclaration self context, interfaceDeclaration self context, typeAlias self context,
    enumDeclaration self context, namespaceDeclaration self context, importStatement self context]

def ambient : Rule whole :=
  node "ambient_declaration" <| all
    [word "declare", oneOf
      [all [word "global", self .block context],
        all [node "module" (all [word "module", field "name" quoted, maybe (self .block context)]),
          maybe (semicolon false)],
        declaration self context]]

def exportStatement : Rule whole := do
  let decorators ← many (field "decorator" (self .decorator context))
  let names := node "export_clause" (moduleNames "export_specifier")
  let all_ := all [mark "*", maybe (node "namespace_export" (all [word "as",
    either quoted (name "identifier")]))]
  let rest ← all
    [word "export", oneOf
      [all [word "default", oneOf
          [field "declaration" (either (functionDeclaration self context)
              (either (classDeclaration self context) (interfaceDeclaration self context))),
            all [field "value" (self .expression context), semicolon true]]],
        all [maybe (word "type"), either all_ names, source,
          maybe (importAttribute self context), semicolon false],
        all [maybe (word "type"), names, semicolon false],
        all [mark "=", self .expression context, semicolon true],
        all [word "as", word "namespace", name "identifier", semicolon false],
        field "declaration" (either (ambient self context) (declaration self context))]]
  return wrap "export_statement" (decorators ++ rest)

def condition : Rule whole := Expressions.parenthesized self context

def ifStatement : Rule whole :=
  node "if_statement" <| all
    [word "if", field "condition" (condition self context),
      field "consequence" (self .statement context),
      field "alternative" (maybe (node "else_clause" (all
        [word "else", self .statement context])))]

def memberHead : Rule whole :=
  let context := context.inner
  let left : Rule whole := either
    (all
      [field "kind" (oneOf [word "var", word "let", word "const"]),
        field "left" (self .target context),
        maybe (Patterns.initializer self { context with inOperator := false })])
    (return setField "left"
      (Patterns.ofForest (← self .unary { context with inOperator := false })))
  all
    [left, field "operator" (either (word "in") (word "of")),
      field "right" (self .expressions context)]

def forStatement : Rule whole :=
  let inside := context.inner
  let start := { inside with inOperator := false }
  oneOf
    [node "for_in_statement" <| all
        [word "for", maybe (word "await"), mark "(", memberHead self context, mark ")",
          field "body" (self .statement context)],
      node "for_statement" <| all
        [word "for", mark "(",
          field "initializer" (oneOf
            [node "empty_statement" (mark ";"), variableDeclaration self start,
              node "expression_statement" (all [self .expressions start, mark ";"])]),
          field "condition" (either (node "empty_statement" (mark ";"))
            (node "expression_statement" (all [self .expressions inside, mark ";"]))),
          field "increment" (maybe (self .expressions inside)), mark ")",
          field "body" (self .statement context)]]

def whileStatement : Rule whole :=
  node "while_statement" <| all
    [word "while", field "condition" (condition self context),
      field "body" (self .statement context)]

def doStatement : Rule whole :=
  node "do_statement" <| all
    [word "do", field "body" (self .statement context), word "while",
      field "condition" (condition self context), maybe (semicolon false)]

def tryStatement : Rule whole :=
  node "try_statement" <| all
    [word "try", field "body" (self .block context),
      field "handler" (maybe (node "catch_clause" (all
        [word "catch",
          maybe (all [mark "(", field "parameter" (self .target context.inner),
            field "type" (maybe (Types.colonType self context.inner)), mark ")"]),
          field "body" (self .block context)]))),
      field "finalizer" (maybe (node "finally_clause" (all
        [word "finally", field "body" (self .block context)])))]

def switchStatement : Rule whole :=
  let body := many (do
    guard !((← seesWord "case") || (← seesWord "default"))
    self .statement context)
  let branch := oneOf
    [node "switch_case" (all
        [word "case", field "value" (self .expressions context.inner), mark ":",
          field "body" body]),
      node "switch_default" (all [word "default", mark ":", field "body" body])]
  node "switch_statement" <| all
    [word "switch", field "value" (condition self context),
      field "body" (node "switch_body" (all [mark "\x7b", many branch, mark "\x7d"]))]

def jump : Rule whole :=
  let target : Rule whole := maybe (do
    guard !(← lineBreak)
    field "label" (name "statement_identifier"))
  oneOf
    [node "return_statement" <| all
        [word "return",
          maybe (do
            guard !(← endsImplicitly false)
            self .expressions context),
          either (semicolon true) (semicolon false)],
      node "throw_statement" (all [word "throw", self .expressions context, semicolon true]),
      node "break_statement" (all [word "break", target, semicolon false]),
      node "continue_statement" (all [word "continue", target, semicolon false]),
      node "debugger_statement" (all [word "debugger", semicolon false])]

def labeled : Rule whole :=
  node "labeled_statement" <| all
    [field "label" (name "statement_identifier"), mark ":", field "body" (self .statement context)]

def statements : Rule whole := all
  [many (do
    guard !(← sees "\x7d")
    either (self .statement context) (do
      guard context.recovers
      Classes.skipToken)), markupComments]

def block : Rule whole :=
  let context := context.outer
  node "statement_block" <| all
    [mark "\x7b", statements self context,
      if context.recovers then either (mark "\x7d") empty else mark "\x7d"]

def startingWith (text : String) : List (Rule whole) :=
  match text with
  | "var" => [variableDeclaration self context]
  | "let" => [variableDeclaration self context]
  | "const" => [enumDeclaration self context, variableDeclaration self context]
  | "function" => [functionDeclaration self context]
  | "async" => [functionDeclaration self context]
  | "class" => [classDeclaration self context]
  | "abstract" => [classDeclaration self context]
  | "interface" => [interfaceDeclaration self context]
  | "type" => [typeAlias self context]
  | "enum" => [enumDeclaration self context]
  | "namespace" => [namespaceDeclaration self context]
  | "module" => [namespaceDeclaration self context]
  | "declare" => [ambient self context]
  | "import" => [importStatement self context]
  | "export" => [exportStatement self context]
  | "if" => [ifStatement self context]
  | "for" => [forStatement self context]
  | "while" => [whileStatement self context]
  | "do" => [doStatement self context]
  | "try" => [tryStatement self context]
  | "switch" => [switchStatement self context]
  | "with" => [node "with_statement" (all
      [word "with", field "object" (condition self context),
        field "body" (self .statement context)])]
  | "return" => [jump self context]
  | "throw" => [jump self context]
  | "break" => [jump self context]
  | "continue" => [jump self context]
  | "debugger" => [jump self context]
  | _ => []

def statement : Rule whole := do
  let context := context.outer
  let lead ← markupComments
  let trees ← match ← rest with
    | ';' :: _ => node "empty_statement" (mark ";")
    | '\x7b' :: _ => self .block context
    | '@' :: _ => oneOf [classDeclaration self context, exportStatement self context,
        expressionStatement self context]
    | _ => do
      oneOf (startingWith self context (← peekWord) ++
        [labeled self context, expressionStatement self context])
  return lead ++ trees

end Statements

end StoryKnobs.Grammar

import StoryKnobs.Grammar.Literals

/-!
# Types

Types and what is written with them: annotations, type arguments and parameters, and the members
of object types.
-/

namespace StoryKnobs.Grammar

open Rule

def predefinedTypes : List String :=
  ["any", "number", "boolean", "string", "symbol", "void", "unknown", "never", "object"]

namespace Types

variable {whole : List Char} (self : Rules whole) (context : Context)

def predefined : Rule whole := do
  if ← seesWord "unique" then
    node "predefined_type" (all [word "unique", word "symbol"])
  else
    let text ← peekWord
    guard (predefinedTypes.contains text)
    node "predefined_type" (word text)

def thisOrName : Rule whole := either (namedWord "this") (name "identifier")

/-- Claims about the type of a value, as they stand for the result type of a function. -/
def predicate : Rule whole :=
  node "type_predicate" <| all
    [field "name" thisOrName, word "is", field "type" (self .type context)]

def assertion : Rule whole :=
  node "asserts" <| all [word "asserts", either (predicate self context) thisOrName]

def colonType : Rule whole :=
  node "type_annotation" (all [mark ":", self .type context])

def colonResult : Rule whole := oneOf
  [node "asserts_annotation" (all [mark ":", assertion self context]),
    node "type_predicate_annotation" (all [mark ":", predicate self context]),
    colonType self context]

def signature : Rule whole := all
  [field "type_parameters" (maybe (self .typeParameters context)),
    field "parameters" (self .parameters context),
    field "return_type" (maybe (colonResult self context))]

def typeArguments : Rule whole :=
  node "type_arguments" <| all
    [mark "<", commaList1 (self .type context.inner), mark ">"]

def typeParameter : Rule whole :=
  node "type_parameter" <| all
    [maybe (all [word "const"]),
      field "name" (name "type_identifier"),
      field "constraint" <| maybe <| node "constraint" <|
        all [either (word "extends") (mark ":"), self .type context.inner],
      field "value" <| maybe <| node "default_type" <|
        all [mark "=", self .type context.inner]]

def typeParameters : Rule whole :=
  node "type_parameters" <| all
    [mark "<", commaList1 (typeParameter self context), mark ">"]

/-- `base` followed by names after dots, each of which makes a node of kind `kind`. -/
def dotted (kind baseField fieldKind : String) (base : Rule whole)
    (hkind : isPlain kind := by exact Eq.refl true)
    (hfieldKind : isPlain fieldKind := by exact Eq.refl true) : Rule whole := do
  let rec go : Nat → Forest whole → Rule whole
    | 0, trees => pure trees
    | count + 1, trees => fun input =>
      match (all [mark ".", field "property" (name fieldKind hfieldKind)]) input with
      | some (more, next) => go count (wrap kind (setField baseField trees ++ more) hkind) next
      | none => some (trees, input)
  go (← get).size (← base)

/-- Names separated by dots, ending in the name of a type, and type arguments. -/
def reference : Rule whole := do
  let rec go : Nat → Forest whole → Rule whole
    | 0, trees => pure trees
    | count + 1, trees => fun input =>
      match (all [mark ".", field "property" (name "property_identifier")]) input with
      | some (more, next) =>
        match (sees "." next).map (·.1) with
        | some true => go count (wrap "nested_identifier" (setField "object" trees ++ more)) next
        | _ => some (trees, input)
      | none => some (trees, input)
  let plain : Rule whole := name "type_identifier"
  let nested : Rule whole := do
    let base ← name "identifier"
    guard (← sees ".")
    let path ← go (← get).size base
    return wrap "nested_type_identifier"
      (setField "module" path ++ (← all [mark ".", field "name" (name "type_identifier")]))
  let base ← either nested plain
  let arguments ← maybe <| do
    guard (← sameLine context)
    self .typeArguments context
  if arguments.isEmpty then return base
  else return wrap "generic_type" (setField "name" base ++ setField "type_arguments" arguments)

/-- A value reached from `import(…)`, a name or `this` by dots, brackets and type arguments. -/
def query : Rule whole := do
  let imported : Rule whole :=
    node "call_expression" <| all
      [field "function" (namedWord "import"), field "arguments" (self .arguments context)]
  let rec go : Nat → Forest whole → Rule whole
    | 0, trees => pure trees
    | count + 1, trees => fun input =>
      let member : Rule whole := all
        [either (mark ".") (mark "?."),
          field "property" (either (do
            guard (← sees "#")
            leaf "private_property_identifier" (wordLength ((← rest).drop 1) + 1))
            (name "property_identifier"))]
      match member input with
      | some (more, next) =>
        go count (wrap "member_expression" (setField "object" trees ++ more)) next
      | none => some (trees, input)
  let base ← oneOf [imported, namedWord "this", name "identifier"]
  let path ← go (← get).size base
  let arguments ← maybe <| do
    guard (← sameLine context)
    self .typeArguments context
  if arguments.isEmpty then return path
  return wrap "instantiation_expression"
    (setField "function" path ++ setField "type_arguments" arguments)

def literal : Rule whole :=
  node "literal_type" <| oneOf
    [number, quoted, node "unary_expression" (all [either (mark "-") (mark "+"), number]),
      namedWord "true", namedWord "false", namedWord "null", namedWord "undefined"]

def tupleMember : Rule whole := oneOf
  [node "required_parameter" <| all
      [field "name" (either (node "rest_pattern" (all [mark "...", name "identifier"]))
        (name "identifier")),
        field "type" (colonType self context.inner)],
    node "optional_parameter" <| all
      [field "name" (name "identifier"), mark "?", field "type" (colonType self context.inner)],
    node "rest_type" (all [mark "...", self .type context.inner]),
    do
      let type ← self .type context.inner
      if ← sees "?" then return wrap "optional_type" (type ++ (← mark "?"))
      else return type]

/-- A type without operators. -/
def atom : Rule whole := do
  match ← rest with
  | '(' :: _ =>
    node "parenthesized_type" (all [mark "(", self .type context.inner, mark ")"])
  | '[' :: _ =>
    node "tuple_type" (all [mark "[", commaList (tupleMember self context), mark "]"])
  | '\x7b' :: _ => self .objectType context.inner
  | '`' :: _ =>
    templateOf "template_literal_type" "template_type" (self .type context.inner)
  | '*' :: _ => node "existential_type" (mark "*")
  | '?' :: _ => node "flow_maybe_type" (all [mark "?", self .elementType context])
  | _ =>
    oneOf
      [node "type_query" (all [word "typeof", query self context]),
        node "index_type_query" (all [word "keyof", self .elementType context]),
        do
          guard (← seesWord "import")
          query self context,
        predefined, literal,
        do
          guard (← seesWord "this")
          leaf "this_type" 4,
        reference self context]

/-- An atom followed by `[]` or `[type]`. -/
def element : Rule whole := do
  let suffix : Rule whole := do
    guard (← sameLine context)
    all [mark "[", maybe (self .type context.inner), mark "]"]
  let rec go : Nat → Forest whole → Rule whole
    | 0, trees => pure trees
    | count + 1, trees => fun input =>
      match suffix input with
      | some (more, next) =>
        let parts := trees ++ more
        if more.trees.length ≤ 2 then go count (wrap "array_type" parts) next
        else go count (wrap "lookup_type" parts) next
      | none => some (trees, input)
  go (← get).size (← atom self context)

def functionType : Rule whole :=
  node "function_type" <| all
    [field "type_parameters" (maybe (self .typeParameters context)),
      field "parameters" (self .parameters context),
      mark "=>",
      field "return_type" <| oneOf
        [assertion self context, predicate self context, self .type context]]

def constructorType : Rule whole :=
  node "constructor_type" <| all
    [maybe (word "abstract"), word "new",
      field "type_parameters" (maybe (self .typeParameters context)),
      field "parameters" (self .parameters context),
      mark "=>",
      field "type" (self .type context)]

def inferred : Rule whole :=
  node "infer_type" <| all
    [word "infer", name "type_identifier",
      maybe (do
        let constraint ← all [word "extends", self .elementType context]
        guard !(← sees "?")
        return constraint)]

def operand : Rule whole := do
  match ← rest with
  | '(' :: _ => either (functionType self context) (element self context)
  | '<' :: _ => functionType self context
  | _ =>
    oneOf
      [node "readonly_type" (all [word "readonly", self .elementType context]),
        inferred self context, constructorType self context, element self context]

/-- Operands joined by `sign`, which may also stand before the first of them. -/
def joined (kind sign : String) (part : Rule whole)
    (hkind : isPlain kind := by exact Eq.refl true) : Rule whole := do
  let rec go : Nat → Forest whole → Rule whole
    | 0, trees => pure trees
    | count + 1, trees => fun input =>
      match (all [mark sign, part]) input with
      | some (more, next) => go count (wrap kind (trees ++ more) hkind) next
      | none => some (trees, input)
  let first ← either part (node kind (all [mark sign, part]) hkind)
  go (← get).size first

def union : Rule whole :=
  joined "union_type" "|" (joined "intersection_type" "&" (operand self context))

def type : Rule whole := do
  let left ← union self context
  let choice : Rule whole := do
    guard (← sameLine context)
    all
      [word "extends", field "right" (union self context), mark "?",
        field "consequence" (self .type context), mark ":",
        field "alternative" (self .type context)]
  let rest ← maybe choice
  if rest.isEmpty then return left
  else return wrap "conditional_type" (setField "left" left ++ rest)

/-- Type annotations of the members of a mapped type. -/
def colonIndex : Rule whole := oneOf
  [node "omitting_type_annotation" (all [mark "-?:", self .type context]),
    node "adding_type_annotation" (all [mark "+?:", self .type context]),
    node "opting_type_annotation" (all [mark "?:", self .type context]),
    colonType self context]

def indexSignature : Rule whole :=
  let readonly : Rule whole := all
    [field "sign" (maybe (either (mark "-") (mark "+"))), word "readonly"]
  let mapped : Rule whole := node "mapped_type_clause" <| all
    [field "name" (name "type_identifier"), word "in", field "type" (self .type context.inner),
      maybe (all [word "as", field "alias" (self .type context.inner)])]
  node "index_signature" <| all
    [maybe readonly, mark "[",
      either (all [field "name" (name "identifier"), mark ":",
        field "index_type" (self .type context.inner)]) mapped,
      mark "]", field "type" (maybe (colonIndex self context))]

def accessibility : Rule whole :=
  node "accessibility_modifier" (oneOf [word "public", word "private", word "protected"])

/-- A word in front of the name of a member. It is itself the name if the member ends after it or
goes on with something that follows a name. -/
def modifier (context : Context) (rule : Rule whole) : Rule whole := do
  let trees ← rule
  match ← rest with
  | [] => fail
  | char :: _ =>
    guard !(['(', ')', '=', ':', ';', ',', '\x7d', '?', '!', '<'].contains char)
    guard !(context.lineEnds && (← endsImplicitly false))
    return trees

def override : Rule whole := do
  guard (← seesWord "override")
  leaf "override_modifier" 8

def modifiers (context : Context) : Rule whole := many <| oneOf
  [modifier context accessibility, modifier context override,
    modifier context (oneOf [word "declare", word "static", word "abstract", word "readonly",
      word "accessor", word "async"])]

/-- The words or the star that tell which sort of function a member is. -/
def methodSort (context : Context) : Rule whole := oneOf
  [modifier context (word "get"), modifier context (word "set"), mark "*"]

def objectMember : Rule whole := oneOf
  [indexSignature self context,
    node "construct_signature" <| all
      [maybe (word "abstract"), word "new",
        field "type_parameters" (maybe (self .typeParameters context)),
        field "parameters" (self .parameters context),
        field "type" (maybe (colonType self context))],
    node "method_signature" <| all
      [modifiers context, maybe (methodSort context), field "name" (self .propertyName context),
        maybe (mark "?"), signature self context],
    node "call_signature" (signature self context),
    node "property_signature" <| all
      [modifiers context, field "name" (self .propertyName context), maybe (mark "?"),
        field "type" (maybe (colonType self context))]]

def objectType : Rule whole :=
  let context := context.outer
  let separator := either (mark ",") (semicolon false)
  node "object_type" <| all
    [mark "\x7b", maybe (either (mark ",") (mark ";")),
      many (all [objectMember self context, separator, many (either (mark ",") (mark ";"))]),
      mark "\x7d"]

end Types

end StoryKnobs.Grammar

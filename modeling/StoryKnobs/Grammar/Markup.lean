import StoryKnobs.Grammar.Expressions

/-!
# Markup elements

Elements written as tags, with attributes, text and embedded expressions.
-/

namespace StoryKnobs.Grammar

open Rule Syntax

namespace Markup

variable {whole : List Char} (self : Rules whole) (context : Context)

/-- Length of a name in a tag, which may contain hyphens. -/
def nameLength (chars : List Char) : Nat :=
  match wordLength chars with
  | 0 => 0
  | _ => runLength (fun char => isWordChar char || char == '-') chars

def tagWord (kind : String) (hkind : isPlain kind := by exact Eq.refl true) : Rule whole := do
  let length := nameLength (← rest)
  guard (0 < length)
  leaf kind length hkind

def spacedName (kind : String) (hkind : isPlain kind := by exact Eq.refl true) : Rule whole := do
  let first ← tagWord kind hkind
  if ← sees ":" then
    let tail ← all [mark ":", tagWord "identifier"]
    return wrap "jsx_namespace_name" (first.retag (fun _ => true) "identifier" ++ tail)
  return first

def elementName : Rule whole := do
  let first ← spacedName "identifier"
  if ← sees "." then
    Types.dotted "member_expression" "object" "property_identifier" (pure first)
  else return first

def characterReference : Rule whole := do
  match ← after with
  | '&' :: chars =>
    let length := runLength (fun char => char.isAlphanum || char == '#') chars
    guard (0 < length && chars[length]? == some ';')
    tight "html_character_reference" (length + 2)
  | _ => fail

theorem advances_characterReference : Advances (characterReference : Rule whole) := by
  refine advances_after fun chars => ?_
  split
  · exact advances_guard (advances_tight _ _ _)
  · exact advances_fail

def ampersand : Rule whole := do
  guard ((← after).head? == some '&')
  tight "string_fragment" 1

theorem advances_ampersand : Advances (ampersand : Rule whole) :=
  advances_after fun _ => advances_guard (advances_tight _ _ _)

def attributeText (quote : Char) (hquote : quotes.contains quote := by exact Eq.refl true) :
    Rule whole :=
  let plain := fragment (runLength fun char => char != quote && char != '&')
  quotation quote (either plain (either characterReference ampersand)) false hquote <|
    advances_either (advances_fragment _)
      (advances_either advances_characterReference advances_ampersand)

def embedded : Rule whole :=
  let context := context.inner
  node "jsx_expression" <| all
    [mark "\x7b", maybe (either (Expressions.spread self context) (self .expressions context)),
      mark "\x7d"]

def tagAttribute : Rule whole := either (embedded self context) <|
  node "jsx_attribute" <| all
    [spacedName "property_identifier",
      maybe (all [mark "=", oneOf [attributeText '\'', attributeText '"', embedded self context,
        self .markupElement context]])]

/-- Length of the text before the next tag, brace or reference. It is zero if there is nothing but
line breaks and the blanks that follow them. -/
def textLength (chars : List Char) : Nat :=
  let text := chars.takeWhile fun char => !(['<', '>', '\x7b', '\x7d', '&'].contains char)
  let rec hasText : Bool → List Char → Bool
    | _, [] => false
    | afterBreak, char :: chars =>
      if char == '\n' then hasText true chars
      else if afterBreak && isBlank char then hasText true chars
      else true
  if hasText false text then text.length else 0

def text : Rule whole := do
  let length := textLength (← after)
  guard (0 < length)
  tight "jsx_text" length

def child : Rule whole := oneOf
  [text, characterReference, embedded self context,
    do
      guard !(← sees "</")
      self .markupElement context]

def tagStart : Rule whole := all
  [mark "<",
    maybe (all
      [field "name" elementName, field "type_arguments" (maybe (self .typeArguments context)),
        many (field "attribute" (tagAttribute self context))])]

def element : Rule whole := do
  let start ← tagStart self context
  if ← sees "/" then
    return wrap "jsx_self_closing_element" (start ++ (← all [mark "/", mark ">"]))
  let opening := wrap "jsx_opening_element" (start ++ (← mark ">"))
  let children ← many (child self context)
  let closing ← node "jsx_closing_element" <|
    all [mark "<", mark "/", field "name" (maybe elementName), mark ">"]
  return wrap "jsx_element"
    (setField "open_tag" opening ++ children ++ setField "close_tag" closing)

end Markup

end StoryKnobs.Grammar

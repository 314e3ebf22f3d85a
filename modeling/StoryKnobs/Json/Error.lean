import StoryKnobs.Json.Value
import StoryKnobs.Text.Quoted

/-!
# Errors of JSON readers

Why a text or a value cannot be read, and where reading stopped.
-/

namespace StoryKnobs.Json

inductive Found where
  | null
  | bool (value : Bool)
  | number (value : Number)
  | string (text : String)
  | sequence
  | map
deriving Repr, Inhabited

namespace Found

def ofValue : Value → Found
  | .null => null
  | .bool value => bool value
  | .number value => number value
  | .string text => string text
  | .array _ => sequence
  | .object _ => map

def text : Found → String
  | null => "null"
  | bool value => "boolean `" ++ (if value then "true" else "false") ++ "`"
  | number (.integer value) => "integer `" ++ (Number.integer value).text ++ "`"
  | number (.float value) => "floating point `" ++ (Number.float value).text ++ "`"
  | string text => "string " ++ Text.quoted text
  | sequence => "sequence"
  | map => "map"

end Found

inductive Cause where
  | endInList
  | endInObject
  | endInString
  | endInValue
  | expectedColon
  | expectedListEnd
  | expectedObjectEnd
  | expectedKeyword
  | expectedValue
  | badEscape
  | badNumber
  | numberRange
  | controlCharacter
  | keyNotString
  | loneSurrogate
  | brokenSurrogate
  | trailingComma
  | trailingCharacters
  | wrongType (found : Found) (expected : String)
  | wrongValue (found : Found) (expected : String)
  | wrongLength (length : Nat) (expected : String)
  | duplicateField (name : String)
  | missingField (name : String)
  | unknownVariant (name : String) (expected : List String)
deriving Repr, Inhabited

/-- What sort of fault a cause is: the text ends too early, is no JSON, or is JSON for something
else. -/
inductive Category where
  | endOfText
  | form
  | content
deriving DecidableEq, Repr, Inhabited

namespace Cause

def category : Cause → Category
  | endInList | endInObject | endInString | endInValue => .endOfText
  | wrongType _ _ | wrongValue _ _ | wrongLength _ _ | duplicateField _ | missingField _
  | unknownVariant _ _ => .content
  | _ => .form

/-- A name in the marks that messages put around names. -/
def marked (name : String) : String := "`" ++ name ++ "`"

def alternatives (names : List String) : String :=
  match names with
  | [name] => marked name
  | [name, other] => marked name ++ " or " ++ marked other
  | _ => "one of " ++ ", ".intercalate (names.map marked)

def message : Cause → String
  | endInList => "EOF while parsing a list"
  | endInObject => "EOF while parsing an object"
  | endInString => "EOF while parsing a string"
  | endInValue => "EOF while parsing a value"
  | expectedColon => "expected `:`"
  | expectedListEnd => "expected `,` or `]`"
  | expectedObjectEnd => "expected `,` or `\x7d`"
  | expectedKeyword => "expected ident"
  | expectedValue => "expected value"
  | badEscape => "invalid escape"
  | badNumber => "invalid number"
  | numberRange => "number out of range"
  | controlCharacter => "control character (\\u0000-\\u001F) found while parsing a string"
  | keyNotString => "key must be a string"
  | loneSurrogate => "lone leading surrogate in hex escape"
  | brokenSurrogate => "unexpected end of hex escape"
  | trailingComma => "trailing comma"
  | trailingCharacters => "trailing characters"
  | wrongType found expected => "invalid type: " ++ found.text ++ ", expected " ++ expected
  | wrongValue found expected => "invalid value: " ++ found.text ++ ", expected " ++ expected
  | wrongLength length expected => "invalid length " ++ toString length ++ ", expected " ++ expected
  | duplicateField name => "duplicate field " ++ marked name
  | missingField name => "missing field " ++ marked name
  | unknownVariant name expected =>
    "unknown variant " ++ marked name ++ ", expected " ++ alternatives expected

end Cause

/-- A place in a text: the line, counted from one, and the number of bytes before it on that line. -/
structure Place where
  line : Nat
  column : Nat
deriving DecidableEq, Repr, Inhabited

namespace Place

def advance (place : Place) : List Char → Nat → Place
  | _, 0 => place
  | [], _ => place
  | char :: chars, count + 1 =>
    if char == '\n' then advance ⟨place.line + 1, 0⟩ chars count
    else if char.utf8Size ≤ count + 1 then
      advance ⟨place.line, place.column + char.utf8Size⟩ chars (count + 1 - char.utf8Size)
    else ⟨place.line, place.column + (count + 1)⟩

def ofIndex (text : String) (index : Nat) : Place := advance ⟨1, 0⟩ text.toList index

end Place

/-- A cause, with a place if a text was read and not a value. -/
structure Error where
  cause : Cause
  place : Option Place := none
deriving Repr, Inhabited

namespace Error

def message (error : Error) : String :=
  match error.place with
  | none => error.cause.message
  | some place =>
    error.cause.message ++ " at line " ++ toString place.line ++ " column " ++
      toString place.column

end Error

end StoryKnobs.Json

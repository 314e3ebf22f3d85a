import StoryKnobs.Decimal.Shortest

/-!
# JSON values

Values with the members of an object in the order in which they are visited, and how they are
written: in one piece, or spread over lines with two blanks for each level.
-/

namespace StoryKnobs.Json

/-- A number is kept as an integer where it can be. -/
inductive Number where
  | integer (value : Int)
  | float (value : Float)
deriving Repr, Inhabited

/-- Numbers with a fraction or an exponent have the fewest digits that read back as the same number.
The point is written out from the fifth place behind it to the sixteenth before it. -/
def Number.layout : Decimal.Layout where
  lowest := -4
  highest := 16
  exponentMark := "e"

namespace Number

def text : Number → String
  | integer value => toString value
  | float value => layout.write value

end Number

inductive Value where
  | null
  | bool (value : Bool)
  | number (value : Number)
  | string (text : String)
  | array (elements : List Value)
  | object (members : List (String × Value))
deriving Repr, Inhabited

def hexDigits : List Char :=
  ['0', '1', '2', '3', '4', '5', '6', '7', '8', '9', 'a', 'b', 'c', 'd', 'e', 'f']

def hexDigit (value : Nat) : Char := hexDigits[value]?.getD '0'

/-- How a character is written in a quoted text. Quotes, backslashes and control characters are
escaped; all else stands for itself. -/
def escape (char : Char) : List Char :=
  if char == '"' then ['\\', '"']
  else if char == '\\' then ['\\', '\\']
  else if char == '\n' then ['\\', 'n']
  else if char == '\r' then ['\\', 'r']
  else if char == '\t' then ['\\', 't']
  else if char.toNat == 0x08 then ['\\', 'b']
  else if char.toNat == 0x0C then ['\\', 'f']
  else if char.toNat < 0x20 then
    ['\\', 'u', '0', '0', hexDigit (char.toNat / 16), hexDigit (char.toNat % 16)]
  else [char]

def quote (text : String) : String :=
  String.ofList ('"' :: text.toList.flatMap escape ++ ['"'])

namespace Value

/-- The text of a value that has no parts; empty for others. -/
def atomText : Value → String
  | null => "null"
  | bool true => "true"
  | bool false => "false"
  | number value => value.text
  | string text => quote text
  | array _ => ""
  | object _ => ""

mutual

def compact : Value → String
  | array elements => "[" ++ ",".intercalate (compactElements elements) ++ "]"
  | object members => "\x7b" ++ ",".intercalate (compactMembers members) ++ "\x7d"
  | value => value.atomText

def compactElements : List Value → List String
  | [] => []
  | value :: values => compact value :: compactElements values

def compactMembers : List (String × Value) → List String
  | [] => []
  | (key, value) :: members => (quote key ++ ":" ++ compact value) :: compactMembers members

end

/-- A new line with two blanks for each level. -/
def newLine (level : Nat) : String := "\n" ++ String.ofList (List.replicate (2 * level) ' ')

def spread (level : Nat) (opening closing : String) (parts : List String) : String :=
  if parts.isEmpty then opening ++ closing
  else
    opening ++ newLine (level + 1) ++ ("," ++ newLine (level + 1)).intercalate parts ++
      newLine level ++ closing

mutual

/-- The text of a value over several lines, where the first line stands at level `level`. -/
def prettyAt (level : Nat) : Value → String
  | array elements => spread level "[" "]" (prettyElements (level + 1) elements)
  | object members => spread level "\x7b" "\x7d" (prettyMembers (level + 1) members)
  | value => value.atomText

def prettyElements (level : Nat) : List Value → List String
  | [] => []
  | value :: values => prettyAt level value :: prettyElements level values

def prettyMembers (level : Nat) : List (String × Value) → List String
  | [] => []
  | (key, value) :: members =>
    (quote key ++ ": " ++ prettyAt level value) :: prettyMembers level members

end

def pretty (value : Value) : String := value.prettyAt 0

end Value

end StoryKnobs.Json

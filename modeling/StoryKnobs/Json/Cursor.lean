import StoryKnobs.Json.Error

/-!
# Reading along a text

A reader moves a cursor over the characters of a text and either gives a value or stops with a cause
at a byte of the text.
-/

namespace StoryKnobs.Json

/-- The characters still to be read, and the number of bytes before them. -/
structure Cursor where
  index : Nat
  rest : List Char
deriving DecidableEq, Repr, Inhabited

/-- Why and where reading stopped. -/
structure Stop where
  cause : Cause
  index : Nat
deriving Repr, Inhabited

abbrev Reader := StateT Cursor (Except Stop)

namespace Reader

variable {α : Type}

def peek? : Reader (Option Char) := return (← get).rest.head?

/-- Moves past the next character. -/
def advance : Reader Unit := modify fun cursor =>
  match cursor with
  | ⟨index, []⟩ => ⟨index, []⟩
  | ⟨index, char :: chars⟩ => ⟨index + char.utf8Size, chars⟩

def stopAt (index : Nat) (cause : Cause) : Reader α := fun _ => .error ⟨cause, index⟩

/-- Stops behind what has been read. -/
def stop (cause : Cause) : Reader α := fun cursor => .error ⟨cause, cursor.index⟩

/-- Stops behind the first byte of the next character, if there is one. -/
def stopNext (cause : Cause) : Reader α := fun cursor =>
  .error ⟨cause, if cursor.rest.isEmpty then cursor.index else cursor.index + 1⟩

def isBlank (char : Char) : Bool := char == ' ' || char == '\n' || char == '\t' || char == '\r'

/-- The cursor behind all blanks. -/
def passBlanks : Nat → List Char → Cursor
  | index, [] => ⟨index, []⟩
  | index, char :: chars =>
    if isBlank char then passBlanks (index + 1) chars else ⟨index, char :: chars⟩

/-- Moves past blanks. -/
def blanks : Reader Unit := modify fun cursor => passBlanks cursor.index cursor.rest

def peekToken? : Reader (Option Char) := do
  blanks
  peek?

def keyword : List Char → Reader Unit
  | [] => return
  | char :: chars => do
    match ← peek? with
    | none => stop .endInValue
    | some next =>
      if next == char then
        advance
        keyword chars
      else stopAt ((← get).index + 1) .expectedKeyword

def colon : Reader Unit := do
  match ← peekToken? with
  | some ':' => advance
  | some _ => stopNext .expectedColon
  | none => stopNext .endInObject

def ending : Reader Unit := do
  match ← peekToken? with
  | some _ => stopNext .trailingCharacters
  | none => return

def run (reader : Reader α) (text : String) : Except Error α :=
  match (do let value ← reader; ending; return value : Reader α) ⟨0, text.toList⟩ with
  | .ok (value, _) => .ok value
  | .error stop => .error ⟨stop.cause, some (.ofIndex text stop.index)⟩

end Reader

end StoryKnobs.Json

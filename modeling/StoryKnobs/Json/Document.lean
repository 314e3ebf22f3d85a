import StoryKnobs.Json.Record

/-!
# Reading documents

A document is a text that holds one value of any kind, with blanks around it. The members of an
object are kept in the order in which they are written.
-/

namespace StoryKnobs.Json

namespace Reader

variable {α : Type}

/-- At most `count` items with commas between them, each read by `item`, up to the bracket
`closing`. -/
def items (item : Reader α) (closing : Char) (onEnd onOther : Cause) : Nat → Reader (List α)
  | 0 => stop onEnd
  | count + 1 => do
    let first ← item
    match ← peekToken? with
    | none => stopNext onEnd
    | some char =>
      if char == closing then
        advance
        return [first]
      else if char == ',' then
        advance
        return first :: (← items item closing onEnd onOther count)
      else stopNext onOther

/-- The items of an array or an object behind its opening bracket. -/
def between (item : Reader α) (closing : Char) (onEnd onOther : Cause) : Reader (List α) := do
  match ← peekToken? with
  | none => stopNext onEnd
  | some char =>
    if char == closing then
      advance
      return []
    else items item closing onEnd onOther ((← get).rest.length + 1)

def member (value : Reader α) : Reader (String × α) := do
  match ← peekToken? with
  | none => stopNext .endInObject
  | some '"' =>
    advance
    let key ← string
    colon
    return (key, ← value)
  | some _ => stopNext .keyNotString

def valueUpTo : Nat → Reader Value
  | 0 => stop .endInValue
  | depth + 1 => do
    match ← peekToken? with
    | none => stopNext .endInValue
    | some 'n' =>
      keyword ['n', 'u', 'l', 'l']
      return .null
    | some 't' =>
      keyword ['t', 'r', 'u', 'e']
      return .bool true
    | some 'f' =>
      keyword ['f', 'a', 'l', 's', 'e']
      return .bool false
    | some '-' =>
      advance
      return .number (← number true)
    | some '"' =>
      advance
      return .string (← string)
    | some '[' =>
      advance
      return .array (← between (valueUpTo depth) ']' .endInList .expectedListEnd)
    | some '\x7b' =>
      advance
      return .object (← between (member (valueUpTo depth)) '\x7d' .endInObject .expectedObjectEnd)
    | some char => if isDigit char then return .number (← number false) else stopNext .expectedValue

def value : Reader Value := do valueUpTo ((← get).rest.length + 1)

end Reader

def Value.parse (text : String) : Except Error Value := Reader.value.run text

end StoryKnobs.Json

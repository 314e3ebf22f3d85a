import StoryKnobs.Json.Numbers
import StoryKnobs.Json.Strings

/-!
# Reading records and choices

A record is read from an object, whose unknown members are passed over, or from an array that holds
the fields in order. A choice between names is read from the name, or from an object whose only
member has that name and the value `null`. Both can also be read from a JSON value.
-/

namespace StoryKnobs.Json

/-- A record: how messages call it, and its fields in order. -/
structure Shape where
  title : String
  fields : List String
deriving DecidableEq, Repr, Inhabited

namespace Shape

/-- How messages name an array of the wrong length. -/
def counted (shape : Shape) : String :=
  shape.title ++ " with " ++ toString shape.fields.length ++ " elements"

end Shape

namespace Reader

variable {α β : Type}

/-- Passes over members or elements, each read by `item`, up to the bracket `closing`. -/
def skipItems (item : Reader Unit) (closing : Char) (onEnd onOther : Cause) : Nat → Reader Unit
  | 0 => stop onEnd
  | count + 1 => do
    item
    match ← peekToken? with
    | none => stopNext onEnd
    | some char =>
      if char == closing then advance
      else if char == ',' then
        advance
        skipItems item closing onEnd onOther count
      else stopNext onOther

def skipBetween (item : Reader Unit) (closing : Char) (onEnd onOther : Cause) : Reader Unit := do
  match ← peekToken? with
  | none => stopNext onEnd
  | some char =>
    if char == closing then advance
    else skipItems item closing onEnd onOther ((← get).rest.length + 1)

def skipKey : Reader Unit := do
  match ← peekToken? with
  | none => stopNext .endInObject
  | some '"' =>
    advance
    skipString
    colon
  | some _ => stopNext .keyNotString

def skipValueUpTo : Nat → Reader Unit
  | 0 => stop .endInValue
  | depth + 1 => do
    match ← peekToken? with
    | none => stopNext .endInValue
    | some 'n' => keyword ['n', 'u', 'l', 'l']
    | some 't' => keyword ['t', 'r', 'u', 'e']
    | some 'f' => keyword ['f', 'a', 'l', 's', 'e']
    | some '-' =>
      advance
      skipNumber
    | some '"' =>
      advance
      skipString
    | some '[' =>
      advance
      skipBetween (skipValueUpTo depth) ']' .endInList .expectedListEnd
    | some '\x7b' =>
      advance
      skipBetween (do skipKey; skipValueUpTo depth) '\x7d' .endInObject .expectedObjectEnd
    | some char => if isDigit char then skipNumber else stopNext .expectedValue

def skipValue : Reader Unit := do skipValueUpTo ((← get).rest.length + 1)

/-- Stops because of the kind of the next value, which is no array or object or is not entered. -/
def wrongType (expected : String) : Reader α := do
  match ← peek? with
  | some 'n' =>
    keyword ['n', 'u', 'l', 'l']
    stop (.wrongType .null expected)
  | some 't' =>
    keyword ['t', 'r', 'u', 'e']
    stop (.wrongType (.bool true) expected)
  | some 'f' =>
    keyword ['f', 'a', 'l', 's', 'e']
    stop (.wrongType (.bool false) expected)
  | some '-' =>
    advance
    let value ← number true
    stop (.wrongType (.number value) expected)
  | some '"' =>
    advance
    let text ← string
    stop (.wrongType (.string text) expected)
  | some '[' => stop (.wrongType .sequence expected)
  | some '\x7b' => stop (.wrongType .map expected)
  | some char =>
    if isDigit char then
      let value ← number false
      stop (.wrongType (.number value) expected)
    else stopNext .expectedValue
  | none => stopNext .expectedValue

def text (expected : String) : Reader String := do
  match ← peekToken? with
  | none => stopNext .endInValue
  | some '"' =>
    advance
    string
  | some _ => wrongType expected

def orNull (value : Reader α) : Reader (Option α) := do
  match ← peekToken? with
  | some 'n' =>
    keyword ['n', 'u', 'l', 'l']
    return none
  | _ => return some (← value)

/-- Whether a key follows, as the first one of an object or behind a comma. -/
def keyFollows (isFirst : Bool) : Reader Bool := do
  match ← peekToken? with
  | none => stopNext .endInObject
  | some '\x7d' => return false
  | some char =>
    if isFirst then
      if char == '"' then return true else stopNext .keyNotString
    else if char == ',' then
      advance
      match ← peekToken? with
      | some '"' => return true
      | some '\x7d' => stopNext .trailingComma
      | some _ => stopNext .keyNotString
      | none => stopNext .endInValue
    else stopNext .expectedObjectEnd

/-- Whether an element follows, as the first one of an array or behind a comma. -/
def elementFollows (isFirst : Bool) : Reader Bool := do
  match ← peekToken? with
  | none => stopNext .endInList
  | some ']' => return false
  | some char =>
    if isFirst then return true
    else if char == ',' then
      advance
      match ← peekToken? with
      | some ']' => stopNext .trailingComma
      | some _ => return true
      | none => stopNext .endInValue
    else stopNext .expectedListEnd

/-- The members of an object whose keys are among `fields`; at most `count` members are read. The
second reading of a field gives a cause and no stop. -/
def membersUpTo (fields : List String) (value : Reader α) :
    Nat → List (String × α) → Bool → Reader (Except Cause (List (String × α)))
  | 0, found, _ => return .ok found.reverse
  | count + 1, found, isFirst => do
    if ← keyFollows isFirst then
      advance
      let key ← string
      if fields.contains key then
        if found.any (·.1 == key) then return .error (.duplicateField key)
        colon
        let member ← value
        membersUpTo fields value count ((key, member) :: found) false
      else
        colon
        skipValue
        membersUpTo fields value count found false
    else return .ok found.reverse

/-- One element for each of `fields`. The lack of one gives a cause and no stop. -/
def elementsFor (shape : Shape) (value : Reader α) :
    List String → List (String × α) → Reader (Except Cause (List (String × α)))
  | [], found => return .ok found.reverse
  | field :: fields, found => do
    if ← elementFollows found.isEmpty then
      let element ← value
      elementsFor shape value fields ((field, element) :: found)
    else return .error (.wrongLength found.length shape.counted)

def closeObject : Reader Unit := do
  match ← peekToken? with
  | some '\x7d' => advance
  | some ',' => stopNext .trailingComma
  | some _ => stopNext .trailingCharacters
  | none => stopNext .endInObject

def closeArray : Reader Unit := do
  match ← peekToken? with
  | some ']' => advance
  | some ',' =>
    advance
    match ← peekToken? with
    | some ']' => stopNext .trailingComma
    | _ => stopNext .trailingCharacters
  | some _ => stopNext .trailingCharacters
  | none => stopNext .endInList

/-- Moves behind the end of an object, if it is next. -/
def passObjectEnd : Reader Unit := do
  if (← peekToken?) == some '\x7d' then advance

/-- Moves behind the end of an array or a comma, if one of them is next. -/
def passArrayEnd : Reader Unit := do
  match ← peekToken? with
  | some ']' => advance
  | some ',' =>
    advance
    blanks
  | _ => return

/-- Gives the result of what stands between brackets. A cause in it counts before a missing end. -/
def closing (close pass : Reader Unit) : Except Cause α → Reader α
  | .ok value => do
    close
    return value
  | .error cause => do
    pass
    stop cause

/-- A record with the values of its fields read by `value`. `finish` makes the record from the
fields found. -/
def record (shape : Shape) (value : Reader α) (finish : List (String × α) → Except Cause β) :
    Reader β := do
  match ← peekToken? with
  | none => stopNext .endInValue
  | some '[' =>
    advance
    let found ← elementsFor shape value shape.fields []
    closing closeArray passArrayEnd (found.bind finish)
  | some '\x7b' =>
    advance
    let found ← membersUpTo shape.fields value ((← get).rest.length + 1) [] true
    closing closeObject passObjectEnd (found.bind finish)
  | some _ => wrongType shape.title

def choose (names : List String) (ofName? : String → Option α) (name : String) :
    Except Cause α :=
  match ofName? name with
  | some value => .ok value
  | none => .error (.unknownVariant name names)

def choice (names : List String) (ofName? : String → Option α) : Reader α := do
  match ← peekToken? with
  | none => stopNext .endInValue
  | some '"' =>
    advance
    closing (return ()) (return ()) (choose names ofName? (← string))
  | some '\x7b' =>
    advance
    let value ← closing (return ()) (return ())
      (choose names ofName? (← text "variant identifier"))
    colon
    match ← peekToken? with
    | none => stopNext .endInValue
    | some 'n' => keyword ['n', 'u', 'l', 'l']
    | some _ => wrongType "unit"
    match ← peekToken? with
    | some '\x7d' => advance
    | some _ => stop .expectedValue
    | none => stop .endInObject
    return value
  | some _ => stopNext .expectedValue

end Reader

namespace Value

variable {α β : Type}

def asText (expected : String) : Value → Except Cause String
  | string text => .ok text
  | value => .error (.wrongType (.ofValue value) expected)

def fieldsOf (fields : List String) (part : Value → Except Cause α) :
    List (String × Value) → Except Cause (List (String × α))
  | [] => .ok []
  | (key, value) :: members =>
    if fields.contains key then do
      let found ← part value
      return (key, found) :: (← fieldsOf fields part members)
    else fieldsOf fields part members

/-- One element for each of `fields`, where `count` elements have been read before. -/
def elementsOf (shape : Shape) (part : Value → Except Cause α) (count : Nat) :
    List String → List Value → Except Cause (List (String × α))
  | [], _ => .ok []
  | _ :: _, [] => .error (.wrongLength count shape.counted)
  | field :: fields, value :: values => do
    let found ← part value
    return (field, found) :: (← elementsOf shape part (count + 1) fields values)

def asRecord (shape : Shape) (part : Value → Except Cause α)
    (finish : List (String × α) → Except Cause β) : Value → Except Cause β
  | object members => (fieldsOf shape.fields part members).bind finish
  | array values => do
    let record ← (elementsOf shape part 0 shape.fields values).bind finish
    if shape.fields.length < values.length then
      throw (.wrongLength values.length "fewer elements in array")
    return record
  | value => .error (.wrongType (.ofValue value) shape.title)

def asChoice (names : List String) (ofName? : String → Option α) : Value → Except Cause α
  | string name => Reader.choose names ofName? name
  | object [(name, value)] => do
    let found ← Reader.choose names ofName? name
    match value with
    | null => return found
    | other => throw (.wrongType (.ofValue other) "unit")
  | object _ => .error (.wrongValue .map "map with a single key")
  | value => .error (.wrongType (.ofValue value) "string or map")

end Value

end StoryKnobs.Json

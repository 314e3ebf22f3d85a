import StoryKnobs.Json.Cursor

/-!
# Reading numbers

Digits are gathered in a whole number of 64 bits as long as they fit. Further digits in front of the
point only count, and those behind it are dropped.
-/

namespace StoryKnobs.Json

def isDigit (char : Char) : Bool := '0' ≤ char && char ≤ '9'

def significandBound : Nat := Nat.pow 2 64

def exponentBound : Nat := Nat.pow 2 31

/-- Appends digits to a number as long as it stays below `bound`, and counts them. -/
def gather (bound : Nat) : Nat → List Char → Nat × Nat
  | value, [] => (value, 0)
  | value, char :: chars =>
    let next := value * 10 + (char.toNat - '0'.toNat)
    if next < bound then
      let (result, count) := gather bound next chars
      (result, count + 1)
    else (value, 0)

/-- The number `value / 10 ^ exponent`, where large powers are taken in steps. -/
def shrink : Nat → Float → Nat → Float
  | 0, _, _ => 0
  | steps + 1, value, exponent =>
    if exponent ≤ 308 then value / Float.ofScientific 1 false exponent
    else if value == 0 then value
    else shrink steps (value / Float.ofScientific 1 false 308) (exponent - 308)

/-- The number `significand * 10 ^ exponent`, unless it is too large. -/
def scale? (significand : Nat) (exponent : Int) : Option Float :=
  let value := significand.toUInt64.toFloat
  if exponent < 0 then some (shrink 4 value (-exponent).toNat)
  else if 308 < exponent then if value == 0 then some value else none
  else
    let result := value * Float.ofScientific 1 false exponent.toNat
    if result.isInf then none else some result

namespace Reader

def digits : Reader (List Char) := do
  let cursor ← get
  let found := cursor.rest.takeWhile isDigit
  set (Cursor.mk (cursor.index + found.length) (cursor.rest.drop found.length))
  return found

/-- The digits in front of the point, where a zero stands alone. `onEnd` tells what their lack at the
end of the text means. -/
def wholeDigits (onEnd : Cause) : Reader (List Char) := do
  match ← peek? with
  | none => stop onEnd
  | some '0' =>
    advance
    match ← peek? with
    | some char => if isDigit char then stopNext .badNumber else return ['0']
    | none => return ['0']
  | some char =>
    if isDigit char then digits else stopAt ((← get).index + 1) .badNumber

/-- The digits behind the point, at least one, where `onEnd` tells what their lack at the end of the
text means. -/
def fractionDigits (onEnd : Cause) : Reader (List Char) := do
  advance
  let found ← digits
  if found.isEmpty then
    match ← peek? with
    | some _ => stopNext .badNumber
    | none => stopNext onEnd
  else return found

/-- The sign and the digits of an exponent, at least one. -/
def exponentDigits (onEnd : Cause) : Reader (Bool × List Char) := do
  advance
  let negative ← match ← peek? with
    | some '+' => do
      advance
      pure false
    | some '-' => do
      advance
      pure true
    | _ => pure false
  match ← peek? with
  | none => stop onEnd
  | some char =>
    if isDigit char then return (negative, ← digits)
    else stopAt ((← get).index + 1) .badNumber

def seesExponent : Reader Bool := return (← peek?) == some 'e' || (← peek?) == some 'E'

def float (negative : Bool) (significand : Nat) (exponent : Int) : Reader Number := do
  match scale? significand exponent with
  | some value => return .float (if negative then -value else value)
  | none => stop .numberRange

/-- The number with a significand and an exponent, to which an exponent at the cursor is added. -/
def floatWithExponent (negative : Bool) (significand : Nat) (exponent : Int) : Reader Number := do
  if ← seesExponent then
    let (small, found) ← exponentDigits .endInValue
    let (value, count) := gather exponentBound 0 found
    if count = found.length then
      float negative significand (if small then exponent - value else exponent + value)
    else if significand == 0 || small then return .float (if negative then -0.0 else 0.0)
    else stopAt ((← get).index - found.length + count + 1) .numberRange
  else float negative significand exponent

/-- A number behind its sign. -/
def number (negative : Bool) : Reader Number := do
  let whole ← wholeDigits .endInValue
  let (significand, count) := gather significandBound 0 whole
  let exponent : Int := whole.length - count
  if (← peek?) == some '.' then
    let fraction ← fractionDigits .endInValue
    let (significand, count) := gather significandBound significand fraction
    floatWithExponent negative significand (exponent - count)
  else if ← seesExponent then floatWithExponent negative significand exponent
  else if count < whole.length then float negative significand exponent
  else if !negative then return .integer significand
  else if significand == 0 || Nat.pow 2 63 < significand then
    return .float (-significand.toUInt64.toFloat)
  else return .integer (-significand)

def skipNumber : Reader Unit := do
  let _ ← wholeDigits .badNumber
  if (← peek?) == some '.' then
    let _ ← fractionDigits .badNumber
  if ← seesExponent then
    let _ ← exponentDigits .badNumber

end Reader

end StoryKnobs.Json

import StoryKnobs.Json.Cursor

/-!
# Reading quoted texts

The part of a quoted text behind its opening quote. A text that is passed over may hold escapes of
characters that do not exist.
-/

namespace StoryKnobs.Json

def hexValue? (char : Char) : Option Nat :=
  if '0' ≤ char && char ≤ '9' then some (char.toNat - '0'.toNat)
  else if 'a' ≤ char && char ≤ 'f' then some (char.toNat - 'a'.toNat + 10)
  else if 'A' ≤ char && char ≤ 'F' then some (char.toNat - 'A'.toNat + 10)
  else none

def simpleEscape? (char : Char) : Option Char :=
  match char with
  | '"' => some '"'
  | '\\' => some '\\'
  | '/' => some '/'
  | 'b' => some '\x08'
  | 'f' => some '\x0c'
  | 'n' => some '\n'
  | 'r' => some '\r'
  | 't' => some '\t'
  | _ => none

/-- First halves of pairs that stand for one character. -/
def isLeading (unit : Nat) : Bool := 0xD800 ≤ unit && unit ≤ 0xDBFF

/-- Second halves of such pairs. -/
def isTrailing (unit : Nat) : Bool := 0xDC00 ≤ unit && unit ≤ 0xDFFF

namespace Reader

def byteLength (chars : List Char) : Nat := (String.ofList chars).utf8ByteSize

def hexUnit : Reader Nat := do
  let cursor ← get
  match cursor.rest with
  | a :: b :: c :: d :: chars =>
    match hexValue? a, hexValue? b, hexValue? c, hexValue? d with
    | some a, some b, some c, some d =>
      set (Cursor.mk (cursor.index + 4) chars)
      return ((a * 16 + b) * 16 + c) * 16 + d
    | _, _, _, _ => stopAt (cursor.index + 4) .badEscape
  | chars =>
    if 4 ≤ byteLength chars then stopAt (cursor.index + 4) .badEscape
    else stopAt (cursor.index + byteLength chars) .endInString

/-- Reads the character `char` of a pair of escapes. -/
def pairMark (char : Char) : Reader Unit := do
  match ← peek? with
  | none => stop .endInString
  | some next =>
    if next == char then advance else stopAt ((← get).index + 1) .brokenSurrogate

/-- The character of a numeric escape behind its `u`. -/
def unitEscape : Reader Char := do
  let unit ← hexUnit
  if isTrailing unit then stop .loneSurrogate
  else if isLeading unit then
    pairMark '\\'
    pairMark 'u'
    let second ← hexUnit
    if isTrailing second then
      return Char.ofNat (0x10000 + (unit - 0xD800) * 0x400 + (second - 0xDC00))
    else stop .loneSurrogate
  else return Char.ofNat unit

/-- The character of an escape behind its backslash, where `unit` reads numeric ones. -/
def escapeBy (unit : Reader Char) : Reader Char := do
  match ← peek? with
  | none => stop .endInString
  | some 'u' =>
    advance
    unit
  | some char =>
    match simpleEscape? char with
    | some value =>
      advance
      return value
    | none => stopAt ((← get).index + 1) .badEscape

/-- At most `count` characters up to the closing quote, which is read too. `found` holds the
characters before them, the last one first. -/
def stringUpTo : Nat → List Char → Reader String
  | 0, _ => stop .endInString
  | count + 1, found => do
    match ← peek? with
    | none => stop .endInString
    | some '"' =>
      advance
      return String.ofList found.reverse
    | some '\\' =>
      advance
      let char ← escapeBy unitEscape
      stringUpTo count (char :: found)
    | some char =>
      if char.toNat < 0x20 then stopAt ((← get).index + 1) .controlCharacter
      else
        advance
        stringUpTo count (char :: found)

/-- The rest of a quoted text. -/
def string : Reader String := do stringUpTo ((← get).rest.length + 1) []

def skipStringUpTo : Nat → Reader Unit
  | 0 => stop .endInString
  | count + 1 => do
    match ← peek? with
    | none => stop .endInString
    | some '"' => advance
    | some '\\' =>
      advance
      let _ ← escapeBy (return Char.ofNat (← hexUnit))
      skipStringUpTo count
    | some char =>
      if char.toNat < 0x20 then stop .controlCharacter
      else
        advance
        skipStringUpTo count

def skipString : Reader Unit := do skipStringUpTo ((← get).rest.length + 1)

end Reader

end StoryKnobs.Json

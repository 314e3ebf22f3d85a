/-!
# Lexemes

The character classes of the source language, and the length in characters of the longest
identifier, number or regular expression at the start of a text. A length of zero means that there
is none.
-/

namespace StoryKnobs.Grammar

/-- Characters that separate tokens and have no other meaning. -/
def isBlank (char : Char) : Bool :=
  let code := char.toNat
  code == 0x20 || (0x09 ≤ code && code ≤ 0x0D) || code == 0x85 || code == 0xA0 ||
  code == 0x1680 || (0x2000 ≤ code && code ≤ 0x200B) || code == 0x2028 || code == 0x2029 ||
  code == 0x202F || code == 0x205F || code == 0x2060 || code == 0x3000 || code == 0xFEFF

def endsLine (char : Char) : Bool :=
  char == '\n' || char == '\r' || char.toNat == 0x2028 || char.toNat == 0x2029

def markCharacters : List Char :=
  [':', ';', '`', '"', '\'', '@', '#', '.', ',', '|', '^', '&', '<', '=', '>', '+', '-', '*', '/',
   '\\', '%', '?', '!', '~', '(', ')', '[', ']', '\x7b', '\x7d']

def isWordChar (char : Char) : Bool :=
  0x20 < char.toNat && !isBlank char && !markCharacters.contains char

def isDigit (char : Char) : Bool := '0' ≤ char && char ≤ '9'

def isHexDigit (char : Char) : Bool :=
  isDigit char || ('a' ≤ char && char ≤ 'f') || ('A' ≤ char && char ≤ 'F')

/-- Length of the longest start of `chars` in `test`. -/
def runLength (test : Char → Bool) : List Char → Nat
  | [] => 0
  | char :: chars => if test char then runLength test chars + 1 else 0

/-- Length of a numeric escape at the start of a text, as it may stand in an identifier. -/
def unicodeEscapeLength : List Char → Nat
  | '\\' :: 'u' :: '\x7b' :: chars =>
    let digits := runLength isHexDigit chars
    if 0 < digits && chars[digits]? == some '\x7d' then digits + 4 else 0
  | '\\' :: 'u' :: a :: b :: c :: d :: _ => if [a, b, c, d].all isHexDigit then 6 else 0
  | _ => 0

/-- Length of the longest run of identifier characters, where `skip` characters of an escape are
still to be passed. -/
def wordTail : Nat → List Char → Nat
  | _, [] => 0
  | skip + 1, _ :: chars => wordTail skip chars + 1
  | 0, char :: chars =>
    if isWordChar char then wordTail 0 chars + 1
    else
      match unicodeEscapeLength (char :: chars) with
      | 0 => 0
      | length + 1 => wordTail length chars + 1

def wordLength (chars : List Char) : Nat :=
  match chars with
  | [] => 0
  | char :: _ => if isDigit char then 0 else wordTail 0 chars

/-- Length of a run of digits in `test`, with single underscores between them. -/
def digitsLength (test : Char → Bool) : List Char → Nat
  | [] => 0
  | '_' :: char :: chars => if test char then digitsLength test chars + 2 else 0
  | char :: chars => if test char then digitsLength test chars + 1 else 0

/-- Like `digitsLength`, but the run starts with a digit. -/
def numeralLength (test : Char → Bool) (chars : List Char) : Nat :=
  match chars with
  | [] => 0
  | char :: _ => if test char then digitsLength test chars else 0

def exponentLength : List Char → Nat
  | mark :: sign :: chars =>
    if mark == 'e' || mark == 'E' then
      if sign == '+' || sign == '-' then
        match numeralLength isDigit chars with
        | 0 => 0
        | length => length + 2
      else
        match numeralLength isDigit (sign :: chars) with
        | 0 => 0
        | length => length + 1
    else 0
  | _ => 0

/-- Length of a numeral with a base mark such as `0x`, with an optional `n` at its end. -/
def basedLength (test : Char → Bool) (chars : List Char) : Nat :=
  match numeralLength test chars with
  | 0 => 0
  | length => if chars[length]? == some 'n' then length + 3 else length + 2

def decimalLength (chars : List Char) : Nat :=
  let whole := numeralLength isDigit chars
  let rest := chars.drop whole
  match rest with
  | '.' :: tail =>
    let fraction := numeralLength isDigit tail
    if whole == 0 && fraction == 0 then 0
    else whole + 1 + fraction + exponentLength (tail.drop fraction)
  | 'n' :: _ => if whole == 0 then 0 else whole + 1
  | _ => if whole == 0 then 0 else whole + exponentLength rest

def numberLength (chars : List Char) : Nat :=
  let based :=
    match chars with
    | '0' :: mark :: digits =>
      if mark == 'x' || mark == 'X' then basedLength isHexDigit digits
      else if mark == 'b' || mark == 'B' then
        basedLength (fun char => char == '0' || char == '1') digits
      else if mark == 'o' || mark == 'O' then
        basedLength (fun char => '0' ≤ char && char ≤ '7') digits
      else 0
    | _ => 0
  if based == 0 then decimalLength chars else based

/-- Length of the body of a regular expression, up to the slash that closes it; `inClass` tells
whether the scan is between square brackets. `none` if a line ends before the slash. -/
def patternLength : Bool → List Char → Option Nat
  | _, [] => none
  | inClass, '\\' :: char :: chars =>
    if char == '\n' then none else (patternLength inClass chars).map (· + 2)
  | inClass, char :: chars =>
    if char == '\n' then none
    else if char == '/' && !inClass then some 0
    else
      let inClass := if char == '[' then true else if char == ']' then false else inClass
      (patternLength inClass chars).map (· + 1)

/-- Length of an escape sequence in a quoted text, after its backslash. -/
def escapeLength : List Char → Nat
  | 'x' :: a :: b :: _ => if isHexDigit a && isHexDigit b then 3 else 0
  | 'u' :: '\x7b' :: chars =>
    let digits := runLength isHexDigit chars
    if 0 < digits && chars[digits]? == some '\x7d' then digits + 3 else 0
  | 'u' :: a :: b :: c :: d :: _ => if [a, b, c, d].all isHexDigit then 5 else 0
  | '\r' :: '\n' :: _ => 2
  | char :: chars =>
    if char == 'x' || char == 'u' then 0
    else
      let isOctal := fun char : Char => decide ('0' ≤ char) && decide (char ≤ '7')
      if isOctal char then min 3 (runLength isOctal (char :: chars)) else 1
  | [] => 0

end StoryKnobs.Grammar

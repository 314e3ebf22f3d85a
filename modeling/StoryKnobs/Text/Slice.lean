/-!
# Slices of a text by byte offsets

Offsets count the bytes of the UTF-8 form of a text. A slice exists when both of its ends fall
between two characters; a range that is reversed, ends past the text or cuts a character has none.
-/

namespace StoryKnobs.Text

/-- The characters left after the first `count` bytes, if a character starts or the text ends there. -/
def dropBytes : List Char → Nat → Option (List Char)
  | chars, 0 => some chars
  | [], _ + 1 => none
  | char :: chars, count + 1 =>
    if char.utf8Size ≤ count + 1 then dropBytes chars (count + 1 - char.utf8Size) else none

/-- The characters that make up the first `count` bytes, if a character ends there. -/
def takeBytes : List Char → Nat → Option (List Char)
  | _, 0 => some []
  | [], _ + 1 => none
  | char :: chars, count + 1 =>
    if char.utf8Size ≤ count + 1 then
      (takeBytes chars (count + 1 - char.utf8Size)).map (char :: ·)
    else none

def sliceChars (chars : List Char) (start stop : Nat) : Option (List Char) :=
  if start ≤ stop then (dropBytes chars start).bind (takeBytes · (stop - start)) else none

def slice (text : String) (start stop : Nat) : Option String :=
  (sliceChars text.toList start stop).map String.ofList

/-- Number of line breaks in the characters that start before byte `offset`. -/
def breaksBefore : List Char → Nat → Nat
  | [], _ => 0
  | _, 0 => 0
  | char :: chars, offset + 1 =>
    (if char = '\n' then 1 else 0) + breaksBefore chars (offset + 1 - char.utf8Size)

/-- The line, counted from one, on which byte `offset` of `text` lies. -/
def lineAt (text : String) (offset : Nat) : Nat :=
  breaksBefore text.toList offset + 1

end StoryKnobs.Text

import StoryKnobs.Text.Invisible

/-!
# Quoted texts in messages

Texts between double quotes, where a character that could not be seen is given by its number.
-/

namespace StoryKnobs.Text

/-- The digits of a number in base sixteen, without leading zeros. -/
def hexText (value : Nat) : List Char := Nat.toDigits 16 value

def showChar (char : Char) : List Char :=
  if char.toNat == 0 then ['\\', '0']
  else if char == '\t' then ['\\', 't']
  else if char == '\r' then ['\\', 'r']
  else if char == '\n' then ['\\', 'n']
  else if char == '\\' then ['\\', '\\']
  else if char == '"' then ['\\', '"']
  else if isInvisible char then ['\\', 'u', '\x7b'] ++ hexText char.toNat ++ ['\x7d']
  else [char]

def quoted (text : String) : String :=
  String.ofList ('"' :: text.toList.flatMap showChar ++ ['"'])

end StoryKnobs.Text

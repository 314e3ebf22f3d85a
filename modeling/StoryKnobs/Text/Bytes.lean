import StoryKnobs.Text.Slice

/-!
# Cuts in the bytes of a text

The bytes of a range are a text only if the range runs forward, ends in the text and cuts no
character. A cut that takes this for granted fails where it is not so. A careful one first looks at
the byte at each end, and says that there is no slice where a cut would fail.
-/

namespace StoryKnobs.Text

/-- A range that was cut out of a text although its bytes are none. -/
structure Fault where
  start : Nat
  stop : Nat
deriving DecidableEq, Repr, Inhabited

def cut (text : String) (start stop : Nat) : Except Fault String :=
  if hrange : String.Pos.Raw.IsValid text ⟨start⟩ ∧ String.Pos.Raw.IsValid text ⟨stop⟩ ∧
      start ≤ stop then
    .ok (text.extract ⟨⟨start⟩, hrange.1⟩ ⟨⟨stop⟩, hrange.2.1⟩)
  else .error ⟨start, stop⟩

/-- Whether byte `offset` is the first one of a character, or the text ends there. -/
def isBoundary (text : String) (offset : Nat) : Bool := String.Pos.Raw.isValid text ⟨offset⟩

def cut? (text : String) (start stop : Nat) : Except Fault (Option String) :=
  if start ≤ stop && isBoundary text start && isBoundary text stop then
    return some (← cut text start stop)
  else return none

end StoryKnobs.Text

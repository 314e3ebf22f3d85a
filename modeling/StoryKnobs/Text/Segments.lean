/-!
# Segments of a text

A text cut at the characters of a class. The cuts themselves are in no segment, so a text with `n`
of them has `n + 1` segments, any of which may be empty.
-/

namespace StoryKnobs.Text

def splitFirst (cut : Char → Bool) : List Char → List Char × List (List Char)
  | [] => ([], [])
  | char :: chars =>
    let (segment, others) := splitFirst cut chars
    if cut char then ([], segment :: others) else (char :: segment, others)

/-- The stretches of `chars` between the characters in `cut`. -/
def segments (cut : Char → Bool) (chars : List Char) : List (List Char) :=
  let (segment, others) := splitFirst cut chars
  segment :: others

/-- The characters after the last one in `cut`; all of them if there is none. -/
def lastSegment (cut : Char → Bool) (chars : List Char) : List Char :=
  ((segments cut chars).getLast?).getD chars

/-- `chars` without the characters of `ending`, if they end in them. -/
def dropEnding (ending chars : List Char) : List Char :=
  if ending.isSuffixOf chars then chars.take (chars.length - ending.length) else chars

end StoryKnobs.Text

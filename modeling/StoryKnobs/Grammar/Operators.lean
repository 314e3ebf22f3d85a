import StoryKnobs.Grammar.Symbols

/-!
# Operators

The binary operators with their binding strength, and the operators of assignment. The operator at
the start of a text is the longest one that stands there.
-/

namespace StoryKnobs.Grammar

/-- A binary operator. A stronger one binds its operands first. -/
structure Operator where
  text : String
  strength : Nat
  rightToLeft : Bool := false
deriving Repr, DecidableEq

namespace Operator

/-- The binary operators written with marks, longer ones first. -/
def marks : List Operator :=
  [⟨"===", 9, false⟩, ⟨"!==", 9, false⟩, ⟨">>>", 11, false⟩,
    ⟨"**", 14, true⟩, ⟨"==", 9, false⟩, ⟨"!=", 9, false⟩, ⟨"<=", 10, false⟩, ⟨">=", 10, false⟩,
    ⟨"<<", 11, false⟩, ⟨">>", 11, false⟩, ⟨"&&", 5, false⟩, ⟨"||", 4, false⟩, ⟨"??", 3, false⟩,
    ⟨"*", 13, false⟩, ⟨"/", 13, false⟩, ⟨"%", 13, false⟩, ⟨"+", 12, false⟩, ⟨"-", 12, false⟩,
    ⟨"<", 10, false⟩, ⟨">", 10, false⟩, ⟨"&", 8, false⟩, ⟨"^", 7, false⟩, ⟨"|", 6, false⟩]

def wordStrength : Nat := 10

/-- The operators that assign, longer ones first. -/
def assignments : List String :=
  [">>>=", "**=", "<<=", ">>=", "&&=", "||=", "??=", "+=", "-=", "*=", "/=", "%=", "&=", "|=", "^="]

def startsWithAny (marks : List String) (chars : List Char) : Option String :=
  marks.find? (·.toList.isPrefixOf chars)

def ofMarks? (chars : List Char) : Option Operator :=
  if (startsWithAny assignments chars).isSome then none
  else if (startsWithAny ["=>", "++", "--"] chars).isSome then none
  else marks.find? (·.text.toList.isPrefixOf chars)

end Operator

end StoryKnobs.Grammar

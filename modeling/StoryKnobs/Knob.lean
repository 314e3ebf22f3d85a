import StoryKnobs.Json.Record

/-!
# Knobs

A knob is the control with which a story lets its reader change an input. Its kind and its first
value follow from the declaration of the input: the declared type decides, then the initial value,
then a fixed choice.
-/

namespace StoryKnobs

/-- The kinds of controls. No declaration leads to `select`. -/
inductive Knob where
  | text
  | boolean
  | number
  | select
deriving DecidableEq, Repr, Inhabited

namespace Knob

def name : Knob → String
  | text => "text"
  | boolean => "boolean"
  | number => "number"
  | select => "select"

/-- All kinds, in the order in which messages list them. -/
def all : List Knob := [text, boolean, number, select]

def ofName? (name : String) : Option Knob := all.find? (·.name == name)

def reader : Json.Reader Knob := Json.Reader.choice (all.map name) ofName?

def parse (text : String) : Except Json.Error Knob := reader.run text

def ofValue (value : Json.Value) : Except Json.Cause Knob := value.asChoice (all.map name) ofName?

end Knob

/-- The literal of an empty text, the first value where nothing else is known. -/
def emptyText : String := "''"

inductive Primitive where
  | string
  | number
  | boolean
deriving DecidableEq, Repr, Inhabited

namespace Primitive

/-- A type counts only in its exact spelling. -/
def ofTypeName? (typeName : String) : Option Primitive :=
  if typeName == "string" then some string
  else if typeName == "number" then some number
  else if typeName == "boolean" then some boolean
  else none

def knob : Primitive → Knob
  | string => .text
  | number => .number
  | boolean => .boolean

/-- The literal that stands for a missing initial value. -/
def zero : Primitive → String
  | string => emptyText
  | number => "0"
  | boolean => "false"

end Primitive

inductive Literal where
  | string
  | number
  | boolean
  | other
deriving DecidableEq, Repr, Inhabited

namespace Literal

def ofNodeKind (kind : String) : Literal :=
  if kind == "string" then string
  else if kind == "number" then number
  else if kind == "true" || kind == "false" then boolean
  else other

def knob : Literal → Knob
  | number => .number
  | boolean => .boolean
  | string | other => .text

end Literal

structure Initializer where
  literal : Literal
  text : String
deriving DecidableEq, Repr, Inhabited

structure Declaration where
  name : String
  typeName : Option String
  initializer : Option Initializer
deriving DecidableEq, Repr, Inhabited

namespace Declaration

def knob (declaration : Declaration) : Knob :=
  match declaration.typeName, declaration.initializer with
  | some typeName, _ => ((Primitive.ofTypeName? typeName).map Primitive.knob).getD .text
  | none, some initializer => initializer.literal.knob
  | none, none => .text

/-- The literal of the first value. There is none for a type that is not primitive without an
initial value. -/
def defaultValue (declaration : Declaration) : Option String :=
  match declaration.initializer, declaration.typeName with
  | some initializer, _ => some initializer.text
  | none, some typeName => (Primitive.ofTypeName? typeName).map Primitive.zero
  | none, none => some emptyText

end Declaration

end StoryKnobs

import StoryKnobs.Knob
import StoryKnobs.Source

/-!
# Inputs of a component

The members of a class that a decorator marks as inputs. A decorator is a marker if some identifier
in it is spelled `Input`; what the identifier means is not looked at. Each marker leads either to
an input or, if it decorates no member with a name, to a note that it was skipped.
-/

namespace StoryKnobs

open Syntax

structure Input where
  name : String
  knob : Knob
  defaultValue : Option String
deriving DecidableEq, Repr, Inhabited

inductive Finding where
  | found (input : Input)
  | skipped (line : Nat) (decorator : String)
deriving DecidableEq, Repr, Inhabited

namespace Finding

def input? : Finding → Option Input
  | found input => some input
  | skipped _ _ => none

end Finding

namespace Source

/-- The spelling that makes a decorator a marker. -/
def markerName : String := "Input"

def isIdentifier (node : Node) : Bool :=
  node.kind == "identifier" || node.kind == "property_identifier"

/-- Whether some identifier under `decorator` has the marker's spelling. -/
def isMarker (source : Source) (decorator : Node) : Bool :=
  (decorator.findAll isIdentifier).any (source.textOf · == markerName)

def markers (source : Source) : List Node :=
  (source.root.findKind "decorator").filter source.isMarker

/-- The first method after decorators and comments. -/
def methodAfter : List Node → Option Node
  | [] => none
  | node :: nodes =>
    if node.kind == "decorator" || node.kind == Tree.commentKind then methodAfter nodes
    else if node.kind == "method_definition" then some node
    else none

/-- The member of a class that `decorator` belongs to: a field that contains it, or the method after
it in the class. -/
def memberOf? (decorator : Node) : Option Node := do
  let parent ← decorator.parent
  if parent.kind == "public_field_definition" || parent.kind == "method_definition" then
    some parent
  else if parent.kind == "class_body" then
    methodAfter (decorator.nextSiblings.filter Node.named)
  else none

/-- The field in which a member of kind `kind` keeps its type. -/
def typeField (kind : String) : String :=
  if kind == "public_field_definition" then "type" else "return_type"

/-- What `member` says about an input, if it has a name. -/
def declarationOf? (source : Source) (member : Node) : Option Declaration := do
  let name ← member.childByField "name"
  let type := (member.childByField (typeField member.kind)).bind Node.firstNamedChild
  let value := member.childByField "value"
  return {
    name := source.textOf name
    typeName := type.map source.textOf
    initializer := value.map fun value => ⟨.ofNodeKind value.kind, source.textOf value⟩ }

/-- The text of a node without its first and last byte, unless nothing is left. -/
def unquote? (text : String) : Option String :=
  (Text.slice text 1 (text.utf8ByteSize - 1)).filter (!·.isEmpty)

/-- The name that a decorator gives to its input: what the first node of kind `string` encloses. -/
def aliasOf? (source : Source) (decorator : Node) : Option String :=
  (decorator.findKind "string").head?.bind fun node => unquote? (source.textOf node)

def decorated? (source : Source) (decorator : Node) : Option Declaration :=
  (memberOf? decorator).bind source.declarationOf?

def findingOf (source : Source) (decorator : Node) : Finding :=
  match source.decorated? decorator with
  | some declaration => .found {
      name := (source.aliasOf? decorator).getD declaration.name
      knob := declaration.knob
      defaultValue := declaration.defaultValue }
  | none => .skipped (source.lineOf decorator) (source.textOf decorator)

def findings (source : Source) : List Finding :=
  source.markers.map source.findingOf

def inputs (source : Source) : List Input :=
  source.findings.filterMap Finding.input?

end Source

end StoryKnobs

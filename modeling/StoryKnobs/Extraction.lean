import StoryKnobs.Input
import StoryKnobs.Text.Bytes

/-!
# Extraction from bytes

The inputs of a component, found in the bytes of its source. The nodes of the tree may have any
ranges, so each text is cut out with care: one that is not there counts as empty. A cut that fails
would be the end of the extraction.
-/

namespace StoryKnobs

open Syntax

open Text (Fault cut?)

namespace Source

def readText (source : Source) (node : Node) : Except Fault String :=
  return (← cut? source.text node.span.start node.span.stop).getD ""

def readMarker (source : Source) (decorator : Node) : Except Fault Bool :=
  (decorator.findAll isIdentifier).anyM fun node => return (← source.readText node) == markerName

def readDeclaration (source : Source) (member : Node) : Except Fault (Option Declaration) := do
  let some name := member.childByField "name" | return none
  let name ← source.readText name
  let type := (member.childByField (typeField member.kind)).bind Node.firstNamedChild
  let typeName ← type.mapM source.readText
  let initializer ← (member.childByField "value").mapM fun value =>
    return ⟨.ofNodeKind value.kind, ← source.readText value⟩
  return some { name, typeName, initializer }

def readAlias (source : Source) (decorator : Node) : Except Fault (Option String) := do
  let some literal := (decorator.findKind "string").head? | return none
  let text ← source.readText literal
  -- in a text of less than two bytes this range runs backwards
  return (← cut? text 1 (text.utf8ByteSize - 1)).filter (!·.isEmpty)

def readFinding (source : Source) (decorator : Node) : Except Fault Finding := do
  let declaration ← (memberOf? decorator).mapM source.readDeclaration
  match declaration.join with
  | some declaration => return .found {
      name := (← source.readAlias decorator).getD declaration.name
      knob := declaration.knob
      defaultValue := declaration.defaultValue }
  | none => return .skipped (source.lineOf decorator) (← source.readText decorator)

def readInputs (source : Source) : Except Fault (List Input) := do
  let inputs ← (source.root.findKind "decorator").mapM fun decorator => do
    if ← source.readMarker decorator then return (← source.readFinding decorator).input?
    else return none
  return inputs.filterMap id

end Source

end StoryKnobs

import StoryKnobs.Input
import StoryKnobs.Schema

/-!
# Stories

The text of the story of a component: imports, a title, and one story with a knob for each input.
-/

namespace StoryKnobs

structure Story where
  componentFileName : String
  componentName : String
  modulePath : String
  moduleName : String
  props : List Input
deriving DecidableEq, Repr, Inhabited

namespace Story

def ofSchema (schema : Schema) (props : List Input) : Story where
  componentFileName := schema.componentFileName
  componentName := schema.componentName
  modulePath := schema.modulePath
  moduleName := schema.moduleClassName
  props := props

def fileEnding : String := ".stories.ts"

def fileName (story : Story) : String := story.componentFileName ++ fileEnding

def knobsPackage : String := "@storybook/addon-knobs"

def missingDefault : String := "undefined"

def importOrder : List Knob := [.text, .number, .boolean, .select]

/-- The kinds of knobs in use, in the order of the import. -/
def knobsOf (props : List Input) : List Knob :=
  importOrder.filter fun knob => props.any (·.knob == knob)

/-- The import of the knobs in use; nothing if there are none. -/
def knobImport (props : List Input) : String :=
  match knobsOf props with
  | [] => ""
  | knobs =>
    "import \x7b " ++ ", ".intercalate (knobs.map Knob.name) ++ " \x7d from '" ++ knobsPackage ++ "';\n"

/-- The first value as it stands in a story. -/
def defaultText (prop : Input) : String := prop.defaultValue.getD missingDefault

/-- What stands between the label of a knob and its first value. A choice has a list of options. -/
def options : Knob → String
  | .select => "[], "
  | _ => ""

def propLine (prop : Input) : String :=
  "    " ++ prop.name ++ ": " ++ prop.knob.name ++ "('" ++ prop.name ++ "', " ++
    options prop.knob ++ defaultText prop ++ "),\n"

def propLines (props : List Input) : String := String.join (props.map propLine)

def text (story : Story) : String :=
  knobImport story.props ++
  "import \x7b " ++ story.moduleName ++ " \x7d from '" ++ story.modulePath ++ "';\n" ++
  "import \x7b " ++ story.componentName ++ " \x7d from './" ++ story.componentFileName ++ "';\n" ++
  "\nexport default \x7b\n  title: '" ++ story.componentName ++ "',\n\x7d;\n" ++
  "\nexport const primary = () => (\x7b\n  moduleMetadata: \x7b\n    imports: [" ++
  story.moduleName ++ "],\n  \x7d,\n  component: " ++ story.componentName ++
  ",\n  props: \x7b\n" ++ propLines story.props ++ "  \x7d,\n\x7d);\n"

end Story

namespace Schema

def storyPath (schema : Schema) : Path :=
  schema.directory.join ⟨schema.componentFileName ++ Story.fileEnding⟩

end Schema

end StoryKnobs

import StoryKnobs.Json.Record
import StoryKnobs.Path.Basic

/-!
# Schemas

Everything that has to be known to make the story of one component, and the paths that follow from
it. A schema has six texts; they may be gathered from several places before they make a schema.
-/

namespace StoryKnobs

structure Schema where
  /-- Root directory of the library that holds the component. -/
  libPath : String
  /-- Name of the file of the module that declares the component. -/
  moduleFileName : String
  /-- Name of the class of that module. -/
  moduleClassName : String
  /-- Name of the class of the component. -/
  componentName : String
  /-- Directory of the component, seen from the root of the library. -/
  componentPath : String
  /-- Name of the file of the component, without its extension. -/
  componentFileName : String
deriving DecidableEq, Repr, Inhabited

namespace Schema

inductive Field where
  | libPath
  | moduleFileName
  | moduleClassName
  | componentName
  | componentPath
  | componentFileName
deriving DecidableEq, Repr, Inhabited

namespace Field

def all : List Field :=
  [libPath, moduleFileName, moduleClassName, componentName, componentPath, componentFileName]

def key : Field → String
  | libPath => "libPath"
  | moduleFileName => "moduleFileName"
  | moduleClassName => "ngModuleClassName"
  | componentName => "componentName"
  | componentPath => "componentPath"
  | componentFileName => "componentFileName"

def flag : Field → String
  | libPath => "lib-path"
  | moduleFileName => "module-file-name"
  | moduleClassName => "ng-module-class-name"
  | componentName => "component-name"
  | componentPath => "component-path"
  | componentFileName => "component-file-name"

def logName : Field → String
  | libPath => "lib_path"
  | moduleFileName => "module_file_name"
  | moduleClassName => "ng_module_class_name"
  | componentName => "component_name"
  | componentPath => "component_path"
  | componentFileName => "component_file_name"

end Field

def get (schema : Schema) : Field → String
  | .libPath => schema.libPath
  | .moduleFileName => schema.moduleFileName
  | .moduleClassName => schema.moduleClassName
  | .componentName => schema.componentName
  | .componentPath => schema.componentPath
  | .componentFileName => schema.componentFileName

/-- A schema some of whose fields may be missing. -/
abbrev Draft := Field → Option String

namespace Draft

def empty : Draft := fun _ => none

def orElse (draft other : Draft) : Draft := fun field => (draft field).or (other field)

/-- A field of the schema to be made; `.error` tells which one is missing. -/
def require (draft : Draft) (field : Field) : Except Field String :=
  match draft field with
  | some text => .ok text
  | none => .error field

/-- The schema with the fields of `draft`, or the first field that is missing. -/
def complete (draft : Draft) : Except Field Schema := do
  return {
    libPath := ← draft.require .libPath
    moduleFileName := ← draft.require .moduleFileName
    moduleClassName := ← draft.require .moduleClassName
    componentName := ← draft.require .componentName
    componentPath := ← draft.require .componentPath
    componentFileName := ← draft.require .componentFileName }

end Draft

/-! ### Paths -/

def sourceExtension : String := ".ts"

def directory (schema : Schema) : Path := (Path.mk schema.libPath).join ⟨schema.componentPath⟩

def sourcePath (schema : Schema) : Path :=
  schema.directory.join ⟨schema.componentFileName ++ sourceExtension⟩

def isSeparator (char : Char) : Bool := char == '/' || char == '\\'

def isStep (segment : List Char) : Bool := segment != [] && segment != ['.']

/-- The number of directories on the way down a path. -/
def depth (path : String) : Nat :=
  ((Text.segments isSeparator path.toList).filter isStep).length

def moduleName (fileName : String) : String :=
  String.ofList
    (Text.dropEnding sourceExtension.toList (Text.lastSegment isSeparator fileName.toList))

/-- How a file in the directory `componentPath` of a library imports the module `moduleFileName` at
the root of that library. -/
def modulePathFrom (componentPath moduleFileName : String) : String :=
  let steps := match depth componentPath with
    | 0 => "."
    | depth => "/".intercalate (List.replicate depth "..")
  steps ++ "/" ++ moduleName moduleFileName

def modulePath (schema : Schema) : String :=
  modulePathFrom schema.componentPath schema.moduleFileName

/-! ### JSON -/

def toValue (schema : Schema) : Json.Value :=
  .object (Field.all.map fun field => (field.key, .string (schema.get field)))

def shape (title : String) : Json.Shape := ⟨title, Field.all.map Field.key⟩

def title : String := "struct GenerationSchema"

/-- How messages call a schema some of whose fields may be missing. -/
def Draft.title : String := "struct SchemaFile"

def textName : String := "a string"

/-- The schema with the given fields. -/
def ofFound (found : List (String × String)) : Except Json.Cause Schema :=
  match Draft.complete fun field => found.lookup field.key with
  | .ok schema => .ok schema
  | .error field => .error (.missingField field.key)

def reader : Json.Reader Schema := Json.Reader.record (shape title) (Json.Reader.text textName) ofFound

def parse (text : String) : Except Json.Error Schema := reader.run text

def ofValue (value : Json.Value) : Except Json.Cause Schema :=
  value.asRecord (shape title) (Json.Value.asText textName) ofFound

namespace Draft

/-- The draft with the given fields; `null` is the same as no field. -/
def ofFound (found : List (String × Option String)) : Draft := fun field =>
  (found.lookup field.key).join

def reader : Json.Reader Draft :=
  Json.Reader.record (shape title) (Json.Reader.orNull (Json.Reader.text textName))
    fun found => .ok (ofFound found)

def parse (text : String) : Except Json.Error Draft := reader.run text

end Draft

def logText (schema : Schema) : String :=
  "GenerationSchema \x7b " ++
    ", ".intercalate (Field.all.map fun field =>
      field.logName ++ ": " ++ Text.quoted (schema.get field)) ++ " \x7d"

end Schema

end StoryKnobs

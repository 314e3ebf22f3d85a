import StoryKnobs.Command.Arguments
import StoryKnobs.Log

/-!
# Runs of the command line

A run reads its arguments, works on a file tree, and reports what it has to say and with which exit
code it ends.
-/

namespace StoryKnobs.Command

inductive SchemaError where
  | unreadable (path : Path) (error : FileError)
  | malformed (path : Path) (error : Json.Error)
  | missing (field : Schema.Field)

namespace SchemaError

def message : SchemaError → String
  | unreadable path error => "error reading schema file '" ++ path.text ++ "': " ++ error.message
  | malformed path error => "error parsing schema file '" ++ path.text ++ "': " ++ error.message
  | missing field =>
    "missing required schema field `" ++ field.key ++ "` (pass --" ++ field.flag ++
      " or set it in --schema)"

end SchemaError

inductive Notice where
  | log (event : Log.Event)
  | failure (text : String)
deriving DecidableEq, Repr, Inhabited

structure Report where
  code : Nat
  output : String
  notices : List Notice
deriving DecidableEq, Repr, Inhabited

variable {m : Type → Type} [Monad m] [FileTree m]

def loadDraft (path : Path) : m (Except SchemaError Schema.Draft) := do
  match ← FileTree.read path with
  | .error error => return .error (.unreadable path error)
  | .ok text =>
    match Schema.Draft.parse text with
    | .ok draft => return .ok draft
    | .error error => return .error (.malformed path error)

/-- The fields given as options over those in the schema file. -/
def mergeDrafts (fields draft : Schema.Draft) : Except SchemaError Schema :=
  match (fields.orElse draft).complete with
  | .ok schema => .ok schema
  | .error field => .error (.missing field)

/-- The schema that a schema file and options give. The file has to be there even if the options
give all fields. -/
def resolve (schemaFile : Option Path) (fields : Schema.Draft) : m (Except SchemaError Schema) := do
  match schemaFile with
  | none => return mergeDrafts fields .empty
  | some path => return (← loadDraft path).bind (mergeDrafts fields)

/-- The events that are shown: all of them, or warnings only. -/
def shown (settings : Settings) (events : List Log.Event) : List Notice :=
  (events.filter fun event => settings.verbose || event.level == .warn).map .log

def failureText (format : Format) (message : String) : String :=
  match format with
  | .text => message
  | .json => (Json.Value.object [("error", .string message)]).compact

def failed (settings : Settings) (events : List Log.Event) (message : String) : Report where
  code := 1
  output := ""
  notices := shown settings events ++
    if settings.quiet then [] else [.failure (failureText settings.format message)]

def succeeded (settings : Settings) (events : List Log.Event) (output : String) : Report where
  code := 0
  output := if settings.quiet then "" else output
  notices := shown settings events

def outcomeText (format : Format) (outcome : GenerateOutcome) : String :=
  match format, outcome with
  | .text, .created path => "CREATE " ++ path.text ++ "\n"
  | .text, .skipped path => "SKIP " ++ path.text ++ " (already exists)\n"
  | .json, outcome =>
    let status := if outcome.isCreated then "created" else "skipped"
    (Json.Value.object
      [("path", .string outcome.path.text), ("status", .string status)]).pretty ++ "\n"

def inputValue (input : Input) : Json.Value :=
  .object
    [("name", .string input.name), ("type", .string input.knob.name),
      ("defaultValue", input.defaultValue.elim .null .string)]

def inputsText (format : Format) (file : Path) (inputs : List Input) : String :=
  match format with
  | .json => (Json.Value.array (inputs.map inputValue)).pretty ++ "\n"
  | .text =>
    if inputs.isEmpty then "no inputs found in " ++ file.text ++ "\n"
    else
      String.join (inputs.map fun input =>
        input.name ++ ": " ++ input.knob.name ++ " = " ++ Story.defaultText input ++ "\n")

def runInputs (settings : Settings) (file : Path) : m Report := do
  match ← Source.load file with
  | .error error => return failed settings [] ("error: " ++ error.message)
  | .ok source =>
    return succeeded settings (Log.ofSource source) (inputsText settings.format file source.inputs)

def runGenerate (settings : Settings) (schemaFile : Option Path) (fields : Schema.Draft) :
    m Report := do
  match ← resolve schemaFile fields with
  | .error error => return failed settings [] ("error: " ++ error.message)
  | .ok schema =>
    let resolved := [Log.ofSchema schema]
    match ← Source.load schema.sourcePath with
    | .error error => return failed settings resolved ("story generation error: " ++ error.message)
    | .ok source =>
      let read := resolved ++ Log.ofSource source ++ [Log.ofInputs schema source]
      match ← schema.writeStory source with
      | .error error => return failed settings read ("story generation error: " ++ error.message)
      | .ok outcome =>
        return succeeded settings (read ++ [Log.ofOutcome outcome])
          (outcomeText settings.format outcome)

def versionText : String := "ngstory 0.1.0\n"

def helpText : String :=
  "Storybook story generator for Angular components\n\n" ++
  "Usage: ngstory [OPTIONS] <COMMAND>\n\n" ++
  "Commands:\n" ++
  "  generate  Generate a `.stories.ts` file next to a component, unless one exists\n" ++
  "  inputs    List the inputs of a component source file and their knobs\n" ++
  "  help      Print this message or the help of the given subcommand(s)\n\n" ++
  "Options:\n" ++
  "      --output <OUTPUT>  Output format (text or json)\n" ++
  "      --quiet            Suppress non-essential output\n" ++
  "  -v, --verbose          Log debug details to stderr\n" ++
  "  -h, --help             Print help\n" ++
  "  -V, --version          Print version\n"

def usageText : String :=
  "error: the arguments are not understood\n\n" ++
  "Usage: ngstory [OPTIONS] <COMMAND>\n\n" ++
  "For more information, try '--help'."

def run (arguments : List String) : m Report := do
  match read arguments with
  | .error .usage => return ⟨2, "", [.failure usageText]⟩
  | .error .help => return ⟨0, helpText, []⟩
  | .error .version => return ⟨0, versionText, []⟩
  | .ok (settings, .generate schemaFile fields) => runGenerate settings schemaFile fields
  | .ok (settings, .inputs file) => runInputs settings file

end StoryKnobs.Command

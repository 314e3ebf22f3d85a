import StoryKnobs.Generate

/-!
# The log

What a run tells about its course, apart from its result. Texts from outside are quoted where the
log marks them as texts; names and paths stand as they are.
-/

namespace StoryKnobs

namespace Log

inductive Level where
  | debug
  | info
  | warn
deriving DecidableEq, Repr, Inhabited

namespace Level

def name : Level → String
  | debug => "DEBUG"
  | info => "INFO"
  | warn => "WARN"

end Level

structure Event where
  level : Level
  text : String
deriving DecidableEq, Repr, Inhabited

def Event.line (event : Event) : String := event.level.name ++ " " ++ event.text

def optional : Option String → String
  | some text => "Some(" ++ Text.quoted text ++ ")"
  | none => "None"

def ofFinding (path : Path) : Finding → Event
  | .found input =>
    ⟨.debug, "found input name=" ++ input.name ++ " knob_type=" ++ input.knob.name ++
      " default_value=" ++ optional input.defaultValue⟩
  | .skipped line decorator =>
    ⟨.warn, "input decorator does not decorate a property; skipping path=" ++ path.text ++
      " line=" ++ toString line ++ " decorator=" ++ Text.quoted decorator⟩

def ofSource (source : Source) : List Event :=
  (if source.tree.hasError then
    [⟨.warn, "component source has syntax errors; extracting from recovered tree path=" ++
      source.path.text⟩]
  else []) ++ source.findings.map (ofFinding source.path)

def ofSchema (schema : Schema) : Event :=
  ⟨.debug, "resolved generation schema schema=" ++ schema.logText⟩

def ofInputs (schema : Schema) (source : Source) : Event :=
  ⟨.debug, "extracted component inputs component=" ++ schema.componentName ++ " source=" ++
    source.path.text ++ " inputs=" ++ toString source.inputs.length⟩

def ofOutcome : GenerateOutcome → Event
  | .created path => ⟨.info, "created story path=" ++ path.text⟩
  | .skipped path => ⟨.info, "story already exists; skipping path=" ++ path.text⟩

end Log

end StoryKnobs

import StoryKnobs.Schema

/-!
# Arguments of the command line

The arguments name a command, with options in front of it and behind it. They are read from left to
right, and the first one that is wrong, or that asks for help or the version, ends the reading.
-/

namespace StoryKnobs.Command

inductive Format where
  | text
  | json
deriving DecidableEq, Repr, Inhabited

namespace Format

def ofName? (name : String) : Option Format :=
  if name == "text" then some text else if name == "json" then some json else none

end Format

inductive Switch where
  | format
  | quiet
  | verbose
  | schema
  | field (field : Schema.Field)
  | help
  | version
deriving DecidableEq, Repr, Inhabited

inductive Level where
  | top
  | generate
  | inputs
deriving DecidableEq, Repr, Inhabited

inductive Stop where
  | usage
  | help
  | version
deriving DecidableEq, Repr, Inhabited

namespace Level

def long? (level : Level) (name : String) : Option Switch :=
  if name == "output" then some .format
  else if name == "quiet" then some .quiet
  else if name == "verbose" then some .verbose
  else if name == "help" then some .help
  else
    match level with
    | top => if name == "version" then some .version else none
    | generate =>
      if name == "schema" then some .schema
      else (Schema.Field.all.find? (·.flag == name)).map .field
    | inputs => none

def short? (level : Level) (name : Char) : Option Switch :=
  if name == 'v' then some .verbose
  else if name == 'h' then some .help
  else if name == 'V' && level == top then some .version
  else none

end Level

namespace Switch

def hasValue : Switch → Bool
  | format | schema | field _ => true
  | quiet | verbose | help | version => false

def accepts : Switch → String → Bool
  | format, value => (Format.ofName? value).isSome
  | schema, value => !value.isEmpty
  | _, _ => true

end Switch

structure Given where
  switches : List (Switch × String)
  operands : List String
deriving DecidableEq, Repr, Inhabited

namespace Given

def empty : Given := ⟨[], []⟩

def value? (given : Given) (switch : Switch) : Option String := given.switches.lookup switch

def has (given : Given) (switch : Switch) : Bool := (given.value? switch).isSome

/-- Adds an option, which may be given only once. -/
def set (given : Given) (switch : Switch) (value : String) : Except Stop Given :=
  match switch with
  | .help => .error .help
  | .version => .error .version
  | switch =>
    if given.has switch || !switch.accepts value then .error .usage
    else .ok { given with switches := (switch, value) :: given.switches }

def setLetters (level : Level) (given : Given) : List Char → Except Stop Given
  | [] => .ok given
  | letter :: letters =>
    match level.short? letter with
    | none => .error .usage
    | some switch => do setLetters level (← given.set switch "") letters

/-- Adds the file of `inputs`; other commands have no operands. -/
def addOperand (level : Level) (given : Given) (operand : String) : Except Stop Given :=
  if level == .inputs && given.operands.isEmpty && !operand.isEmpty then
    .ok { given with operands := [operand] }
  else .error .usage

end Given

/-- Whether an argument is no option, so that it can be the value of one. -/
def isPlain (argument : String) : Bool :=
  match argument.toList with
  | '-' :: _ :: _ => false
  | _ => true

def splitLong (chars : List Char) : String × Option String :=
  let name := chars.takeWhile (· != '=')
  (String.ofList name,
    match chars.drop name.length with
    | [] => none
    | _ :: value => some (String.ofList value))

/-- The arguments behind a command. After `--` no argument is an option. -/
def readOptions (level : Level) : Bool → Given → List String → Except Stop Given
  | _, given, [] => .ok given
  | true, given, argument :: arguments => do
    readOptions level true (← given.addOperand level argument) arguments
  | false, given, argument :: arguments =>
    match argument.toList with
    | ['-', '-'] => readOptions level true given arguments
    | '-' :: '-' :: chars =>
      match level.long? (splitLong chars).1, (splitLong chars).2 with
      | none, _ => .error .usage
      | some switch, some value =>
        if switch.hasValue then do readOptions level false (← given.set switch value) arguments
        else .error .usage
      | some switch, none =>
        if switch.hasValue then
          match arguments with
          | value :: others =>
            if isPlain value then do readOptions level false (← given.set switch value) others
            else .error .usage
          | [] => .error .usage
        else do readOptions level false (← given.set switch "") arguments
    | '-' :: letter :: letters => do
      readOptions level false (← given.setLetters level (letter :: letters)) arguments
    | _ => do readOptions level false (← given.addOperand level argument) arguments

/-- The options in front of the command, the name of the command and the arguments behind it. -/
def readTop : Given → List String → Except Stop (Given × String × List String)
  | _, [] => .error .usage
  | given, argument :: arguments =>
    match argument.toList with
    | ['-', '-'] => .error .usage
    | '-' :: '-' :: chars =>
      match Level.top.long? (splitLong chars).1, (splitLong chars).2 with
      | none, _ => .error .usage
      | some switch, some value =>
        if switch.hasValue then do readTop (← given.set switch value) arguments
        else .error .usage
      | some switch, none =>
        if switch.hasValue then
          match arguments with
          | value :: others =>
            if isPlain value then do readTop (← given.set switch value) others
            else .error .usage
          | [] => .error .usage
        else do readTop (← given.set switch "") arguments
    | '-' :: letter :: letters => do
      readTop (← given.setLetters .top (letter :: letters)) arguments
    | _ => .ok (given, argument, arguments)

structure Settings where
  format : Format
  quiet : Bool
  verbose : Bool
deriving DecidableEq, Repr, Inhabited

/-- The settings in front of the command and behind it; those behind it count more. -/
def Settings.ofGiven (front behind : Given) : Settings where
  format := (((behind.value? .format).or (front.value? .format)).bind Format.ofName?).getD .text
  quiet := front.has .quiet || behind.has .quiet
  verbose := front.has .verbose || behind.has .verbose

inductive Task where
  /-- Makes a story from a schema file and the fields given as options. -/
  | generate (schemaFile : Option Path) (fields : Schema.Draft)
  | inputs (file : Path)

def helpOn : List String → Stop
  | [] => .help
  | [name] => if ["generate", "inputs", "help"].contains name then .help else .usage
  | _ => .usage

def read (arguments : List String) : Except Stop (Settings × Task) := do
  let (front, name, behind) ← readTop .empty arguments
  if name == "generate" then
    let given ← readOptions .generate false .empty behind
    let fields : Schema.Draft := fun field => given.value? (.field field)
    return (.ofGiven front given, .generate ((given.value? .schema).map Path.mk) fields)
  else if name == "inputs" then
    let given ← readOptions .inputs false .empty behind
    match given.operands with
    | [file] => return (.ofGiven front given, .inputs ⟨file⟩)
    | _ => throw .usage
  else if name == "help" then throw (helpOn behind)
  else throw .usage

end StoryKnobs.Command

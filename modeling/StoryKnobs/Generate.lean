import StoryKnobs.FileTree.Basic
import StoryKnobs.Story

/-!
# Making stories

The component of a schema is read from a file tree, and its story is written next to it unless
something is there. Nothing is written if the component cannot be read.
-/

namespace StoryKnobs

inductive GenerateError where
  | unreadable (path : Path) (error : FileError)
  | unwritable (path : Path) (error : FileError)
deriving DecidableEq, Repr, Inhabited

namespace GenerateError

def path : GenerateError → Path
  | unreadable path _ => path
  | unwritable path _ => path

def message : GenerateError → String
  | unreadable path error => "cannot read component source " ++ path.text ++ ": " ++ error.message
  | unwritable path error => "failed to write '" ++ path.text ++ "': " ++ error.message

end GenerateError

inductive GenerateOutcome where
  | created (path : Path)
  /-- Something was there before, and nothing has changed. -/
  | skipped (path : Path)
deriving DecidableEq, Repr, Inhabited

namespace GenerateOutcome

def path : GenerateOutcome → Path
  | created path => path
  | skipped path => path

def isCreated : GenerateOutcome → Bool
  | created _ => true
  | skipped _ => false

def ofWrite (path : Path) : WriteOutcome → GenerateOutcome
  | .written => created path
  | .alreadyExists => skipped path

end GenerateOutcome

variable {m : Type → Type} [Monad m] [FileTree m]

def Source.load (path : Path) : m (Except GenerateError Source) := do
  match ← FileTree.read path with
  | .ok text => return .ok (.parse path text)
  | .error error => return .error (.unreadable path error)

def inputsAt (path : Path) : m (Except GenerateError (List Input)) := do
  return (← Source.load path).map Source.inputs

namespace Schema

def storyOf (schema : Schema) (source : Source) : Story := .ofSchema schema source.inputs

def writeStory (schema : Schema) (source : Source) : m (Except GenerateError GenerateOutcome) := do
  let path := schema.storyPath
  match ← FileTree.writeNew path (schema.storyOf source).text with
  | .ok outcome => return .ok (.ofWrite path outcome)
  | .error error => return .error (.unwritable path error)

def generate (schema : Schema) : m (Except GenerateError GenerateOutcome) := do
  match ← Source.load schema.sourcePath with
  | .ok source => schema.writeStory source
  | .error error => return .error error

end Schema

end StoryKnobs

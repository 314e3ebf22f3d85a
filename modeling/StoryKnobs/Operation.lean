import StoryKnobs.FileTree.Disk
import StoryKnobs.FileTree.Memory
import StoryKnobs.Generate

/-!
# Operations on file trees

What is asked of a file tree, one thing after another, and what the tree answers each time.
-/

namespace StoryKnobs

/-- States `σ` of file trees that also tell whether something is at a path. -/
class FileStore (σ : Type) extends FileTree (StateM σ) where
  contains : σ → Path → Bool

instance : FileStore Memory where
  contains := Memory.contains

instance : FileStore Disk where
  contains := Disk.contains

def Schema.storyText (schema : Schema) (text : String) : String :=
  (schema.storyOf (.parse schema.sourcePath text)).text

inductive Operation where
  | read (path : Path)
  | look (path : Path)
  | write (path : Path) (text : String)
  | generate (schema : Schema)
deriving DecidableEq, Repr, Inhabited

inductive Answer where
  | read (result : Except FileError String)
  | look (present : Bool)
  | write (result : Except FileError WriteOutcome)
  | generate (result : Except GenerateError GenerateOutcome)
deriving Inhabited

def Answer.reportsWrite : Answer → Bool
  | write (.ok .written) => true
  | generate (.ok (.created _)) => true
  | _ => false

namespace Operation

variable {σ : Type} [FileStore σ]

def run : Operation → StateM σ Answer
  | read path => return .read (← FileTree.read path)
  | look path => return .look (FileStore.contains (← get) path)
  | write path text => return .write (← FileTree.writeNew path text)
  | generate schema => return .generate (← schema.generate)

def after (operations : List Operation) (store : σ) : σ :=
  operations.foldl (fun store operation => (operation.run store).2) store

def trace : List Operation → σ → List (Answer × σ)
  | [], _ => []
  | operation :: operations, store =>
    operation.run store :: trace operations (operation.run store).2

def paths : Operation → List Path
  | read path => [path]
  | look path => [path]
  | write path _ => [path]
  | generate schema => [schema.sourcePath, schema.storyPath]

/-- The paths that an operation may write to. -/
def targets : Operation → List Path
  | read _ => []
  | look _ => []
  | write path _ => [path]
  | generate schema => [schema.storyPath]

/-- What an operation is to write, and where, if `find?` gives the texts that it can read. -/
def request? (find? : Path → Option String) : Operation → Option (Path × String)
  | read _ => none
  | look _ => none
  | write path text => some (path, text)
  | generate schema =>
    (find? schema.sourcePath).map fun text => (schema.storyPath, schema.storyText text)

end Operation

end StoryKnobs

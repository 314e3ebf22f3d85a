import StoryKnobs.FileTree.Basic
import StoryKnobs.Path.Normal

/-!
# File trees in memory

Texts by the normal forms of their paths, in the order of paths. There are no directories.
-/

namespace StoryKnobs

structure Memory where
  files : List (List Path.Component × String)
deriving DecidableEq, Repr, Inhabited

namespace Memory

def empty : Memory := ⟨[]⟩

def put (key : List Path.Component) (text : String) :
    List (List Path.Component × String) → List (List Path.Component × String)
  | [] => [(key, text)]
  | (other, old) :: files =>
    if Path.before key other then (key, text) :: (other, old) :: files
    else if key = other then (key, text) :: files
    else (other, old) :: put key text files

def insert (memory : Memory) (path : Path) (text : String) : Memory :=
  ⟨put path.normal text memory.files⟩

/-- The tree that holds the given files. Of files with the same normal form the last one counts. -/
def ofFiles (files : List (Path × String)) : Memory :=
  files.foldl (fun memory (path, text) => memory.insert path text) empty

def get? (memory : Memory) (path : Path) : Option String := memory.files.lookup path.normal

def paths (memory : Memory) : List Path :=
  memory.files.map fun (key, _) => Path.ofComponents key

def contains (memory : Memory) (path : Path) : Bool := (memory.get? path).isSome

def read (memory : Memory) (path : Path) : Except FileError String :=
  match memory.get? path with
  | some text => .ok text
  | none => .error (.unknown path.normalize)

def writeNew (memory : Memory) (path : Path) (text : String) : WriteOutcome × Memory :=
  if memory.contains path then (.alreadyExists, memory) else (.written, memory.insert path text)

instance : FileTree (StateM Memory) where
  read path := return (← get).read path
  writeNew path text := modifyGet fun memory =>
    let (outcome, memory) := memory.writeNew path text
    (.ok outcome, memory)

end Memory

end StoryKnobs

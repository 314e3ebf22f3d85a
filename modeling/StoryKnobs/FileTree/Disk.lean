import StoryKnobs.FileTree.Basic
import StoryKnobs.Path.Normal

/-!
# File trees on a disk

A disk holds directories and files below one root, and paths are followed from the root or from the
working directory, name by name. A new text is first written to a file with a name of its own, and
then moved to its path if nothing is there. Each call to the system may also fail for a reason that
the disk does not show.
-/

namespace StoryKnobs

/-- The names on the way from the root down to a place on a disk. -/
abbrev Location := List String

inductive Entry where
  | directory
  | file (bytes : ByteArray)
deriving Inhabited

/-- The entries below the root, and the directory at which relative paths start. -/
structure Disk where
  workingDirectory : Location
  entries : List (Location × Entry)
deriving Inhabited

namespace Disk

/-- A disk with nothing but the working directory and the directories above it. -/
def ofWorkingDirectory (location : Location) : Disk where
  workingDirectory := location
  entries := (List.range location.length).map fun count => (location.take (count + 1), .directory)

/-- What is at a place. The root is always a directory. -/
def entry? (disk : Disk) : Location → Option Entry
  | [] => some .directory
  | location => disk.entries.lookup location

def add (disk : Disk) (location : Location) (entry : Entry) : Disk :=
  { disk with entries := (location, entry) :: disk.entries }

def remove (disk : Disk) (location : Location) : Disk :=
  { disk with entries := disk.entries.filter (·.1 != location) }

/-- Puts an entry in place of what is at a location, with the directories above it. -/
def put (disk : Disk) (location : Location) (entry : Entry) : Disk :=
  let above := (List.range location.length).map fun count => location.take count
  let disk := above.foldl (fun disk location =>
    if (disk.entry? location).isSome then disk else disk.add location .directory) disk
  (disk.remove location).add location entry

def namesOf (path : Path) : List String :=
  path.normal.filterMap fun
    | .name text => some text
    | _ => none

def ofEntries (location : Location) (entries : List (Path × Entry)) : Disk :=
  entries.foldl (fun disk (path, entry) => disk.put (location ++ namesOf path) entry)
    (ofWorkingDirectory location)

def isInhabited (disk : Disk) (location : Location) : Bool :=
  disk.entries.any fun (other, _) => location.isPrefixOf other && location != other

/-- The files and the empty directories below the working directory, by their relative paths in
increasing order. -/
def leaves (disk : Disk) : List (String × Entry) :=
  let found := disk.entries.filter fun (location, _) =>
    disk.workingDirectory.isPrefixOf location && location != disk.workingDirectory &&
      !disk.isInhabited location
  let named := found.map fun (location, entry) =>
    ("/".intercalate (location.drop disk.workingDirectory.length), entry)
  named.mergeSort fun (name, _) (other, _) => name ≤ other

/-! ### Following paths -/

def nameLimit : Nat := 255

def pathLimit : Nat := 4096

/-- A path as a disk sees it: where it starts, its names, and whether a slash ends it. -/
structure Route where
  absolute : Bool
  names : List String
  closed : Bool
deriving DecidableEq, Repr, Inhabited

/-- The route of a path, if a path like it can be looked up. -/
def routeOf (path : Path) : Except FileError Route :=
  if path.text.toList.contains '\x00' then .error .nulInName
  else if path.text.isEmpty then .error .notFound
  else if pathLimit ≤ path.text.utf8ByteSize then .error .nameTooLong
  else .ok ⟨path.isAbsolute, path.steps, path.text.toList.getLast? == some '/'⟩

/-- Follows names from a place on. Every name has to be looked up in a directory. -/
def follow (disk : Disk) : Location → List String → Except FileError Location
  | location, [] => .ok location
  | location, name :: names =>
    match disk.entry? location with
    | none => .error .notFound
    | some (.file _) => .error .notADirectory
    | some .directory =>
      if name == "." then follow disk location names
      else if name == ".." then follow disk location.dropLast names
      else if nameLimit < name.utf8ByteSize then .error .nameTooLong
      else follow disk (location ++ [name]) names

def start (disk : Disk) (route : Route) : Location :=
  if route.absolute then [] else disk.workingDirectory

def visit (disk : Disk) (location : Location) : Except FileError (Location × Entry) :=
  match disk.entry? location with
  | some entry => .ok (location, entry)
  | none => .error .notFound

def find (disk : Disk) (path : Path) : Except FileError (Location × Entry) := do
  let route ← routeOf path
  disk.visit (← disk.follow (disk.start route) (route.names ++ if route.closed then ["."] else []))

/-- Where a path would put something new: the directory and the last name, which is missing if it is
`.`, `..` or the root. -/
def destination (disk : Disk) (route : Route) : Except FileError (Location × Option String) := do
  let directory ← disk.follow (disk.start route) route.names.dropLast
  match disk.entry? directory with
  | none => throw .notFound
  | some (.file _) => throw .notADirectory
  | some .directory =>
    match route.names.getLast? with
    | none => return (directory, none)
    | some name =>
      if name == "." || name == ".." then return (directory, none)
      else if nameLimit < name.utf8ByteSize then throw .nameTooLong
      else return (directory, some name)

/-! ### Single steps -/

def contains (disk : Disk) (path : Path) : Bool := (disk.find path).isOk

def isDirectory (disk : Disk) (path : Path) : Bool :=
  match disk.find path with
  | .ok (_, .directory) => true
  | _ => false

def read (disk : Disk) (path : Path) : Except FileError String := do
  match (← disk.find path).2 with
  | .directory => throw .isADirectory
  | .file bytes =>
    match String.fromUTF8? bytes with
    | some text => return text
    | none => throw .notText

def makeDirectory (disk : Disk) (path : Path) : Except FileError Disk := do
  match ← disk.destination (← routeOf path) with
  | (_, none) => throw .alreadyExists
  | (directory, some name) =>
    let location := directory ++ [name]
    match disk.entry? location with
    | some _ => throw .alreadyExists
    | none => return disk.add location .directory

/-! ### Calls that fail -/

/-- The calls to the system by which a text is read or written. A level is the number of directories
that may still be made above the one in question. -/
inductive Call where
  | read
  | look
  | make (level : Nat)
  /-- Makes a directory after those missing above it. -/
  | remake (level : Nat)
  | inspect (level : Nat)
  | stage
  | fill
  | publish
deriving DecidableEq, Repr

/-- The calls that fail for a reason that the disk does not show, such as a missing permission or a
lack of space. Every call is made at most once, and a staged file can always be removed. -/
structure Faults where
  fault? : Call → Option FileError
  /-- Moving a file says that something is at the path only if the disk shows it. -/
  publish_ne : fault? .publish ≠ some .alreadyExists

namespace Faults

def none : Faults where
  fault? _ := Option.none
  publish_ne := by simp

def run {α : Type} (faults : Faults) (call : Call) (result : Except FileError α) :
    Except FileError α :=
  match faults.fault? call with
  | some error => .error error
  | Option.none => result

end Faults

/-- Whether something is at a path, as far as can be seen. -/
def look (faults : Faults) (disk : Disk) (path : Path) : Bool :=
  (faults.fault? .look).isNone && disk.contains path

/-- What becomes of an attempt to make the directory `path`: it is no failure if one is there. -/
def settle (faults : Faults) (level : Nat) (disk : Disk) (path : Path) :
    Except FileError Disk → Except FileError Unit × Disk
  | .ok disk => (.ok (), disk)
  | .error error =>
    (if (faults.fault? (.inspect level)).isNone && disk.isDirectory path then .ok ()
      else .error error, disk)

/-- Makes a directory and those missing above it, at most `count` in all. Those that have been made
stay even if another one cannot be made. -/
def makeDirectories (faults : Faults) : Nat → Disk → Path → Except FileError Unit × Disk
  | 0, disk, _ => (.error .notFound, disk)
  | count + 1, disk, path =>
    if path.text.isEmpty then (.ok (), disk)
    else
      match faults.run (.make count) (disk.makeDirectory path) with
      | .error .notFound =>
        match path.parent? with
        | none => (.error .notFound, disk)
        | some parent =>
          match makeDirectories faults count disk parent with
          | (.ok (), disk) =>
            settle faults count disk path (faults.run (.remake count) (disk.makeDirectory path))
          | (.error error, disk) => (.error error, disk)
      | made => settle faults count disk path made

def stagedName (number : Nat) : String := ".tmp" ++ toString number

/-- A name that nothing in the directory `location` has, other than `reserved`. -/
def freshName (disk : Disk) (location : Location) (reserved : Option String) : String :=
  let names := (List.range (disk.entries.length + 2)).map stagedName
  (names.find? fun name =>
    some name != reserved && (disk.entry? (location ++ [name])).isNone).getD (stagedName 0)

def stagingDirectory (path : Path) : Path :=
  match path.parent? with
  | none => ⟨"."⟩
  | some parent => if parent.text.isEmpty then ⟨"."⟩ else parent

/-- The path from the root by which a file is staged in a directory, apart from the six characters
that are chosen for its name. -/
def stagedPath (home : Location) (directory : Path) : Path :=
  (Path.join ⟨"/" ++ "/".intercalate home⟩ directory).join ⟨".tmpXXXXXX"⟩

/-- Makes an empty file in a directory, with a name of its own that is not the name of `path`. -/
def stage (disk : Disk) (directory path : Path) : Except FileError (Location × Disk) := do
  if pathLimit ≤ (stagedPath disk.workingDirectory directory).text.utf8ByteSize then
    throw .nameTooLong
  match ← disk.find directory with
  | (_, .file _) => throw .notADirectory
  | (location, .directory) =>
    let staged := location ++ [disk.freshName location path.fileName?]
    return (staged, disk.add staged (.file .empty))

def fill (disk : Disk) (staged : Location) (text : String) : Disk :=
  (disk.remove staged).add staged (.file text.toUTF8)

def publish (disk : Disk) (staged : Location) (path : Path) : Except FileError Disk := do
  let route ← routeOf path
  match ← disk.destination route with
  | (_, none) => throw .alreadyExists
  | (directory, some name) =>
    let location := directory ++ [name]
    match disk.entry? location with
    | some _ => throw .alreadyExists
    | none =>
      if route.closed then throw .notADirectory
      else return (disk.remove staged).add location ((disk.entry? staged).getD (.file .empty))

/-! ### Writing -/

/-- Stages a text in `directory` and publishes it. What was staged is removed again if it cannot be
published. -/
def persist (faults : Faults) (disk : Disk) (directory path : Path) (text : String) :
    Except FileError WriteOutcome × Disk :=
  match faults.run .stage (disk.stage directory path) with
  | .error error => (.error error, disk)
  | .ok (staged, disk) =>
    match faults.fault? .fill with
    | some error => (.error error, disk.remove staged)
    | none =>
      let disk := disk.fill staged text
      match faults.run .publish (disk.publish staged path) with
      | .ok disk => (.ok .written, disk)
      | .error .alreadyExists => (.ok .alreadyExists, disk.remove staged)
      | .error error => (.error error, disk.remove staged)

def writeNew (faults : Faults) (disk : Disk) (path : Path) (text : String) :
    Except FileError WriteOutcome × Disk :=
  if look faults disk path then (.ok .alreadyExists, disk)
  else
    match path.parent? with
    | none => persist faults disk ⟨"."⟩ path text
    | some parent =>
      if parent.text.isEmpty then persist faults disk ⟨"."⟩ path text
      else
        match makeDirectories faults (parent.text.length + 1) disk parent with
        | (.ok (), disk) => persist faults disk parent path text
        | (.error error, disk) => (.error error, disk)

abbrev Faulty : Type → Type := ReaderT Faults (StateM Disk)

instance : FileTree Faulty where
  read path := fun faults => return faults.run .read ((← get).read path)
  writeNew path text := fun faults => modifyGet fun disk => writeNew faults disk path text

instance : FileTree (StateM Disk) where
  read path := return (← get).read path
  writeNew path text := modifyGet fun disk => writeNew .none disk path text

end Disk

end StoryKnobs

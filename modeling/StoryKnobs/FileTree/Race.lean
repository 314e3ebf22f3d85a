import StoryKnobs.FileTree.Disk

/-!
# Writers on one disk

Writers that each write one text to one path, all on the same disk. A writer makes one call to the
system after another, and the calls of different writers come in any order. No call fails for a
reason that the disk does not show, and the way to a staged file is never too long.
-/

namespace StoryKnobs.Disk

/-- The place of a path that never goes up. -/
def placeOf (disk : Disk) (path : Path) : Location :=
  (if path.isAbsolute then [] else disk.workingDirectory) ++ path.names

def makeParent (disk : Disk) (path : Path) : Except FileError Unit × Disk :=
  match path.parent? with
  | none => (.ok (), disk)
  | some parent =>
    if parent.text.isEmpty then (.ok (), disk)
    else makeDirectories .none (parent.text.length + 1) disk parent

/-- Makes an empty file in a directory, under a name that nothing there has. -/
def stageAs (disk : Disk) (directory : Path) (name : String) :
    Except FileError (Location × Disk) := do
  match ← disk.find directory with
  | (_, .file _) => throw .notADirectory
  | (location, .directory) =>
    let staged := location ++ [name]
    match disk.entry? staged with
    | some _ => throw .alreadyExists
    | none => return (staged, disk.add staged (.file .empty))

/-- The result of a writer whose text cannot be published. -/
def refusal : FileError → Except FileError WriteOutcome
  | .alreadyExists => .ok .alreadyExists
  | error => .error error

structure Writer where
  path : Path
  text : String
deriving DecidableEq, Repr, Inhabited

/-- The call that a writer is about to make. -/
inductive Phase where
  | looking
  | making
  | staging
  | filling (staged : Location)
  | publishing (staged : Location)
  /-- What was staged is to be removed before the writer finishes. -/
  | discarding (staged : Location) (result : Except FileError WriteOutcome)
  | finished (result : Except FileError WriteOutcome)

/-- One call of a writer, with the disk and the phase before and after it. No file is staged at a
place that is reserved. -/
inductive Writer.Step (writer : Writer) (reserved : Location → Prop) :
    Disk × Phase → Disk × Phase → Prop where
  | found {disk : Disk} (hlook : disk.contains writer.path = true) :
      Step writer reserved (disk, .looking) (disk, .finished (.ok .alreadyExists))
  | missed {disk : Disk} (hlook : disk.contains writer.path = false) :
      Step writer reserved (disk, .looking) (disk, .making)
  | made {disk other : Disk} (hmake : disk.makeParent writer.path = (.ok (), other)) :
      Step writer reserved (disk, .making) (other, .staging)
  | unmade {disk other : Disk} {error : FileError}
      (hmake : disk.makeParent writer.path = (.error error, other)) :
      Step writer reserved (disk, .making) (other, .finished (.error error))
  | staged {disk other : Disk} {name : String} {staged : Location}
      (hstage : disk.stageAs (stagingDirectory writer.path) name = .ok (staged, other))
      (hreserved : ¬ reserved staged) :
      Step writer reserved (disk, .staging) (other, .filling staged)
  | unstaged {disk : Disk} {name : String} {error : FileError}
      (hstage : disk.stageAs (stagingDirectory writer.path) name = .error error)
      (hne : error ≠ .alreadyExists) :
      Step writer reserved (disk, .staging) (disk, .finished (.error error))
  | filled {disk : Disk} {staged : Location} :
      Step writer reserved (disk, .filling staged)
        (disk.fill staged writer.text, .publishing staged)
  | published {disk other : Disk} {staged : Location}
      (hpublish : disk.publish staged writer.path = .ok other) :
      Step writer reserved (disk, .publishing staged) (other, .finished (.ok .written))
  | refused {disk : Disk} {staged : Location} {error : FileError}
      (hpublish : disk.publish staged writer.path = .error error) :
      Step writer reserved (disk, .publishing staged) (disk, .discarding staged (refusal error))
  | discarded {disk : Disk} {staged : Location} {result : Except FileError WriteOutcome} :
      Step writer reserved (disk, .discarding staged result)
        (disk.remove staged, .finished result)

/-- A disk, and how far each of the writers has come. -/
structure Race (ι : Type) where
  disk : Disk
  phase : ι → Phase

namespace Race

variable {ι : Type}

def start (disk : Disk) : Race ι := ⟨disk, fun _ => .looking⟩

/-- Whether a path of a writer goes through a place or ends there. -/
def IsClaimed (race : Race ι) (writers : ι → Writer) (place : Location) : Prop :=
  ∃ index, place <+: race.disk.placeOf (writers index).path

def advance [DecidableEq ι] (race : Race ι) (index : ι) (disk : Disk) (phase : Phase) : Race ι :=
  ⟨disk, fun other => if other = index then phase else race.phase other⟩

inductive Step [DecidableEq ι] (writers : ι → Writer) : Race ι → Race ι → Prop where
  | call {race : Race ι} {disk : Disk} {phase : Phase} (index : ι)
      (hstep : (writers index).Step (race.IsClaimed writers)
        (race.disk, race.phase index) (disk, phase)) :
      Step writers race (race.advance index disk phase)

end Race

end StoryKnobs.Disk

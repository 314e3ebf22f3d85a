import StoryKnobs.Command.Result
import StoryKnobs.FileTree.Disk

/-!
# Sessions

Runs one after another on a machine that keeps its files on a disk. Whenever a file is read or
written, calls to the system may fail for a reason that the disk does not show.
-/

namespace StoryKnobs

/-- States `σ` of a machine with a disk. Reading leaves the disk as it is. Some calls fail, not the
same ones each time. -/
class DiskStore (σ : Type) extends FileTree (StateM σ) where
  disk : σ → Disk
  read_eq (path : Path) (store : σ) : ∃ faults : Disk.Faults,
    (read path store).1 = faults.run .read ((disk store).read path)
  disk_read (path : Path) (store : σ) : disk (read path store).2 = disk store
  writeNew_eq (path : Path) (text : String) (store : σ) : ∃ faults : Disk.Faults,
    ((writeNew path text store).1, disk (writeNew path text store).2) =
      Disk.writeNew faults (disk store) path text

/-- A disk, and the faults that are to come: one for each file that is read or written, and none
after the last one. -/
structure Machine where
  disk : Disk
  coming : List Disk.Faults

namespace Machine

def faults (machine : Machine) : Disk.Faults := machine.coming.headD .none

instance : FileTree (StateM Machine) where
  read path := modifyGet fun machine =>
    (machine.faults.run .read (machine.disk.read path), ⟨machine.disk, machine.coming.tail⟩)
  writeNew path text := modifyGet fun machine =>
    let (outcome, disk) := Disk.writeNew machine.faults machine.disk path text
    (outcome, ⟨disk, machine.coming.tail⟩)

instance : DiskStore Machine where
  disk := Machine.disk
  read_eq _ machine := ⟨machine.faults, rfl⟩
  disk_read _ _ := rfl
  writeNew_eq _ _ machine := ⟨machine.faults, rfl⟩

end Machine

instance : DiskStore Disk where
  disk := id
  read_eq _ _ := ⟨.none, rfl⟩
  disk_read _ _ := rfl
  writeNew_eq _ _ _ := ⟨.none, rfl⟩

namespace Command

structure Turn (σ : Type) where
  arguments : List String
  before : σ
  report : Report
  after : σ

variable {σ : Type} [FileTree (StateM σ)]

def Turn.ofRun (arguments : List String) (store : σ) : Turn σ :=
  let (report, after) := (run arguments : StateM σ Report) store
  ⟨arguments, store, report, after⟩

/-- The turns of a session, each of which starts where the one before it has ended. -/
def session : List (List String) → σ → List (Turn σ)
  | [], _ => []
  | arguments :: invocations, store =>
    .ofRun arguments store :: session invocations (Turn.ofRun arguments store).after

end Command

end StoryKnobs

import Mathlib
import StoryKnobs.Command.Session
import StoryKnobs.Proofs.Generation
import StoryKnobs.Proofs.Operations

/-!
# What tasks do to a disk

Whatever fails, a task leaves a disk as it was, or it adds the one file of which its result tells.
-/

namespace StoryKnobs

namespace Disk

variable {disk other : Disk} {location : Location} {path : Path}

structure KeptBy (disk other : Disk) : Prop where
  workingDirectory : other.workingDirectory = disk.workingDirectory
  entry : ∀ location entry, disk.entry? location = some entry →
    other.entry? location = some entry

theorem KeptBy.refl (disk : Disk) : disk.KeptBy disk := ⟨rfl, fun _ _ hentry => hentry⟩

theorem KeptBy.trans {last : Disk} (hfirst : disk.KeptBy other) (hlast : other.KeptBy last) :
    disk.KeptBy last where
  workingDirectory := hlast.workingDirectory.trans hfirst.workingDirectory
  entry location entry hentry := hlast.entry location entry (hfirst.entry location entry hentry)

theorem keptBy_add (hnone : disk.entry? location = none) (entry : Entry) :
    disk.KeptBy (disk.add location entry) where
  workingDirectory := rfl
  entry place found hfound := by
    have hne : place ≠ location := by
      rintro rfl
      rw [hnone] at hfound
      cases hfound
    rw [entry?_add hnone, if_neg hne, hfound]

theorem KeptBy.find_eq (hkept : disk.KeptBy other) {entry : Entry}
    (hfind : disk.find path = .ok (location, entry)) : other.find path = .ok (location, entry) := by
  have hin : DirectoriesIn disk other :=
    ⟨hkept.workingDirectory, fun location => hkept.entry location .directory⟩
  obtain ⟨route, hroute, hfollow, hentry⟩ := find_eq_ok_iff.mp hfind
  rw [← hin.start_eq] at hfollow
  exact find_eq_ok_iff.mpr ⟨route, hroute, hin.follow_eq hfollow, hkept.entry _ _ hentry⟩

end Disk

namespace Schema

open Disk (Faults Written)

variable {schema : Schema} {disk : Disk}

/-- The directory of a story is there once the source of its component has been read. -/
theorem writeNew_written_of_read (faults : Faults) {text : String}
    (hread : disk.read schema.sourcePath = .ok text) (story : String) :
    Written disk schema.storyPath story (Disk.writeNew faults disk schema.storyPath story) := by
  obtain ⟨above, source, name, habove, hsource, hname, hsourcePath, hstoryPath⟩ :=
    exists_sourcePath_storyPath schema
  have hparents : schema.storyPath.parent? = schema.sourcePath.parent? :=
    hname.parent?_eq hsource habove hstoryPath hsourcePath
  obtain ⟨⟨place, entry⟩, hfind⟩ := exists_find_of_read hread
  exact Disk.writeNew_written faults story hname habove hstoryPath fun parent hparent hne =>
    Disk.exists_find_parent hfind (hparents.symm.trans hparent) hne

variable {σ : Type} [DiskStore σ]

/-- On any machine with a disk, making a story does to the disk what it tells. -/
theorem generated_of_store (schema : Schema) (store : σ) :
    schema.Generated (DiskStore.disk store)
      (((schema.generate : StateM σ _) store).1,
        DiskStore.disk ((schema.generate : StateM σ _) store).2) := by
  obtain ⟨faults, hanswer⟩ := DiskStore.read_eq schema.sourcePath store
  have hdisk := DiskStore.disk_read schema.sourcePath store
  generalize hread : (FileTree.read schema.sourcePath : StateM σ _) store = answered
    at hanswer hdisk
  obtain ⟨answer, middle⟩ := answered
  dsimp only at hanswer hdisk
  cases answer with
  | error error =>
      rw [generate_of_read_error hread, hdisk]
      exact .failed _
  | ok text =>
      have hsource := Disk.run_eq_ok hanswer.symm
      obtain ⟨faults, hresult⟩ :=
        DiskStore.writeNew_eq schema.storyPath (schema.storyText text) middle
      rw [hdisk] at hresult
      have hwritten := writeNew_written_of_read faults hsource (schema.storyText text)
      rw [← hresult] at hwritten
      generalize hwrite : (FileTree.writeNew schema.storyPath (schema.storyText text) : StateM σ _)
        middle = result at hwritten
      obtain ⟨outcome, after⟩ := result
      dsimp only at hwritten
      cases outcome with
      | error error =>
          rw [generate_of_write_error hread hwrite]
          dsimp only
          generalize DiskStore.disk after = left at hwritten
          cases hwritten
          exact .failed _
      | ok outcome =>
          rw [generate_of_write_ok hread hwrite]
          dsimp only
          generalize DiskStore.disk after = left at hwritten
          cases hwritten with
          | written location hnone habsent hfind =>
              exact .created text location _ hsource rfl hnone habsent hfind
          | alreadyExists hpresent => exact .skipped hpresent

theorem Generated.keptBy {result : Except GenerateError GenerateOutcome} {other : Disk}
    (hgenerated : schema.Generated disk (result, other)) : disk.KeptBy other := by
  cases hgenerated with
  | created text location file hread hfile hnone => exact Disk.keptBy_add hnone file
  | skipped => exact .refl disk
  | failed => exact .refl disk

end Schema

namespace Command

open DiskStore (disk)

section

variable {σ : Type} [DiskStore σ] {task : Task}

/-! ### Actions that only read -/

def LeavesDisk {α : Type} (action : StateM σ α) : Prop :=
  ∀ store, disk (action store).2 = disk store

section

variable {α β : Type} {action : StateM σ α} {next : α → StateM σ β}

theorem leavesDisk_pure (value : α) : LeavesDisk (pure value : StateM σ α) := fun _ => rfl

theorem LeavesDisk.bind (haction : LeavesDisk action) (hnext : ∀ value, LeavesDisk (next value)) :
    LeavesDisk (action >>= next) := fun store =>
  (hnext (action store).1 (action store).2).trans (haction store)

end

theorem leavesDisk_loadDraft (path : Path) : LeavesDisk (loadDraft path : StateM σ _) := by
  refine LeavesDisk.bind (DiskStore.disk_read path) fun answer => ?_
  cases answer with
  | error error => exact leavesDisk_pure _
  | ok text =>
      dsimp only
      cases Schema.Draft.parse text with
      | ok draft => exact leavesDisk_pure _
      | error error => exact leavesDisk_pure _

theorem leavesDisk_resolve (schemaFile : Option Path) (fields : Schema.Draft) :
    LeavesDisk (resolve schemaFile fields : StateM σ _) := by
  cases schemaFile with
  | none => exact leavesDisk_pure _
  | some path => exact (leavesDisk_loadDraft path).bind fun _ => leavesDisk_pure _

theorem leavesDisk_inputsAt (file : Path) : LeavesDisk (inputsAt file : StateM σ _) := by
  refine LeavesDisk.bind (LeavesDisk.bind (DiskStore.disk_read file) fun answer => ?_)
    fun _ => leavesDisk_pure _
  cases answer <;> exact leavesDisk_pure _

/-! ### Tasks -/

inductive Ends (task : Task) (store : σ) : Result × σ → Prop where
  | failure (message : String) (after : σ) (hdisk : disk after = disk store) :
      Ends task store (.failure message, after)
  | listed (file : Path) (inputs : List Input) (after : σ) (htask : task = .inputs file)
      (hdisk : disk after = disk store) : Ends task store (.listed file inputs, after)
  | made (schemaFile : Option Path) (fields : Schema.Draft) (schema : Schema) (gathered after : σ)
      (outcome : GenerateOutcome) (htask : task = .generate schemaFile fields)
      (hresolve : (resolve schemaFile fields : StateM σ _) store = (.ok schema, gathered))
      (hgenerated : schema.Generated (disk store) (.ok outcome, disk after)) :
      Ends task store (.made outcome, after)

theorem ends_inputs (file : Path) (store : σ) :
    Ends (.inputs file) store (((Task.inputs file).result : StateM σ Result) store) := by
  have hdisk := leavesDisk_inputsAt file store
  simp only [Task.result, bind, StateT.bind]
  generalize (inputsAt file : StateM σ _) store = found at hdisk ⊢
  obtain ⟨found, after⟩ := found
  cases found with
  | error error => exact .failure _ after hdisk
  | ok inputs => exact .listed file inputs after rfl hdisk

theorem ends_generate (schemaFile : Option Path) (fields : Schema.Draft) (store : σ) :
    Ends (.generate schemaFile fields) store
      (((Task.generate schemaFile fields).result : StateM σ Result) store) := by
  have hdisk := leavesDisk_resolve schemaFile fields store
  simp only [Task.result, bind, StateT.bind]
  generalize hresolve : (resolve schemaFile fields : StateM σ _) store = resolved at hdisk ⊢
  obtain ⟨resolved, gathered⟩ := resolved
  cases resolved with
  | error error => exact .failure _ gathered hdisk
  | ok schema =>
      have hgenerated := schema.generated_of_store gathered
      simp only [StateT.bind] at hdisk ⊢
      generalize (schema.generate : StateM σ _) gathered = made at hgenerated ⊢
      obtain ⟨result, after⟩ := made
      dsimp only at hgenerated
      rw [hdisk] at hgenerated
      cases result with
      | error error =>
          refine .failure _ after ?_
          generalize disk after = left at hgenerated
          cases hgenerated
          rfl
      | ok outcome =>
          exact .made schemaFile fields schema gathered after outcome rfl hresolve hgenerated

theorem ends_result (task : Task) (store : σ) :
    Ends task store ((task.result : StateM σ Result) store) := by
  cases task with
  | generate schemaFile fields => exact ends_generate schemaFile fields store
  | inputs file => exact ends_inputs file store

theorem Ends.keptBy {store : σ} {ended : Result × σ} (hends : Ends task store ended) :
    (disk store).KeptBy (disk ended.2) := by
  cases hends with
  | failure message after hdisk => exact hdisk ▸ .refl _
  | listed file inputs after htask hdisk => exact hdisk ▸ .refl _
  | made schemaFile fields schema gathered after outcome htask hresolve hgenerated =>
      exact hgenerated.keptBy

end

end Command

end StoryKnobs

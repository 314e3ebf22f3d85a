import Mathlib
import StoryKnobs.Generate
import StoryKnobs.Proofs.Disk

/-!
# Making a story on a disk

A story is written next to the source of its component, which has been read by then, so the
directory of the story is there. Whatever fails after that, the disk has the whole story or is as
before.
-/

namespace StoryKnobs.Schema

open Disk (Faults Faulty Written)

variable {schema : Schema} {disk : Disk}

/-- What has become of a disk after the story of a schema was to be made. -/
inductive Generated (schema : Schema) (disk : Disk) :
    Except GenerateError GenerateOutcome × Disk → Prop where
  /-- There is one more file, to which the path of the story leads, and nothing else has changed. -/
  | created (text : String) (location : Location) (file : Entry)
      (hread : disk.read schema.sourcePath = .ok text)
      (hfile : file = .file (schema.storyOf (.parse schema.sourcePath text)).text.toUTF8)
      (hnone : disk.entry? location = none)
      (habsent : disk.contains schema.storyPath = false)
      (hfind : (disk.add location file).find schema.storyPath = .ok (location, file)) :
      Generated schema disk (.ok (.created schema.storyPath), disk.add location file)
  | skipped (hpresent : disk.contains schema.storyPath = true) :
      Generated schema disk (.ok (.skipped schema.storyPath), disk)
  | failed (error : GenerateError) : Generated schema disk (.error error, disk)

/-! ### The steps of making a story -/

section

variable {faults : Faults}

theorem generate_of_read_eq_error {error : FileError}
    (hread : faults.run .read (disk.read schema.sourcePath) = .error error) :
    (schema.generate : Faulty _) faults disk =
      (.error (.unreadable schema.sourcePath error), disk) := by
  simp only [generate, Source.load, bind, ReaderT.bind, StateT.bind, FileTree.read,
    MonadState.get, getThe, MonadStateOf.get, StateT.get, pure, ReaderT.pure, StateT.pure, hread]

theorem generate_of_read_eq_ok {text : String}
    (hread : faults.run .read (disk.read schema.sourcePath) = .ok text) :
    (schema.generate : Faulty _) faults disk =
      (schema.writeStory (.parse schema.sourcePath text) : Faulty _) faults disk := by
  simp only [generate, Source.load, bind, ReaderT.bind, StateT.bind, FileTree.read,
    MonadState.get, getThe, MonadStateOf.get, StateT.get, pure, ReaderT.pure, StateT.pure, hread]

variable {source : Source} {other : Disk}

theorem writeStory_of_writeNew_ok {outcome : WriteOutcome}
    (hwrite : Disk.writeNew faults disk schema.storyPath (schema.storyOf source).text =
      (.ok outcome, other)) :
    (schema.writeStory source : Faulty _) faults disk =
      (.ok (.ofWrite schema.storyPath outcome), other) := by
  simp only [writeStory, bind, ReaderT.bind, StateT.bind, FileTree.writeNew, modifyGet,
    MonadStateOf.modifyGet, StateT.modifyGet, pure, ReaderT.pure, StateT.pure, hwrite]

theorem writeStory_of_writeNew_error {error : FileError}
    (hwrite : Disk.writeNew faults disk schema.storyPath (schema.storyOf source).text =
      (.error error, other)) :
    (schema.writeStory source : Faulty _) faults disk =
      (.error (.unwritable schema.storyPath error), other) := by
  simp only [writeStory, bind, ReaderT.bind, StateT.bind, FileTree.writeNew, modifyGet,
    MonadStateOf.modifyGet, StateT.modifyGet, pure, ReaderT.pure, StateT.pure, hwrite]

/-- A plain disk is one on which nothing fails without a reason. -/
theorem generate_eq_generate_none :
    (schema.generate : StateM Disk _) disk = (schema.generate : Faulty _) .none disk := by
  have hrun : Faults.none.run .read (disk.read schema.sourcePath) =
      disk.read schema.sourcePath := rfl
  cases hread : disk.read schema.sourcePath with
  | error error =>
      rw [generate_of_read_eq_error (hrun.trans hread)]
      simp only [generate, Source.load, bind, StateT.bind, FileTree.read, MonadState.get, getThe,
        MonadStateOf.get, StateT.get, pure, StateT.pure, hread]
  | ok text =>
      rw [generate_of_read_eq_ok (hrun.trans hread)]
      simp only [generate, Source.load, bind, StateT.bind, FileTree.read, MonadState.get, getThe,
        MonadStateOf.get, StateT.get, pure, StateT.pure, hread]
      obtain ⟨result, other, hwrite⟩ : ∃ result other, Disk.writeNew .none disk schema.storyPath
        (schema.storyOf (.parse schema.sourcePath text)).text = (result, other) := ⟨_, _, rfl⟩
      cases result with
      | ok outcome =>
          rw [writeStory_of_writeNew_ok hwrite]
          simp only [writeStory, bind, StateT.bind, FileTree.writeNew, modifyGet,
            MonadStateOf.modifyGet, StateT.modifyGet, pure, StateT.pure, hwrite]
      | error error =>
          rw [writeStory_of_writeNew_error hwrite]
          simp only [writeStory, bind, StateT.bind, FileTree.writeNew, modifyGet,
            MonadStateOf.modifyGet, StateT.modifyGet, pure, StateT.pure, hwrite]

end

/-! ### The path of a story -/

theorem exists_find_of_read {path : Path} {text : String} (hread : disk.read path = .ok text) :
    ∃ found, disk.find path = .ok found := by
  rw [Disk.read, Disk.bind_eq_ok_iff] at hread
  exact hread.imp fun _ => And.left

/-- The names of the source of a component and of its story differ only in their endings. -/
theorem exists_paths_eq (schema : Schema) :
    ∃ above base, Path.Above above ∧ Path.IsName (base ++ sourceExtension.toList) ∧
      Path.IsName (base ++ Story.fileEnding.toList) ∧
      schema.sourcePath.text.toList = above ++ (base ++ sourceExtension.toList) ∧
      schema.storyPath.text.toList = above ++ (base ++ Story.fileEnding.toList) := by
  obtain ⟨above, base, habove, hbase, hjoin⟩ :=
    Path.exists_join_eq schema.directory schema.componentFileName
  have hisName (ending : String) (hslash : '/' ∉ ending.toList)
      (hlength : 3 ≤ ending.toList.length) : Path.IsName (base ++ ending.toList) := by
    refine .of_length ?_ ?_
    · rw [List.mem_append, not_or]
      exact ⟨hbase, hslash⟩
    · rw [List.length_append]
      exact Nat.le_add_left_of_le hlength
  exact ⟨above, base, habove, hisName _ (by decide) (by decide), hisName _ (by decide) (by decide),
    hjoin _ (by decide), hjoin _ (by decide)⟩

/-- The source of a component and its story are two files of one directory. -/
theorem exists_sourcePath_storyPath (schema : Schema) :
    ∃ above source story, Path.Above above ∧ Path.IsName source ∧ Path.IsName story ∧
      schema.sourcePath.text.toList = above ++ source ∧
      schema.storyPath.text.toList = above ++ story := by
  obtain ⟨above, base, habove, hsource, hstory, hsourcePath, hstoryPath⟩ := exists_paths_eq schema
  exact ⟨above, _, _, habove, hsource, hstory, hsourcePath, hstoryPath⟩

end StoryKnobs.Schema

import StoryKnobs.Operation
import StoryKnobs.Proofs.Memory

/-!
# What operations do to file trees

Making a story is a read followed by a write, on any file tree. On a tree in memory, an operation
leaves everything as it was or adds the text that it was to write.
-/

namespace StoryKnobs

namespace Schema

variable {σ : Type} [FileTree (StateM σ)] {schema : Schema} {store read wrote : σ}

theorem generate_of_read_error {error : FileError}
    (hread : (FileTree.read schema.sourcePath : StateM σ _) store = (.error error, read)) :
    (schema.generate : StateM σ _) store =
      (.error (.unreadable schema.sourcePath error), read) := by
  simp only [generate, Source.load, bind, StateT.bind, hread]
  rfl

theorem generate_of_write_ok {text : String} {outcome : WriteOutcome}
    (hread : (FileTree.read schema.sourcePath : StateM σ _) store = (.ok text, read))
    (hwrite : (FileTree.writeNew schema.storyPath (schema.storyText text) : StateM σ _) read =
      (.ok outcome, wrote)) :
    (schema.generate : StateM σ _) store = (.ok (.ofWrite schema.storyPath outcome), wrote) := by
  simp only [generate, Source.load, bind, StateT.bind, hread]
  change (schema.writeStory (Source.parse schema.sourcePath text) : StateM σ _) read = _
  rw [storyText] at hwrite
  simp only [writeStory, bind, StateT.bind, hwrite]
  rfl

theorem generate_of_write_error {text : String} {error : FileError}
    (hread : (FileTree.read schema.sourcePath : StateM σ _) store = (.ok text, read))
    (hwrite : (FileTree.writeNew schema.storyPath (schema.storyText text) : StateM σ _) read =
      (.error error, wrote)) :
    (schema.generate : StateM σ _) store =
      (.error (.unwritable schema.storyPath error), wrote) := by
  simp only [generate, Source.load, bind, StateT.bind, hread]
  change (schema.writeStory (Source.parse schema.sourcePath text) : StateM σ _) read = _
  rw [storyText] at hwrite
  simp only [writeStory, bind, StateT.bind, hwrite]
  rfl

/-- A story that has been created is the story of a text that has been read. -/
theorem exists_of_generate_eq_created {path : Path}
    (hgenerate : (schema.generate : StateM σ _) store = (.ok (.created path), wrote)) :
    path = schema.storyPath ∧ ∃ text read,
      (FileTree.read schema.sourcePath : StateM σ _) store = (.ok text, read) ∧
      (FileTree.writeNew schema.storyPath (schema.storyText text) : StateM σ _) read =
        (.ok .written, wrote) := by
  obtain ⟨source, read, hread⟩ : ∃ source read,
      (FileTree.read schema.sourcePath : StateM σ _) store = (source, read) := ⟨_, _, rfl⟩
  cases source with
  | error error =>
      rw [generate_of_read_error hread] at hgenerate
      cases hgenerate
  | ok text =>
      obtain ⟨result, made, hwrite⟩ : ∃ result made, (FileTree.writeNew schema.storyPath
          (schema.storyText text) : StateM σ _) read = (result, made) := ⟨_, _, rfl⟩
      cases result with
      | error error =>
          rw [generate_of_write_error hread hwrite] at hgenerate
          cases hgenerate
      | ok outcome =>
          rw [generate_of_write_ok hread hwrite] at hgenerate
          cases outcome with
          | written =>
              cases hgenerate
              exact ⟨rfl, text, read, hread, hwrite⟩
          | alreadyExists => cases hgenerate

end Schema

namespace Operation

variable {operation : Operation} {memory : Memory} {path : Path} {text : String}

theorem generate_run {σ : Type} [FileStore σ] {schema : Schema} {store made : σ}
    {result : Except GenerateError GenerateOutcome}
    (hgenerate : (schema.generate : StateM σ _) store = (result, made)) :
    (generate schema).run store = (.generate result, made) := by
  simp only [run, bind, StateT.bind, hgenerate]
  rfl

theorem generate_run_of_none {schema : Schema} (hnone : memory.get? schema.sourcePath = none) :
    (generate schema).run memory =
      (.generate (.error (.unreadable schema.sourcePath (.unknown schema.sourcePath.normalize))),
        memory) := by
  have hread : memory.read schema.sourcePath = .error (.unknown schema.sourcePath.normalize) := by
    rw [Memory.read, hnone]
  exact generate_run (Schema.generate_of_read_error (congrArg (·, memory) hread))

theorem generate_run_of_some {schema : Schema}
    (hsome : memory.get? schema.sourcePath = some text) :
    (generate schema).run memory =
      (.generate (.ok (.ofWrite schema.storyPath
        (memory.writeNew schema.storyPath (schema.storyText text)).1)),
        (memory.writeNew schema.storyPath (schema.storyText text)).2) := by
  have hread : memory.read schema.sourcePath = .ok text := Memory.read_eq_ok_iff.mpr hsome
  exact generate_run (Schema.generate_of_write_ok (congrArg (·, memory) hread) rfl)

theorem run_of_request?_eq_none (hrequest : operation.request? memory.get? = none) :
    (operation.run memory).2 = memory ∧ (operation.run memory).1.reportsWrite = false := by
  cases operation with
  | read path => exact ⟨rfl, rfl⟩
  | look path => exact ⟨rfl, rfl⟩
  | write path text => cases hrequest
  | generate schema =>
      rw [request?, Option.map_eq_none_iff] at hrequest
      rw [generate_run_of_none hrequest]
      exact ⟨rfl, rfl⟩

theorem run_of_request?_eq_some (hrequest : operation.request? memory.get? = some (path, text)) :
    (operation.run memory).2 = (memory.writeNew path text).2 ∧
      ((operation.run memory).1.reportsWrite = true ↔ memory.get? path = none) := by
  have hreports (outcome : WriteOutcome) (place : Path) :
      (Answer.generate (.ok (.ofWrite place outcome))).reportsWrite =
        (Answer.write (.ok outcome)).reportsWrite := by
    cases outcome <;> rfl
  have hwrite : (Answer.write (.ok (memory.writeNew path text).1)).reportsWrite = true ↔
      memory.get? path = none := by
    cases hget : memory.get? path with
    | none => simp [Memory.writeNew_of_get?_eq_none hget, Answer.reportsWrite]
    | some old => simp [Memory.writeNew_of_get?_eq_some hget, Answer.reportsWrite]
  cases operation with
  | read path => cases hrequest
  | look path => cases hrequest
  | write other old =>
      cases hrequest
      exact ⟨rfl, hwrite⟩
  | generate schema =>
      rw [request?, Option.map_eq_some_iff] at hrequest
      obtain ⟨source, hsource, heq⟩ := hrequest
      cases heq
      rw [generate_run_of_some hsource, hreports]
      exact ⟨rfl, hwrite⟩

end Operation

end StoryKnobs

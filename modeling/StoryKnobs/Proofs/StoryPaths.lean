import StoryKnobs.Proofs.Independence
import StoryKnobs.Proofs.Resolution
import StoryKnobs.Proofs.Tasks

/-!
# The source of a component and its story

Whatever the texts of a schema are, its two paths end in two different names in one directory. So
the source of the component stays as it is when the story is made, and it never holds markup.
-/

namespace StoryKnobs

namespace Path

variable {path : Path}

/-- A name at the end of a path is the last component of its normal form. -/
theorem normal_of_components {front : List Component} {name : String}
    (hcomponents : path.components = front ++ [.name name]) :
    path.normal = front.foldl step [] ++ [.name name] := by
  rw [normal, hcomponents, List.foldl_append]
  rfl

/-- What follows the last dot is the extension, unless nothing stands before that dot. -/
theorem extension?_of_fileName? {base ending : String}
    (hname : path.fileName? = some (base ++ "." ++ ending)) (hending : '.' ∉ ending.toList) :
    path.extension? = if base = "" then none else some ending := by
  have hreverse : (base ++ "." ++ ending).toList.reverse =
      ending.toList.reverse ++ '.' :: base.toList.reverse := by
    simp [String.toList_append]
  have hplain : ∀ char ∈ ending.toList.reverse, (char != '.') = true := by
    intro char hchar
    rw [bne_iff_ne]
    rintro rfl
    exact hending (List.mem_reverse.mp hchar)
  have htake : (base ++ "." ++ ending).toList.reverse.takeWhile (· != '.') =
      ending.toList.reverse := by
    rw [hreverse, List.takeWhile_append_of_pos hplain]
    simp
  rw [extension?, hname, Option.bind_eq_bind, Option.bind_some]
  simp only [htake]
  rw [hreverse, List.drop_left, List.reverse_reverse, String.ofList_toList]
  by_cases hbase : base = ""
  · simp [hbase]
  · obtain ⟨char, chars, hchars⟩ := List.exists_cons_of_ne_nil
      (show base.toList.reverse ≠ [] by simpa using hbase)
    rw [hchars, if_neg hbase]
    rfl

end Path

theorem Disk.KeptBy.read_eq {disk other : Disk} {path : Path} {text : String}
    (hkept : disk.KeptBy other) (hread : disk.read path = .ok text) :
    other.read path = .ok text := by
  obtain ⟨⟨location, entry⟩, hfind⟩ := Schema.exists_find_of_read hread
  rwa [Disk.read, hkept.find_eq hfind, ← hfind]

namespace Schema

variable (schema : Schema)

theorem exists_components_paths : ∃ (front : List Path.Component) (base : String),
    schema.sourcePath.components = front ++ [.name (base ++ ".ts")] ∧
      schema.storyPath.components = front ++ [.name (base ++ ".stories.ts")] := by
  obtain ⟨above, base, habove, hsource, hstory, hsourcePath, hstoryPath⟩ := exists_paths_eq schema
  obtain ⟨front, hfront⟩ := Path.IsName.exists_components_concat habove
  have hname (ending : String) :
      String.ofList (base ++ ending.toList) = String.ofList base ++ ending := by
    rw [String.ofList_append, String.ofList_toList]
  refine ⟨front, String.ofList base, ?_, ?_⟩
  · rw [hfront hsource hsourcePath, hname]
    rfl
  · rw [hfront hstory hstoryPath, hname]
    rfl

theorem exists_parent?_paths : ∃ parent,
    schema.sourcePath.parent? = some parent ∧ schema.storyPath.parent? = some parent := by
  obtain ⟨above, source, story, habove, hsource, hstory, hsourcePath, hstoryPath⟩ :=
    exists_sourcePath_storyPath schema
  obtain ⟨parent, hparent, -⟩ := hsource.exists_parent? habove hsourcePath
  exact ⟨parent, hparent, (hstory.parent?_eq hsource habove hstoryPath hsourcePath).trans hparent⟩

theorem normal_storyPath_ne : schema.storyPath.normal ≠ schema.sourcePath.normal := by
  obtain ⟨front, base, hsource, hstory⟩ := schema.exists_components_paths
  rw [Path.normal_of_components hsource, Path.normal_of_components hstory]
  intro heq
  have hlast := List.append_cancel_left heq
  simp only [List.cons.injEq, Path.Component.name.injEq, and_true] at hlast
  have hending : ".stories.ts" = ".ts" := String.append_right_inj base |>.mp hlast
  exact absurd hending (by decide)

theorem normalize_storyPath_ne : schema.storyPath.normalize ≠ schema.sourcePath.normalize := by
  intro heq
  apply schema.normal_storyPath_ne
  have hnormal := congrArg Path.normal heq
  rwa [Path.normal_normalize, Path.normal_normalize] at hnormal

theorem extension?_sourcePath : schema.sourcePath.extension? ≠ some Source.markupExtension := by
  obtain ⟨front, base, hsource, -⟩ := schema.exists_components_paths
  have hname : schema.sourcePath.fileName? = some (base ++ "." ++ "ts") := by
    rw [Path.fileName?, hsource, List.getLast?_concat, String.append_assoc]
    rfl
  rw [Path.extension?_of_fileName? hname (by decide)]
  split_ifs <;> decide

/-- **A story never takes the place of its component.** The two paths have the same path above them
and end in the same name but for the extensions, also in normal form. So making the story leaves the
source of the component as it is, in memory and on a disk, whatever fails; and no source of a
component is read as one with markup. -/
theorem source_and_story_apart :
    (∃ parent,
      schema.sourcePath.parent? = some parent ∧ schema.storyPath.parent? = some parent) ∧
    (∃ (front above : List Path.Component) (base : String),
      schema.sourcePath.components = front ++ [.name (base ++ ".ts")] ∧
      schema.storyPath.components = front ++ [.name (base ++ ".stories.ts")] ∧
      schema.sourcePath.normal = above ++ [.name (base ++ ".ts")] ∧
      schema.storyPath.normal = above ++ [.name (base ++ ".stories.ts")]) ∧
    schema.storyPath.normalize ≠ schema.sourcePath.normalize ∧
    (∀ memory : Memory, ((Operation.generate schema).run memory).2.get? schema.sourcePath =
      memory.get? schema.sourcePath) ∧
    (∀ {σ : Type} [DiskStore σ] (store : σ) (text : String),
      (DiskStore.disk store).read schema.sourcePath = .ok text →
      (DiskStore.disk ((schema.generate : StateM σ _) store).2).read schema.sourcePath = .ok text) ∧
    ∀ text : String, Source.parse schema.sourcePath text =
      ⟨schema.sourcePath, text, Grammar.parse text false⟩ := by
  obtain ⟨front, base, hsource, hstory⟩ := schema.exists_components_paths
  refine ⟨schema.exists_parent?_paths, ⟨front, front.foldl Path.step [], base, hsource, hstory,
    Path.normal_of_components hsource, Path.normal_of_components hstory⟩,
    schema.normalize_storyPath_ne, ?_, ?_, ?_⟩
  · intro memory
    exact Operation.get?_generate_run schema.normal_storyPath_ne memory
  · intro σ _ store text hread
    exact (generated_of_store schema store).keptBy.read_eq hread
  · intro text
    rw [Source.parse, beq_eq_false_iff_ne.mpr schema.extension?_sourcePath]

end Schema

end StoryKnobs

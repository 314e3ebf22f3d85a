import StoryKnobs.Proofs.Generation
import StoryKnobs.Proofs.Operations
import StoryKnobs.Proofs.Resolution
import StoryKnobs.Proofs.StoryLines

/-!
# Where the imports of a story lead

A story imports its component from a file next to it. The import of the module goes up once for each
directory on the way from the root of the library down to the component, so it leads to the module at
the root, as long as the path of the component goes down only and the directories on it are counted
as the file tree counts them.
-/

namespace StoryKnobs

namespace Path

def upward : Nat → Path
  | 0 => ⟨"."⟩
  | count + 1 => ofSegments (List.replicate (count + 1) ['.', '.'])

theorem names_upward (count : Nat) : (upward count).names = List.replicate count ".." := by
  cases count with
  | zero => decide
  | succ count =>
      have hslash : ∀ segment ∈ List.replicate (count + 1) ['.', '.'], '/' ∉ segment := by
        intro segment hsegment
        rw [List.eq_of_mem_replicate hsegment]
        decide
      rw [names_eq_namesOf, upward, segments_ofSegments (by simp) hslash, namesOf,
        List.filter_replicate_of_pos (by decide), List.map_replicate]

theorem exists_toList_upward (count : Nat) :
    ∃ chars, (upward count).text.toList = '.' :: chars := by
  match count with
  | 0 => exact ⟨[], rfl⟩
  | 1 => exact ⟨['.'], rfl⟩
  | count + 2 =>
      rw [upward, toList_ofSegments, List.replicate_succ, List.replicate_succ,
        List.intercalate_cons_cons]
      exact ⟨_, rfl⟩

end Path

namespace Schema

open StoryKnobs.Path (IsName)

variable {schema : Schema} {componentPath : String}

/-! ### The way to the module -/

/-- The number of directories on the way down is the number of names on it, unless there is a
backslash in one of them. -/
theorem depth_eq_length_names (hbackslash : '\\' ∉ componentPath.toList) :
    depth componentPath = (Path.mk componentPath).names.length := by
  have hcut : ∀ char ∈ componentPath.toList, isSeparator char = Path.isSeparator char := by
    intro char hchar
    have hne : (char == '\\') = false :=
      beq_eq_false_iff_ne.mpr fun heq => hbackslash (heq ▸ hchar)
    rw [isSeparator, hne, Bool.or_false, Path.isSeparator]
  have hstep (segment : List Char) : isStep segment = !Path.isIdle segment := by
    rw [isStep, Path.isIdle, Bool.not_or]
    rfl
  rw [depth, Text.segments_congr hcut, Path.names_eq_namesOf, Path.namesOf, List.length_map]
  exact congrArg List.length (List.filter_congr fun segment _ => hstep segment)

theorem modulePathFrom_eq (componentPath moduleFileName : String) :
    modulePathFrom componentPath moduleFileName =
      (Path.upward (depth componentPath)).text ++ "/" ++ moduleName moduleFileName := by
  rw [modulePathFrom]
  cases depth componentPath with
  | zero => rfl
  | succ count =>
      rw [Path.upward, Path.ofSegments, List.map_replicate]
      rfl

theorem slash_notMem_moduleName (moduleFileName : String) :
    '/' ∉ (moduleName moduleFileName).toList := by
  have hlast : '/' ∉ Text.lastSegment isSeparator moduleFileName.toList := by
    intro hslash
    rw [Text.lastSegment] at hslash
    have hne : Text.segments isSeparator moduleFileName.toList ≠ [] := List.cons_ne_nil _ _
    rw [List.getLast?_eq_some_getLast hne, Option.getD_some] at hslash
    cases Text.uncut_of_mem_segments (List.getLast_mem hne) '/' hslash
  rw [moduleName, String.toList_ofList, Text.dropEnding]
  split_ifs
  · exact fun hslash => hlast (List.mem_of_mem_take hslash)
  · exact hlast

theorem isAbsolute_moduleName (moduleFileName : String) :
    (Path.mk (moduleName moduleFileName)).isAbsolute = false :=
  Path.isAbsolute_of_notMem (slash_notMem_moduleName moduleFileName)

/-- The import of a module goes up as often as directories are counted, and on to the name of the
module. -/
theorem resolve_modulePathFrom (componentPath moduleFileName : String) (start : Location) :
    (Path.mk (modulePathFrom componentPath moduleFileName)).resolve start =
      (Path.mk (moduleName moduleFileName)).resolve (start.rdrop (depth componentPath)) := by
  obtain ⟨chars, hchars⟩ := Path.exists_toList_upward (depth componentPath)
  have hpath : (Path.mk (modulePathFrom componentPath moduleFileName)).text.toList =
      (Path.upward (depth componentPath)).text.toList ++ '/' :: (moduleName moduleFileName).toList := by
    change (modulePathFrom componentPath moduleFileName).toList = _
    rw [modulePathFrom_eq, String.toList_append, String.toList_append, List.append_assoc]
    rfl
  have hrelative : (Path.mk (modulePathFrom componentPath moduleFileName)).isAbsolute = false := by
    rw [Path.isAbsolute, hpath, hchars]
    rfl
  have hnames : (Path.mk (modulePathFrom componentPath moduleFileName)).names =
      List.replicate (depth componentPath) ".." ++ (Path.mk (moduleName moduleFileName)).names := by
    rw [Path.names_of_toList_eq hpath, ← Path.names_upward, Path.names_eq_namesOf (Path.upward _),
      Path.names_eq_namesOf ⟨_⟩]
  rw [Path.resolve_eq_foldl hrelative, hnames, List.foldl_append, Path.foldl_walk_up,
    Path.resolve_eq_foldl (isAbsolute_moduleName _)]

theorem resolve_modulePath (schema : Schema) (start : Location) :
    (Path.mk schema.modulePath).resolve start =
      (Path.mk (moduleName schema.moduleFileName)).resolve
        (start.rdrop (depth schema.componentPath)) :=
  resolve_modulePathFrom schema.componentPath schema.moduleFileName start

/-- A component whose path only goes down is below the root of the library. -/
theorem resolve_directory (hrelative : (Path.mk schema.componentPath).isAbsolute = false)
    (hparent : ".." ∉ (Path.mk schema.componentPath).names) (start : Location) :
    schema.directory.resolve start =
      (Path.mk schema.libPath).resolve start ++ (Path.mk schema.componentPath).names := by
  rw [directory, Path.resolve_join, Path.resolve_eq_foldl hrelative,
    Path.foldl_walk_down hparent]

/-- From the directory of such a component the import of the module leads to the root of the library
and on to the name of the module, if as many directories are counted as there are. -/
theorem resolve_modulePath_directory
    (hrelative : (Path.mk schema.componentPath).isAbsolute = false)
    (hparent : ".." ∉ (Path.mk schema.componentPath).names)
    (hdepth : depth schema.componentPath = (Path.mk schema.componentPath).names.length)
    (start : Location) :
    (Path.mk schema.modulePath).resolve (schema.directory.resolve start) =
      ((Path.mk schema.libPath).join ⟨moduleName schema.moduleFileName⟩).resolve start := by
  rw [resolve_modulePath, resolve_directory hrelative hparent, hdepth, List.rdrop_append_length,
    Path.resolve_join]

/-! ### The way to the component -/

theorem isName_append {name ending : String} (hname : IsName name.toList)
    (hslash : '/' ∉ ending.toList) (hlength : 3 ≤ ending.toList.length) :
    IsName (name ++ ending).toList := by
  rw [String.toList_append]
  refine .of_length ?_ ?_
  · rw [List.mem_append, not_or]
    exact ⟨hname.slash, hslash⟩
  · rw [List.length_append]
    exact Nat.le_add_left_of_le hlength

theorem exists_parent?_storyPath (hfile : IsName schema.componentFileName.toList) :
    ∃ directory, schema.storyPath.parent? = some directory ∧
      ∀ start, directory.resolve start = schema.directory.resolve start := by
  obtain ⟨above, -, story, habove, -, hstory, -, hstoryPath⟩ := exists_sourcePath_storyPath schema
  obtain ⟨directory, hdirectory, hnames, habsolute⟩ := hstory.exists_parent? habove hstoryPath
  have hname : IsName (schema.componentFileName ++ Story.fileEnding).toList :=
    isName_append hfile (by decide) (by decide)
  have hjoined : schema.storyPath.names = schema.directory.names ++ [_] :=
    (Path.names_join hname.isAbsolute_eq).trans (congrArg _ hname.names_eq)
  refine ⟨directory, hdirectory, Path.resolve_congr ?_ ?_⟩
  · exact (List.append_inj' (hnames.symm.trans hjoined) rfl).1
  · exact habsolute.trans (Path.isAbsolute_join hname.isAbsolute_eq)

/-- From the directory of a component the import of the component leads to it, but for the
extension. -/
theorem resolve_component_directory (hfile : IsName schema.componentFileName.toList)
    (start : Location) :
    ((Path.mk ("./" ++ schema.componentFileName)).resolve
        (schema.directory.resolve start)).modifyLast (· ++ sourceExtension) =
      schema.sourcePath.resolve start := by
  have hdot : Path.mk ("./" ++ schema.componentFileName) =
      (Path.mk ".").join ⟨schema.componentFileName⟩ := by
    rw [Path.join, if_neg (by simp [hfile.isAbsolute_eq]), if_neg (by decide)]
    rfl
  have hsource : IsName (schema.componentFileName ++ sourceExtension).toList :=
    isName_append hfile (by decide) (by decide)
  rw [hdot, hfile.resolve_join, Path.resolve_dot, List.modifyLast_concat, sourcePath,
    hsource.resolve_join]

/-! ### Main result -/

theorem storyText_eq (schema : Schema) (text : String) : ∃ before after,
    schema.storyText text = Text.ofLines (before ++
      Story.importLine schema.moduleClassName schema.modulePath ::
      Story.importLine schema.componentName ("./" ++ schema.componentFileName) :: after) :=
  ⟨_, _, Story.text_eq _⟩

variable {σ : Type} [FileTree (StateM σ)] {store made : σ} {path : Path}

/-- **The imports of a story lead to the files that they are about.** Wherever a created story is,
from its directory the import of the component leads to the file that has been read, but for the
extension. If the path of the component only goes down, the import of the module goes up as often as
directories are counted; if these are all directories on the path, it leads to the module at the root
of the library. -/
theorem imports_of_generate_eq_created
    (hgenerate : (schema.generate : StateM σ _) store = (.ok (.created path), made))
    (hrelative : (Path.mk schema.componentPath).isAbsolute = false)
    (hfile : IsName schema.componentFileName.toList) :
    ∃ text read directory before after,
      (FileTree.read schema.sourcePath : StateM σ _) store = (.ok text, read) ∧
      (FileTree.writeNew path (Text.ofLines (before ++
        Story.importLine schema.moduleClassName schema.modulePath ::
        Story.importLine schema.componentName ("./" ++ schema.componentFileName) :: after)) :
          StateM σ _) read = (.ok .written, made) ∧
      path.parent? = some directory ∧
      ∀ start : Location,
        ((Path.mk ("./" ++ schema.componentFileName)).resolve
            (directory.resolve start)).modifyLast (· ++ sourceExtension) =
          schema.sourcePath.resolve start ∧
        (".." ∉ (Path.mk schema.componentPath).names →
          (Path.mk schema.modulePath).resolve (directory.resolve start) =
              (Path.mk (moduleName schema.moduleFileName)).resolve
                ((directory.resolve start).rdrop (depth schema.componentPath)) ∧
          (depth schema.componentPath = (Path.mk schema.componentPath).names.length →
            (Path.mk schema.modulePath).resolve (directory.resolve start) =
              ((Path.mk schema.libPath).join ⟨moduleName schema.moduleFileName⟩).resolve
                start)) := by
  obtain ⟨rfl, text, read, hread, hwrite⟩ := exists_of_generate_eq_created hgenerate
  obtain ⟨directory, hdirectory, hresolve⟩ := exists_parent?_storyPath hfile
  obtain ⟨before, after, htext⟩ := storyText_eq schema text
  rw [htext] at hwrite
  refine ⟨text, read, directory, before, after, hread, hwrite, hdirectory, fun start => ?_⟩
  rw [hresolve]
  exact ⟨resolve_component_directory hfile start, fun hparent =>
    ⟨resolve_modulePath schema _, fun hdepth =>
      resolve_modulePath_directory hrelative hparent hdepth start⟩⟩

theorem imports_of_generate_eq_created_card :
    let schema : Schema :=
      ⟨"libs/ui/src/lib", "sub/ui.module.ts", "UiModule", "Card", "./a//b/", "card.component"⟩
    let memory := Memory.ofFiles [(⟨"libs/ui/src/lib/a/b/card.component.ts"⟩, "")]
    (∃ made, (schema.generate : StateM Memory _) memory =
        (.ok (.created schema.storyPath), made)) ∧
      (Path.mk schema.componentPath).isAbsolute = false ∧
      IsName schema.componentFileName.toList ∧
      ".." ∉ (Path.mk schema.componentPath).names ∧
      depth schema.componentPath = (Path.mk schema.componentPath).names.length ∧
      ∃ directory, schema.storyPath.parent? = some directory ∧ ∀ start : Location,
        ((Path.mk ("./" ++ schema.componentFileName)).resolve
            (directory.resolve start)).modifyLast (· ++ sourceExtension) =
          schema.sourcePath.resolve start ∧
        (Path.mk schema.modulePath).resolve (directory.resolve start) =
          ((Path.mk schema.libPath).join ⟨moduleName schema.moduleFileName⟩).resolve start := by
  intro schema memory
  have hresult : ((schema.generate : StateM Memory _) memory).1 =
      .ok (.created schema.storyPath) := by decide +kernel
  obtain ⟨made, hgenerate⟩ : ∃ made, (schema.generate : StateM Memory _) memory =
      (.ok (.created schema.storyPath), made) := by
    rw [← hresult]
    exact ⟨_, Prod.mk.eta.symm⟩
  have hrelative : (Path.mk schema.componentPath).isAbsolute = false := by decide
  have hfile : IsName schema.componentFileName.toList := ⟨by decide, by decide, by decide⟩
  have hparent : ".." ∉ (Path.mk schema.componentPath).names := by decide
  have hdepth : depth schema.componentPath = (Path.mk schema.componentPath).names.length :=
    depth_eq_length_names (by decide)
  obtain ⟨-, -, directory, -, -, -, -, hdirectory, hresolve⟩ :=
    imports_of_generate_eq_created hgenerate hrelative hfile
  exact ⟨⟨made, hgenerate⟩, hrelative, hfile, hparent, hdepth, directory, hdirectory, fun start =>
    ⟨(hresolve start).1, ((hresolve start).2 hparent).2 hdepth⟩⟩

/-- A backslash in the name of a directory is counted as the end of another one, and `..` as a way
down. -/
theorem imports_astray_of_backslash_or_parent :
    let below : Schema := ⟨"lib", "ui.module.ts", "UiModule", "Card", "a\\b", "card"⟩
    let above : Schema := { below with componentPath := ".." }
    let memory := Memory.ofFiles [(⟨"lib/a\\b/card.ts"⟩, ""), (⟨"card.ts"⟩, "")]
    let place : Location := ["home", "lib", "ui.module"]
    IsName below.componentFileName.toList ∧
      (Path.mk below.componentPath).isAbsolute = false ∧
      ((below.generate : StateM Memory _) memory).1 = .ok (.created ⟨"lib/a\\b/card.stories.ts"⟩) ∧
      Path.parent? ⟨"lib/a\\b/card.stories.ts"⟩ = some ⟨"lib/a\\b"⟩ ∧
      (Path.mk above.componentPath).isAbsolute = false ∧
      ((above.generate : StateM Memory _) memory).1 = .ok (.created ⟨"lib/../card.stories.ts"⟩) ∧
      Path.parent? ⟨"lib/../card.stories.ts"⟩ = some ⟨"lib/.."⟩ ∧
      ((Path.mk "lib").join ⟨moduleName "ui.module.ts"⟩).resolve ["home"] = place ∧
      (Path.mk below.modulePath).resolve (Path.resolve ⟨"lib/a\\b"⟩ ["home"]) ≠ place ∧
      (Path.mk above.modulePath).resolve (Path.resolve ⟨"lib/.."⟩ ["home"]) ≠ place := by
  intro below above memory place
  have hfile : IsName below.componentFileName.toList := ⟨by decide, by decide, by decide⟩
  exact ⟨hfile, by decide +kernel⟩

end Schema

end StoryKnobs

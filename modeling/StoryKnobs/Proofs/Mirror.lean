import StoryKnobs.Proofs.Operations
import StoryKnobs.Proofs.Places

/-!
# Trees in memory and on a disk

If all paths go by names from the working directory, and none leads through the place of another
one, then a tree in memory and a disk that start with the same files hold the same files ever after
and give the same answers.
-/

namespace StoryKnobs

open StoryKnobs.Path (Component)
open Disk (HasRoom Placed)

/-- Direct paths from the working directory, none of which leads through the place of another. -/
structure AreApart (paths : List Path) : Prop where
  direct : ∀ path ∈ paths, path.IsDirect
  relative : ∀ path ∈ paths, path.isAbsolute = false
  apart : ∀ path ∈ paths, ∀ other ∈ paths,
    path.names <+: other.names → path.names = other.names

instance (paths : List Path) : Decidable (AreApart paths) :=
  decidable_of_iff ((∀ path ∈ paths, path.IsDirect) ∧ (∀ path ∈ paths, path.isAbsolute = false) ∧
      ∀ path ∈ paths, ∀ other ∈ paths, path.names <+: other.names → path.names = other.names)
    ⟨fun ⟨hdirect, hrelative, hapart⟩ => ⟨hdirect, hrelative, hapart⟩,
    fun ⟨hdirect, hrelative, hapart⟩ => ⟨hdirect, hrelative, hapart⟩⟩

/-- The files on a disk are those of a tree in memory, below the working directory. -/
structure SameFiles (memory : Memory) (disk : Disk) : Prop where
  file_iff : ∀ place bytes, disk.entry? place = some (.file bytes) ↔
    ∃ names text, place = disk.workingDirectory ++ names ∧ bytes = text.toUTF8 ∧
      memory.files.lookup (names.map Component.name) = some text
  named : ∀ key text, memory.files.lookup key = some text →
    ∃ names : List String, key = names.map Component.name

/-- An answer of a tree in memory and the answer of a disk to the same operation. Both fail only if
there is nothing to read. -/
inductive Answer.Agrees : Answer → Answer → Prop where
  | read (text : String) : Agrees (.read (.ok text)) (.read (.ok text))
  | unknown (path : Path) : Agrees (.read (.error (.unknown path))) (.read (.error .notFound))
  | look (present : Bool) : Agrees (.look present) (.look present)
  | write (outcome : WriteOutcome) : Agrees (.write (.ok outcome)) (.write (.ok outcome))
  | generate (outcome : GenerateOutcome) :
      Agrees (.generate (.ok outcome)) (.generate (.ok outcome))
  | unreadable (source path : Path) :
      Agrees (.generate (.error (.unreadable source (.unknown path))))
        (.generate (.error (.unreadable source .notFound)))

/-- A disk that holds the files of a tree in memory, and no directories but those above them. -/
structure Mirrors (paths : List Path) (memory : Memory) (disk : Disk) : Prop where
  tree : disk.IsTree
  same : SameFiles memory disk
  known : ∀ (names : List String) text,
    memory.files.lookup (names.map Component.name) = some text →
      ∃ path ∈ paths, names = path.names
  directory : ∀ place, disk.entry? place = some .directory → place <+: disk.workingDirectory ∨
    ∃ path ∈ paths, place <+: disk.placeOf path ∧ place ≠ disk.placeOf path

variable {paths : List Path} {memory : Memory} {disk other : Disk} {path : Path} {text : String}

theorem Disk.placeOf_of_relative (hrelative : path.isAbsolute = false) :
    disk.placeOf path = disk.workingDirectory ++ path.names := by
  rw [placeOf, hrelative]
  rfl

theorem Path.IsDirect.names_ne_nil (hdirect : path.IsDirect) : path.names ≠ [] := by
  obtain ⟨parent, last, -, -, hnames, -⟩ := hdirect.exists_parent?
  rw [hnames]
  exact List.concat_ne_nil last parent.names

theorem Path.IsDirect.placeOf_ne_nil (hdirect : path.IsDirect) (disk : Disk) :
    disk.placeOf path ≠ [] := by
  obtain ⟨-, above, name, -, -, hplace, -⟩ := Disk.exists_leadsAbove disk hdirect
  rw [hplace]
  exact List.concat_ne_nil name above

theorem AreApart.lookup_insert (hapart : AreApart paths) (hpath : path ∈ paths) (memory : Memory)
    (text : String) (key : List Component) :
    (memory.insert path text).files.lookup key =
      if key = path.names.map Component.name then some text else memory.files.lookup key := by
  rw [← (hapart.direct path hpath).normal_eq (hapart.relative path hpath)]
  exact Memory.lookup_put path.normal key text memory.files

theorem map_name_injective : Function.Injective (List.map Component.name) :=
  List.map_injective_iff.mpr fun _ _ heq => Component.name.inj heq

namespace Mirrors

variable (hmirrors : Mirrors paths memory disk) (hapart : AreApart paths) (hpath : path ∈ paths)

include hmirrors hapart hpath

theorem isClear : disk.IsClear (disk.placeOf path) := by
  intro above bytes hbegins hne hfile
  obtain ⟨names, text, rfl, -, htext⟩ := (hmirrors.same.file_iff above bytes).mp hfile
  obtain ⟨other, hother, rfl⟩ := hmirrors.known names text htext
  rw [Disk.placeOf_of_relative (hapart.relative path hpath)] at hbegins hne
  have hnames := hapart.apart other hother path hpath
    ((List.prefix_append_right_inj disk.workingDirectory).mp hbegins)
  exact hne (by rw [hnames])

theorem entry?_ne_directory : disk.entry? (disk.placeOf path) ≠ some .directory := by
  intro hdirectory
  have hplace : disk.placeOf path = disk.workingDirectory ++ path.names :=
    Disk.placeOf_of_relative (hapart.relative path hpath)
  rcases hmirrors.directory _ hdirectory with habove | ⟨other, hother, hbegins, hne⟩
  · rw [hplace] at habove
    have hlength := habove.length_le
    rw [List.length_append] at hlength
    have hnil : path.names = [] := List.eq_nil_of_length_eq_zero (by omega)
    exact (hapart.direct path hpath).names_ne_nil hnil
  · rw [hplace, Disk.placeOf_of_relative (hapart.relative other hother)] at hbegins hne
    have hnames := hapart.apart path hpath other hother
      ((List.prefix_append_right_inj disk.workingDirectory).mp hbegins)
    exact hne (by rw [hnames])

theorem entry?_placeOf :
    disk.entry? (disk.placeOf path) =
      (memory.get? path).map fun text => .file text.toUTF8 := by
  have hplace : disk.placeOf path = disk.workingDirectory ++ path.names :=
    Disk.placeOf_of_relative (hapart.relative path hpath)
  have hnormal : path.normal = path.names.map Component.name :=
    (hapart.direct path hpath).normal_eq (hapart.relative path hpath)
  rw [Memory.get?, hnormal]
  cases htext : memory.files.lookup (path.names.map Component.name) with
  | some text => exact (hmirrors.same.file_iff _ _).mpr ⟨path.names, text, hplace, rfl, htext⟩
  | none =>
      cases hentry : disk.entry? (disk.placeOf path) with
      | none => rfl
      | some entry =>
          cases entry with
          | directory => exact absurd hentry (hmirrors.entry?_ne_directory hapart hpath)
          | file bytes =>
              obtain ⟨names, text, hnames, -, hfound⟩ :=
                (hmirrors.same.file_iff _ bytes).mp hentry
              obtain rfl := List.append_cancel_left (hplace.symm.trans hnames)
              rw [htext] at hfound
              cases hfound

theorem sameFiles_insert (text : String)
    (hplaced : Placed disk other (disk.placeOf path) (.file text.toUTF8)) :
    SameFiles (memory.insert path text) other := by
  have hplace : disk.placeOf path = disk.workingDirectory ++ path.names :=
    Disk.placeOf_of_relative (hapart.relative path hpath)
  have hlookup := hapart.lookup_insert hpath memory text
  refine ⟨fun place bytes => ?_, fun key found hfound => ?_⟩
  · rw [hplaced.home]
    by_cases heq : place = disk.placeOf path
    · rw [heq, hplaced.entry?_self]
      constructor
      · rintro ⟨⟩
        exact ⟨path.names, text, hplace, rfl, by rw [hlookup, if_pos rfl]⟩
      · rintro ⟨names, found, hnames, rfl, hfound⟩
        obtain rfl := List.append_cancel_left (hplace.symm.trans hnames)
        rw [hlookup, if_pos rfl] at hfound
        obtain rfl := Option.some.inj hfound
        rfl
    · -- The directories that are new are no files, and there was nothing where they are now.
      have hrest : other.entry? place = some (.file bytes) ↔
          disk.entry? place = some (.file bytes) := by
        rw [hplaced.entry?_eq, if_neg heq]
        split_ifs with hbegins
        · exact iff_of_false nofun (hmirrors.isClear hapart hpath place bytes hbegins heq)
        · rfl
      rw [hrest, hmirrors.same.file_iff]
      refine exists_congr fun names => exists_congr fun found => and_congr_right fun hnames => ?_
      have hne : names.map Component.name ≠ path.names.map Component.name := by
        intro hmap
        rw [map_name_injective hmap, ← hplace] at hnames
        exact heq hnames
      rw [hlookup, if_neg hne]
  · rw [hlookup] at hfound
    split_ifs at hfound with heq
    · exact ⟨path.names, heq⟩
    · exact hmirrors.same.named key found hfound

theorem insert (text : String)
    (hplaced : Placed disk other (disk.placeOf path) (.file text.toUTF8)) :
    Mirrors paths (memory.insert path text) other where
  tree := hplaced.isTree hmirrors.tree fun hdirectory =>
    absurd hdirectory (hmirrors.entry?_ne_directory hapart hpath)
  same := hmirrors.sameFiles_insert hapart hpath text hplaced
  known names found hfound := by
    rw [hapart.lookup_insert hpath] at hfound
    split_ifs at hfound with heq
    · exact ⟨path, hpath, map_name_injective heq⟩
    · exact hmirrors.known names found hfound
  directory place hdirectory := by
    rw [hplaced.home]
    rw [hplaced.entry?_eq] at hdirectory
    split_ifs at hdirectory with heq hbegins
    · cases hdirectory
    · refine .inr ⟨path, hpath, ?_⟩
      rw [Disk.placeOf_eq hplaced.home]
      exact ⟨hbegins, heq⟩
    · refine (hmirrors.directory place hdirectory).imp_right ?_
      rintro ⟨above, habove, hplaceOf⟩
      refine ⟨above, habove, ?_⟩
      rwa [Disk.placeOf_eq hplaced.home]

end Mirrors

/-! ### The start -/

theorem mirrors_start (paths : List Path) (location : Location) :
    Mirrors paths .empty (Disk.ofWorkingDirectory location) := by
  refine ⟨Disk.isTree_ofWorkingDirectory location, ⟨?_, ?_⟩, ?_, ?_⟩
  · intro place bytes
    rw [Disk.entry?_ofWorkingDirectory]
    refine iff_of_false ?_ ?_
    · split_ifs <;> exact nofun
    · rintro ⟨names, text, -, -, hfound⟩
      cases hfound
  · exact fun _ _ hfound => nomatch hfound
  · exact fun _ _ hfound => nomatch hfound
  · intro place hdirectory
    rw [Disk.entry?_ofWorkingDirectory] at hdirectory
    split_ifs at hdirectory with hbegins
    exact .inl hbegins

theorem Disk.namesOf_eq (hdirect : path.IsDirect) (hrelative : path.isAbsolute = false) :
    namesOf path = path.names := by
  rw [namesOf, hdirect.normal_eq hrelative, List.filterMap_map]
  exact List.filterMap_some

theorem mirrors_ofFiles (hapart : AreApart paths) (location : Location)
    (files : List (Path × String)) (hfiles : files.map Prod.fst ⊆ paths) :
    let disk := Disk.ofEntries location (files.map fun (path, text) => (path, .file text.toUTF8))
    Mirrors paths (Memory.ofFiles files) disk ∧ disk.workingDirectory = location := by
  -- Both start from nothing, but later files are added to what is there already.
  have hall : ∀ (memory : Memory) (disk : Disk), disk.workingDirectory = location →
      Mirrors paths memory disk →
      let filled := (files.map fun file => (file.1, Entry.file file.2.toUTF8)).foldl
        (fun disk placed => disk.put (location ++ Disk.namesOf placed.1) placed.2) disk
      Mirrors paths (files.foldl (fun memory file => memory.insert file.1 file.2) memory) filled ∧
        filled.workingDirectory = location := by
    induction files with
    | nil => exact fun _ _ hhome hmirrors => ⟨hmirrors, hhome⟩
    | cons file files ih =>
        intro memory disk hhome hmirrors
        obtain ⟨path, text⟩ := file
        rw [List.map_cons, List.cons_subset] at hfiles
        obtain ⟨hpath, hothers⟩ := hfiles
        have hdirect := hapart.direct path hpath
        have hplace : location ++ Disk.namesOf path = disk.placeOf path := by
          rw [Disk.namesOf_eq hdirect (hapart.relative path hpath),
            Disk.placeOf_of_relative (hapart.relative path hpath), hhome]
        have hplaced := Disk.placed_put hmirrors.tree (hmirrors.isClear hapart hpath)
          (hdirect.placeOf_ne_nil disk) (.file text.toUTF8)
        dsimp only
        rw [List.map_cons, List.foldl_cons, List.foldl_cons]
        dsimp only
        rw [hplace]
        exact ih hothers _ _ (hplaced.home.trans hhome)
          (hmirrors.insert hapart hpath text hplaced)
  exact hall .empty _ rfl (mirrors_start paths location)

/-! ### Operations -/

namespace Mirrors

variable (hmirrors : Mirrors paths memory disk) (hapart : AreApart paths) (hpath : path ∈ paths)

include hmirrors hapart hpath

theorem contains_eq : disk.contains path = memory.contains path := by
  rw [Disk.contains_eq hmirrors.tree (hapart.direct path hpath) (hmirrors.isClear hapart hpath),
    hmirrors.entry?_placeOf hapart hpath, Option.isSome_map, Memory.contains_eq_isSome]

theorem read_eq : disk.read path =
    match memory.get? path with
    | some text => .ok text
    | none => .error .notFound := by
  have hfind := Disk.find_eq hmirrors.tree (hapart.direct path hpath)
    (hmirrors.isClear hapart hpath)
  rw [Disk.visit, hmirrors.entry?_placeOf hapart hpath] at hfind
  rw [Disk.read, hfind]
  cases memory.get? path with
  | none => rfl
  | some text =>
      have htext : String.fromUTF8? text.toUTF8 = some text := dif_pos text.isValidUTF8
      simp only [Option.map_some, bind, Except.bind, htext]
      rfl

theorem writeNew (text : String) (hroom : HasRoom disk.workingDirectory path) :
    (Disk.writeNew .none disk path text).1 = .ok (memory.writeNew path text).1 ∧
      Mirrors paths (memory.writeNew path text).2 (Disk.writeNew .none disk path text).2 ∧
      (Disk.writeNew .none disk path text).2.workingDirectory = disk.workingDirectory := by
  have hdirect := hapart.direct path hpath
  have hentry := hmirrors.entry?_placeOf hapart hpath
  cases hget : memory.get? path with
  | none =>
      rw [hget] at hentry
      obtain ⟨other, hwrite, hplaced⟩ := Disk.exists_writeNew_eq_of_none hmirrors.tree hdirect text
        hroom (hmirrors.isClear hapart hpath) hentry
      rw [hwrite, Memory.writeNew_of_get?_eq_none hget]
      exact ⟨rfl, hmirrors.insert hapart hpath text hplaced, hplaced.home⟩
  | some old =>
      rw [hget] at hentry
      rw [Disk.writeNew_of_entry hmirrors.tree hdirect text hentry,
        Memory.writeNew_of_get?_eq_some hget]
      exact ⟨rfl, hmirrors, rfl⟩

omit hpath

/-- One operation gets the same answer, and the files stay the same. -/
theorem run (operation : Operation) (hpaths : operation.paths ⊆ paths)
    (hroom : ∀ path ∈ operation.targets, HasRoom disk.workingDirectory path) :
    Answer.Agrees (operation.run memory).1 (operation.run disk).1 ∧
      Mirrors paths (operation.run memory).2 (operation.run disk).2 ∧
      (operation.run disk).2.workingDirectory = disk.workingDirectory := by
  cases operation with
  | read path =>
      have hread := hmirrors.read_eq hapart (hpaths List.mem_cons_self)
      have hmemory : (Operation.read path).run memory = (.read (memory.read path), memory) := rfl
      have hdisk : (Operation.read path).run disk = (.read (disk.read path), disk) := rfl
      rw [hmemory, hdisk, hread, Memory.read]
      cases memory.get? path with
      | none => exact ⟨.unknown _, hmirrors, rfl⟩
      | some text => exact ⟨.read text, hmirrors, rfl⟩
  | look path =>
      have hlook := hmirrors.contains_eq hapart (hpaths List.mem_cons_self)
      have hmemory : (Operation.look path).run memory = (.look (memory.contains path), memory) :=
        rfl
      have hdisk : (Operation.look path).run disk = (.look (disk.contains path), disk) := rfl
      rw [hmemory, hdisk, hlook]
      exact ⟨.look _, hmirrors, rfl⟩
  | write path text =>
      obtain ⟨houtcome, hwritten⟩ := hmirrors.writeNew hapart (hpaths List.mem_cons_self) text
        (hroom path (List.mem_singleton_self path))
      have hmemory : (Operation.write path text).run memory =
          (.write (.ok (memory.writeNew path text).1), (memory.writeNew path text).2) := rfl
      have hdisk : (Operation.write path text).run disk =
          (.write (Disk.writeNew .none disk path text).1,
            (Disk.writeNew .none disk path text).2) := rfl
      rw [hmemory, hdisk, houtcome]
      exact ⟨.write _, hwritten⟩
  | generate schema =>
      have hsource : schema.sourcePath ∈ paths := hpaths List.mem_cons_self
      have hstory : schema.storyPath ∈ paths :=
        hpaths (List.mem_cons_of_mem _ (List.mem_singleton_self _))
      have hread := hmirrors.read_eq hapart hsource
      cases hget : memory.get? schema.sourcePath with
      | none =>
          rw [hget] at hread
          rw [Operation.generate_run_of_none hget, Operation.generate_run
            (Schema.generate_of_read_error (congrArg (·, disk) hread))]
          exact ⟨.unreadable _ _, hmirrors, rfl⟩
      | some text =>
          rw [hget] at hread
          obtain ⟨houtcome, hwritten⟩ :=
            hmirrors.writeNew hapart hstory (schema.storyText text)
              (hroom schema.storyPath (List.mem_singleton_self _))
          rw [Operation.generate_run_of_some hget, Operation.generate_run
            (Schema.generate_of_write_ok (congrArg (·, disk) hread) (Prod.ext houtcome rfl))]
          exact ⟨.generate _, hwritten⟩

theorem trace (operations : List Operation)
    (hpaths : operations.flatMap Operation.paths ⊆ paths)
    (hroom : ∀ path ∈ operations.flatMap Operation.targets, HasRoom disk.workingDirectory path) :
    List.Forall₂ (fun (answer, memory) (other, disk) =>
        Answer.Agrees answer other ∧ SameFiles memory disk)
      (Operation.trace operations memory) (Operation.trace operations disk) := by
  induction operations generalizing memory disk with
  | nil => exact .nil
  | cons operation operations ih =>
      rw [List.flatMap_cons, List.append_subset] at hpaths
      rw [List.flatMap_cons, List.forall_mem_append] at hroom
      obtain ⟨hagrees, hrun, hhome⟩ := hmirrors.run hapart operation hpaths.1 hroom.1
      exact .cons ⟨hagrees, hrun.same⟩ (ih hrun hpaths.2 (hhome ▸ hroom.2))

end Mirrors

/-! ### Main results -/

/-- **Memory stands for a disk.** A tree in memory and a disk that start with the same files give
the same answers to any operations, as long as all paths go by names from the working directory,
none leads through the place of another one, and there is room to stage what is written. After each
operation they hold the same files. -/
theorem Operation.traces_agree (location : Location) (files : List (Path × String))
    (operations : List Operation)
    (hapart : AreApart (files.map Prod.fst ++ operations.flatMap Operation.paths))
    (hroom : ∀ path ∈ operations.flatMap Operation.targets, HasRoom location path) :
    let memory := Memory.ofFiles files
    let disk := Disk.ofEntries location
      (files.map fun (path, text) => (path, .file text.toUTF8))
    SameFiles memory disk ∧
      List.Forall₂ (fun (answer, memory) (other, disk) =>
          Answer.Agrees answer other ∧ SameFiles memory disk)
        (Operation.trace operations memory) (Operation.trace operations disk) := by
  intro memory disk
  obtain ⟨hmirrors, hhome⟩ :=
    mirrors_ofFiles hapart location files (List.subset_append_left _ _)
  refine ⟨hmirrors.same, hmirrors.trace hapart operations (List.subset_append_right _ _) ?_⟩
  rw [hhome]
  exact hroom

theorem Operation.traces_agree_badge :
    let schema : Schema := ⟨"lib", "ui.module.ts", "UiModule", "Badge", "badge", "badge.component"⟩
    let files : List (Path × String) := [(⟨"lib/badge/badge.component.ts"⟩, "")]
    let operations : List Operation := [.generate schema, .look ⟨"lib/other/./new.ts"⟩,
      .write ⟨"lib/other/new.ts"⟩ "new", .read schema.storyPath]
    let memory := Memory.ofFiles files
    let disk := Disk.ofEntries ["home"] (files.map fun (path, text) => (path, .file text.toUTF8))
    AreApart (files.map Prod.fst ++ operations.flatMap Operation.paths) ∧
      (∀ path ∈ operations.flatMap Operation.targets, HasRoom ["home"] path) ∧
      SameFiles memory disk ∧
      List.Forall₂ (fun (answer, memory) (other, disk) =>
          Answer.Agrees answer other ∧ SameFiles memory disk)
        (Operation.trace operations memory) (Operation.trace operations disk) := by
  intro schema files operations memory disk
  have hapart : AreApart (files.map Prod.fst ++ operations.flatMap Operation.paths) := by
    decide +kernel
  have hroom : ∀ path ∈ operations.flatMap Operation.targets, HasRoom ["home"] path := by
    decide +kernel
  exact ⟨hapart, hroom, traces_agree ["home"] files operations hapart hroom⟩

/-! ### Other paths -/

def longName (count : Nat) : List Char := List.replicate count 'a'

/-- A path of more short names than a disk can look up. -/
def longPath : Path := .ofSegments (List.replicate 20 (longName 250))

/-- The longest directory whose files have short paths from the working directory. -/
def deepDirectory : Path := .ofSegments (List.replicate 16 (longName 254))

/-- A path that can be looked up, in a directory with no room for staging. -/
def deepPath : Path := .ofSegments (List.replicate 16 (longName 254) ++ [['b']])

theorem nul_notMem_intercalate {segments : List (List Char)}
    (hsegments : ∀ segment ∈ segments, '\x00' ∉ segment) : '\x00' ∉ ['/'].intercalate segments := by
  induction segments with
  | nil => exact List.not_mem_nil
  | cons segment segments ih =>
      cases segments with
      | nil =>
          rw [List.intercalate_singleton]
          exact hsegments segment List.mem_cons_self
      | cons other segments =>
          rw [List.intercalate_cons_cons, List.mem_append, List.mem_append, not_or, not_or]
          refine ⟨⟨hsegments segment List.mem_cons_self, by decide⟩, ih fun found hmem => ?_⟩
          exact hsegments found (List.mem_cons_of_mem _ hmem)

theorem notMem_longName {character : Char} (hne : character ≠ 'a') (count : Nat) :
    character ∉ longName count :=
  fun hmem => hne (List.eq_of_mem_replicate hmem)

theorem isName_longName {count : Nat} (hcount : 3 ≤ count) : Path.IsName (longName count) :=
  .of_length (notMem_longName (by decide) count) (by rwa [longName, List.length_replicate])

theorem routeOf_longPath : Disk.routeOf longPath = .error .nameTooLong := by
  have hnul : longPath.text.toList.contains '\x00' = false := by
    rw [List.contains_eq_mem, decide_eq_false_iff_not, longPath, Path.toList_ofSegments]
    refine nul_notMem_intercalate fun segment hsegment => ?_
    rw [List.eq_of_mem_replicate hsegment]
    exact notMem_longName (by decide) 250
  have hlong : Disk.pathLimit ≤ longPath.text.utf8ByteSize := by
    rw [← String.utf8Len_toList, longPath, Path.toList_ofSegments]
    decide +kernel
  have hempty : longPath.text.isEmpty = false := by
    rw [Bool.eq_false_iff, Ne, String.isEmpty_iff]
    intro hempty
    rw [hempty] at hlong
    exact absurd hlong (by decide)
  rw [Disk.routeOf, hnul, hempty, if_neg (by decide), if_neg (by decide), if_pos hlong]

theorem components_longPath :
    longPath.components = List.replicate 20 (.name (String.ofList (longName 250))) := by
  have hname : Path.IsName (longName 250) := isName_longName (by decide)
  have hsegments : Text.segments Path.isSeparator longPath.text.toList =
      longName 250 :: List.replicate 19 (longName 250) := by
    refine Path.segments_ofSegments (List.cons_ne_nil _ _) fun segment hsegment => ?_
    rw [List.eq_of_mem_replicate hsegment]
    exact hname.slash
  rw [Path.components_of_segments hsegments, hname.firstComponentOf_eq,
    List.filterMap_replicate_of_some hname.componentOf_eq]
  rfl

theorem eq_of_mem_deepPath {segment : List Char}
    (hsegment : segment ∈ List.replicate 16 (longName 254) ++ [['b']]) :
    segment = longName 254 ∨ segment = ['b'] :=
  (List.mem_append.mp hsegment).imp List.eq_of_mem_replicate List.mem_singleton.mp

theorem isName_of_mem_deepPath {segment : List Char}
    (hsegment : segment ∈ List.replicate 16 (longName 254) ++ [['b']]) : Path.IsName segment := by
  rcases eq_of_mem_deepPath hsegment with rfl | rfl
  · exact isName_longName (by decide)
  · exact ⟨by decide, by decide, by decide⟩

theorem isDirect_deepPath : deepPath.IsDirect := by
  refine .of_segments (fun segment hsegment => (isName_of_mem_deepPath hsegment).slash) (by decide)
    ?_ ?_ fun segment hsegment _ => ⟨(isName_of_mem_deepPath hsegment).ofList_ne_parent, ?_⟩
  · rw [Path.toList_ofSegments]
    refine nul_notMem_intercalate fun segment hsegment => ?_
    rcases eq_of_mem_deepPath hsegment with rfl | rfl
    · exact notMem_longName (by decide) 254
    · decide
  · rw [← String.utf8Len_toList, Path.toList_ofSegments]
    decide +kernel
  · rcases eq_of_mem_deepPath hsegment with rfl | rfl
    · decide +kernel
    · decide

theorem add_le_utf8ByteSize_join (hrelative : path.isAbsolute = false) (directory : Path) :
    directory.text.utf8ByteSize + path.text.utf8ByteSize ≤
      (directory.join path).text.utf8ByteSize := by
  rw [Path.join, hrelative, if_neg Bool.false_ne_true]
  split_ifs
  · rw [String.utf8ByteSize_append]
  · rw [String.utf8ByteSize_append, String.utf8ByteSize_append]
    omega

/-- The path from the root may be too long for staging even where a path is not. -/
theorem not_hasRoom_of_parent? {home : Location} {directory : Path}
    (hparent : path.parent? = some directory) (hne : directory.text ≠ "")
    (hrelative : directory.isAbsolute = false)
    (hlong : Disk.pathLimit ≤ ("/" ++ "/".intercalate home).utf8ByteSize +
      directory.text.utf8ByteSize + ".tmpXXXXXX".utf8ByteSize) : ¬ HasRoom home path := by
  have hdirectory : Disk.stagingDirectory path = directory := by
    rw [Disk.stagingDirectory, hparent]
    exact if_neg (by simpa using hne)
  have habove := add_le_utf8ByteSize_join hrelative ⟨"/" ++ "/".intercalate home⟩
  have hstaged := add_le_utf8ByteSize_join (show Path.isAbsolute ⟨".tmpXXXXXX"⟩ = false from rfl)
    (Path.join ⟨"/" ++ "/".intercalate home⟩ directory)
  dsimp only at habove hstaged
  rw [HasRoom, hdirectory, Disk.stagedPath, Nat.not_lt]
  omega

theorem utf8ByteSize_deepDirectory : deepDirectory.text.utf8ByteSize = 4079 := by
  rw [← String.utf8Len_toList, deepDirectory, Path.toList_ofSegments]
  decide +kernel

theorem isAbsolute_deepDirectory : deepDirectory.isAbsolute = false := by
  rw [Path.isAbsolute, deepDirectory, Path.toList_ofSegments]
  rfl

theorem not_hasRoom_deepPath : ¬ HasRoom ["home", "work"] deepPath := by
  have hparent : deepPath.parent? = some deepDirectory :=
    Path.parent?_ofSegments (List.cons_ne_nil _ _) fun _ hmem => isName_of_mem_deepPath hmem
  have hne : deepDirectory.text ≠ "" := by
    intro hempty
    have hsize := utf8ByteSize_deepDirectory
    rw [hempty] at hsize
    cases hsize
  refine not_hasRoom_of_parent? hparent hne isAbsolute_deepDirectory ?_
  rw [utf8ByteSize_deepDirectory]
  decide +kernel

theorem isAbsolute_deepPath : deepPath.isAbsolute = false := by
  rw [Path.isAbsolute, deepPath, Path.toList_ofSegments]
  rfl

theorem Operation.write_run_empty (path : Path) (text : String) :
    ((write path text).run Memory.empty).1 = .write (.ok .written) := by
  have hwrite : ((write path text).run Memory.empty).1 =
      .write (.ok (Memory.empty.writeNew path text).1) := rfl
  rw [hwrite, Memory.writeNew_of_get?_eq_none rfl]

theorem Operation.write_run_of_not_hasRoom {home : Location} (hdirect : path.IsDirect)
    (hrelative : path.isAbsolute = false) (hroom : ¬ HasRoom home path) (text : String) :
    ((write path text).run (Disk.ofEntries home [])).1 = .write (.error .nameTooLong) := by
  have hrun : ((write path text).run (Disk.ofEntries home [])).1 =
      .write (Disk.writeNew .none (Disk.ofEntries home []) path text).1 := rfl
  have hempty : Disk.ofEntries home [] = Disk.ofWorkingDirectory home := rfl
  have hnone : Disk.entry? (.ofWorkingDirectory home)
      ((Disk.ofWorkingDirectory home).placeOf path) = none := by
    rw [Disk.placeOf_of_relative hrelative, Disk.entry?_ofWorkingDirectory, if_neg]
    intro hbegins
    have hlength : (home ++ path.names).length ≤ home.length := hbegins.length_le
    rw [List.length_append] at hlength
    exact hdirect.names_ne_nil (List.eq_nil_of_length_eq_zero (by omega))
  have hclear : (Disk.ofWorkingDirectory home).IsClear
      ((Disk.ofWorkingDirectory home).placeOf path) := by
    intro above bytes _ _ hfile
    rw [Disk.entry?_ofWorkingDirectory] at hfile
    split_ifs at hfile
    cases hfile
  obtain ⟨other, -, -, -, hwrite, -⟩ := Disk.exists_writeNew_eq_of_not_hasRoom
    (Disk.isTree_ofWorkingDirectory home) hdirect text hroom hclear hnone
  rw [hrun, hempty, hwrite]

/-- A slash at the end, a path without names, one with too many of them, and one to a directory with
no room for staging make a difference. -/
theorem Operation.answers_differ :
    let file : Path := ⟨"badge.ts"⟩
    let closed : Path := ⟨"badge.ts/"⟩
    let memory := Memory.ofFiles [(file, "")]
    let disk := Disk.ofEntries ["home"] [(file, .file "".toUTF8)]
    (closed.components = [.name "badge.ts"] ∧
        ((look closed).run memory).1 = .look true ∧ ((look closed).run disk).1 = .look false) ∧
      (Path.components ⟨""⟩ = [] ∧
        ((write ⟨""⟩ "").run Memory.empty).1 = .write (.ok .written) ∧
        ((write ⟨""⟩ "").run (Disk.ofEntries ["home"] [])).1 = .write (.error .notFound)) ∧
      (longPath.components = List.replicate 20 (.name (String.ofList (longName 250))) ∧
        ((read longPath).run Memory.empty).1 = .read (.error (.unknown longPath.normalize)) ∧
        ((read longPath).run (Disk.ofEntries ["home"] [])).1 = .read (.error .nameTooLong)) ∧
      (deepPath.IsDirect ∧
        ((write deepPath "").run Memory.empty).1 = .write (.ok .written) ∧
        ((write deepPath "").run (Disk.ofEntries ["home", "work"] [])).1 =
          .write (.error .nameTooLong)) := by
  refine ⟨⟨?_, ?_, ?_⟩, ⟨?_, ?_, ?_⟩, ⟨?_, ?_, ?_⟩, isDirect_deepPath, ?_, ?_⟩
  · decide +kernel
  · exact congrArg Answer.look (by decide +kernel)
  · exact congrArg Answer.look (by decide +kernel)
  · decide +kernel
  · rfl
  · rfl
  · exact components_longPath
  · rfl
  · have hread : Disk.read (Disk.ofEntries ["home"] []) longPath = .error .nameTooLong := by
      rw [Disk.read, Disk.find, routeOf_longPath]
      rfl
    exact congrArg Answer.read hread
  · exact write_run_empty deepPath ""
  · exact write_run_of_not_hasRoom isDirect_deepPath isAbsolute_deepPath not_hasRoom_deepPath ""

end StoryKnobs

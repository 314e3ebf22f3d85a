import Mathlib.Logic.Relation
import StoryKnobs.FileTree.Race
import StoryKnobs.Proofs.Disk

/-!
# What a write leaves behind

A write makes the directories that are missing above its path before it stages the text. If it then
writes nothing, what was staged is gone again, but the new directories stay. When no call fails
without a reason on the disk, some are left just when a directory on the way could be made.
-/

namespace StoryKnobs

namespace Path

variable {path parent above : Path}

def directory (path : Path) : Path := path.parent?.getD ⟨""⟩

/-- `above` is left of `path` when components at its end are left out, perhaps none. -/
def Reaches (path above : Path) : Prop :=
  Relation.ReflTransGen (fun path parent => path.parent? = some parent) path above

theorem Reaches.refl (path : Path) : path.Reaches path := Relation.ReflTransGen.refl

theorem Reaches.of_parent? (hreaches : parent.Reaches above)
    (hparent : path.parent? = some parent) : path.Reaches above :=
  Relation.ReflTransGen.head hparent hreaches

theorem Reaches.cases (hreaches : path.Reaches above) :
    path = above ∨ ∃ parent, path.parent? = some parent ∧ parent.Reaches above :=
  Relation.ReflTransGen.cases_head hreaches

theorem Reaches.isPrefix (hreaches : path.Reaches above) :
    above.text.toList <+: path.text.toList := by
  induction hreaches with
  | refl => exact List.prefix_rfl
  | tail _ hparent ih => exact (isPrefix_of_parent? hparent).trans ih

/-- The steps of a path go on from those of a path above it. -/
theorem Reaches.exists_steps_eq (hreaches : path.Reaches above) :
    ∃ rest, path.steps = above.steps ++ rest := by
  induction hreaches with
  | refl => exact ⟨[], (List.append_nil _).symm⟩
  | tail _ hparent ih =>
      obtain ⟨rest, hrest⟩ := ih
      obtain ⟨last, -, hlast⟩ := steps_of_parent? hparent
      exact ⟨last ++ rest, by rw [hrest, hlast, List.append_assoc]⟩

theorem Reaches.text_ne_empty (hreaches : path.Reaches above) (hne : above.text ≠ "") :
    path.text ≠ "" := by
  intro hempty
  have hbegins := hreaches.isPrefix
  rw [hempty, String.toList_empty, List.prefix_nil] at hbegins
  exact hne (by simpa using hbegins)

theorem Reaches.isAbsolute_eq (hreaches : path.Reaches above) (hne : above.text ≠ "") :
    path.isAbsolute = above.isAbsolute := by
  obtain ⟨tail, htail⟩ := hreaches.isPrefix
  obtain ⟨char, chars, hcons⟩ := List.exists_cons_of_ne_nil
    (show above.text.toList ≠ [] by simpa using hne)
  rw [isAbsolute, isAbsolute, ← htail, hcons]
  rfl

theorem length_lt_of_parent? (hparent : path.parent? = some parent) :
    parent.text.length < path.text.length := by
  have hbegins := isPrefix_of_parent? hparent
  by_contra hlength
  have htext : parent.text = path.text :=
    String.toList_inj.mp (hbegins.eq_of_length_le (by
      simpa only [String.length_toList] using Nat.not_lt.mp hlength))
  obtain ⟨rest, hrest, hsteps⟩ := steps_of_parent? hparent
  rw [show parent = path from congrArg Path.mk htext, List.self_eq_append_right] at hsteps
  exact hrest hsteps

end Path

namespace Disk

variable {disk other made : Disk} {location place : Location} {path parent above : Path}
  {route : Route} {faults : Faults} {places : List Location}

/-! ### New directories -/

def addDirectories (disk : Disk) (places : List Location) : Disk :=
  { disk with entries := places.map (fun place => (place, .directory)) ++ disk.entries }

theorem addDirectories_cons (disk : Disk) (place : Location) (places : List Location) :
    disk.addDirectories (place :: places) = (disk.addDirectories places).add place .directory := rfl

theorem addDirectories_eq_self_iff : disk.addDirectories places = disk ↔ places = [] := by
  constructor
  · intro heq
    have hlength := congrArg (fun disk : Disk => disk.entries.length) heq
    simpa [addDirectories] using hlength
  · rintro rfl
    rfl

theorem entry?_of_addDirectories (hnone : Disk.entry? (disk.addDirectories places) place = none) :
    disk.entry? place = none := by
  have hne := ne_nil_of_entry?_eq_none hnone
  rw [entry?_eq_lookup hne, addDirectories, List.lookup_append, Option.or_eq_none_iff] at hnone
  rw [entry?_eq_lookup hne, hnone.2]

/-- The new directories of a path and of paths above it, which make `other` from `disk`. -/
structure Furnishes (disk : Disk) (path : Path) (places : List Location) (other : Disk) :
    Prop where
  eq : other = disk.addDirectories places
  free : ∀ place ∈ places, disk.entry? place = none
  leads : ∀ place ∈ places, ∃ above, path.Reaches above ∧
    other.find above = .ok (place, .directory)

theorem Furnishes.refl (disk : Disk) (path : Path) : disk.Furnishes path [] disk where
  eq := rfl
  free := by simp
  leads := by simp

theorem Furnishes.of_parent? (hfurnishes : disk.Furnishes parent places other)
    (hparent : path.parent? = some parent) : disk.Furnishes path places other where
  eq := hfurnishes.eq
  free := hfurnishes.free
  leads place hplace := by
    obtain ⟨above, hreaches, hfind⟩ := hfurnishes.leads place hplace
    exact ⟨above, hreaches.of_parent? hparent, hfind⟩

theorem Furnishes.length_le (hfurnishes : disk.Furnishes path places other) :
    disk.entries.length ≤ other.entries.length := by
  rw [hfurnishes.eq, addDirectories, List.length_append]
  exact Nat.le_add_left _ _

theorem DirectoriesIn.find_eq (hin : DirectoriesIn disk other)
    (hfind : disk.find path = .ok (place, .directory)) :
    other.find path = .ok (place, .directory) := by
  obtain ⟨route, hroute, hfollow, hentry⟩ := find_eq_ok_iff.mp hfind
  rw [← hin.start_eq] at hfollow
  exact find_eq_ok_iff.mpr ⟨route, hroute, hin.follow_eq hfollow, hin.directory place hentry⟩

theorem makeDirectory_eq_ok_iff : disk.makeDirectory path = .ok made ↔
    ∃ route directory name, routeOf path = .ok route ∧
      disk.destination route = .ok (directory, some name) ∧
      disk.entry? (directory ++ [name]) = none ∧
      made = disk.add (directory ++ [name]) .directory := by
  rw [makeDirectory, bind_eq_ok_iff]
  refine exists_congr fun route => ?_
  rw [bind_eq_ok_iff]
  constructor
  · rintro ⟨hroute, ⟨directory, last⟩, hdestination, hmake⟩
    cases last with
    | none => cases hmake
    | some name =>
        dsimp only at hmake
        split at hmake
        · cases hmake
        · rename_i hnone
          exact ⟨directory, name, hroute, hdestination, hnone, (Except.ok.inj hmake).symm⟩
  · rintro ⟨directory, name, hroute, hdestination, hnone, rfl⟩
    refine ⟨hroute, (directory, some name), hdestination, ?_⟩
    dsimp only
    rw [hnone]
    rfl

theorem makeDirectory_eq_ok (hmake : disk.makeDirectory path = .ok made) :
    ∃ place, disk.entry? place = none ∧ made = disk.add place .directory ∧
      made.find path = .ok (place, .directory) := by
  obtain ⟨route, directory, name, hroute, hdestination, hnone, rfl⟩ :=
    makeDirectory_eq_ok_iff.mp hmake
  have hin := directoriesIn_add hnone .directory
  have hfollow := hin.follow_eq (destination_eq_ok hdestination).2
  have hentry : Disk.entry? (disk.add (directory ++ [name]) .directory) (directory ++ [name]) =
      some .directory := by
    rw [entry?_add hnone, if_pos rfl]
  refine ⟨_, hnone, rfl, find_eq_ok_iff.mpr ⟨route, hroute, ?_, hentry⟩⟩
  rw [hin.start_eq, follow_append, hfollow, Except.bind]
  split_ifs
  · rw [follow, hentry]
    rfl
  · rfl

theorem add_ne_self (disk : Disk) (place : Location) : disk.add place .directory ≠ disk := by
  intro heq
  have hlength := congrArg (fun disk : Disk => disk.entries.length) heq
  simp [add] at hlength

theorem Furnishes.make (hfurnishes : disk.Furnishes path places other)
    (hmake : other.makeDirectory path = .ok made) :
    ∃ place, disk.Furnishes path (place :: places) made := by
  obtain ⟨place, hnone, rfl, hfind⟩ := makeDirectory_eq_ok hmake
  refine ⟨place, ?_, ?_, ?_⟩
  · rw [addDirectories_cons, hfurnishes.eq]
  · have hfree := entry?_of_addDirectories (hfurnishes.eq ▸ hnone)
    simpa [hfree] using hfurnishes.free
  · rw [List.forall_mem_cons]
    refine ⟨⟨path, .refl path, hfind⟩, fun old hold => ?_⟩
    obtain ⟨above, hreaches, hfindOld⟩ := hfurnishes.leads old hold
    exact ⟨above, hreaches, (directoriesIn_add hnone .directory).find_eq hfindOld⟩

theorem Furnishes.settle (hfurnishes : disk.Furnishes path places other) (level : Nat)
    (call : Call) : ∃ places, disk.Furnishes path places
      (settle faults level other path (faults.run call (other.makeDirectory path))).2 := by
  cases hmake : faults.run call (other.makeDirectory path) with
  | error error => exact ⟨places, hfurnishes⟩
  | ok made =>
      obtain ⟨place, hplace⟩ := hfurnishes.make (run_eq_ok hmake)
      exact ⟨_, hplace⟩

/-- Whatever fails, nothing but directories is made. -/
theorem exists_furnishes_makeDirectories (faults : Faults) (count : Nat) (disk : Disk)
    (path : Path) :
    ∃ places, disk.Furnishes path places (makeDirectories faults count disk path).2 := by
  induction count generalizing disk path with
  | zero => exact ⟨[], .refl disk path⟩
  | succ count ih =>
      rw [makeDirectories]
      split_ifs
      · exact ⟨[], .refl disk path⟩
      · split
        · cases hparent : path.parent? with
          | none => exact ⟨[], .refl disk path⟩
          | some parent =>
              obtain ⟨places, hfurnishes⟩ := ih disk parent
              have hpath := hfurnishes.of_parent? hparent
              dsimp only
              split
              · rename_i heq
                rw [heq] at hpath
                exact hpath.settle count _
              · rename_i heq
                rw [heq] at hpath
                exact ⟨places, hpath⟩
        · exact (Furnishes.refl disk path).settle count _

/-! ### Directories that can be made -/

/-- The path can be looked up, and a directory above it, or its own, is missing and can be made. -/
def CanFurnish (disk : Disk) (path : Path) : Prop :=
  (∃ route, routeOf path = .ok route) ∧
    ∃ above made, path.Reaches above ∧ disk.makeDirectory above = .ok made

theorem isEmpty_of_routeOf (hroute : routeOf path = .error .notFound) :
    path.text.isEmpty = true := by
  rw [routeOf] at hroute
  split_ifs at hroute with hnul hempty hlong
  · cases hroute
  · exact hempty
  · cases hroute

theorem exists_routeOf_of_makeDirectory (hmake : disk.makeDirectory path = .error .notFound)
    (hempty : ¬path.text.isEmpty = true) : ∃ route, routeOf path = .ok route := by
  cases hroute : routeOf path with
  | ok route => exact ⟨route, rfl⟩
  | error error =>
      rw [makeDirectory, hroute] at hmake
      obtain rfl : error = .notFound := Except.error.inj hmake
      exact absurd (isEmpty_of_routeOf hroute) hempty

/-- A path above one that can be looked up can be looked up too, unless it is empty. -/
theorem exists_routeOf_of_parent? (hroute : routeOf path = .ok route)
    (hparent : path.parent? = some parent) (hne : parent.text.isEmpty = false) :
    ∃ route, routeOf parent = .ok route := by
  obtain ⟨hnul, -, hlength, -⟩ := routeOf_eq_ok_iff.mp hroute
  refine ⟨_, routeOf_eq_ok_iff.mpr ⟨?_, hne, ?_, rfl⟩⟩
  · rw [List.contains_eq_mem, decide_eq_false_iff_not] at hnul ⊢
    exact fun hmem => hnul ((Path.isPrefix_of_parent? hparent).subset hmem)
  · exact Nat.lt_of_le_of_lt (Path.utf8ByteSize_le_of_parent? hparent) hlength

/-- Below a directory that is still to be made, none can be made. -/
theorem makeDirectory_eq_notFound (hroute : routeOf path = .ok route)
    (hparent : path.parent? = some parent) (hreaches : parent.Reaches above)
    (hmake : disk.makeDirectory above = .ok made) :
    disk.makeDirectory path = .error .notFound := by
  obtain ⟨aboveRoute, directory, name, haboveRoute, hdestination, hnone, -⟩ :=
    makeDirectory_eq_ok_iff.mp hmake
  obtain ⟨-, hne, -, rfl⟩ := routeOf_eq_ok_iff.mp haboveRoute
  obtain ⟨-, -, -, rfl⟩ := routeOf_eq_ok_iff.mp hroute
  obtain ⟨last, hlast, hlastSteps⟩ := Path.steps_of_parent? hparent
  obtain ⟨middle, hmiddle⟩ := hreaches.exists_steps_eq
  have habsolute : path.isAbsolute = above.isAbsolute :=
    (hreaches.of_parent? hparent).isAbsolute_eq (by simpa using hne)
  have hsteps : path.steps.dropLast = above.steps ++ (middle ++ last).dropLast := by
    rw [hlastSteps, hmiddle, List.append_assoc, List.dropLast_append_of_ne_nil (by simp [hlast])]
  have hfollow := (destination_eq_ok hdestination).2
  rw [start] at hfollow
  rw [makeDirectory, hroute]
  simp only [bind, Except.bind, destination, start]
  rw [hsteps, habsolute, follow_append, hfollow]
  cases (middle ++ last).dropLast with
  | nil => simp [Except.bind, follow, hnone]; rfl
  | cons step steps => simp [Except.bind, follow, hnone]

theorem canFurnish_iff_of_parent? (hparent : path.parent? = some parent)
    (hroute : routeOf path = .ok route) {error : FileError}
    (hmake : disk.makeDirectory path = .error error) :
    disk.CanFurnish path ↔ disk.CanFurnish parent := by
  constructor
  · rintro ⟨-, above, made, hreaches, habove⟩
    rcases hreaches.cases with rfl | ⟨next, hnext, hreaches⟩
    · rw [hmake] at habove
      cases habove
    · obtain rfl : parent = next := Option.some.inj (hparent.symm.trans hnext)
      have hne : parent.text.isEmpty = false := by
        obtain ⟨aboveRoute, -, -, haboveRoute, -⟩ := makeDirectory_eq_ok_iff.mp habove
        obtain ⟨-, haboveNe, -⟩ := routeOf_eq_ok_iff.mp haboveRoute
        simpa using hreaches.text_ne_empty (by simpa using haboveNe)
      exact ⟨exists_routeOf_of_parent? hroute hparent hne, above, made, hreaches, habove⟩
  · rintro ⟨-, above, made, hreaches, habove⟩
    exact ⟨⟨route, hroute⟩, above, made, hreaches.of_parent? hparent, habove⟩

/-- The first directory that can be made decides: making those below it fails because it is missing,
and any other failure ends the attempt. -/
theorem not_canFurnish {error : FileError} (hmake : disk.makeDirectory path = .error error)
    (hne : error = .notFound → path.parent? = none) : ¬disk.CanFurnish path := by
  rintro ⟨⟨route, hroute⟩, above, made, hreaches, habove⟩
  rcases hreaches.cases with rfl | ⟨parent, hparent, hreaches⟩
  · rw [hmake] at habove
    cases habove
  · have hnotFound := makeDirectory_eq_notFound hroute hparent hreaches habove
    rw [hne (Except.error.inj (hmake.symm.trans hnotFound))] at hparent
    cases hparent

/-- Nothing is gained by making a directory again below one where nothing was made. -/
theorem settle_none_ne_iff {count : Nat} {error : FileError}
    (hfurnishes : disk.Furnishes parent places other)
    (hmake : disk.makeDirectory path = .error error) :
    (settle .none count other path (Faults.none.run (.remake count) (other.makeDirectory path))).2 ≠
      disk ↔ other ≠ disk := by
  cases hremake : other.makeDirectory path with
  | error error => exact Iff.rfl
  | ok made =>
      refine iff_of_true ?_ ?_
      · obtain ⟨place, -, rfl, -⟩ := makeDirectory_eq_ok hremake
        intro heq
        have hlength := hfurnishes.length_le
        rw [← heq] at hlength
        simp [settle, Faults.run, Faults.none, add] at hlength
      · rintro rfl
        rw [hmake] at hremake
        cases hremake

/-- When no call fails without a reason on the disk, a directory is made just when one can be. -/
theorem makeDirectories_none_ne_iff {count : Nat} (hcount : path.text.length < count) :
    (makeDirectories .none count disk path).2 ≠ disk ↔ disk.CanFurnish path := by
  have hrun (call : Call) (disk : Disk) (path : Path) :
      Faults.none.run call (disk.makeDirectory path) = disk.makeDirectory path := rfl
  induction count generalizing path with
  | zero => exact absurd hcount (Nat.not_lt_zero _)
  | succ count ih =>
      rw [makeDirectories, hrun]
      split_ifs with hempty
      · refine iff_of_false (fun hne => hne rfl) ?_
        rintro ⟨⟨route, hroute⟩, -⟩
        rw [(routeOf_eq_ok_iff.mp hroute).2.1] at hempty
        cases hempty
      · split
        · rename_i hmake
          cases hparent : path.parent? with
          | none => exact iff_of_false (fun hne => hne rfl) (not_canFurnish hmake fun _ => hparent)
          | some parent =>
              obtain ⟨route, hroute⟩ := exists_routeOf_of_makeDirectory hmake hempty
              have hlength := Path.length_lt_of_parent? hparent
              have hparentIff : (makeDirectories .none count disk parent).2 ≠ disk ↔
                  disk.CanFurnish path :=
                (ih (by omega)).trans (canFurnish_iff_of_parent? hparent hroute hmake).symm
              obtain ⟨places, hfurnishes⟩ :=
                exists_furnishes_makeDirectories .none count disk parent
              dsimp only
              split
              · rename_i heq
                rw [heq] at hfurnishes hparentIff
                exact (settle_none_ne_iff hfurnishes hmake).trans hparentIff
              · rename_i heq
                rwa [heq] at hparentIff
        · rename_i hnotFound
          cases hmake : disk.makeDirectory path with
          | ok made =>
              obtain ⟨route, directory, name, hroute, -, -, rfl⟩ := makeDirectory_eq_ok_iff.mp hmake
              exact iff_of_true (add_ne_self _ _) ⟨⟨route, hroute⟩, path, _, .refl path, hmake⟩
          | error error =>
              refine iff_of_false (fun hne => hne rfl) (not_canFurnish hmake ?_)
              rintro rfl
              exact absurd hmake hnotFound

/-! ### Writing to any path -/

variable {text : String}

theorem writeNew_eq_directory (faults : Faults) (disk : Disk) (path : Path) (text : String) :
    writeNew faults disk path text =
      if look faults disk path then (.ok .alreadyExists, disk)
      else
        match makeDirectories faults (path.directory.text.length + 1) disk path.directory with
        | (.ok (), other) => persist faults other (stagingDirectory path) path text
        | (.error error, other) => (.error error, other) := by
  rw [writeNew, Path.directory, stagingDirectory]
  split_ifs with hlook
  · rfl
  · cases path.parent? with
    | none => rfl
    | some parent =>
        dsimp only [Option.getD_some]
        split_ifs with hempty
        · rw [makeDirectories, if_pos hempty]
        · rfl

/-- What is staged is published, or it is gone again. -/
theorem persist_effect (faults : Faults) (disk : Disk) (directory path : Path) (text : String) :
    ((persist faults disk directory path text).1 = .ok .written → ∃ place,
      disk.entry? place = none ∧
      (persist faults disk directory path text).2 = disk.add place (.file text.toUTF8) ∧
      (persist faults disk directory path text).2.find path =
        .ok (place, .file text.toUTF8)) ∧
    ((persist faults disk directory path text).1 ≠ .ok .written →
      (persist faults disk directory path text).2 = disk) := by
  rw [persist]
  split
  · exact ⟨fun hwritten => (by cases hwritten), fun _ => rfl⟩
  · rename_i staged added hrun
    obtain ⟨hnone, rfl, -⟩ := stage_eq_ok (run_eq_ok hrun)
    split
    · exact ⟨fun hwritten => (by cases hwritten), fun _ => remove_add hnone _⟩
    · rw [fill_add hnone]
      dsimp only
      split
      · rename_i hpublish
        obtain ⟨place, hfree, -, rfl, hfind⟩ := publish_eq_ok hnone (run_eq_ok hpublish)
        exact ⟨fun _ => ⟨place, hfree, rfl, hfind⟩, fun hne => absurd rfl hne⟩
      · exact ⟨fun hwritten => (by cases hwritten), fun _ => remove_add hnone _⟩
      · exact ⟨fun hwritten => (by cases hwritten), fun _ => remove_add hnone _⟩

theorem not_canFurnish_of_find (hfind : disk.find path = .ok (place, .directory)) :
    ¬disk.CanFurnish path := by
  intro hcan
  exact makeDirectories_none_ne_iff (Nat.lt_succ_self _) |>.mpr hcan
    (makeDirectories_snd .none _ hfind)

theorem not_canFurnish_directory (hcontains : disk.contains path = true) :
    ¬disk.CanFurnish path.directory := by
  obtain ⟨place, entry, hfind⟩ := contains_eq_true_iff.mp hcontains
  cases hempty : path.directory.text.isEmpty with
  | true =>
      rintro ⟨⟨route, hroute⟩, -⟩
      rw [(routeOf_eq_ok_iff.mp hroute).2.1] at hempty
      cases hempty
  | false =>
      have hparent : path.parent? = some path.directory := by
        rw [Path.directory] at hempty ⊢
        cases hparent : path.parent? with
        | none => simp [hparent] at hempty
        | some parent => rfl
      obtain ⟨above, habove⟩ := exists_find_parent hfind hparent hempty
      exact not_canFurnish_of_find habove

/-! ### Main result -/

/-- **A write that is not made leaves nothing but directories.** Whatever fails, the disk has new
directories on the way to the path, none if the directory of the path is there, and besides them the
new file or nothing. When no call fails without a reason on the disk, a write that is not made
leaves the disk as it was just when no directory on the way could be made. -/
theorem directories_left_of_writeNew (disk : Disk) (path : Path) (text : String) :
    (∀ faults : Faults, ∃ places furnished,
      disk.Furnishes path.directory places furnished ∧
      ((∃ place, disk.find path.directory = .ok (place, .directory)) → furnished = disk) ∧
      ((writeNew faults disk path text).1 = .ok .written → ∃ place,
        furnished.entry? place = none ∧
        (writeNew faults disk path text).2 = furnished.add place (.file text.toUTF8) ∧
        (writeNew faults disk path text).2.find path = .ok (place, .file text.toUTF8)) ∧
      ((writeNew faults disk path text).1 ≠ .ok .written →
        (writeNew faults disk path text).2 = furnished)) ∧
    ((writeNew .none disk path text).1 ≠ .ok .written →
      ((writeNew .none disk path text).2 = disk ↔ ¬disk.CanFurnish path.directory)) := by
  refine ⟨fun faults => ?_, fun hresult => ?_⟩
  · rw [writeNew_eq_directory]
    split_ifs with hlook
    · exact ⟨[], disk, .refl _ _, fun _ => rfl, nofun, fun _ => rfl⟩
    · obtain ⟨places, hfurnishes⟩ := exists_furnishes_makeDirectories faults
        (path.directory.text.length + 1) disk path.directory
      have hkept : (∃ place, disk.find path.directory = .ok (place, .directory)) →
          (makeDirectories faults (path.directory.text.length + 1) disk path.directory).2 = disk :=
        fun ⟨place, hfind⟩ => makeDirectories_snd faults _ hfind
      refine ⟨places, _, hfurnishes, hkept, ?_⟩
      split
      · rename_i heq
        rw [heq]
        exact persist_effect faults _ _ path text
      · rename_i heq
        rw [heq]
        exact ⟨nofun, fun _ => rfl⟩
  · have hmade : (makeDirectories .none (path.directory.text.length + 1) disk path.directory).2 ≠
        disk ↔ disk.CanFurnish path.directory :=
      makeDirectories_none_ne_iff (Nat.lt_succ_self _)
    rw [writeNew_eq_directory] at hresult ⊢
    split_ifs at hresult ⊢ with hlook
    · have hcontains : disk.contains path = true := by simpa [look, Faults.none] using hlook
      exact iff_of_true rfl (not_canFurnish_directory hcontains)
    · rw [← hmade, not_not]
      split at hresult
      · rename_i heq
        simp only [heq]
        rw [(persist_effect .none _ _ path text).2 hresult]
      · rename_i heq
        simp only [heq]

/-- The way to a file that is there can lead through a directory that is not. It is made, and stays
when the write is refused. It stays too when a path ends in a slash, which is seen at the end. -/
theorem directory_left_of_refused_write :
    let disk := ofEntries ["work"] [(⟨"b"⟩, .file "old".toUTF8)]
    (writeNew .none disk ⟨"a/../b"⟩ "new" =
        (.ok .alreadyExists, disk.addDirectories [["work", "a"]]) ∧
      disk.addDirectories [["work", "a"]] ≠ disk) ∧
    writeNew .none disk ⟨"m/x/"⟩ "new" =
        (.error .notADirectory, disk.addDirectories [["work", "m"]]) ∧
      disk.addDirectories [["work", "m"]] ≠ disk := by
  intro disk
  have hne (place : Location) : disk.addDirectories [place] ≠ disk := by
    rw [ne_eq, addDirectories_eq_self_iff]
    exact List.cons_ne_nil _ _
  let above := disk.addDirectories [["work", "a"]]
  let inside := disk.addDirectories [["work", "m"]]
  have habove : above.stage (stagingDirectory ⟨"a/../b"⟩) ⟨"a/../b"⟩ =
      .ok (["work", ".tmp0"], above.add ["work", ".tmp0"] (.file .empty)) := by
    have hroom : HasRoom above.workingDirectory ⟨"a/../b"⟩ := by decide +kernel
    rw [stage_of_hasRoom hroom]
    rfl
  have hinside : inside.stage (stagingDirectory ⟨"m/x/"⟩) ⟨"m/x/"⟩ =
      .ok (["work", "m", ".tmp0"], inside.add ["work", "m", ".tmp0"] (.file .empty)) := by
    have hroom : HasRoom inside.workingDirectory ⟨"m/x/"⟩ := by decide +kernel
    rw [stage_of_hasRoom hroom]
    rfl
  refine ⟨⟨?_, hne _⟩, ?_, hne _⟩
  · have hlook : look .none disk ⟨"a/../b"⟩ = false := rfl
    have hmake : makeDirectories .none (Path.text (Path.directory ⟨"a/../b"⟩)).length.succ disk
        (Path.directory ⟨"a/../b"⟩) = (.ok (), above) := rfl
    rw [writeNew_eq_directory, hlook, hmake]
    dsimp only
    rw [persist, run_none, habove]
    rfl
  · have hlook : look .none disk ⟨"m/x/"⟩ = false := rfl
    have hmake : makeDirectories .none (Path.text (Path.directory ⟨"m/x/"⟩)).length.succ disk
        (Path.directory ⟨"m/x/"⟩) = (.ok (), inside) := rfl
    rw [writeNew_eq_directory, hlook, hmake]
    dsimp only
    rw [persist, run_none, hinside]
    rfl

end Disk

end StoryKnobs

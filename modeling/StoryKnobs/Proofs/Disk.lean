import Mathlib.Data.List.Nodup
import Mathlib.Data.String.Basic
import StoryKnobs.FileTree.Disk
import StoryKnobs.Proofs.Paths

/-!
# Writing to a disk

Following a path only asks which places are directories, so it leads to the same place on two disks
with the same directories. A staged file is at a place where nothing was: once it is removed, the
disk is as before, and once it is published, the disk has one more file.
-/

namespace StoryKnobs.Disk

variable {disk other : Disk} {location : Location} {path : Path} {route : Route}

/-! ### Entries -/

theorem entry?_eq_lookup (hne : location ≠ []) :
    disk.entry? location = disk.entries.lookup location := by
  obtain ⟨name, names, rfl⟩ := List.exists_cons_of_ne_nil hne
  rfl

theorem ne_nil_of_entry?_eq_none (hnone : disk.entry? location = none) : location ≠ [] := by
  rintro rfl
  cases hnone

theorem mem_entries (hne : location ≠ []) {entry : Entry}
    (hentry : disk.entry? location = some entry) : (location, entry) ∈ disk.entries := by
  rw [entry?_eq_lookup hne] at hentry
  obtain ⟨before, after, hentries, -⟩ := List.lookup_eq_some_iff.mp hentry
  simp [hentries]

theorem entry?_add (hnone : disk.entry? location = none) (entry : Entry) (place : Location) :
    Disk.entry? (disk.add location entry) place =
      if place = location then some entry else disk.entry? place := by
  cases place with
  | nil =>
      rw [if_neg (ne_nil_of_entry?_eq_none hnone).symm]
      rfl
  | cons name names =>
      rw [entry?_eq_lookup (by simp), entry?_eq_lookup (by simp), add, List.lookup_cons]
      by_cases heq : name :: names = location
      · rw [if_pos heq, beq_iff_eq.mpr heq]
      · rw [if_neg heq, beq_eq_false_iff_ne.mpr heq]

theorem remove_add (hnone : disk.entry? location = none) (entry : Entry) :
    (disk.add location entry).remove location = disk := by
  have hkeep : disk.entries.filter (·.1 != location) = disk.entries := by
    rw [List.filter_eq_self]
    rintro ⟨place, found⟩ hmem
    rw [entry?_eq_lookup (ne_nil_of_entry?_eq_none hnone), List.lookup_eq_none_iff] at hnone
    simpa [bne, BEq.comm] using hnone ⟨place, found⟩ hmem
  simp only [add, remove]
  rw [List.filter_cons_of_neg (by simp), hkeep]

theorem fill_add (hnone : disk.entry? location = none) (entry : Entry) (text : String) :
    (disk.add location entry).fill location text = disk.add location (.file text.toUTF8) := by
  rw [fill, remove_add hnone]

/-! ### Names of staged files -/

theorem stagedName_injective : Function.Injective stagedName := by
  intro number other heq
  have hdigits : Nat.toDigits 10 number = Nat.toDigits 10 other := by
    have hlist := congrArg String.toList heq
    simpa [stagedName, Nat.toString_eq_repr] using hlist
  rw [← Nat.ofDigitChars_ten_toDigits (n := number), hdigits, Nat.ofDigitChars_ten_toDigits]

/-- One of the names is free: there are more of them than entries, and only one is reserved. -/
theorem exists_free_name (disk : Disk) (location : Location) (reserved : Option String) :
    ∃ name ∈ (List.range (disk.entries.length + 2)).map stagedName,
      some name ≠ reserved ∧ disk.entry? (location ++ [name]) = none := by
  by_contra hnone
  simp only [not_exists, not_and] at hnone
  let places := (List.range (disk.entries.length + 2)).map fun number =>
    location ++ [stagedName number]
  have hnodup : places.Nodup := by
    have hinjective : Function.Injective fun number => location ++ [stagedName number] :=
      fun number other heq => stagedName_injective (by simpa using heq)
    exact List.Nodup.map hinjective List.nodup_range
  have hsubset : places ⊆ (location ++ [reserved.getD ""]) :: disk.entries.map (·.1) := by
    intro place hplace
    obtain ⟨number, hnumber, rfl⟩ := List.mem_map.mp hplace
    by_cases hreserved : some (stagedName number) = reserved
    · simp [← hreserved]
    · have hentry := hnone _ (List.mem_map_of_mem hnumber) hreserved
      obtain ⟨found, hfound⟩ := Option.ne_none_iff_exists'.mp hentry
      exact List.mem_cons_of_mem _ (List.mem_map_of_mem (mem_entries (by simp) hfound))
  have hlength := hnodup.length_le_of_subset hsubset
  simp [places] at hlength

theorem freshName_spec (disk : Disk) (location : Location) (reserved : Option String) :
    some (disk.freshName location reserved) ≠ reserved ∧
      disk.entry? (location ++ [disk.freshName location reserved]) = none := by
  obtain ⟨free, hmem, hreserved, hentry⟩ := exists_free_name disk location reserved
  cases hfind : ((List.range (disk.entries.length + 2)).map stagedName).find? (fun name =>
      some name != reserved && (disk.entry? (location ++ [name])).isNone) with
  | none =>
      rw [List.find?_eq_none] at hfind
      exact absurd (by simp [hreserved, hentry]) (hfind free hmem)
  | some name =>
      have hname : disk.freshName location reserved = name := by
        simp only [freshName, hfind, Option.getD_some]
      simpa [hname] using List.find?_some hfind

/-! ### Following paths -/

theorem routeOf_eq_ok_iff : routeOf path = .ok route ↔
    path.text.toList.contains '\x00' = false ∧ path.text.isEmpty = false ∧
      path.text.utf8ByteSize < pathLimit ∧
        route = ⟨path.isAbsolute, path.steps, path.text.toList.getLast? == some '/'⟩ := by
  rw [routeOf]
  split_ifs with hnul hempty hlong
  · simp only [hnul, Bool.true_eq_false, false_and]
  · simp [hempty]
  · simp [Nat.not_lt.mpr hlong]
  · rw [Except.ok.injEq, eq_comm]
    simp only [Bool.not_eq_true] at hnul hempty
    simp only [hnul, hempty, Nat.lt_of_not_le hlong, true_and]

theorem routeOf_ne_alreadyExists : routeOf path ≠ .error .alreadyExists := by
  rw [routeOf]
  split_ifs <;> simp

theorem follow_append (location : Location) (names others : List String) :
    disk.follow location (names ++ others) =
      (disk.follow location names).bind fun place => disk.follow place others := by
  induction names generalizing location with
  | nil => rfl
  | cons name names ih =>
      rw [List.cons_append, follow, follow]
      split
      · rfl
      · rfl
      · split_ifs
        · exact ih _
        · exact ih _
        · rfl
        · exact ih _

theorem entry?_of_follow {names : List String} (hne : names ≠ []) {place : Location}
    (hfollow : disk.follow location names = .ok place) :
    disk.entry? location = some .directory := by
  obtain ⟨name, names, rfl⟩ := List.exists_cons_of_ne_nil hne
  rw [follow] at hfollow
  split at hfollow
  · cases hfollow
  · cases hfollow
  · assumption

structure DirectoriesIn (disk other : Disk) : Prop where
  workingDirectory : other.workingDirectory = disk.workingDirectory
  directory : ∀ location, disk.entry? location = some .directory →
    other.entry? location = some .directory

theorem DirectoriesIn.start_eq (hin : DirectoriesIn disk other) (route : Route) :
    other.start route = disk.start route := by
  rw [start, start, hin.workingDirectory]

theorem DirectoriesIn.follow_eq (hin : DirectoriesIn disk other) {names : List String}
    {place : Location} (hfollow : disk.follow location names = .ok place) :
    other.follow location names = .ok place := by
  induction names generalizing location with
  | nil => exact hfollow
  | cons name names ih =>
      have hentry := entry?_of_follow (by simp) hfollow
      rw [follow, hentry] at hfollow
      rw [follow, hin.directory location hentry]
      dsimp only at hfollow ⊢
      split_ifs at hfollow ⊢
      · exact ih hfollow
      · exact ih hfollow
      · exact ih hfollow

theorem directoriesIn_add (hnone : disk.entry? location = none) (entry : Entry) :
    DirectoriesIn disk (disk.add location entry) where
  workingDirectory := rfl
  directory place hplace := by
    have hne : place ≠ location := by
      rintro rfl
      simp [hnone] at hplace
    rw [entry?_add hnone, if_neg hne, hplace]

theorem directoriesIn_of_add_file (hnone : disk.entry? location = none) (bytes : ByteArray) :
    DirectoriesIn (disk.add location (.file bytes)) disk where
  workingDirectory := rfl
  directory place hplace := by
    rw [entry?_add hnone] at hplace
    split_ifs at hplace
    · cases hplace
    · exact hplace

/-- The steps of a computation that may fail have all succeeded if it has. -/
theorem bind_eq_ok_iff {α β : Type} {result : Except FileError α}
    {next : α → Except FileError β} {value : β} :
    result >>= next = .ok value ↔ ∃ middle, result = .ok middle ∧ next middle = .ok value := by
  cases result with
  | error error => simp [bind, Except.bind]
  | ok middle => simp [bind, Except.bind]

theorem visit_eq_ok_iff {place : Location} {entry : Entry} :
    disk.visit place = .ok (location, entry) ↔
      place = location ∧ disk.entry? location = some entry := by
  rw [visit]
  split
  · rename_i found hfound
    rw [Except.ok.injEq, Prod.mk.injEq]
    refine and_congr_right ?_
    rintro rfl
    rw [hfound, Option.some.injEq]
  · rename_i hnone
    constructor
    · exact fun herror => nomatch herror
    · rintro ⟨rfl, hfound⟩
      exact nomatch hnone.symm.trans hfound

theorem find_eq_ok_iff {entry : Entry} : disk.find path = .ok (location, entry) ↔
    ∃ route, routeOf path = .ok route ∧
      disk.follow (disk.start route) (route.names ++ if route.closed then ["."] else []) =
        .ok location ∧ disk.entry? location = some entry := by
  simp only [find, bind_eq_ok_iff, visit_eq_ok_iff]
  constructor
  · rintro ⟨route, hroute, place, hfollow, rfl, hfound⟩
    exact ⟨route, hroute, hfollow, hfound⟩
  · rintro ⟨route, hroute, hfollow, hfound⟩
    exact ⟨route, hroute, location, hfollow, rfl, hfound⟩

theorem contains_eq_true_iff :
    disk.contains path = true ↔ ∃ location entry, disk.find path = .ok (location, entry) := by
  rw [contains]
  cases disk.find path with
  | error error => simp [Except.isOk, Except.toBool]
  | ok found => exact ⟨fun _ => ⟨found.1, found.2, rfl⟩, fun _ => rfl⟩

/-- What is above something is a directory. -/
theorem exists_find_parent {parent : Path} {entry : Entry}
    (hfind : disk.find path = .ok (location, entry)) (hparent : path.parent? = some parent)
    (hne : parent.text.isEmpty = false) :
    ∃ above, disk.find parent = .ok (above, .directory) := by
  obtain ⟨route, hroute, hfollow, -⟩ := find_eq_ok_iff.mp hfind
  obtain ⟨hnul, -, hlength, rfl⟩ := routeOf_eq_ok_iff.mp hroute
  obtain ⟨rest, hrest, hsteps⟩ := Path.steps_of_parent? hparent
  have habsolute := Path.isAbsolute_of_parent? hparent (by simpa using hne)
  have hparentRoute : routeOf parent =
      .ok ⟨parent.isAbsolute, parent.steps, parent.text.toList.getLast? == some '/'⟩ := by
    refine routeOf_eq_ok_iff.mpr ⟨?_, hne, ?_, rfl⟩
    · rw [List.contains_eq_mem, decide_eq_false_iff_not] at hnul ⊢
      exact fun hmem => hnul ((Path.isPrefix_of_parent? hparent).subset hmem)
    · exact Nat.lt_of_le_of_lt (Path.utf8ByteSize_le_of_parent? hparent) hlength
  rw [hsteps, List.append_assoc, follow_append] at hfollow
  obtain ⟨above, habove, hbelow⟩ := bind_eq_ok_iff.mp hfollow
  have hdirectory := entry?_of_follow (by simp [hrest]) hbelow
  refine ⟨above, find_eq_ok_iff.mpr ⟨_, hparentRoute, ?_, hdirectory⟩⟩
  rw [start] at habove
  rw [start, habsolute, follow_append, habove]
  split_ifs
  · simp [Except.bind, follow, hdirectory]
  · rfl

/-! ### Destinations -/

theorem destination_eq_ok {directory : Location} {name : String}
    (hdestination : disk.destination route = .ok (directory, some name)) :
    route.names.getLast? = some name ∧
      disk.follow (disk.start route) route.names = .ok (directory ++ [name]) := by
  rw [destination, bind_eq_ok_iff] at hdestination
  obtain ⟨place, hfollow, hplace⟩ := hdestination
  split at hplace
  · cases hplace
  · cases hplace
  · rename_i hentry
    split at hplace
    · cases hplace
    · rename_i hlast
      split_ifs at hplace with hdots hlong
      · cases hplace
      · cases hplace
        simp only [Bool.or_eq_true, beq_iff_eq, not_or] at hdots
        have hnames : route.names = route.names.dropLast ++ [name] :=
          (List.dropLast_append_getLast? name hlast).symm
        refine ⟨hlast, ?_⟩
        rw [hnames, follow_append, hfollow]
        simp only [Except.bind, follow, hentry, beq_iff_eq, hdots.1, hdots.2, hlong, if_false]

/-- A path without a last name ends in `.` or `..`, or has no steps. -/
theorem getLast?_of_destination {directory : Location}
    (hdestination : disk.destination route = .ok (directory, none)) :
    ∀ name, route.names.getLast? = some name → name = "." ∨ name = ".." := by
  intro name hname
  rw [destination, bind_eq_ok_iff] at hdestination
  obtain ⟨place, -, hplace⟩ := hdestination
  rw [hname] at hplace
  dsimp only at hplace
  split at hplace
  · cases hplace
  · cases hplace
  · split_ifs at hplace with hdots hlong
    · simpa using hdots
    · cases hplace

/-- Something is at the destination of a path that leads to something. -/
theorem entry?_destination_ne_none {directory place : Location} {name : String} {entry : Entry}
    (hroute : routeOf path = .ok route) (hfind : disk.find path = .ok (place, entry))
    (hdestination : disk.destination route = .ok (directory, some name)) :
    disk.entry? (directory ++ [name]) ≠ none := by
  obtain ⟨other, hother, hfollow, hentry⟩ := find_eq_ok_iff.mp hfind
  obtain rfl : route = other := Except.ok.inj (hroute.symm.trans hother)
  rw [follow_append, (destination_eq_ok hdestination).2, Except.bind] at hfollow
  split_ifs at hfollow
  · simp [entry?_of_follow (by simp) hfollow]
  · obtain rfl : directory ++ [name] = place := Except.ok.inj hfollow
    simp [hentry]

theorem follow_ne_alreadyExists (location : Location) (names : List String) :
    disk.follow location names ≠ .error .alreadyExists := by
  induction names generalizing location with
  | nil => simp [follow]
  | cons name names ih =>
      rw [follow]
      split
      · simp
      · simp
      · split_ifs
        · exact ih _
        · exact ih _
        · simp
        · exact ih _

theorem destination_ne_alreadyExists : disk.destination route ≠ .error .alreadyExists := by
  intro hdestination
  rw [destination] at hdestination
  cases hfollow : disk.follow (disk.start route) route.names.dropLast with
  | error error =>
      rw [hfollow] at hdestination
      obtain rfl : error = .alreadyExists := Except.error.inj hdestination
      exact follow_ne_alreadyExists _ _ hfollow
  | ok place =>
      rw [hfollow] at hdestination
      simp only [bind, Except.bind] at hdestination
      split at hdestination
      · cases hdestination
      · cases hdestination
      · split at hdestination
        · cases hdestination
        · split_ifs at hdestination <;> cases hdestination

/-! ### Making directories -/

theorem run_none {α : Type} (call : Call) (result : Except FileError α) :
    Faults.none.run call result = result := rfl

theorem run_eq_ok {α : Type} {faults : Faults} {call : Call} {result : Except FileError α}
    {value : α} (hrun : faults.run call result = .ok value) : result = .ok value := by
  rw [Faults.run] at hrun
  split at hrun
  · cases hrun
  · exact hrun

theorem makeDirectory_ne_ok {place : Location} {entry : Entry}
    (hfind : disk.find path = .ok (place, entry)) : disk.makeDirectory path ≠ .ok other := by
  intro hmake
  rw [makeDirectory, bind_eq_ok_iff] at hmake
  obtain ⟨route, hroute, hmake⟩ := hmake
  rw [bind_eq_ok_iff] at hmake
  obtain ⟨⟨directory, last⟩, hdestination, hmake⟩ := hmake
  cases last with
  | none => cases hmake
  | some name =>
      have hentry := entry?_destination_ne_none hroute hfind hdestination
      dsimp only at hmake
      split at hmake
      · cases hmake
      · rename_i hnone
        exact hentry hnone

theorem settle_snd {faults : Faults} {level : Nat} {made : Except FileError Disk}
    (hmade : ∀ result, made ≠ .ok result) : (settle faults level disk path made).2 = disk := by
  cases made with
  | error error => rfl
  | ok result => exact absurd rfl (hmade result)

/-- No directory is made where there is one, whatever fails. -/
theorem makeDirectories_snd (faults : Faults) (count : Nat) {place : Location}
    (hfind : disk.find path = .ok (place, .directory)) :
    (makeDirectories faults count disk path).2 = disk := by
  induction count generalizing path place with
  | zero => rfl
  | succ count ih =>
      have hsettle (call : Call) :
          (settle faults count disk path (faults.run call (disk.makeDirectory path))).2 = disk :=
        settle_snd fun _ hrun => makeDirectory_ne_ok hfind (run_eq_ok hrun)
      rw [makeDirectories]
      split_ifs
      · rfl
      · split
        · split
          · rfl
          · rename_i parent hparent
            have habove : (makeDirectories faults count disk parent).2 = disk := by
              cases hempty : parent.text.isEmpty with
              | true =>
                  cases count with
                  | zero => rfl
                  | succ count => rw [makeDirectories, if_pos hempty]
              | false =>
                  obtain ⟨above, habove⟩ := exists_find_parent hfind hparent hempty
                  exact ih habove
            split
            · rename_i heq
              rw [heq] at habove
              obtain rfl := habove
              exact hsettle _
            · rename_i heq
              rw [heq] at habove
              exact habove
        · exact hsettle _

/-! ### Publishing -/

inductive Written (disk : Disk) (path : Path) (text : String) :
    Except FileError WriteOutcome × Disk → Prop where
  /-- There is one more file, to which the path leads, and nothing else has changed. -/
  | written (location : Location) (hnone : disk.entry? location = none)
      (habsent : disk.contains path = false)
      (hfind : (disk.add location (.file text.toUTF8)).find path =
        .ok (location, .file text.toUTF8)) :
      Written disk path text (.ok .written, disk.add location (.file text.toUTF8))
  | alreadyExists (hpresent : disk.contains path = true) :
      Written disk path text (.ok .alreadyExists, disk)
  | failed (error : FileError) : Written disk path text (.error error, disk)

/-- The path by which a text for a path is staged is not too long. -/
def HasRoom (home : Location) (path : Path) : Prop :=
  (stagedPath home (stagingDirectory path)).text.utf8ByteSize < pathLimit

instance (home : Location) (path : Path) : Decidable (HasRoom home path) :=
  inferInstanceAs (Decidable (_ < _))

theorem stage_of_hasRoom (hroom : HasRoom disk.workingDirectory path) :
    disk.stage (stagingDirectory path) path = do
      match ← disk.find (stagingDirectory path) with
      | (_, .file _) => throw .notADirectory
      | (location, .directory) =>
        let staged := location ++ [disk.freshName location path.fileName?]
        return (staged, disk.add staged (.file .empty)) := by
  rw [stage]
  exact if_neg (Nat.not_le.mpr hroom)

theorem stage_eq_ok {directory : Path} {staged : Location}
    (hstage : disk.stage directory path = .ok (staged, other)) :
    disk.entry? staged = none ∧ other = disk.add staged (.file .empty) ∧
      ∀ name, path.fileName? = some name → ∀ place, staged ≠ place ++ [name] := by
  rw [stage] at hstage
  split_ifs at hstage with hlong
  · cases hstage
  obtain ⟨⟨place, found⟩, -, hplace⟩ := bind_eq_ok_iff.mp hstage
  cases found with
  | file bytes => cases hplace
  | directory =>
      cases hplace
      obtain ⟨hreserved, hnone⟩ := freshName_spec disk place path.fileName?
      refine ⟨hnone, rfl, ?_⟩
      intro name hname other heq
      obtain ⟨-, hlast⟩ := List.append_inj' heq rfl
      exact hreserved ((congrArg some (List.cons.inj hlast).1).trans hname.symm)

section

variable {above name : List Char} {staged : Location} {bytes : ByteArray}

theorem publish_eq_ok (hnone : disk.entry? staged = none)
    (hpublish : (disk.add staged (.file bytes)).publish staged path = .ok other) :
    ∃ location, disk.entry? location = none ∧ disk.contains path = false ∧
      other = disk.add location (.file bytes) ∧ other.find path = .ok (location, .file bytes) := by
  rw [publish, bind_eq_ok_iff] at hpublish
  obtain ⟨route, hroute, hpublish⟩ := hpublish
  rw [bind_eq_ok_iff] at hpublish
  obtain ⟨⟨directory, last⟩, hdestination, hpublish⟩ := hpublish
  cases last with
  | none => cases hpublish
  | some last =>
      dsimp only at hpublish
      split at hpublish
      · cases hpublish
      · rename_i hfree
        split_ifs at hpublish with hclosed
        have hentry : disk.entry? (directory ++ [last]) = none := by
          rw [entry?_add hnone] at hfree
          split_ifs at hfree
          exact hfree
        have hfollow := (destination_eq_ok hdestination).2
        have hother : other = disk.add (directory ++ [last]) (.file bytes) := by
          rw [remove_add hnone, entry?_add hnone, if_pos rfl] at hpublish
          exact (Except.ok.inj hpublish).symm
        have hin := directoriesIn_of_add_file hnone bytes
        have hback := hin.follow_eq hfollow
        refine ⟨directory ++ [last], hentry, ?_, hother, ?_⟩
        · by_contra hcontains
          obtain ⟨place, entry, hfind⟩ := contains_eq_true_iff.mp (by simpa using hcontains)
          obtain ⟨found, hfound, hplace, hplaceEntry⟩ := find_eq_ok_iff.mp hfind
          obtain rfl : route = found := Except.ok.inj (hroute.symm.trans hfound)
          rw [← hin.start_eq] at hback
          rw [if_neg hclosed, List.append_nil, hback] at hplace
          obtain rfl := Except.ok.inj hplace
          rw [hentry] at hplaceEntry
          cases hplaceEntry
        · rw [hother]
          refine find_eq_ok_iff.mpr ⟨route, hroute, ?_, ?_⟩
          · rw [if_neg hclosed, List.append_nil]
            exact (directoriesIn_add hentry _).follow_eq hback
          · rw [entry?_add hentry, if_pos rfl]

/-- A staged file with a name other than the last one of its path is not published only because
something is there if something is. -/
theorem contains_of_publish (hname : Path.IsName name) (habove : Path.Above above)
    (hpath : path.text.toList = above ++ name) (hnone : disk.entry? staged = none)
    (hstaged : ∀ place, staged ≠ place ++ [String.ofList name])
    (hpublish : (disk.add staged (.file bytes)).publish staged path = .error .alreadyExists) :
    disk.contains path = true := by
  cases hroute : routeOf path with
  | error error =>
      rw [publish, hroute] at hpublish
      obtain rfl : error = .alreadyExists := Except.error.inj hpublish
      exact absurd hroute routeOf_ne_alreadyExists
  | ok route =>
      obtain ⟨-, -, -, hrouteEq⟩ := routeOf_eq_ok_iff.mp hroute
      have hlast : route.names.getLast? = some (String.ofList name) := by
        rw [hrouteEq]
        exact hname.getLast?_steps habove hpath
      have hclosed : ¬route.closed = true := by
        rw [hrouteEq]
        simpa using hname.getLast?_ne_slash hpath
      rw [publish, hroute] at hpublish
      simp only [bind, Except.bind] at hpublish
      cases hdestination : (disk.add staged (.file bytes)).destination route with
      | error error =>
          rw [hdestination] at hpublish
          obtain rfl : error = .alreadyExists := Except.error.inj hpublish
          exact absurd hdestination destination_ne_alreadyExists
      | ok found =>
          obtain ⟨directory, last⟩ := found
          cases last with
          | none =>
              rcases getLast?_of_destination hdestination _ hlast with hdot | hdots
              · exact absurd hdot hname.ofList_ne_current
              · exact absurd hdots hname.ofList_ne_parent
          | some last =>
              obtain ⟨hfound, hfollow⟩ := destination_eq_ok hdestination
              obtain rfl : String.ofList name = last :=
                Option.some.inj (hlast.symm.trans hfound)
              rw [hdestination] at hpublish
              dsimp only at hpublish
              split at hpublish
              · rename_i entry hentry
                rw [entry?_add hnone, if_neg (hstaged directory).symm] at hentry
                refine contains_eq_true_iff.mpr ⟨_, entry, find_eq_ok_iff.mpr
                  ⟨route, hroute, ?_, hentry⟩⟩
                rw [if_neg hclosed, List.append_nil]
                exact (directoriesIn_of_add_file hnone bytes).follow_eq hfollow
              · rw [if_neg hclosed] at hpublish
                cases hpublish

theorem persist_written (faults : Faults) (directory : Path) (text : String)
    (hname : Path.IsName name) (habove : Path.Above above)
    (hpath : path.text.toList = above ++ name) :
    Written disk path text (persist faults disk directory path text) := by
  rw [persist]
  split
  · exact .failed _
  · rename_i staged added hrun
    obtain ⟨hnone, rfl, hreserved⟩ := stage_eq_ok (run_eq_ok hrun)
    have hstaged := hreserved _ (hname.fileName?_eq habove hpath)
    split
    · rw [remove_add hnone]
      exact .failed _
    · rw [fill_add hnone]
      dsimp only
      split
      · rename_i hpublish
        obtain ⟨location, hfree, habsent, rfl, hfind⟩ :=
          publish_eq_ok hnone (run_eq_ok hpublish)
        exact .written location hfree habsent hfind
      · rename_i hpublish
        rw [remove_add hnone]
        refine .alreadyExists ?_
        rw [Faults.run] at hpublish
        split at hpublish
        · rename_i error hfault
          obtain rfl : error = .alreadyExists := Except.error.inj hpublish
          exact absurd hfault faults.publish_ne
        · exact contains_of_publish hname habove hpath hnone hstaged hpublish
      · rw [remove_add hnone]
        exact .failed _

/-- **Writing a new file.** If the directory of a path is there, writing to the path makes one file
or none, and nothing else changes, whatever fails. -/
theorem writeNew_written (faults : Faults) (text : String) (hname : Path.IsName name)
    (habove : Path.Above above) (hpath : path.text.toList = above ++ name)
    (hparent : ∀ parent, path.parent? = some parent → parent.text.isEmpty = false →
      ∃ place, disk.find parent = .ok (place, .directory)) :
    Written disk path text (writeNew faults disk path text) := by
  rw [writeNew]
  split_ifs with hlook
  · rw [look, Bool.and_eq_true] at hlook
    exact .alreadyExists hlook.2
  · split
    · exact persist_written faults _ text hname habove hpath
    · rename_i parent hparentEq
      split_ifs with hempty
      · exact persist_written faults _ text hname habove hpath
      · obtain ⟨place, hplace⟩ := hparent parent hparentEq (by simpa using hempty)
        have hmake := makeDirectories_snd faults (parent.text.length + 1) hplace
        split
        · rename_i heq
          rw [heq] at hmake
          obtain rfl := hmake
          exact persist_written faults _ text hname habove hpath
        · rename_i heq
          rw [heq] at hmake
          obtain rfl := hmake
          exact .failed _

end

end StoryKnobs.Disk

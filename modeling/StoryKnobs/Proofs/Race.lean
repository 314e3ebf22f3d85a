import StoryKnobs.Proofs.Calls

/-!
# Racing writers

At every moment the disk holds what it held at the start and what the writers have put on it: the
directories above their places, a staged file for each writer that has one, and a text at the place
of each writer that has published it. A text is only published where nothing is, so of the writers
of one place at most one publishes its text, and the text stays.
-/

namespace StoryKnobs.Disk

open Relation (ReflTransGen)

variable {ι : Type} {writers : ι → Writer} {disk : Disk} {location staged : Location}
  {entry : Entry} {phase next : Phase}

/-! ### The invariant -/

/-- What the writers ask of the disk at the start: every path is direct, no file is above its place,
and no place is above another one. -/
structure Ready (disk : Disk) (writers : ι → Writer) : Prop where
  tree : disk.IsTree
  direct : ∀ index, (writers index).path.IsDirect
  clear : ∀ index, disk.IsClear (disk.placeOf (writers index).path)
  apart : ∀ index other,
    disk.placeOf (writers index).path <+: disk.placeOf (writers other).path →
      disk.placeOf (writers index).path = disk.placeOf (writers other).path

/-- A writer stages its text next to its place, where nothing was and where no path leads. -/
structure IsStaged (disk : Disk) (writers : ι → Writer) (index : ι) (staged : Location) :
    Prop where
  free : disk.entry? staged = none
  unclaimed : ∀ other, ¬ staged <+: disk.placeOf (writers other).path
  beside : ∃ above name temporary, disk.placeOf (writers index).path = above ++ [name] ∧
    staged = above ++ [temporary]

theorem IsStaged.ne_nil {index : ι} (hstaged : IsStaged disk writers index staged) :
    staged ≠ [] := by
  rintro rfl
  exact nomatch hstaged.free

def Phase.Fits (disk : Disk) (writers : ι → Writer) (current : Disk) (index : ι) : Phase → Prop
  | .looking => True
  | .making => True
  | .staging => True
  | .filling staged => IsStaged disk writers index staged
  | .publishing staged => IsStaged disk writers index staged
  | .discarding staged result => IsStaged disk writers index staged ∧
      result = .ok .alreadyExists ∧ current.entry? (disk.placeOf (writers index).path) ≠ none
  | .finished result =>
      result = .ok .written ∧ disk.entry? (disk.placeOf (writers index).path) = none ∨
        result = .ok .alreadyExists ∧
          current.entry? (disk.placeOf (writers index).path) ≠ none

theorem Phase.Fits.mono {before current : Disk} {index : ι}
    (hfits : phase.Fits disk writers before index)
    (hkept : before.entry? (disk.placeOf (writers index).path) ≠ none →
      current.entry? (disk.placeOf (writers index).path) ≠ none) :
    phase.Fits disk writers current index := by
  cases phase with
  | looking => trivial
  | making => trivial
  | staging => trivial
  | filling staged => exact hfits
  | publishing staged => exact hfits
  | discarding staged result => exact ⟨hfits.1, hfits.2.1, hkept hfits.2.2⟩
  | finished result => exact hfits.imp_right fun hpresent => ⟨hpresent.1, hkept hpresent.2⟩

namespace Race

variable {race later : Race ι} {index first second : ι} {current : Disk}

def Puts (disk : Disk) (writers : ι → Writer) (race : Race ι) (index : ι) (location : Location)
    (entry : Entry) : Prop :=
  (race.phase index).Puts (writers index) (disk.placeOf (writers index).path) location entry

def file? (disk : Disk) (writers : ι → Writer) (race : Race ι) (index : ι) :
    Option (Location × Entry) :=
  (race.phase index).file? (writers index) (disk.placeOf (writers index).path)

def HasFinished (race : Race ι) (index : ι) : Prop :=
  ∃ result, race.phase index = .finished result

def HasWritten (race : Race ι) (index : ι) : Prop := race.phase index = .finished (.ok .written)

/-- The disk holds what it held at the start and what the writers have put on it, and every file of
theirs is of one writer only. -/
structure IsShared (disk : Disk) (writers : ι → Writer) (race : Race ι) : Prop where
  home : race.disk.workingDirectory = disk.workingDirectory
  entry?_iff : ∀ location entry, race.disk.entry? location = some entry ↔
    disk.entry? location = some entry ∨ ∃ index, race.Puts disk writers index location entry
  owner : ∀ first second location entry found,
    race.file? disk writers first = some (location, entry) →
      race.file? disk writers second = some (location, found) → first = second
  fits : ∀ index, (race.phase index).Fits disk writers race.disk index

def Others (disk : Disk) (writers : ι → Writer) (race : Race ι) (index : ι) (location : Location)
    (entry : Entry) : Prop :=
  disk.entry? location = some entry ∨
    ∃ other, other ≠ index ∧ race.Puts disk writers other location entry

theorem isShared_start (disk : Disk) (writers : ι → Writer) :
    IsShared disk writers (start disk) where
  home := rfl
  entry?_iff location entry := by simp [start, Puts, Phase.Puts, Phase.file?, Phase.isFurnished]
  owner first second location entry found hfirst := by cases hfirst
  fits index := trivial

namespace IsShared

variable (hshared : race.IsShared disk writers)

include hshared

theorem entry?_of_start (hstart : disk.entry? location = some entry) :
    race.disk.entry? location = some entry :=
  (hshared.entry?_iff location entry).mpr (.inl hstart)

theorem entry?_of_puts (index : ι) (hputs : race.Puts disk writers index location entry) :
    race.disk.entry? location = some entry :=
  (hshared.entry?_iff location entry).mpr (.inr ⟨index, hputs⟩)

theorem start_eq_none (hnone : race.disk.entry? location = none) : disk.entry? location = none := by
  cases hstart : disk.entry? location with
  | none => rfl
  | some entry =>
      rw [hshared.entry?_of_start hstart] at hnone
      cases hnone

theorem entry?_iff_others (index : ι) (location : Location) (entry : Entry) :
    race.disk.entry? location = some entry ↔
      race.Others disk writers index location entry ∨
        race.Puts disk writers index location entry := by
  rw [hshared.entry?_iff, Others, or_assoc]
  refine or_congr_right ⟨?_, ?_⟩
  · rintro ⟨other, hputs⟩
    by_cases heq : other = index
    · exact .inr (heq ▸ hputs)
    · exact .inl ⟨other, heq, hputs⟩
  · rintro (⟨other, -, hputs⟩ | hputs)
    · exact ⟨other, hputs⟩
    · exact ⟨index, hputs⟩

theorem entry?_iff_of_phase (hphase : race.phase index = phase) (location : Location)
    (entry : Entry) :
    race.disk.entry? location = some entry ↔ race.Others disk writers index location entry ∨
      phase.Puts (writers index) (disk.placeOf (writers index).path) location entry := by
  rw [← hphase]
  exact hshared.entry?_iff_others index location entry

theorem fits_of_phase (hphase : race.phase index = phase) :
    phase.Fits disk writers race.disk index := by
  rw [← hphase]
  exact hshared.fits index

theorem not_others (hstaged : IsStaged disk writers index location) {found : Entry}
    (hfile : race.file? disk writers index = some (location, found)) (entry : Entry) :
    ¬ race.Others disk writers index location entry := by
  rintro (hstart | ⟨other, hne, hputs | ⟨-, -, hbegins, -⟩⟩)
  · rw [hstaged.free] at hstart
    cases hstart
  · exact hne (hshared.owner _ _ _ _ _ hputs hfile)
  · exact hstaged.unclaimed other hbegins

/-- The file of a writer is staged next to its place, or published there. -/
theorem staged_or_published (hfile : race.file? disk writers index = some (location, entry)) :
    IsStaged disk writers index location ∨
      race.phase index = .finished (.ok .written) ∧
        location = disk.placeOf (writers index).path ∧
        entry = .file (writers index).text.toUTF8 := by
  have hfits := hshared.fits index
  rw [file?] at hfile
  generalize race.phase index = phase at hfile hfits ⊢
  cases phase with
  | looking => cases hfile
  | making => cases hfile
  | staging => cases hfile
  | filling staged =>
      cases hfile
      exact .inl hfits
  | publishing staged =>
      cases hfile
      exact .inl hfits
  | discarding staged result =>
      cases hfile
      exact .inl hfits.1
  | finished result =>
      obtain ⟨rfl, -⟩ | ⟨rfl, -⟩ := hfits
      · cases hfile
        exact .inr ⟨rfl, rfl, rfl⟩
      · cases hfile

/-- Where a path of a writer leads, the file of a writer is its text, at its place. -/
theorem published_of_file? (hfile : race.file? disk writers index = some (location, entry))
    {other : ι} (hclaimed : location <+: disk.placeOf (writers other).path) :
    race.phase index = .finished (.ok .written) ∧
      location = disk.placeOf (writers index).path ∧
        entry = .file (writers index).text.toUTF8 := by
  rcases hshared.staged_or_published hfile with hstaged | hpublished
  · exact absurd hclaimed (hstaged.unclaimed other)
  · exact hpublished

variable (hready : Ready disk writers)

include hready

theorem isClear (index : ι) : race.disk.IsClear (disk.placeOf (writers index).path) := by
  intro above bytes hbegins hne hfile
  rcases (hshared.entry?_iff above _).mp hfile with hstart | ⟨other, hputs | ⟨-, hentry, -⟩⟩
  · exact hready.clear index above bytes hbegins hne hstart
  · obtain ⟨-, rfl, -⟩ := hshared.published_of_file? hputs hbegins
    exact hne (hready.apart other index hbegins)
  · cases hentry

theorem isTree : race.disk.IsTree where
  home := by
    rw [hshared.home]
    exact hshared.entry?_of_start hready.tree.home
  above above name hentry := by
    rw [Option.ne_none_iff_exists'] at hentry
    obtain ⟨entry, hentry⟩ := hentry
    rcases (hshared.entry?_iff _ entry).mp hentry with hstart | ⟨index, hputs⟩
    · exact hshared.entry?_of_start (hready.tree.above above name (by simp [hstart]))
    · refine hshared.entry?_of_puts index (.inr ?_)
      rcases hputs with hfile | ⟨hfurnished, -, hbegins, -⟩
      · refine ⟨Phase.isFurnished_of_file? hfile, rfl, ?_⟩
        obtain ⟨front, last, temporary, hplace, hlocation⟩ : ∃ front last temporary,
            disk.placeOf (writers index).path = front ++ [last] ∧
              above ++ [name] = front ++ [temporary] := by
          rcases hshared.staged_or_published hfile with hstaged | ⟨-, hplace, -⟩
          · exact hstaged.beside
          · exact ⟨above, name, name, hplace.symm, rfl⟩
        obtain ⟨rfl, -⟩ := List.append_inj' hlocation rfl
        simp [hplace]
      · refine ⟨hfurnished, rfl, (List.prefix_append above [name]).trans hbegins, ?_⟩
        rintro rfl
        simpa using hbegins.length_le

theorem effect {reserved : Location → Prop}
    (hstep : (writers index).Step reserved (race.disk, race.phase index) (current, next)) :
    Effect (writers index) (disk.placeOf (writers index).path) reserved
      (race.disk, race.phase index) (current, next) := by
  have hplace := placeOf_eq hshared.home (writers index).path
  rw [← hplace]
  refine hstep.effect (hshared.isTree hready) (hready.direct index) ?_ ?_
  · rw [hplace]
    exact hshared.isClear hready index
  · rw [hplace]
    exact fun location entry => hshared.entry?_of_puts index

end IsShared

/-! ### Calls keep the invariant -/

def fileAt (file : Option (Location × Entry)) (location : Location) : Option Entry :=
  file.bind fun found => if location = found.1 then some found.2 else none

theorem fileAt_eq_some_iff {file : Option (Location × Entry)} :
    fileAt file location = some entry ↔ file = some (location, entry) := by
  cases file with
  | none => simp [fileAt]
  | some found =>
      obtain ⟨place, found⟩ := found
      simp only [fileAt, Option.bind_some, Option.some.injEq, Prod.mk.injEq]
      split_ifs with heq
      · simp [heq]
      · simp [Ne.symm heq]

variable [DecidableEq ι]

theorem phase_advance (race : Race ι) (index other : ι) (current : Disk) (next : Phase) :
    (race.advance index current next).phase other =
      if other = index then next else race.phase other := rfl

namespace IsShared

variable (hshared : race.IsShared disk writers)

include hshared

variable (hready : Ready disk writers)

include hready

/-- A call keeps the invariant if it changes the disk by what the writer puts there alone. -/
theorem advance (hphase : race.phase index = phase)
    (hunfinished : ∀ result, phase ≠ .finished result)
    (hhome : current.workingDirectory = race.disk.workingDirectory)
    (hentry : ∀ location entry, current.entry? location = some entry ↔
      race.Others disk writers index location entry ∨
        next.Puts (writers index) (disk.placeOf (writers index).path) location entry)
    (hnew : ∀ location entry,
      next.file? (writers index) (disk.placeOf (writers index).path) = some (location, entry) →
        race.disk.entry? location = none ∨
          ∃ found, race.file? disk writers index = some (location, found))
    (hfits : next.Fits disk writers current index) :
    (race.advance index current next).IsShared disk writers where
  home := hhome.trans hshared.home
  entry?_iff location entry := by
    refine (hentry location entry).trans ?_
    rw [Others, or_assoc]
    refine or_congr_right ⟨?_, ?_⟩
    · rintro (⟨other, hne, hputs⟩ | hputs)
      · refine ⟨other, ?_⟩
        rwa [Puts, phase_advance, if_neg hne]
      · refine ⟨index, ?_⟩
        rwa [Puts, phase_advance, if_pos rfl]
    · rintro ⟨other, hputs⟩
      rw [Puts, phase_advance] at hputs
      split_ifs at hputs with heq
      · exact .inr (heq ▸ hputs)
      · exact .inl ⟨other, heq, hputs⟩
  owner first second location entry found hfirst hsecond := by
    -- The file of this writer is new, or it was its own before: nobody else has it.
    have hconflict (other : ι) (hne : other ≠ index) (entry found : Entry)
        (hfile : next.file? (writers index) (disk.placeOf (writers index).path) =
          some (location, entry)) :
        race.file? disk writers other ≠ some (location, found) := by
      intro hother
      rcases hnew location entry hfile with hnone | ⟨old, hold⟩
      · rw [hshared.entry?_of_puts other (.inl hother)] at hnone
        cases hnone
      · exact hne (hshared.owner _ _ _ _ _ hother hold)
    rw [file?, phase_advance] at hfirst hsecond
    split_ifs at hfirst hsecond with hfirstEq hsecondEq hsecondEq
    · rw [hfirstEq, hsecondEq]
    · exact absurd hsecond (hconflict second hsecondEq _ _ (hfirstEq ▸ hfirst))
    · exact absurd hfirst (hconflict first hfirstEq _ _ (hsecondEq ▸ hsecond))
    · exact hshared.owner _ _ _ _ _ hfirst hsecond
  fits other := by
    rw [phase_advance]
    split_ifs with heq
    · exact heq ▸ hfits
    · refine (hshared.fits other).mono fun hpresent => ?_
      -- What is at the place of another writer has not been put there by this one.
      rw [Option.ne_none_iff_exists'] at hpresent ⊢
      obtain ⟨entry, hpresent⟩ := hpresent
      refine ⟨entry, (hentry _ entry).mpr (.inl ?_)⟩
      refine ((hshared.entry?_iff_others index _ entry).mp hpresent).resolve_right ?_
      rintro (hfile | ⟨-, -, hbegins, hne⟩)
      · have hpublished := hshared.published_of_file? hfile (List.prefix_refl _)
        exact hunfinished _ (hphase.symm.trans hpublished.1)
      · exact hne (hready.apart other index hbegins)

/-- A call keeps the invariant if it only changes the file of the writer. -/
theorem swap (hphase : race.phase index = phase) (hunfinished : ∀ result, phase ≠ .finished result)
    (hfurnished : phase.isFurnished = true) (hnext : next.isFurnished = true)
    (hhome : current.workingDirectory = race.disk.workingDirectory)
    (hcurrent : ∀ location, current.entry? location =
      (fileAt (next.file? (writers index) (disk.placeOf (writers index).path)) location).or
        (if fileAt (phase.file? (writers index) (disk.placeOf (writers index).path)) location =
            none then race.disk.entry? location else none))
    (hnew : ∀ location entry,
      next.file? (writers index) (disk.placeOf (writers index).path) = some (location, entry) →
        race.disk.entry? location = none ∨
          ∃ found, race.file? disk writers index = some (location, found))
    (hfits : next.Fits disk writers current index) :
    (race.advance index current next).IsShared disk writers := by
  refine hshared.advance hready hphase hunfinished hhome ?_ hnew hfits
  intro location entry
  have hfileEq : race.file? disk writers index =
      phase.file? (writers index) (disk.placeOf (writers index).path) := by rw [file?, hphase]
  -- Nothing but the file of the writer is where it was, and where it is now.
  have hold {found : Entry} (hfile : race.file? disk writers index = some (location, found)) :
      ¬ race.Others disk writers index location entry ∧
        ¬ location <+: disk.placeOf (writers index).path := by
    rcases hshared.staged_or_published hfile with hstaged | ⟨hpublished, -⟩
    · exact ⟨hshared.not_others hstaged hfile entry, hstaged.unclaimed index⟩
    · exact absurd (hphase.symm.trans hpublished) (hunfinished _)
  have halone {found : Entry}
      (hfile : next.file? (writers index) (disk.placeOf (writers index).path) =
        some (location, found)) :
      ¬ race.Others disk writers index location entry ∧
        ¬ (location <+: disk.placeOf (writers index).path ∧
          location ≠ disk.placeOf (writers index).path) := by
    rcases hnew location found hfile with hnone | ⟨found, hfound⟩
    · refine ⟨fun hothers => ?_, fun habove => ?_⟩
      · rw [(hshared.entry?_iff_others index location entry).mpr (.inl hothers)] at hnone
        cases hnone
      · have hputs : race.Puts disk writers index location .directory := by
          rw [Puts, hphase]
          exact .inr ⟨hfurnished, rfl, habove⟩
        rw [hshared.entry?_of_puts index hputs] at hnone
        cases hnone
    · exact ⟨(hold hfound).1, fun habove => (hold hfound).2 habove.1⟩
  rw [hcurrent, Phase.Puts, ← fileAt_eq_some_iff, hnext]
  cases hnewAt : fileAt (next.file? (writers index) (disk.placeOf (writers index).path))
      location with
  | some found =>
      obtain ⟨hothers, habove⟩ := halone (fileAt_eq_some_iff.mp hnewAt)
      simp only [Option.some_or, hothers, habove, and_false, or_false, false_or]
  | none =>
      rw [Option.none_or, ← hfileEq]
      cases holdAt : fileAt (race.file? disk writers index) location with
      | none =>
          rw [if_pos rfl, hshared.entry?_iff_of_phase hphase, Phase.Puts, ← fileAt_eq_some_iff,
            hfurnished, ← hfileEq, holdAt]
      | some found =>
          obtain ⟨hothers, hclaimed⟩ := hold (fileAt_eq_some_iff.mp holdAt)
          simp only [reduceCtorEq, if_false, hothers, hclaimed, false_and, and_false, or_false]

theorem of_found (hphase : race.phase index = .looking)
    (hentry : race.disk.entry? (disk.placeOf (writers index).path) ≠ none) :
    (race.advance index race.disk (.finished (.ok .alreadyExists))).IsShared disk writers := by
  refine hshared.advance hready hphase nofun rfl ?_ (fun _ _ hnew => nomatch hnew)
    (.inr ⟨rfl, hentry⟩)
  intro location entry
  rw [hshared.entry?_iff_of_phase hphase]
  refine ⟨fun hputs => .inl (hputs.resolve_right (Phase.not_puts rfl)), ?_⟩
  rintro (hother | hnew | ⟨-, rfl, hbegins, hne⟩)
  · exact .inl hother
  · cases hnew
  · have hdirectory := (hshared.isTree hready).entry?_of_isPrefix hentry hbegins hne
    exact (hshared.entry?_iff_of_phase hphase location _).mp hdirectory

theorem of_made (hphase : race.phase index = .making) {above : Location} {name : String}
    (hplace : disk.placeOf (writers index).path = above ++ [name])
    (hplaced : Placed race.disk current above .directory) :
    (race.advance index current .staging).IsShared disk writers := by
  refine hshared.advance hready hphase nofun hplaced.home ?_ (fun _ _ hnew => nomatch hnew) trivial
  intro location entry
  have hclear := hshared.isClear hready index
  have hothers := hshared.entry?_iff_of_phase hphase location entry
  rw [or_iff_left (Phase.not_puts rfl)] at hothers
  rw [hplace] at hclear ⊢
  by_cases hbegins : location <+: above
  · -- What is at such a place is a directory before the call too, if anything.
    have hne : location ≠ above ++ [name] := by
      rintro rfl
      simpa using hbegins.length_le
    have hbeginsPlace : location <+: above ++ [name] :=
      hbegins.trans (List.prefix_append above [name])
    have hcurrent : current.entry? location = some .directory := by
      rw [hplaced.entry?_eq]
      split_ifs <;> rfl
    rw [hcurrent, Option.some.injEq, ← hothers]
    refine ⟨fun hdirectory => .inr (.inr ⟨rfl, hdirectory.symm, hbeginsPlace, hne⟩), ?_⟩
    rintro (hlocation | hnew | ⟨-, rfl, -⟩)
    · cases entry with
      | directory => rfl
      | file bytes => exact absurd hlocation (hclear location bytes hbeginsPlace hne)
    · cases hnew
    · rfl
  · have hcurrent : current.entry? location = race.disk.entry? location := by
      rw [hplaced.entry?_eq, if_neg, if_neg hbegins]
      rintro rfl
      exact hbegins (List.prefix_refl _)
    rw [hcurrent, hothers, or_iff_left]
    rintro (hnew | ⟨-, -, hbeginsPlace, hne⟩)
    · cases hnew
    · exact hbegins ((List.prefix_concat_iff.mp hbeginsPlace).resolve_left hne)

theorem of_staged (hphase : race.phase index = .staging) {above : Location}
    {name temporary : String}
    (hplace : disk.placeOf (writers index).path = above ++ [name])
    (hfree : race.disk.entry? (above ++ [temporary]) = none)
    (hunclaimed : ¬ race.IsClaimed writers (above ++ [temporary])) :
    (race.advance index (race.disk.add (above ++ [temporary]) (.file .empty))
      (.filling (above ++ [temporary]))).IsShared disk writers := by
  refine hshared.swap hready hphase nofun rfl rfl rfl ?_ ?_ ?_
  · intro location
    rw [entry?_add hfree]
    by_cases heq : location = above ++ [temporary] <;> simp [Phase.file?, fileAt, heq]
  · rintro location entry ⟨⟩
    exact .inl hfree
  · refine ⟨hshared.start_eq_none hfree, ?_, above, name, temporary, hplace, rfl⟩
    intro other hbegins
    exact hunclaimed ⟨other, by rwa [placeOf_eq hshared.home]⟩

theorem of_filled (hphase : race.phase index = .filling staged) :
    (race.advance index (race.disk.fill staged (writers index).text)
      (.publishing staged)).IsShared disk writers := by
  have hfits := hshared.fits_of_phase hphase
  refine hshared.swap hready hphase nofun rfl rfl rfl ?_ ?_ hfits
  · intro location
    rw [entry?_fill hfits.ne_nil]
    by_cases heq : location = staged <;> simp [Phase.file?, fileAt, heq]
  · rintro location entry ⟨⟩
    exact .inr ⟨_, by rw [file?, hphase]; rfl⟩

theorem of_published (hphase : race.phase index = .publishing staged)
    (hnone : race.disk.entry? (disk.placeOf (writers index).path) = none) :
    (race.advance index (Disk.add (race.disk.remove staged) (disk.placeOf (writers index).path)
      (.file (writers index).text.toUTF8)) (.finished (.ok .written))).IsShared disk writers := by
  have hne := (hshared.fits_of_phase hphase).ne_nil
  refine hshared.swap hready hphase nofun rfl rfl rfl ?_ ?_
    (.inl ⟨rfl, hshared.start_eq_none hnone⟩)
  · intro location
    have hfree : Disk.entry? (race.disk.remove staged)
        (disk.placeOf (writers index).path) = none := by
      rw [entry?_remove hne, hnone, ite_self]
    rw [entry?_add hfree, entry?_remove hne]
    by_cases heq : location = disk.placeOf (writers index).path
    · simp [Phase.file?, fileAt, heq]
    · by_cases hstaged : location = staged <;> simp [Phase.file?, fileAt, heq, hstaged]
  · rintro location entry ⟨⟩
    exact .inl hnone

theorem of_refused (hphase : race.phase index = .publishing staged)
    (hentry : race.disk.entry? (disk.placeOf (writers index).path) ≠ none) :
    (race.advance index race.disk
      (.discarding staged (.ok .alreadyExists))).IsShared disk writers := by
  have hentries := hshared.entry?_iff_of_phase hphase
  refine hshared.advance hready hphase nofun rfl hentries ?_
    ⟨hshared.fits_of_phase hphase, rfl, hentry⟩
  rintro location entry ⟨⟩
  exact .inr ⟨_, by rw [file?, hphase]; rfl⟩

theorem of_discarded {result : Except FileError WriteOutcome}
    (hphase : race.phase index = .discarding staged result) :
    (race.advance index (race.disk.remove staged) (.finished result)).IsShared disk writers := by
  obtain ⟨hstaged, rfl, hpresent⟩ := hshared.fits_of_phase hphase
  refine hshared.swap hready hphase nofun rfl rfl rfl ?_ (fun _ _ hnew => nomatch hnew)
    (.inr ⟨rfl, ?_⟩)
  · intro location
    rw [entry?_remove hstaged.ne_nil]
    by_cases heq : location = staged <;> simp [Phase.file?, fileAt, heq]
  · rwa [entry?_remove hstaged.ne_nil, if_neg]
    rintro rfl
    exact hstaged.unclaimed index (List.prefix_refl _)

/-- What one call does keeps the invariant. -/
theorem of_effect {before : Disk} (hbefore : race.disk = before) (hphase : race.phase index = phase)
    (heffect : Effect (writers index) (disk.placeOf (writers index).path)
      (race.IsClaimed writers) (before, phase) (current, next)) :
    (race.advance index current next).IsShared disk writers := by
  subst hbefore
  cases heffect with
  | found hentry => exact hshared.of_found hready hphase hentry
  | missed =>
      have hentries := hshared.entry?_iff_of_phase hphase
      exact hshared.advance hready hphase nofun rfl hentries (fun _ _ hnew => nomatch hnew) trivial
  | made hplace hplaced => exact hshared.of_made hready hphase hplace hplaced
  | staged hplace hfree hreserved => exact hshared.of_staged hready hphase hplace hfree hreserved
  | filled => exact hshared.of_filled hready hphase
  | published hnone => exact hshared.of_published hready hphase hnone
  | refused hentry => exact hshared.of_refused hready hphase hentry
  | discarded => exact hshared.of_discarded hready hphase

end IsShared

/-! ### Runs -/

section

variable (hready : Ready disk writers)

include hready

theorem IsShared.step (hshared : race.IsShared disk writers) (hstep : Step writers race later) :
    later.IsShared disk writers := by
  cases hstep with
  | call index hcall => exact hshared.of_effect hready rfl rfl (hshared.effect hready hcall)

theorem IsShared.run (hshared : race.IsShared disk writers)
    (hrun : ReflTransGen (Step writers) race later) : later.IsShared disk writers := by
  induction hrun with
  | refl => exact hshared
  | tail _ hstep ih => exact ih.step hready hstep

end

theorem finished_run {result : Except FileError WriteOutcome}
    (hfinished : race.phase index = .finished result)
    (hrun : ReflTransGen (Step writers) race later) : later.phase index = .finished result := by
  induction hrun with
  | refl => exact hfinished
  | tail _ hstep ih =>
      cases hstep with
      | call other hcall =>
          rw [phase_advance]
          split_ifs with heq
          · rw [← heq, ih] at hcall
            cases hcall
          · exact ih

/-! ### What is at a place -/

section

omit [DecidableEq ι]

theorem file?_of_written (disk : Disk) (writers : ι → Writer) (hwritten : race.HasWritten index) :
    race.file? disk writers index =
      some (disk.placeOf (writers index).path, .file (writers index).text.toUTF8) := by
  rw [file?, hwritten]
  rfl

namespace IsShared

variable (hshared : race.IsShared disk writers)

include hshared

/-- What is at a place was there at the start, or a writer has put its text there. -/
theorem place_cases (hready : Ready disk writers)
    (hentry : race.disk.entry? (disk.placeOf (writers index).path) = some entry) :
    disk.entry? (disk.placeOf (writers index).path) = some entry ∨
      ∃ winner, disk.placeOf (writers winner).path = disk.placeOf (writers index).path ∧
        race.HasWritten winner ∧ entry = .file (writers winner).text.toUTF8 := by
  rcases (hshared.entry?_iff _ entry).mp hentry with hstart | ⟨winner, hfile | ⟨-, -, habove⟩⟩
  · exact .inl hstart
  · obtain ⟨hwritten, hplace, hentry⟩ := hshared.published_of_file? hfile (List.prefix_refl _)
    exact .inr ⟨winner, hplace.symm, hwritten, hentry⟩
  · exact absurd (hready.apart index winner habove.1) habove.2

theorem start_of_written (hwritten : race.HasWritten index) :
    disk.entry? (disk.placeOf (writers index).path) = none := by
  have hfits := hshared.fits index
  rw [hwritten] at hfits
  obtain ⟨-, hnone⟩ | ⟨hresult, -⟩ := hfits
  · exact hnone
  · cases hresult

theorem eq_of_written (hfirst : race.HasWritten first) (hsecond : race.HasWritten second)
    (hplace : disk.placeOf (writers first).path = disk.placeOf (writers second).path) :
    first = second := by
  have hfile := file?_of_written disk writers hfirst
  rw [hplace] at hfile
  exact hshared.owner _ _ _ _ _ hfile (file?_of_written disk writers hsecond)

/-- Whoever has finished has written its text or found something in its place. -/
theorem result_cases {result : Except FileError WriteOutcome}
    (hfinished : race.phase index = .finished result) :
    result = .ok .written ∧ disk.entry? (disk.placeOf (writers index).path) = none ∧
        race.disk.entry? (disk.placeOf (writers index).path) =
          some (.file (writers index).text.toUTF8) ∨
      result = .ok .alreadyExists ∧
        race.disk.entry? (disk.placeOf (writers index).path) ≠ none := by
  have hfits := hshared.fits index
  rw [hfinished] at hfits
  obtain ⟨rfl, hnone⟩ | hpresent := hfits
  · have hfile := file?_of_written disk writers hfinished
    exact .inl ⟨rfl, hnone, hshared.entry?_of_puts index (.inl hfile)⟩
  · exact .inr hpresent

theorem entry?_run (hready : Ready disk writers) [DecidableEq ι]
    (hrun : ReflTransGen (Step writers) race later)
    (hentry : race.disk.entry? (disk.placeOf (writers index).path) = some entry) :
    later.disk.entry? (disk.placeOf (writers index).path) = some entry := by
  have hlater := hshared.run hready hrun
  rcases hshared.place_cases hready hentry with hstart | ⟨winner, hplace, hwritten, rfl⟩
  · exact hlater.entry?_of_start hstart
  · have hfile := file?_of_written disk writers (finished_run hwritten hrun)
    rw [← hplace]
    exact hlater.entry?_of_puts winner (.inl hfile)

/-- Once all have finished, all that they have left is their texts and the directories above. -/
theorem entry?_iff_of_finished (hfinished : ∀ index, race.HasFinished index)
    (location : Location) (entry : Entry) :
    race.disk.entry? location = some entry ↔ disk.entry? location = some entry ∨
      ∃ index, entry = .directory ∧ location <+: disk.placeOf (writers index).path ∧
          location ≠ disk.placeOf (writers index).path ∨
        race.HasWritten index ∧ location = disk.placeOf (writers index).path ∧
          entry = .file (writers index).text.toUTF8 := by
  refine (hshared.entry?_iff location entry).trans (or_congr_right (exists_congr fun index => ?_))
  obtain ⟨result, hresult⟩ := hfinished index
  constructor
  · rintro (hfile | ⟨-, habove⟩)
    · rw [hresult] at hfile
      rcases hshared.result_cases hresult with ⟨rfl, -⟩ | ⟨rfl, -⟩
      · cases hfile
        exact .inr ⟨hresult, rfl, rfl⟩
      · cases hfile
    · exact .inl habove
  · rintro (habove | ⟨hwritten, rfl, rfl⟩)
    · exact .inr ⟨by rw [hresult]; rfl, habove⟩
    · exact .inl (file?_of_written disk writers hwritten)

end IsShared

end

/-- **One writer wins.** However the calls of the writers come, a place holds what it held at the
start or, if that was nothing, the whole text of the one writer that has written it, and what it
holds never changes. Of the writers of a place, one writes its text if nothing was there and all
have finished, and all others find it taken. In the end no staged file is left. -/
theorem one_writer_wins (hready : Ready disk writers)
    (hrace : ReflTransGen (Step writers) (start disk) race) :
    (∀ index,
      let place := disk.placeOf (writers index).path
      (race.disk.entry? place = disk.entry? place ∨
        disk.entry? place = none ∧
          ∃! winner, disk.placeOf (writers winner).path = place ∧ race.HasWritten winner ∧
            race.disk.entry? place = some (.file (writers winner).text.toUTF8)) ∧
      (∀ entry later, race.disk.entry? place = some entry →
        ReflTransGen (Step writers) race later → later.disk.entry? place = some entry) ∧
      (∀ other, disk.placeOf (writers other).path = place →
        race.HasWritten index → race.HasWritten other → index = other) ∧
      (∀ result, race.phase index = .finished result →
        result = .ok .written ∧ disk.entry? place = none ∧
            race.disk.entry? place = some (.file (writers index).text.toUTF8) ∨
          result = .ok .alreadyExists ∧ race.disk.entry? place ≠ none) ∧
      (disk.entry? place = none →
        (∀ other, disk.placeOf (writers other).path = place → race.HasFinished other) →
        ∃! winner, disk.placeOf (writers winner).path = place ∧ race.HasWritten winner)) ∧
    ((∀ index, race.HasFinished index) → ∀ location entry,
      race.disk.entry? location = some entry ↔ disk.entry? location = some entry ∨
        ∃ index, entry = .directory ∧ location <+: disk.placeOf (writers index).path ∧
            location ≠ disk.placeOf (writers index).path ∨
          race.HasWritten index ∧ location = disk.placeOf (writers index).path ∧
            entry = .file (writers index).text.toUTF8) := by
  have hshared := (isShared_start disk writers).run hready hrace
  refine ⟨fun index => ⟨?_, ?_, ?_, ?_, ?_⟩, hshared.entry?_iff_of_finished⟩
  · cases hentry : race.disk.entry? (disk.placeOf (writers index).path) with
    | none => exact .inl (hshared.start_eq_none hentry).symm
    | some entry =>
        rcases hshared.place_cases hready hentry with hstart | ⟨winner, hplace, hwritten, rfl⟩
        · exact .inl hstart.symm
        · refine .inr ⟨hplace ▸ hshared.start_of_written hwritten, winner,
            ⟨hplace, hwritten, rfl⟩, ?_⟩
          rintro other ⟨hother, hotherWritten, -⟩
          exact hshared.eq_of_written hotherWritten hwritten (hother.trans hplace.symm)
  · exact fun entry later hentry hrun => hshared.entry?_run hready hrun hentry
  · exact fun other hplace hwritten hother => hshared.eq_of_written hwritten hother hplace.symm
  · exact fun result hfinished => hshared.result_cases hfinished
  · intro hnone hfinished
    obtain ⟨winner, hplace, hwritten⟩ : ∃ winner,
        disk.placeOf (writers winner).path = disk.placeOf (writers index).path ∧
          race.HasWritten winner := by
      obtain ⟨result, hresult⟩ := hfinished index rfl
      rcases hshared.result_cases hresult with ⟨rfl, -⟩ | ⟨-, hpresent⟩
      · exact ⟨index, rfl, hresult⟩
      · obtain ⟨entry, hentry⟩ := Option.ne_none_iff_exists'.mp hpresent
        rcases hshared.place_cases hready hentry with hstart | ⟨winner, hplace, hwritten, -⟩
        · rw [hnone] at hstart
          cases hstart
        · exact ⟨winner, hplace, hwritten⟩
    refine ⟨winner, ⟨hplace, hwritten⟩, ?_⟩
    rintro other ⟨hother, hotherWritten⟩
    exact hshared.eq_of_written hotherWritten hwritten (hother.trans hplace.symm)

/-- Two writers of one text each that both look before either has written. -/
theorem one_writer_wins_badge :
    let writers : Bool → Writer := fun first =>
      ⟨⟨"lib/badge.ts"⟩, if first then "one" else "two"⟩
    let disk := ofWorkingDirectory ["home"]
    ∃ race, Ready disk writers ∧ ReflTransGen (Step writers) (start disk) race ∧
      race.HasWritten true ∧ race.phase false = .finished (.ok .alreadyExists) ∧
      ∀ later, ReflTransGen (Step writers) race later →
        later.disk.entry? ["home", "lib", "badge.ts"] = some (.file "one".toUTF8) := by
  intro writers disk
  have hfile (location : Location) (bytes : ByteArray) :
      disk.entry? location ≠ some (.file bytes) := by
    rw [entry?_ofWorkingDirectory]
    split_ifs <;> exact nofun
  have hready : Ready disk writers :=
    ⟨isTree_ofWorkingDirectory _, fun _ => show Path.IsDirect ⟨"lib/badge.ts"⟩ by decide +kernel,
      fun _ above bytes _ _ => hfile above bytes, fun _ _ _ => rfl⟩
  have hplace : (if Path.isAbsolute ⟨"lib/badge.ts"⟩ then [] else ["home"]) ++
      Path.names ⟨"lib/badge.ts"⟩ = ["home", "lib", "badge.ts"] := by decide +kernel
  have hunclaimed (race : Race Bool) (hhome : race.disk.workingDirectory = ["home"])
      (staged : Location) (hstaged : ¬ staged <+: ["home", "lib", "badge.ts"]) :
      ¬ race.IsClaimed writers staged := by
    rintro ⟨index, hbegins⟩
    change staged <+: race.disk.placeOf ⟨"lib/badge.ts"⟩ at hbegins
    rw [placeOf, hhome, hplace] at hbegins
    exact hstaged hbegins
  let made := disk.add ["home", "lib"] .directory
  let first := made.add ["home", "lib", ".tmp0"] (.file .empty)
  let second := first.add ["home", "lib", ".tmp1"] (.file .empty)
  let filled := (second.fill ["home", "lib", ".tmp0"] "one").fill ["home", "lib", ".tmp1"] "two"
  let published := Disk.add (filled.remove ["home", "lib", ".tmp0"]) ["home", "lib", "badge.ts"]
    (.file "one".toUTF8)
  let looked := ((start disk).advance true disk .making).advance false disk .making
  let ready := (looked.advance true made .staging).advance false made .staging
  let staged := (ready.advance true first (.filling ["home", "lib", ".tmp0"])).advance false second
    (.filling ["home", "lib", ".tmp1"])
  let full := (staged.advance true (second.fill ["home", "lib", ".tmp0"] "one")
    (.publishing ["home", "lib", ".tmp0"])).advance false filled
    (.publishing ["home", "lib", ".tmp1"])
  let refused := (full.advance true published (.finished (.ok .written))).advance false published
    (.discarding ["home", "lib", ".tmp1"] (refusal .alreadyExists))
  have hlooked : ReflTransGen (Step writers) (start disk) looked :=
    .tail (.single (.call true (.missed (by decide +kernel))))
      (.call false (.missed (by decide +kernel)))
  have hmake : Disk.makeParent disk ⟨"lib/badge.ts"⟩ = (.ok (), made) := by rfl
  have hremake : Disk.makeParent made ⟨"lib/badge.ts"⟩ = (.ok (), made) := by rfl
  have hmade : ReflTransGen (Step writers) looked ready :=
    .tail (.single (.call true (.made hmake))) (.call false (.made hremake))
  have hstage : Disk.stageAs made (stagingDirectory ⟨"lib/badge.ts"⟩) ".tmp0" =
      .ok (["home", "lib", ".tmp0"], first) := by rfl
  have hrestage : Disk.stageAs first (stagingDirectory ⟨"lib/badge.ts"⟩) ".tmp1" =
      .ok (["home", "lib", ".tmp1"], second) := by rfl
  have hstaged : ReflTransGen (Step writers) ready staged :=
    .tail (.single (.call true (.staged hstage (hunclaimed _ rfl _ (by decide)))))
      (.call false (.staged hrestage (hunclaimed _ rfl _ (by decide))))
  have hfilled : ReflTransGen (Step writers) staged full :=
    .tail (.single (.call true .filled)) (.call false .filled)
  have hpublish : Disk.publish filled ["home", "lib", ".tmp0"] ⟨"lib/badge.ts"⟩ =
      .ok published := by rfl
  have hrepublish : Disk.publish published ["home", "lib", ".tmp1"] ⟨"lib/badge.ts"⟩ =
      .error .alreadyExists := by rfl
  have hpublished : ReflTransGen (Step writers) full refused :=
    .tail (.single (.call true (.published hpublish))) (.call false (.refused hrepublish))
  have hrace := (((hlooked.trans hmade).trans hstaged).trans hfilled).trans
    (hpublished.tail (.call false .discarded))
  refine ⟨_, hready, hrace, rfl, rfl, fun later hrun => ?_⟩
  have hbadge : disk.placeOf (writers true).path = ["home", "lib", "badge.ts"] := hplace
  have hkept := ((one_writer_wins hready hrace).1 true).2.1 (.file "one".toUTF8) later
  rw [hbadge] at hkept
  exact hkept rfl hrun

end Race

end StoryKnobs.Disk

import StoryKnobs.FileTree.Race
import StoryKnobs.Proofs.DirectPaths
import StoryKnobs.Proofs.Disk

/-!
# Places on a disk

Everything on a disk is in a directory. So a direct path leads to its place if something is there,
and to an error if not. Writing to it makes the directories above its place that are missing, and
one file.
-/

namespace StoryKnobs

namespace Disk

variable {disk other current : Disk} {place above location : Location} {path : Path} {name : String}
  {steps : List String} {route : Route} {entry : Entry} {bytes : ByteArray}

structure IsTree (disk : Disk) : Prop where
  home : disk.entry? disk.workingDirectory = some .directory
  above : ∀ place name, disk.entry? (place ++ [name]) ≠ none → disk.entry? place = some .directory

def IsClear (disk : Disk) (place : Location) : Prop :=
  ∀ above bytes, above <+: place → above ≠ place → disk.entry? above ≠ some (.file bytes)

theorem IsClear.of_isPrefix (hclear : disk.IsClear place) (hbegins : above <+: place) :
    disk.IsClear above := by
  intro front bytes hfront hne
  refine hclear front bytes (hfront.trans hbegins) ?_
  rintro rfl
  exact hne (hfront.eq_of_length_le hbegins.length_le)

theorem IsClear.eq_directory (hclear : disk.IsClear (above ++ [name]))
    (habove : disk.entry? above = some entry) : entry = .directory := by
  cases entry with
  | directory => rfl
  | file bytes => exact absurd habove (hclear above bytes (List.prefix_append _ _) (by simp))

namespace IsTree

theorem entry?_of_isPrefix (htree : disk.IsTree) (hentry : disk.entry? place ≠ none)
    (hbegins : above <+: place) (hne : above ≠ place) : disk.entry? above = some .directory := by
  induction place using List.reverseRecOn with
  | nil => exact absurd (List.prefix_nil.mp hbegins) hne
  | append_singleton place name ih =>
      have hplace := htree.above place name hentry
      rcases List.prefix_concat_iff.mp hbegins with heq | hbegins
      · exact absurd heq hne
      · by_cases heq : above = place
        · rw [heq, hplace]
        · exact ih (by simp [hplace]) hbegins heq

theorem entry?_eq_none (htree : disk.IsTree) (hnone : disk.entry? above = none)
    (hbegins : above <+: place) : disk.entry? place = none := by
  by_contra hentry
  by_cases heq : above = place
  · exact hentry (heq ▸ hnone)
  · rw [htree.entry?_of_isPrefix hentry hbegins heq] at hnone
    cases hnone

theorem isClear (htree : disk.IsTree) (hentry : disk.entry? place ≠ none) :
    disk.IsClear place := by
  intro above bytes hbegins hne hfile
  rw [htree.entry?_of_isPrefix hentry hbegins hne] at hfile
  cases hfile

theorem entry?_of_isPrefix_of_directory (htree : disk.IsTree)
    (hdirectory : disk.entry? place = some .directory) (hbegins : above <+: place) :
    disk.entry? above = some .directory := by
  by_cases heq : above = place
  · rw [heq, hdirectory]
  · exact htree.entry?_of_isPrefix (by simp [hdirectory]) hbegins heq

end IsTree

theorem entry?_ofWorkingDirectory (location place : Location) :
    Disk.entry? (ofWorkingDirectory location) place =
      if place <+: location then some .directory else none := by
  cases place with
  | nil =>
      rw [if_pos List.nil_prefix]
      rfl
  | cons first names =>
      rw [entry?_eq_lookup (by simp)]
      cases hlookup : (ofWorkingDirectory location).entries.lookup (first :: names) with
      | none =>
          rw [if_neg]
          intro hbegins
          rw [List.lookup_eq_none_iff] at hlookup
          have hmem :
              (first :: names, Entry.directory) ∈ (ofWorkingDirectory location).entries := by
            refine List.mem_map.mpr ⟨names.length, List.mem_range.mpr hbegins.length_le, ?_⟩
            have htake : location.take (names.length + 1) = first :: names :=
              (List.prefix_iff_eq_take.mp hbegins).symm
            rw [htake]
          simpa using hlookup _ hmem
      | some entry =>
          rw [← entry?_eq_lookup (by simp)] at hlookup
          have hmem := mem_entries (by simp) hlookup
          obtain ⟨count, -, heq⟩ := List.mem_map.mp hmem
          obtain ⟨htake, rfl⟩ := Prod.mk.inj heq
          rw [if_pos]
          exact htake ▸ List.take_prefix _ _

theorem isTree_ofWorkingDirectory (location : Location) : (ofWorkingDirectory location).IsTree where
  home := by
    rw [entry?_ofWorkingDirectory, if_pos]
    exact List.prefix_refl _
  above above name hentry := by
    rw [entry?_ofWorkingDirectory] at hentry ⊢
    split_ifs at hentry with hbegins
    · rw [if_pos ((List.prefix_append above [name]).trans hbegins)]
    · exact absurd rfl hentry

/-! ### Adding and removing -/

theorem entry?_remove (hne : location ≠ []) (place : Location) :
    Disk.entry? (disk.remove location) place =
      if place = location then none else disk.entry? place := by
  cases place with
  | nil =>
      rw [if_neg hne.symm]
      rfl
  | cons first names =>
      rw [entry?_eq_lookup (by simp), entry?_eq_lookup (by simp), remove]
      split_ifs with heq
      · rw [List.lookup_eq_none_iff]
        rintro ⟨found, entry⟩ hmem
        have hne : found ≠ location := by simpa using (List.mem_filter.mp hmem).2
        simpa [heq] using hne.symm
      · induction disk.entries with
        | nil => rfl
        | cons found entries ih =>
            rw [List.filter_cons, List.lookup_cons]
            split_ifs with hkeep
            · rw [List.lookup_cons, ih]
            · have hfound : found.1 = location := by simpa using hkeep
              rw [ih, beq_eq_false_iff_ne.mpr (hfound ▸ heq)]

theorem entry?_fill (hne : location ≠ []) (text : String) (place : Location) :
    Disk.entry? (disk.fill location text) place =
      if place = location then some (.file text.toUTF8) else disk.entry? place := by
  have hnone : Disk.entry? (disk.remove location) location = none := by
    rw [entry?_remove hne, if_pos rfl]
  rw [fill, entry?_add hnone]
  split_ifs with heq
  · rfl
  · rw [entry?_remove hne, if_neg heq]

namespace IsTree

theorem add (htree : disk.IsTree) (habove : disk.entry? above = some .directory)
    (hnone : disk.entry? (above ++ [name]) = none) (entry : Entry) :
    (disk.add (above ++ [name]) entry).IsTree where
  home := (directoriesIn_add hnone entry).directory _ htree.home
  above place last hentry := by
    refine (directoriesIn_add hnone entry).directory _ ?_
    rw [entry?_add hnone] at hentry
    split_ifs at hentry with heq
    · rwa [(List.append_inj' heq rfl).1]
    · exact htree.above place last hentry

end IsTree

/-! ### Direct paths -/

theorem placeOf_eq (hhome : other.workingDirectory = disk.workingDirectory) (path : Path) :
    other.placeOf path = disk.placeOf path := by
  rw [placeOf, placeOf, hhome]

theorem routeOf_eq (hdirect : path.IsDirect) :
    routeOf path = .ok ⟨path.isAbsolute, path.steps, false⟩ := by
  refine routeOf_eq_ok_iff.mpr ⟨?_, ?_, hdirect.short, ?_⟩
  · simpa using hdirect.nul
  · simpa using hdirect.nonempty
  · rw [beq_eq_false_iff_ne.mpr hdirect.unclosed]

/-- Steps lead to the place that their names give, or to an error if nothing is there. -/
theorem follow_visit (htree : disk.IsTree) (hplain : ∀ step ∈ steps, Path.IsPlain step)
    (hfile : ∀ above bytes, above <+: location ++ steps.filter (· != ".") →
      disk.entry? above ≠ some (.file bytes)) :
    disk.follow location steps >>= disk.visit =
      disk.visit (location ++ steps.filter (· != ".")) := by
  induction steps generalizing location with
  | nil =>
      rw [follow, List.filter_nil, List.append_nil]
      rfl
  | cons step steps ih =>
      have hothers : ∀ step ∈ steps, Path.IsPlain step :=
        fun step hmem => hplain step (List.mem_cons_of_mem _ hmem)
      have hbegins : location <+: location ++ (step :: steps).filter (· != ".") :=
        List.prefix_append _ _
      rw [follow]
      split
      · rename_i hnone
        rw [visit, htree.entry?_eq_none hnone hbegins]
        rfl
      · rename_i bytes hentry
        exact absurd hentry (hfile location bytes hbegins)
      · obtain ⟨hparent, hshort⟩ := hplain step List.mem_cons_self
        by_cases hdot : step = "."
        · subst hdot
          exact ih hothers hfile
        · rw [List.filter_cons_of_pos (by simpa using hdot),
            List.append_cons location step (steps.filter _)] at hfile ⊢
          rw [if_neg (by simpa using hdot), if_neg (by simpa using hparent),
            if_neg (Nat.not_lt.mpr hshort)]
          exact ih hothers hfile

/-- Going on from where nothing is comes to nothing. -/
theorem bind_of_visit_eq_error {α : Type} {result : Except FileError Location}
    (hvisit : result >>= disk.visit = .error .notFound) {next : Location → Except FileError α}
    (hnext : ∀ place, disk.entry? place = none → next place = .error .notFound) :
    result >>= next = .error .notFound := by
  cases result with
  | error error => exact congrArg Except.error (Except.error.inj hvisit)
  | ok place =>
      change disk.visit place = _ at hvisit
      rw [visit] at hvisit
      split at hvisit
      · cases hvisit
      · exact hnext place ‹_›

inductive LeadsAbove (disk : Disk) (path parent : Path) : Location → Prop where
  | home (htext : parent = ⟨""⟩ ∨ parent = ⟨"."⟩) :
      LeadsAbove disk path parent disk.workingDirectory
  | root (htext : parent = ⟨"/"⟩) : LeadsAbove disk path parent []
  | direct (hdirect : parent.IsDirect) (hnames : path.names.length = parent.names.length + 1) :
      LeadsAbove disk path parent (disk.placeOf parent)

/-- The place of a direct path is in the directory to which the path above it leads. -/
theorem exists_leadsAbove (disk : Disk) (hdirect : path.IsDirect) :
    ∃ parent above name, path.parent? = some parent ∧ path.fileName? = some name ∧
      disk.placeOf path = above ++ [name] ∧ LeadsAbove disk path parent above := by
  obtain ⟨parent, name, hparent, hname, hnames, habove⟩ := hdirect.exists_parent?
  refine ⟨parent, (if path.isAbsolute then [] else disk.workingDirectory) ++ parent.names, name,
    hparent, hname, by rw [placeOf, hnames, ← List.append_assoc], ?_⟩
  cases habove with
  | empty htext hrelative =>
      have hhome : parent.names = [] := by rw [htext]; rfl
      rw [hrelative, hhome, if_neg (by decide), List.append_nil]
      exact .home (.inl htext)
  | dot htext hrelative =>
      have hhome : parent.names = [] := by rw [htext]; rfl
      rw [hrelative, hhome, if_neg (by decide), List.append_nil]
      exact .home (.inr htext)
  | root htext habsolute =>
      subst htext
      rw [habsolute]
      exact .root rfl
  | direct hparentDirect heq =>
      rw [← heq]
      exact .direct hparentDirect (by rw [hnames, List.length_append, List.length_singleton])

section

variable (htree : disk.IsTree) (hdirect : path.IsDirect)
  (hplace : disk.placeOf path = above ++ [name]) (hclear : disk.IsClear (above ++ [name]))

include htree hdirect hplace hclear

theorem follow_dropLast :
    path.steps = path.steps.dropLast ++ [name] ∧
      disk.follow (disk.start ⟨path.isAbsolute, path.steps, false⟩) path.steps.dropLast >>=
        disk.visit = disk.visit above := by
  obtain ⟨last, hlast⟩ : ∃ last, path.steps.getLast? = some last := by
    rw [← Option.ne_none_iff_exists', Ne, List.getLast?_eq_none_iff]
    intro hnil
    obtain ⟨parent, last, -, -, hnames, -⟩ := hdirect.exists_parent?
    rw [Path.names, hnil] at hnames
    simp at hnames
  have hsteps := (List.dropLast_append_getLast? last hlast).symm
  have hdot : last ≠ "." := by
    rintro rfl
    exact hdirect.undotted hlast
  rw [placeOf, Path.names, hsteps, List.filter_append,
    List.filter_cons_of_pos (by simpa using hdot), List.filter_nil, ← List.append_assoc] at hplace
  obtain ⟨rfl, hname⟩ := List.append_inj' hplace rfl
  obtain rfl := (List.cons.inj hname).1
  refine ⟨hsteps, follow_visit htree ?_ ?_⟩
  · exact fun step hmem => hdirect.plain step (List.dropLast_subset _ hmem)
  · intro front bytes hbegins
    refine hclear front bytes (hbegins.trans (List.prefix_append _ _)) ?_
    rintro rfl
    simpa [start] using hbegins.length_le

theorem destination_of_directory (habove : disk.entry? above = some .directory) :
    disk.destination ⟨path.isAbsolute, path.steps, false⟩ = .ok (above, some name) := by
  obtain ⟨hsteps, hvisit⟩ := follow_dropLast htree hdirect hplace hclear
  have hlast : path.steps.getLast? = some name := by rw [hsteps, List.getLast?_concat]
  have hdot : name ≠ "." := by
    rintro rfl
    exact hdirect.undotted hlast
  have hplain := hdirect.plain name (List.mem_of_getLast? hlast)
  rw [visit, habove] at hvisit
  obtain ⟨middle, hfollow, hmiddle⟩ := bind_eq_ok_iff.mp hvisit
  obtain ⟨rfl, -⟩ := visit_eq_ok_iff.mp hmiddle
  rw [destination, hfollow]
  simp only [bind, Except.bind, habove, hlast, beq_iff_eq, Bool.or_eq_true, hdot,
    hplain.ne_parent, or_self, if_false, Nat.not_lt.mpr hplain.short]
  rfl

theorem destination_of_none (habove : disk.entry? above = none) :
    disk.destination ⟨path.isAbsolute, path.steps, false⟩ = .error .notFound := by
  obtain ⟨-, hvisit⟩ := follow_dropLast htree hdirect hplace hclear
  rw [visit, habove] at hvisit
  refine bind_of_visit_eq_error hvisit fun place hnone => ?_
  simp only [hnone]
  rfl

theorem find_eq_visit : disk.find path = disk.visit (above ++ [name]) := by
  obtain ⟨hsteps, hvisit⟩ := follow_dropLast htree hdirect hplace hclear
  have hfind : disk.find path =
      disk.follow (disk.start ⟨path.isAbsolute, path.steps, false⟩) path.steps >>= disk.visit := by
    rw [find, routeOf_eq hdirect]
    simp only [bind, Except.bind, Bool.false_eq_true, if_false, List.append_nil]
  rw [hfind]
  cases habove : disk.entry? above with
  | none =>
      have hnone := htree.entry?_eq_none habove (List.prefix_append above [name])
      rw [visit, habove] at hvisit
      nth_rewrite 2 [hsteps]
      rw [follow_append, visit, hnone]
      change (disk.follow _ _ >>= fun place => disk.follow place [name]) >>= disk.visit = _
      rw [bind_assoc]
      refine bind_of_visit_eq_error hvisit fun place hplaceNone => ?_
      rw [follow, hplaceNone]
      rfl
  | some entry =>
      obtain rfl := hclear.eq_directory habove
      have hdestination := destination_of_directory htree hdirect hplace hclear habove
      rw [(destination_eq_ok hdestination).2]
      rfl

/-! ### Making directories -/

theorem makeDirectory_of_none (habove : disk.entry? above = none) :
    disk.makeDirectory path = .error .notFound := by
  rw [makeDirectory, routeOf_eq hdirect]
  simp only [bind, Except.bind, destination_of_none htree hdirect hplace hclear habove]

theorem makeDirectory_of_entry (hentry : disk.entry? (above ++ [name]) = some entry) :
    disk.makeDirectory path = .error .alreadyExists := by
  have habove := htree.above above name (by simp [hentry])
  rw [makeDirectory, routeOf_eq hdirect]
  simp only [bind, Except.bind, destination_of_directory htree hdirect hplace hclear habove, hentry]
  rfl

theorem makeDirectory_of_free (habove : disk.entry? above = some .directory)
    (hnone : disk.entry? (above ++ [name]) = none) :
    disk.makeDirectory path = .ok (disk.add (above ++ [name]) .directory) := by
  rw [makeDirectory, routeOf_eq hdirect]
  simp only [bind, Except.bind, destination_of_directory htree hdirect hplace hclear habove, hnone]
  rfl

end

theorem find_eq (htree : disk.IsTree) (hdirect : path.IsDirect)
    (hclear : disk.IsClear (disk.placeOf path)) :
    disk.find path = disk.visit (disk.placeOf path) := by
  obtain ⟨-, above, name, -, -, hplace, -⟩ := exists_leadsAbove disk hdirect
  rw [hplace] at hclear ⊢
  exact find_eq_visit htree hdirect hplace hclear

theorem contains_eq (htree : disk.IsTree) (hdirect : path.IsDirect)
    (hclear : disk.IsClear (disk.placeOf path)) :
    disk.contains path = (disk.entry? (disk.placeOf path)).isSome := by
  rw [contains, find_eq htree hdirect hclear, visit]
  cases disk.entry? (disk.placeOf path) <;> rfl

/-- Something is at a place, with directories above it, and nothing else has changed. -/
structure Placed (disk other : Disk) (place : Location) (entry : Entry) : Prop where
  home : other.workingDirectory = disk.workingDirectory
  entry?_eq : ∀ location, other.entry? location =
    if location = place then some entry
    else if location <+: place then some .directory else disk.entry? location

theorem IsTree.placed (htree : disk.IsTree) (hdirectory : disk.entry? place = some .directory) :
    Placed disk disk place .directory where
  home := rfl
  entry?_eq location := by
    split_ifs with heq hbegins
    · rw [heq, hdirectory]
    · exact htree.entry?_of_isPrefix (by simp [hdirectory]) hbegins heq
    · rfl

namespace Placed

theorem entry?_self (hplaced : Placed disk other place entry) :
    other.entry? place = some entry := by
  rw [hplaced.entry?_eq, if_pos rfl]

theorem entry?_below (hplaced : Placed disk other above entry) (name : String) :
    other.entry? (above ++ [name]) = disk.entry? (above ++ [name]) := by
  rw [hplaced.entry?_eq, if_neg (by simp), if_neg]
  intro hbegins
  simpa using hbegins.length_le

theorem entry?_directory (hplaced : Placed disk other place entry)
    (hkept : disk.entry? place = some .directory → entry = .directory)
    (hdirectory : disk.entry? location = some .directory) :
    other.entry? location = some .directory := by
  rw [hplaced.entry?_eq]
  split_ifs with heq
  · rw [hkept (heq ▸ hdirectory)]
  · rfl
  · exact hdirectory

theorem isTree (hplaced : Placed disk other place entry) (htree : disk.IsTree)
    (hkept : disk.entry? place = some .directory → entry = .directory) : other.IsTree where
  home := by
    rw [hplaced.home]
    exact hplaced.entry?_directory hkept htree.home
  above above name hentry := by
    by_cases hbegins : above ++ [name] <+: place
    · have hne : above ≠ place := by
        rintro rfl
        simpa using hbegins.length_le
      rw [hplaced.entry?_eq, if_neg hne, if_pos ((List.prefix_append above [name]).trans hbegins)]
    · refine hplaced.entry?_directory hkept (htree.above above name ?_)
      have hne : above ++ [name] ≠ place := by
        rintro rfl
        exact hbegins (List.prefix_refl _)
      rwa [hplaced.entry?_eq, if_neg hne, if_neg hbegins] at hentry

theorem isClear (hplaced : Placed disk other above .directory) (hclear : disk.IsClear place) :
    other.IsClear place := by
  intro front bytes hbegins hne
  rw [hplaced.entry?_eq]
  split_ifs
  · exact nofun
  · exact nofun
  · exact hclear front bytes hbegins hne

theorem below (hplaced : Placed disk other above .directory)
    (hhome : current.workingDirectory = other.workingDirectory)
    (hself : current.entry? (above ++ [name]) = some entry)
    (hrest : ∀ location, location ≠ above ++ [name] →
      current.entry? location = other.entry? location) :
    Placed disk current (above ++ [name]) entry where
  home := hhome.trans hplaced.home
  entry?_eq location := by
    by_cases heq : location = above ++ [name]
    · rw [if_pos heq, heq, hself]
    · rw [if_neg heq, hrest location heq, hplaced.entry?_eq]
      simp only [List.prefix_concat_iff, heq, false_or]
      by_cases habove : location = above
      · simp [habove]
      · rw [if_neg habove]

theorem add (hplaced : Placed disk other above .directory)
    (hnone : disk.entry? (above ++ [name]) = none) (entry : Entry) :
    Placed disk (other.add (above ++ [name]) entry) (above ++ [name]) entry := by
  have hfree : other.entry? (above ++ [name]) = none := by rw [hplaced.entry?_below, hnone]
  refine hplaced.below rfl ?_ fun location hne => ?_
  · rw [entry?_add hfree, if_pos rfl]
  · rw [entry?_add hfree, if_neg hne]

end Placed

def furnish (disk : Disk) (location : Location) : Disk :=
  if (disk.entry? location).isSome then disk else disk.add location .directory

theorem put_eq (disk : Disk) (place : Location) (entry : Entry) :
    disk.put place entry = Disk.add (Disk.remove
      (((List.range place.length).map place.take).foldl furnish disk) place) place entry := rfl

theorem placed_furnish (htree : disk.IsTree) (hclear : disk.IsClear place) {count : Nat}
    (hcount : count < place.length) :
    Placed disk (((List.range (count + 1)).map place.take).foldl furnish disk)
      (place.take count) .directory := by
  induction count with
  | zero => exact htree.placed rfl
  | succ count ih =>
      have hplaced := ih (Nat.lt_of_succ_lt hcount)
      have htake : place.take (count + 1) = place.take count ++ [place[count]] :=
        List.take_succ_eq_append_getElem _
      have hproper : place.take (count + 1) ≠ place := by
        intro heq
        have hlength := congrArg List.length heq
        rw [List.length_take] at hlength
        omega
      rw [List.range_succ, List.map_append, List.foldl_append, List.map_singleton,
        List.foldl_cons, List.foldl_nil]
      generalize ((List.range (count + 1)).map place.take).foldl furnish disk = other
        at hplaced ⊢
      rw [furnish]
      cases hentry : other.entry? (place.take (count + 1)) with
      | none =>
          rw [htake, hplaced.entry?_below] at hentry
          rw [htake]
          exact hplaced.add hentry _
      | some found =>
          have hfound : found = .directory := by
            cases found with
            | directory => rfl
            | file bytes =>
                exact absurd hentry
                  (hplaced.isClear hclear _ bytes (List.take_prefix _ _) hproper)
          rw [htake] at hentry ⊢
          exact hplaced.below rfl (hfound ▸ hentry) fun _ _ => rfl

/-- Putting something at a place makes the directories above it that are missing. -/
theorem placed_put (htree : disk.IsTree) (hclear : disk.IsClear place) (hne : place ≠ [])
    (entry : Entry) : Placed disk (disk.put place entry) place entry := by
  obtain ⟨above, name, rfl⟩ : ∃ above name, place = above ++ [name] :=
    ⟨_, _, (List.dropLast_append_getLast hne).symm⟩
  have hplaced := placed_furnish htree hclear (show above.length < (above ++ [name]).length by simp)
  rw [List.take_left] at hplaced
  rw [put_eq, List.length_append, List.length_singleton]
  generalize ((List.range (above.length + 1)).map (above ++ [name]).take).foldl furnish disk =
    other at hplaced ⊢
  have hfree : Disk.entry? (other.remove (above ++ [name])) (above ++ [name]) = none := by
    rw [entry?_remove hne, if_pos rfl]
  refine hplaced.below rfl ?_ fun location hother => ?_
  · rw [entry?_add hfree, if_pos rfl]
  · rw [entry?_add hfree, if_neg hother, entry?_remove hne, if_neg hother]

theorem routeOf_dot : routeOf ⟨"."⟩ = .ok ⟨false, ["."], false⟩ := rfl

theorem routeOf_root : routeOf ⟨"/"⟩ = .ok ⟨true, [], true⟩ := rfl

theorem find_dot (hhome : disk.entry? disk.workingDirectory = some .directory) :
    disk.find ⟨"."⟩ = .ok (disk.workingDirectory, .directory) := by
  refine find_eq_ok_iff.mpr ⟨_, routeOf_dot, ?_, hhome⟩
  simp only [start, Bool.false_eq_true, if_false, List.append_nil, follow, hhome]
  rfl

theorem find_root (disk : Disk) : disk.find ⟨"/"⟩ = .ok ([], .directory) :=
  find_eq_ok_iff.mpr ⟨_, routeOf_root, rfl, rfl⟩

/-- What leads to a directory, but by no name, need not be made. -/
theorem makeDirectories_eq (hroute : routeOf path = .ok route)
    (hfind : disk.find path = .ok (place, .directory)) (hne : path.text ≠ "")
    (hdestination : disk.destination route = .ok (above, none)) (count : Nat) :
    makeDirectories .none (count + 1) disk path = (.ok (), disk) := by
  have hmake : disk.makeDirectory path = .error .alreadyExists := by
    rw [makeDirectory, hroute]
    simp only [bind, Except.bind, hdestination]
    rfl
  have hdirectory : disk.isDirectory path = true := by
    rw [isDirectory, hfind]
  rw [makeDirectories, if_neg (by simpa using hne), run_none, hmake]
  simp only [settle, hdirectory]
  rfl

/-- The place of a direct path becomes a directory unless a file is on the way. -/
theorem exists_makeDirectories_eq (htree : disk.IsTree) {count : Nat} (hdirect : path.IsDirect)
    (hcount : path.names.length < count) (hclear : disk.IsClear (disk.placeOf path))
    (hfile : ∀ bytes, disk.entry? (disk.placeOf path) ≠ some (.file bytes)) :
    ∃ other, makeDirectories .none count disk path = (.ok (), other) ∧
      Placed disk other (disk.placeOf path) .directory := by
  induction count generalizing path with
  | zero => exact absurd hcount (Nat.not_lt_zero _)
  | succ count ih =>
      obtain ⟨parent, above, name, hparent, -, hplace, hleads⟩ := exists_leadsAbove disk hdirect
      rw [hplace] at hclear hfile ⊢
      rw [makeDirectories, if_neg (by simpa using hdirect.nonempty), run_none]
      cases habove : disk.entry? above with
      | none =>
          rw [makeDirectory_of_none htree hdirect hplace hclear habove, hparent]
          cases hleads with
          | home =>
              rw [htree.home] at habove
              cases habove
          | root => cases habove
          | direct hparentDirect hnames =>
              obtain ⟨other, hmake, hplaced⟩ := ih hparentDirect (by omega)
                (hclear.of_isPrefix (List.prefix_append _ _)) (by simp [habove])
              have hnone : disk.entry? (disk.placeOf parent ++ [name]) = none := by
                by_contra hentry
                rw [htree.above _ _ hentry] at habove
                cases habove
              -- The first call has failed, for want of a directory above. This is the second one.
              have hremake := makeDirectory_of_free (hplaced.isTree htree fun _ => rfl) hdirect
                ((placeOf_eq hplaced.home path).trans hplace) (hplaced.isClear hclear)
                hplaced.entry?_self (by rw [hplaced.entry?_below, hnone])
              simp only [hmake, run_none, hremake]
              exact ⟨_, rfl, hplaced.add hnone _⟩
      | some entry =>
          obtain rfl : entry = .directory := hclear.eq_directory habove
          have hself := htree.placed habove
          cases hentry : disk.entry? (above ++ [name]) with
          | none =>
              rw [makeDirectory_of_free htree hdirect hplace hclear habove hentry]
              exact ⟨_, rfl, hself.add hentry _⟩
          | some found =>
              obtain rfl : found = .directory := by
                cases found with
                | directory => rfl
                | file bytes => exact absurd hentry (hfile bytes)
              have hdirectory : disk.isDirectory path = true := by
                rw [isDirectory, find_eq htree hdirect (hplace ▸ hclear), hplace, visit, hentry]
              rw [makeDirectory_of_entry htree hdirect hplace hclear hentry]
              simp only [settle, hdirectory]
              exact ⟨disk, rfl, htree.placed hentry⟩

/-! ### Staging and publishing -/

section

variable (htree : disk.IsTree) (hdirect : path.IsDirect)
  (hplace : disk.placeOf path = above ++ [name])

include htree hdirect hplace

theorem exists_makeParent_eq (hclear : disk.IsClear (above ++ [name])) :
    ∃ other, disk.makeParent path = (.ok (), other) ∧ Placed disk other above .directory := by
  obtain ⟨parent, front, last, hparent, -, hfront, hleads⟩ := exists_leadsAbove disk hdirect
  obtain ⟨rfl, -⟩ := List.append_inj' (hplace.symm.trans hfront) rfl
  rw [makeParent, hparent]
  cases hleads with
  | home htext =>
      refine ⟨disk, ?_, htree.placed htree.home⟩
      obtain rfl | rfl := htext
      · rfl
      · have hdestination : disk.destination ⟨false, ["."], false⟩ =
            .ok (disk.workingDirectory, none) := by
          simp only [destination, start, Bool.false_eq_true, if_false, List.dropLast_singleton,
            follow, bind, Except.bind, htree.home]
          rfl
        exact makeDirectories_eq routeOf_dot (find_dot htree.home) (by decide) hdestination _
  | root htext =>
      subst htext
      refine ⟨disk, ?_, htree.placed rfl⟩
      exact makeDirectories_eq routeOf_root (find_root disk) (by decide) rfl _
  | direct hparentDirect hnames =>
      dsimp only
      rw [if_neg (by simpa using hparentDirect.nonempty)]
      refine exists_makeDirectories_eq htree hparentDirect ?_ ?_ ?_
      · exact Nat.lt_succ_of_le (Path.length_names_le parent)
      · exact hclear.of_isPrefix (List.prefix_append _ _)
      · intro bytes hfile
        cases hclear.eq_directory hfile

theorem find_stagingDirectory (habove : disk.entry? above = some .directory) :
    disk.find (stagingDirectory path) = .ok (above, .directory) := by
  obtain ⟨parent, front, last, hparent, -, hfront, hleads⟩ := exists_leadsAbove disk hdirect
  obtain ⟨rfl, -⟩ := List.append_inj' (hplace.symm.trans hfront) rfl
  rw [stagingDirectory, hparent]
  cases hleads with
  | home htext => obtain rfl | rfl := htext <;> exact find_dot habove
  | root htext =>
      subst htext
      exact find_root disk
  | direct hparentDirect hnames =>
      dsimp only
      have hentry : disk.entry? (disk.placeOf parent) ≠ none := by simp [habove]
      rw [if_neg (by simpa using hparentDirect.nonempty),
        find_eq htree hparentDirect (htree.isClear hentry), visit, habove]

theorem publish_of_entry (hentry : disk.entry? (above ++ [name]) = some entry)
    (staged : Location) : disk.publish staged path = .error .alreadyExists := by
  have hne : disk.entry? (above ++ [name]) ≠ none := by simp [hentry]
  rw [publish, routeOf_eq hdirect]
  simp only [bind, Except.bind, hentry, destination_of_directory htree hdirect hplace
    (htree.isClear hne) (htree.above above name hne)]
  rfl

theorem publish_of_free (habove : disk.entry? above = some .directory)
    (hnone : disk.entry? (above ++ [name]) = none) {staged : Location}
    (hstaged : disk.entry? staged = some entry) :
    disk.publish staged path = .ok ((disk.remove staged).add (above ++ [name]) entry) := by
  have hclear : disk.IsClear (above ++ [name]) := by
    intro front bytes hbegins hne hfile
    have hfront : front <+: above := (List.prefix_concat_iff.mp hbegins).resolve_left hne
    rw [htree.entry?_of_isPrefix_of_directory habove hfront] at hfile
    cases hfile
  rw [publish, routeOf_eq hdirect]
  simp only [bind, Except.bind, hnone, hstaged, Option.getD_some,
    destination_of_directory htree hdirect hplace hclear habove]
  rfl

end

/-! ### Writing -/

theorem writeNew_eq (disk : Disk) (path : Path) (text : String) :
    writeNew .none disk path text =
      if disk.contains path then (.ok .alreadyExists, disk)
      else
        match disk.makeParent path with
        | (.ok (), other) => persist .none other (stagingDirectory path) path text
        | (.error error, other) => (.error error, other) := by
  have hlook : look .none disk path = disk.contains path := rfl
  rw [writeNew, hlook, makeParent, stagingDirectory]
  split_ifs with hcontains
  · rfl
  · cases path.parent? with
    | none => rfl
    | some parent =>
        dsimp only
        split_ifs
        · rfl
        · rfl

theorem persist_of_free (htree : disk.IsTree) (hdirect : path.IsDirect)
    (hplace : disk.placeOf path = above ++ [name]) (hname : path.fileName? = some name)
    (hroom : HasRoom disk.workingDirectory path) (habove : disk.entry? above = some .directory)
    (hnone : disk.entry? (above ++ [name]) = none) (text : String) :
    persist .none disk (stagingDirectory path) path text =
      (.ok .written, disk.add (above ++ [name]) (.file text.toUTF8)) := by
  obtain ⟨hreserved, hfree⟩ := freshName_spec disk above path.fileName?
  rw [hname] at hreserved
  have hstage : disk.stage (stagingDirectory path) path =
      .ok (above ++ [disk.freshName above path.fileName?],
        disk.add (above ++ [disk.freshName above path.fileName?]) (.file .empty)) := by
    rw [stage_of_hasRoom hroom, find_stagingDirectory htree hdirect hplace habove]
    rfl
  rw [hname] at hstage hfree
  generalize disk.freshName above (some name) = temporary at hstage hfree hreserved
  have hadded := htree.add habove hfree (.file text.toUTF8)
  have hne : above ++ [name] ≠ above ++ [temporary] := by simpa using hreserved.symm
  have hpublish := publish_of_free hadded hdirect hplace
    ((directoriesIn_add hfree _).directory _ habove)
    (by rw [entry?_add hfree, if_neg hne, hnone]) (by rw [entry?_add hfree, if_pos rfl])
  rw [persist, run_none, hstage]
  simp only [Faults.none, fill_add hfree]
  simp only [Faults.run, hpublish, remove_add hfree]

section

variable (htree : disk.IsTree) (hdirect : path.IsDirect) (text : String)

include htree hdirect

theorem writeNew_of_entry (hentry : disk.entry? (disk.placeOf path) = some entry) :
    writeNew .none disk path text = (.ok .alreadyExists, disk) := by
  have hclear : disk.IsClear (disk.placeOf path) := htree.isClear (by simp [hentry])
  rw [writeNew_eq, contains_eq htree hdirect hclear, hentry]
  rfl

/-- Without room for staging nothing is written, but the directories above are there. -/
theorem exists_writeNew_eq_of_not_hasRoom (hroom : ¬ HasRoom disk.workingDirectory path)
    (hclear : disk.IsClear (disk.placeOf path)) (hnone : disk.entry? (disk.placeOf path) = none) :
    ∃ other above name, disk.placeOf path = above ++ [name] ∧
      writeNew .none disk path text = (.error .nameTooLong, other) ∧
      Placed disk other above .directory := by
  obtain ⟨-, above, name, -, -, hplace, -⟩ := exists_leadsAbove disk hdirect
  rw [writeNew_eq, contains_eq htree hdirect hclear, hnone]
  rw [hplace] at hclear
  obtain ⟨other, hmake, hplaced⟩ := exists_makeParent_eq htree hdirect hplace hclear
  rw [← hplaced.home] at hroom
  have hstage : other.stage (stagingDirectory path) path = .error .nameTooLong := by
    rw [stage, if_pos (Nat.not_lt.mp hroom)]
    rfl
  exact ⟨other, above, name, hplace, by simp [hmake, persist, run_none, hstage], hplaced⟩

theorem exists_writeNew_eq_of_none (hroom : HasRoom disk.workingDirectory path)
    (hclear : disk.IsClear (disk.placeOf path))
    (hnone : disk.entry? (disk.placeOf path) = none) :
    ∃ other, writeNew .none disk path text = (.ok .written, other) ∧
      Placed disk other (disk.placeOf path) (.file text.toUTF8) := by
  obtain ⟨parent, above, name, hparent, hname, hplace, -⟩ := exists_leadsAbove disk hdirect
  rw [writeNew_eq, contains_eq htree hdirect hclear, hnone]
  rw [hplace] at hclear hnone ⊢
  obtain ⟨other, hmake, hplaced⟩ := exists_makeParent_eq htree hdirect hplace hclear
  have hpersist := persist_of_free (hplaced.isTree htree fun _ => rfl) hdirect
    ((placeOf_eq hplaced.home path).trans hplace) hname (hplaced.home ▸ hroom)
    hplaced.entry?_self (by rw [hplaced.entry?_below, hnone]) text
  exact ⟨_, by simp [hmake, hpersist], hplaced.add hnone _⟩

end

end Disk

end StoryKnobs

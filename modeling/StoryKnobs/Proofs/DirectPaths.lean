import StoryKnobs.FileTree.Disk
import StoryKnobs.Proofs.NormalForms

/-!
# Paths that never go up

A direct path goes down from name to name and ends in a name. The path above it has all names but
the last one, and is direct too, unless it has no names at all.
-/

namespace StoryKnobs.Path

/-- A step that does not go up, and whose name a disk can look up. -/
structure IsPlain (step : String) : Prop where
  ne_parent : step ≠ ".."
  short : step.utf8ByteSize ≤ Disk.nameLimit

/-- A path that never goes up, ends in a name and can be looked up on a disk. -/
structure IsDirect (path : Path) : Prop where
  nonempty : path.text ≠ ""
  unclosed : path.text.toList.getLast? ≠ some '/'
  undotted : path.steps.getLast? ≠ some "."
  nul : '\x00' ∉ path.text.toList
  short : path.text.utf8ByteSize < Disk.pathLimit
  plain : ∀ step ∈ path.steps, IsPlain step

instance (step : String) : Decidable (IsPlain step) :=
  decidable_of_iff (step ≠ ".." ∧ step.utf8ByteSize ≤ Disk.nameLimit)
    ⟨fun ⟨hparent, hshort⟩ => ⟨hparent, hshort⟩, fun ⟨hparent, hshort⟩ => ⟨hparent, hshort⟩⟩

instance (path : Path) : Decidable path.IsDirect :=
  decidable_of_iff (path.text ≠ "" ∧ path.text.toList.getLast? ≠ some '/' ∧
      path.steps.getLast? ≠ some "." ∧ '\x00' ∉ path.text.toList ∧
      path.text.utf8ByteSize < Disk.pathLimit ∧ ∀ step ∈ path.steps, IsPlain step)
    ⟨fun ⟨hnonempty, hunclosed, hundotted, hnul, hshort, hplain⟩ =>
      ⟨hnonempty, hunclosed, hundotted, hnul, hshort, hplain⟩,
    fun ⟨hnonempty, hunclosed, hundotted, hnul, hshort, hplain⟩ =>
      ⟨hnonempty, hunclosed, hundotted, hnul, hshort, hplain⟩⟩

variable {path parent : Path} {name : List Char} {segments : List (List Char)}

/-! ### Segments -/

theorem segments_of_notMem (hslash : '/' ∉ name) : Text.segments isSeparator name = [name] := by
  rw [Text.segments, splitFirst_of_notMem hslash]

theorem segments_append_slash (front : List Char) (hslash : '/' ∉ name) :
    Text.segments isSeparator (front ++ ['/'] ++ name) =
      Text.segments isSeparator front ++ [name] := by
  rw [List.append_assoc, List.singleton_append, Text.segments,
    Text.splitFirst_append_cons front name rfl, segments_of_notMem hslash]
  rfl

/-- Only an absolute path starts with an empty segment. -/
theorem head?_of_splitFirst {chars : List Char} (hne : chars ≠ [])
    (hfirst : (Text.splitFirst isSeparator chars).1 = []) : chars.head? = some '/' := by
  obtain ⟨char, chars, rfl⟩ := List.exists_cons_of_ne_nil hne
  rw [Text.splitFirst] at hfirst
  dsimp only at hfirst
  split_ifs at hfirst with hcut
  simpa [isSeparator] using hcut

theorem ofFirst_eq {first : List Char} (hroot : ¬ (first = [] ∧ segments = [])) :
    ofFirst first segments = ofSegments (first :: segments) := by
  rw [ofFirst.eq_def]
  split
  · exact absurd ⟨rfl, rfl⟩ hroot
  · rfl

theorem exists_intercalate_concat (front : List (List Char)) (last : List Char) :
    ∃ before, ['/'].intercalate (front ++ [last]) = before ++ last := by
  cases front with
  | nil => exact ⟨[], by simp⟩
  | cons segment front =>
      refine ⟨['/'].intercalate (segment :: front) ++ ['/'], ?_⟩
      rw [intercalate_append (by simp) (by simp), List.intercalate_singleton, List.append_assoc]
      rfl

/-! ### Names -/

def namesOf (segments : List (List Char)) : List String :=
  (segments.filter (!isIdle ·)).map String.ofList

theorem names_eq_namesOf (path : Path) :
    path.names = namesOf (Text.segments isSeparator path.text.toList) := by
  rw [names, steps, List.filter_map, List.filter_filter, namesOf]
  congr 1
  refine List.filter_congr fun segment _ => ?_
  have hdot : (String.ofList segment == ".") = (segment == ['.']) := by
    rw [Bool.eq_iff_iff, beq_iff_eq, beq_iff_eq, ← String.toList_inj, String.toList_ofList]
    rfl
  cases segment with
  | nil => rfl
  | cons char chars =>
      rw [Function.comp_apply, bne, hdot, isIdle]
      simp

theorem namesOf_append (segments others : List (List Char)) :
    namesOf (segments ++ others) = namesOf segments ++ namesOf others := by
  rw [namesOf, List.filter_append, List.map_append]
  rfl

theorem namesOf_singleton (hidle : isIdle name = false) :
    namesOf [name] = [String.ofList name] := by
  simp [namesOf, hidle]

theorem namesOf_eq_nil (hidle : ∀ segment ∈ segments, isIdle segment) : namesOf segments = [] := by
  rw [namesOf, List.map_eq_nil_iff, List.filter_eq_nil_iff]
  intro segment hmem
  simp [hidle segment hmem]

theorem namesOf_dropIdle (segments : List (List Char)) :
    namesOf (dropIdle segments) = namesOf segments := by
  have hsplit : dropIdle segments ++ segments.rtakeWhile isIdle = segments :=
    List.rdropWhile_append_rtakeWhile
  have hidle : namesOf (segments.rtakeWhile isIdle) = [] :=
    namesOf_eq_nil fun _ hmem => List.mem_rtakeWhile_imp hmem
  calc
    namesOf (dropIdle segments) =
        namesOf (dropIdle segments) ++ namesOf (segments.rtakeWhile isIdle) := by
      rw [hidle, List.append_nil]
    _ = namesOf segments := by rw [← namesOf_append, hsplit]

theorem length_names_le (path : Path) : path.names.length ≤ path.text.length := by
  have hall (chars : List Char) :
      ((Text.segments isSeparator chars).filter (!·.isEmpty)).length ≤ chars.length := by
    induction chars with
    | nil => simp [Text.segments, Text.splitFirst]
    | cons char chars ih =>
        obtain ⟨first, others, hsplit⟩ : ∃ first others,
            Text.splitFirst isSeparator chars = (first, others) := ⟨_, _, rfl⟩
        rw [Text.segments, hsplit] at ih
        rw [Text.segments, Text.splitFirst, hsplit]
        cases isSeparator char with
        | true => exact ih.trans (Nat.le_succ _)
        | false =>
            have hothers := ((List.sublist_cons_self first others).filter (!·.isEmpty)).length_le
            exact Nat.succ_le_succ (hothers.trans ih)
  calc
    path.names.length ≤ path.steps.length := List.length_filter_le _ _
    _ ≤ path.text.toList.length := by
      rw [steps, List.length_map]
      exact hall path.text.toList
    _ = path.text.length := String.length_toList

/-- The path above a path with a slash in front of its last name is the root, or it consists of
segments of the path. -/
theorem IsName.exists_parent?_of_slash (hname : IsName name) {front : List Char}
    (hpath : path.text.toList = front ++ ['/'] ++ name) :
    ∃ parent, path.parent? = some parent ∧ path.names = parent.names ++ [String.ofList name] ∧
      (parent = ⟨"/"⟩ ∧ path.isAbsolute = true ∨
        ∃ first others, ¬ (first = [] ∧ dropIdle others = []) ∧
          parent = ofSegments (first :: dropIdle others) ∧
          first :: dropIdle others ⊆ Text.segments isSeparator path.text.toList) := by
  obtain ⟨first, others, hfront⟩ : ∃ first others,
      Text.splitFirst isSeparator front = (first, others) := ⟨_, _, rfl⟩
  have hsegments : Text.segments isSeparator path.text.toList = first :: others ++ [name] := by
    rw [hpath, segments_append_slash front hname.slash, Text.segments, hfront]
  have hnames : path.names = namesOf (first :: dropIdle others) ++ [String.ofList name] := by
    rw [names_eq_namesOf, hsegments, namesOf_append, namesOf_singleton hname.idle,
      ← List.singleton_append, namesOf_append, ← namesOf_dropIdle others, ← namesOf_append,
      List.singleton_append]
  have hparent := hname.parent?_of_slash hpath
  rw [hfront] at hparent
  dsimp only at hparent
  by_cases hroot : first = [] ∧ dropIdle others = []
  · obtain ⟨rfl, hothers⟩ := hroot
    rw [hothers] at hparent hnames
    refine ⟨⟨"/"⟩, hparent, hnames, .inl ⟨rfl, ?_⟩⟩
    have hslash : path.text.toList.head? = some '/' :=
      head?_of_splitFirst (by simp [hpath]) (List.cons.inj hsegments).1
    rw [isAbsolute, hslash]
    rfl
  · rw [ofFirst_eq hroot] at hparent
    have hsubset : first :: dropIdle others ⊆ Text.segments isSeparator path.text.toList := by
      rw [hsegments]
      exact fun segment hmem => List.mem_append_left _
        (List.cons_subset_cons first (List.rdropWhile_prefix isIdle others).subset hmem)
    refine ⟨_, hparent, ?_, .inr ⟨first, others, hroot, rfl, hsubset⟩⟩
    rw [hnames, names_eq_namesOf (ofSegments _), segments_ofSegments (by simp)
      fun segment hmem => slash_notMem_of_mem_segments (hsubset hmem)]

/-- The path above a path of names has all of them but the last one. -/
theorem parent?_ofSegments {last : List Char} (hne : segments ≠ [])
    (hnames : ∀ segment ∈ segments ++ [last], IsName segment) :
    (ofSegments (segments ++ [last])).parent? = some (ofSegments segments) := by
  obtain ⟨first, others, rfl⟩ := List.exists_cons_of_ne_nil hne
  have hlast : IsName last := hnames last (by simp)
  have hfront : ∀ segment ∈ first :: others, IsName segment :=
    fun segment hmem => hnames segment (List.mem_append_left _ hmem)
  have hpath : (ofSegments (first :: others ++ [last])).text.toList =
      (ofSegments (first :: others)).text.toList ++ ['/'] ++ last := by
    rw [toList_ofSegments, intercalate_append hne (List.cons_ne_nil _ _), toList_ofSegments,
      List.intercalate_singleton, List.append_assoc]
    rfl
  have hsplit : Text.splitFirst isSeparator (ofSegments (first :: others)).text.toList =
      (first, others) := by
    have hsegments := segments_ofSegments hne fun segment hmem => (hfront segment hmem).slash
    rw [Text.segments] at hsegments
    exact Prod.ext (List.cons.inj hsegments).1 (List.cons.inj hsegments).2
  have hidle : dropIdle others = others := by
    refine List.rdropWhile_eq_self_iff.mpr fun hothers => ?_
    have hmem := List.mem_cons_of_mem first (List.getLast_mem hothers)
    simp [(hfront _ hmem).idle]
  have hroot : ¬ (first = [] ∧ others = []) :=
    fun hempty => (hfront first List.mem_cons_self).ne_nil hempty.1
  rw [hlast.parent?_of_slash hpath, hsplit]
  dsimp only
  rw [hidle, ofFirst_eq hroot]

/-! ### The path above a direct path -/

/-- The path above a direct path is direct, or it has no names. -/
inductive IsAbove (path parent : Path) : Prop where
  | empty (htext : parent = ⟨""⟩) (hrelative : path.isAbsolute = false)
  | dot (htext : parent = ⟨"."⟩) (hrelative : path.isAbsolute = false)
  | root (htext : parent = ⟨"/"⟩) (habsolute : path.isAbsolute = true)
  | direct (hdirect : parent.IsDirect) (heq : parent.isAbsolute = path.isAbsolute)

namespace IsDirect

theorem exists_name (hdirect : path.IsDirect) :
    ∃ above name, Above above ∧ IsName name ∧ path.text.toList = above ++ name := by
  obtain ⟨above, name, habove, hslash, hpath⟩ := exists_above_append path.text.toList
  have hne : name ≠ [] := by
    rintro rfl
    rw [List.append_nil] at hpath
    obtain rfl | ⟨front, rfl⟩ := habove
    · exact hdirect.nonempty (by simpa using hpath)
    · exact hdirect.unclosed (by rw [hpath, List.getLast?_concat])
  have hlast : path.steps.getLast? = some (String.ofList name) := by
    have hfilter : [name].filter (!·.isEmpty) = [name] := by simp [hne]
    rw [steps, hpath]
    obtain rfl | ⟨front, rfl⟩ := habove
    · rw [List.nil_append, segments_of_notMem hslash, hfilter]
      rfl
    · rw [segments_append_slash front hslash, List.filter_append, hfilter, List.map_append,
        List.map_singleton, List.getLast?_concat]
  refine ⟨above, name, habove, ⟨hslash, ?_, ?_⟩, hpath⟩
  · have hdot : name ≠ ['.'] := by
      rintro rfl
      exact hdirect.undotted hlast
    simp [isIdle, hne, hdot]
  · rintro rfl
    exact (hdirect.plain _ (List.mem_of_getLast? hlast)).ne_parent rfl

/-- Segments of which the last one is a name make up a direct path. -/
theorem of_segments {before : List (List Char)} {last : List Char}
    (hslash : ∀ segment ∈ before ++ [last], '/' ∉ segment) (hidle : isIdle last = false)
    (hnul : '\x00' ∉ (ofSegments (before ++ [last])).text.toList)
    (hshort : (ofSegments (before ++ [last])).text.utf8ByteSize < Disk.pathLimit)
    (hplain : ∀ segment ∈ before ++ [last], segment ≠ [] → IsPlain (String.ofList segment)) :
    (ofSegments (before ++ [last])).IsDirect := by
  have hne : last ≠ [] := by
    rintro rfl
    exact absurd hidle (by decide)
  have hsteps : (ofSegments (before ++ [last])).steps =
      ((before ++ [last]).filter (!·.isEmpty)).map String.ofList := by
    rw [steps, segments_ofSegments (by simp) hslash]
  obtain ⟨start, hstart⟩ := exists_intercalate_concat before last
  rw [← toList_ofSegments] at hstart
  refine ⟨?_, ?_, ?_, hnul, hshort, ?_⟩
  · intro hempty
    rw [hempty] at hstart
    exact hne (List.append_eq_nil_iff.mp hstart.symm).2
  · rw [hstart, List.getLast?_append_of_ne_nil _ hne]
    exact fun hlast => hslash last (by simp) (List.mem_of_getLast? hlast)
  · have hfilter : [last].filter (!·.isEmpty) = [last] := by simp [hne]
    rw [hsteps, List.filter_append, hfilter, List.map_append, List.map_singleton,
      List.getLast?_concat]
    intro hdot
    have hlast : last = ['.'] := by simpa using congrArg (Option.map String.toList) hdot
    exact absurd (hlast ▸ hidle) (by decide)
  · intro step hstep
    rw [hsteps] at hstep
    obtain ⟨segment, hsegment, rfl⟩ := List.mem_map.mp hstep
    obtain ⟨hmem, hfull⟩ := List.mem_filter.mp hsegment
    exact hplain segment hmem (by simpa using hfull)

/-- What is above a direct path is direct if it ends in a name. -/
theorem of_parent? (hdirect : path.IsDirect) {before : List (List Char)} {last : List Char}
    (hparent : path.parent? = some (ofSegments (before ++ [last]))) (hidle : isIdle last = false)
    (hmem : ∀ segment ∈ before ++ [last],
      segment ∈ Text.segments isSeparator path.text.toList) :
    (ofSegments (before ++ [last])).IsDirect := by
  refine .of_segments (fun segment hsegment => slash_notMem_of_mem_segments (hmem segment hsegment))
    hidle ?_ ?_ fun segment hsegment hne => ?_
  · exact fun hnul => hdirect.nul ((isPrefix_of_parent? hparent).subset hnul)
  · exact Nat.lt_of_le_of_lt (utf8ByteSize_le_of_parent? hparent) hdirect.short
  · refine hdirect.plain _ (List.mem_map_of_mem ?_)
    exact List.mem_filter.mpr ⟨hmem segment hsegment, by simpa using hne⟩

/-- What is above a direct path, unless it is the root, is direct or a dot. -/
theorem isAbove_ofSegments (hdirect : path.IsDirect) {first : List Char}
    (hparent : path.parent? = some (ofSegments (first :: dropIdle segments)))
    (hroot : ¬ (first = [] ∧ dropIdle segments = []))
    (hsubset : first :: dropIdle segments ⊆ Text.segments isSeparator path.text.toList) :
    IsAbove path (ofSegments (first :: dropIdle segments)) := by
  by_cases hidle : isIdle first = true ∧ dropIdle segments = []
  · obtain ⟨hfirst, hothers⟩ := hidle
    have hne : first ≠ [] := fun hempty => hroot ⟨hempty, hothers⟩
    obtain rfl : first = ['.'] := by simpa [isIdle, hne] using hfirst
    rw [hothers] at hparent ⊢
    exact .dot rfl (isAbsolute_of_parent? hparent (by decide)).symm
  · obtain ⟨before, last, hlast, hfull⟩ : ∃ before last,
        first :: dropIdle segments = before ++ [last] ∧ isIdle last = false := by
      by_cases hothers : dropIdle segments = []
      · exact ⟨[], first, by rw [hothers]; rfl, by simpa [hothers] using hidle⟩
      · refine ⟨first :: (dropIdle segments).dropLast, (dropIdle segments).getLast hothers, ?_, ?_⟩
        · rw [List.cons_append, List.dropLast_append_getLast]
        · exact Bool.not_eq_true _ ▸ List.rdropWhile_last_not isIdle segments hothers
    rw [hlast] at hparent hsubset ⊢
    have hdirectParent := hdirect.of_parent? hparent hfull fun segment hmem => hsubset hmem
    exact .direct hdirectParent (isAbsolute_of_parent? hparent hdirectParent.nonempty)

theorem exists_parent?_of_slash (hdirect : path.IsDirect) {front : List Char}
    (hpath : path.text.toList = front ++ ['/'] ++ name) (hname : IsName name) :
    ∃ parent, path.parent? = some parent ∧ path.names = parent.names ++ [String.ofList name] ∧
      IsAbove path parent := by
  obtain ⟨parent, hparent, hnames, hroot | ⟨first, others, hroot, rfl, hsubset⟩⟩ :=
    hname.exists_parent?_of_slash hpath
  · exact ⟨parent, hparent, hnames, .root hroot.1 hroot.2⟩
  · exact ⟨_, hparent, hnames, hdirect.isAbove_ofSegments hparent hroot hsubset⟩

theorem exists_parent? (hdirect : path.IsDirect) : ∃ parent last, path.parent? = some parent ∧
    path.fileName? = some last ∧ path.names = parent.names ++ [last] ∧ IsAbove path parent := by
  obtain ⟨above, name, habove, hname, hpath⟩ := hdirect.exists_name
  have hfileName := hname.fileName?_eq habove hpath
  obtain rfl | ⟨front, rfl⟩ := habove
  · rw [List.nil_append] at hpath
    have hnames : path.names = [String.ofList name] := by
      rw [names_eq_namesOf, hpath, segments_of_notMem hname.slash, namesOf_singleton hname.idle]
    obtain ⟨char, chars, rfl⟩ := List.exists_cons_of_ne_nil hname.ne_nil
    refine ⟨⟨""⟩, _, ?_, hfileName, hnames, .empty rfl ?_⟩
    · rw [parent?, hpath, hname.splitFirst_eq]
      rfl
    · rw [isAbsolute, hpath, List.head?_cons, beq_eq_false_iff_ne]
      rintro ⟨rfl⟩
      exact hname.slash List.mem_cons_self
  · obtain ⟨parent, hparent, hnames, habove⟩ := hdirect.exists_parent?_of_slash hpath hname
    exact ⟨parent, _, hparent, hfileName, hnames, habove⟩

end IsDirect

/-! ### Normal forms of direct paths -/

theorem filterMap_componentOf (hparent : ['.', '.'] ∉ segments) :
    segments.filterMap componentOf = (namesOf segments).map Component.name := by
  induction segments with
  | nil => rfl
  | cons segment segments ih =>
      obtain ⟨hne, hothers⟩ := not_or.mp fun hmem => hparent (List.mem_cons.mpr hmem)
      rw [← List.singleton_append, namesOf_append, List.filterMap_append, List.map_append,
        ih hothers]
      congr 1
      cases hidle : isIdle segment with
      | true => simp [namesOf, componentOf, hidle]
      | false => simp [namesOf, componentOf, hidle, Ne.symm hne]

theorem IsDirect.normal_eq (hdirect : path.IsDirect) (hrelative : path.isAbsolute = false) :
    path.normal = path.names.map Component.name := by
  obtain ⟨first, others, hsegments⟩ : ∃ first others,
      Text.segments isSeparator path.text.toList = first :: others := ⟨_, _, rfl⟩
  have hparent : ['.', '.'] ∉ first :: others := by
    intro hmem
    have hstep : String.ofList ['.', '.'] ∈ path.steps :=
      List.mem_map_of_mem (List.mem_filter.mpr ⟨hsegments ▸ hmem, rfl⟩)
    exact (hdirect.plain _ hstep).ne_parent rfl
  have hfirst : first ≠ [] := by
    rintro rfl
    have hhead := head?_of_splitFirst (by simpa using hdirect.nonempty) (List.cons.inj hsegments).1
    rw [isAbsolute, hhead] at hrelative
    cases hrelative
  -- A dot that comes first is a component, but one that the normal form leaves out.
  have hstep : ((firstComponentOf first others.isEmpty).toList).foldl step [] =
      [first].filterMap componentOf := by
    rw [firstComponentOf, if_neg (by simpa using hfirst)]
    split_ifs with hdot
    · obtain rfl : first = ['.'] := by simpa using hdot
      rfl
    · have hidle : isIdle first = false := by simpa [isIdle, hfirst] using hdot
      have hne : first ≠ ['.', '.'] := fun heq => hparent (by simp [heq])
      simp [componentOf, hidle, hne, step]
  rw [normal, components_of_segments hsegments, List.foldl_append, hstep,
    filterMap_componentOf (List.not_mem_of_not_mem_cons hparent), foldl_step_names,
    ← filterMap_componentOf (List.not_mem_of_not_mem_cons hparent), ← List.filterMap_append,
    List.singleton_append, filterMap_componentOf hparent, names_eq_namesOf, hsegments]

end StoryKnobs.Path

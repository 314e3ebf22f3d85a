import StoryKnobs.Path.Basic
import Mathlib.Data.List.DropRight
import Mathlib.Data.String.Basic

/-!
# Paths above other paths

The path without its last component is a beginning of the path, and the steps along it are a proper
beginning of the steps along the path. Two paths that end in different names of one directory have
the same path above them.
-/

namespace StoryKnobs

namespace Text

theorem segments_eq_splitOnP (cut : Char → Bool) (chars : List Char) :
    segments cut chars = chars.splitOnP cut := by
  induction chars with
  | nil => rfl
  | cons char chars ih =>
      rw [List.splitOnP_cons_eq_if_modifyHead, ← ih]
      simp only [segments, splitFirst]
      split <;> rfl

/-- The segments of a text before and after a cut are its segments. -/
theorem splitFirst_append_cons {cut : Char → Bool} (before after : List Char) {char : Char}
    (hcut : cut char = true) :
    splitFirst cut (before ++ char :: after) =
      ((splitFirst cut before).1, (splitFirst cut before).2 ++ segments cut after) := by
  have hsegments : segments cut (before ++ char :: after) =
      segments cut before ++ segments cut after := by
    simp only [segments_eq_splitOnP]
    exact List.splitOnP_append_cons before after hcut
  simp only [segments, List.cons_append, List.cons.injEq] at hsegments
  exact Prod.ext hsegments.1 hsegments.2

theorem splitFirst_of_uncut {cut : Char → Bool} {chars : List Char}
    (huncut : ∀ char ∈ chars, cut char = false) : splitFirst cut chars = (chars, []) := by
  have hsegments : segments cut chars = [chars] := by
    rw [segments_eq_splitOnP]
    exact List.splitOnP_eq_singleton huncut
  simp only [segments, List.cons.injEq] at hsegments
  exact Prod.ext hsegments.1 hsegments.2

theorem uncut_of_mem_segments {cut : Char → Bool} {chars segment : List Char}
    (hmem : segment ∈ segments cut chars) : ∀ char ∈ segment, cut char = false := by
  induction chars generalizing segment with
  | nil =>
      obtain rfl : segment = [] := by simpa [segments, splitFirst] using hmem
      exact fun _ hchar => nomatch hchar
  | cons first chars ih =>
      rw [segments_eq_splitOnP, List.splitOnP_cons_eq_if_modifyHead, ← segments_eq_splitOnP] at hmem
      split at hmem
      · rcases List.mem_cons.mp hmem with rfl | hmem
        · exact fun _ hchar => nomatch hchar
        · exact ih hmem
      · rename_i hfirst
        rw [segments, List.modifyHead_cons] at hmem
        rcases List.mem_cons.mp hmem with rfl | hmem
        · exact List.forall_mem_cons.mpr ⟨by simpa using hfirst, ih List.mem_cons_self⟩
        · exact ih (List.mem_cons_of_mem _ hmem)

def Closed (cut : Char → Bool) (front : List Char) : Prop :=
  front = [] ∨ ∃ above char, cut char = true ∧ front = above ++ [char]

theorem exists_closed_append (cut : Char → Bool) (chars : List Char) :
    ∃ front last, chars = front ++ last ∧ Closed cut front ∧ ∀ char ∈ last, cut char = false := by
  induction chars with
  | nil => exact ⟨[], [], rfl, .inl rfl, List.forall_mem_nil _⟩
  | cons char chars ih =>
      obtain ⟨front, last, rfl, rfl | ⟨above, final, hfinal, rfl⟩, hlast⟩ := ih
      · by_cases hcut : cut char = true
        · exact ⟨[char], last, rfl, .inr ⟨[], char, hcut, rfl⟩, hlast⟩
        · exact ⟨[], char :: last, rfl, .inl rfl,
            List.forall_mem_cons.mpr ⟨Bool.eq_false_iff.mpr hcut, hlast⟩⟩
      · exact ⟨char :: above ++ [final], last, rfl, .inr ⟨char :: above, final, hfinal, rfl⟩, hlast⟩

end Text

namespace Path

theorem segments_eq_splitOn (chars : List Char) :
    Text.segments isSeparator chars = chars.splitOn '/' :=
  Text.segments_eq_splitOnP isSeparator chars

theorem splitFirst_of_notMem {chars : List Char} (hslash : '/' ∉ chars) :
    Text.splitFirst isSeparator chars = (chars, []) := by
  refine Text.splitFirst_of_uncut fun char hchar => ?_
  have hne : char ≠ '/' := by
    rintro rfl
    exact hslash hchar
  simpa [isSeparator] using hne

theorem slash_notMem_of_mem_segments {chars segment : List Char}
    (hmem : segment ∈ Text.segments isSeparator chars) : '/' ∉ segment := by
  intro hslash
  have huncut := Text.uncut_of_mem_segments hmem '/' hslash
  cases huncut

theorem intercalate_segments (chars : List Char) :
    ['/'].intercalate (Text.segments isSeparator chars) = chars := by
  rw [segments_eq_splitOn, List.intercalate_splitOn]

theorem toList_ofSegments (segments : List (List Char)) :
    (ofSegments segments).text.toList = ['/'].intercalate segments := by
  simp [ofSegments, Function.comp_def]

theorem segments_ofSegments {segments : List (List Char)} (hne : segments ≠ [])
    (hslash : ∀ segment ∈ segments, '/' ∉ segment) :
    Text.segments isSeparator (ofSegments segments).text.toList = segments := by
  rw [segments_eq_splitOn, toList_ofSegments, List.splitOn_intercalate '/' hslash hne]

theorem intercalate_append {front back : List (List Char)} (hfront : front ≠ [])
    (hback : back ≠ []) :
    ['/'].intercalate (front ++ back) =
      ['/'].intercalate front ++ '/' :: ['/'].intercalate back := by
  induction front with
  | nil => exact absurd rfl hfront
  | cons segment front ih =>
      cases front with
      | nil => simp [List.intercalate_cons_of_ne_nil hback]
      | cons other front =>
          have hne : other :: front ++ back ≠ [] := by simp
          rw [List.cons_append, List.intercalate_cons_of_ne_nil hne, ih (by simp),
            List.intercalate_cons_cons]
          simp

/-! ### The path above -/

/-- What `dropIdle` leaves is followed by segments without meaning only. -/
theorem exists_eq_dropIdle_append (segments : List (List Char)) :
    ∃ idle, segments = dropIdle segments ++ idle :=
  (List.rdropWhile_prefix isIdle segments).imp fun _ => Eq.symm

/-- The last segment that `dropIdle` leaves is not empty. -/
theorem exists_dropIdle_eq_append {segments : List (List Char)} (hne : dropIdle segments ≠ []) :
    ∃ last, dropIdle segments = (dropIdle segments).dropLast ++ [last] ∧ last ≠ [] := by
  refine ⟨(dropIdle segments).getLast hne, (List.dropLast_append_getLast hne).symm, ?_⟩
  intro hnil
  apply List.rdropWhile_last_not isIdle segments hne
  change isIdle ((dropIdle segments).getLast hne) = true
  rw [hnil]
  rfl

/-- How the segments of a path continue those of the path above it. -/
theorem segments_of_parent? {path parent : Path} (hparent : path.parent? = some parent) :
    ∃ kept rest, Text.segments isSeparator path.text.toList = kept ++ rest ∧
      (∃ segment ∈ rest, segment ≠ []) ∧
      (kept = [] ∧ parent = ⟨""⟩ ∨ kept = [[]] ∧ parent = ⟨"/"⟩ ∨
        kept ≠ [] ∧ parent = ofSegments kept) := by
  obtain ⟨first, others, hsplit⟩ : ∃ first others,
      Text.splitFirst isSeparator path.text.toList = (first, others) := ⟨_, _, rfl⟩
  have hsegments : Text.segments isSeparator path.text.toList = first :: others := by
    rw [Text.segments, hsplit]
  rw [hsegments]
  unfold parent? at hparent
  rw [hsplit] at hparent
  by_cases hothers : dropIdle others = []
  · cases first with
    | nil => simp [hothers] at hparent
    | cons char first =>
        simp only [hothers, Option.some.injEq] at hparent
        exact ⟨[], (char :: first) :: others, rfl, ⟨_, List.mem_cons_self, by simp⟩,
          .inl ⟨rfl, hparent.symm⟩⟩
  · obtain ⟨last, hlast, hlastne⟩ := exists_dropIdle_eq_append hothers
    obtain ⟨idle, hidle⟩ := exists_eq_dropIdle_append others
    obtain ⟨idleAbove, hidleAbove⟩ := exists_eq_dropIdle_append (dropIdle others).dropLast
    have hrest : others =
        dropIdle (dropIdle others).dropLast ++ (idleAbove ++ last :: idle) :=
      calc
        others = dropIdle others ++ idle := hidle
        _ = (dropIdle others).dropLast ++ [last] ++ idle := by rw [← hlast]
        _ = dropIdle (dropIdle others).dropLast ++ idleAbove ++ [last] ++ idle := by
          rw [← hidleAbove]
        _ = dropIdle (dropIdle others).dropLast ++ (idleAbove ++ last :: idle) := by simp
    refine ⟨first :: dropIdle (dropIdle others).dropLast, idleAbove ++ last :: idle,
      by rw [List.cons_append, ← hrest], ⟨last, by simp, hlastne⟩, .inr ?_⟩
    obtain ⟨segment, segments, hcons⟩ := List.exists_cons_of_ne_nil hothers
    simp only [hcons] at hparent
    rw [← hcons] at hparent
    obtain rfl := Option.some.inj hparent
    rw [ofFirst.eq_def]
    split
    · rename_i heq
      exact .inl ⟨by rw [heq], rfl⟩
    · exact .inr ⟨by simp, rfl⟩

theorem isPrefix_of_parent? {path parent : Path} (hparent : path.parent? = some parent) :
    parent.text.toList <+: path.text.toList := by
  obtain ⟨kept, rest, hsegments, ⟨segment, hsegment, -⟩, hkept⟩ := segments_of_parent? hparent
  have hrest : rest ≠ [] := List.ne_nil_of_mem hsegment
  rw [← intercalate_segments path.text.toList, hsegments]
  obtain ⟨-, rfl⟩ | ⟨rfl, rfl⟩ | ⟨hne, rfl⟩ := hkept
  · exact List.nil_prefix
  · rw [intercalate_append (by simp) hrest]
    exact ⟨_, rfl⟩
  · rw [intercalate_append hne hrest, toList_ofSegments]
    exact List.prefix_append _ _

theorem utf8ByteSize_le_of_parent? {path parent : Path} (hparent : path.parent? = some parent) :
    parent.text.utf8ByteSize ≤ path.text.utf8ByteSize := by
  obtain ⟨tail, htail⟩ := isPrefix_of_parent? hparent
  rw [← String.utf8Len_toList, ← String.utf8Len_toList, ← htail, String.utf8Len_append]
  exact Nat.le_add_right _ _

theorem isAbsolute_of_parent? {path parent : Path} (hparent : path.parent? = some parent)
    (hne : parent.text ≠ "") : parent.isAbsolute = path.isAbsolute := by
  obtain ⟨tail, htail⟩ := isPrefix_of_parent? hparent
  obtain ⟨char, chars, hcons⟩ := List.exists_cons_of_ne_nil
    (show parent.text.toList ≠ [] by simpa using hne)
  rw [isAbsolute, isAbsolute, ← htail, hcons]
  rfl

/-- At least one step leads from the path above to a path. -/
theorem steps_of_parent? {path parent : Path} (hparent : path.parent? = some parent) :
    ∃ rest, rest ≠ [] ∧ path.steps = parent.steps ++ rest := by
  obtain ⟨kept, rest, hsegments, ⟨segment, hsegment, hne⟩, hkept⟩ := segments_of_parent? hparent
  refine ⟨(rest.filter (!·.isEmpty)).map String.ofList, ?_, ?_⟩
  · refine List.ne_nil_of_mem (List.mem_map_of_mem (List.mem_filter.mpr ⟨hsegment, ?_⟩))
    simpa using hne
  · have hsteps : parent.steps = (kept.filter (!·.isEmpty)).map String.ofList := by
      obtain ⟨rfl, rfl⟩ | ⟨rfl, rfl⟩ | ⟨hkeptne, rfl⟩ := hkept
      · rfl
      · rfl
      · have hslash : ∀ segment ∈ kept, '/' ∉ segment := fun segment hmem =>
          slash_notMem_of_mem_segments (hsegments ▸ List.mem_append_left rest hmem)
        rw [steps, segments_ofSegments hkeptne hslash]
    rw [hsteps, steps, hsegments, List.filter_append, List.map_append]

/-! ### Paths that end in a name -/

def Above (above : List Char) : Prop := above = [] ∨ ∃ front, above = front ++ ['/']

structure IsName (segment : List Char) : Prop where
  slash : '/' ∉ segment
  idle : isIdle segment = false
  parent : segment ≠ ['.', '.']

theorem exists_above_append (chars : List Char) :
    ∃ above base, Above above ∧ '/' ∉ base ∧ chars = above ++ base := by
  obtain ⟨above, base, rfl, habove, hbase⟩ := Text.exists_closed_append isSeparator chars
  refine ⟨above, base, ?_, ?_, rfl⟩
  · refine habove.imp_right ?_
    rintro ⟨front, char, hcut, rfl⟩
    obtain rfl : char = '/' := by simpa [isSeparator] using hcut
    exact ⟨front, rfl⟩
  · intro hslash
    cases hbase '/' hslash

namespace IsName

variable {name other : List Char}

theorem componentOf_eq (hname : IsName name) :
    componentOf name = some (.name (String.ofList name)) := by
  rw [componentOf, if_neg (by simp [hname.idle]), if_neg (by simpa using hname.parent)]

/-- A name at the start of a path means the same as behind another one. -/
theorem firstComponentOf_eq (hname : IsName name) (alone : Bool) :
    firstComponentOf name alone = some (.name (String.ofList name)) := by
  have hidle := hname.idle
  rw [isIdle, Bool.or_eq_false_iff] at hidle
  simp [firstComponentOf, hidle.1, hidle.2, hname.componentOf_eq]

theorem ne_nil (hname : IsName name) : name ≠ [] := by
  rintro rfl
  exact absurd hname.idle (by decide)

theorem ofList_ne_current (hname : IsName name) : String.ofList name ≠ "." := by
  intro heq
  have hlist : name = ['.'] := by simpa using congrArg String.toList heq
  exact absurd (hlist ▸ hname.idle) (by decide)

theorem ofList_ne_parent (hname : IsName name) : String.ofList name ≠ ".." := by
  intro heq
  exact hname.parent (by simpa using congrArg String.toList heq)

theorem splitFirst_eq (hname : IsName name) : Text.splitFirst isSeparator name = (name, []) :=
  splitFirst_of_notMem hname.slash

theorem splitFirst_append_eq (hname : IsName name) (front : List Char) :
    Text.splitFirst isSeparator (front ++ ['/'] ++ name) =
      ((Text.splitFirst isSeparator front).1, (Text.splitFirst isSeparator front).2 ++ [name]) := by
  rw [List.append_assoc, List.singleton_append, Text.splitFirst_append_cons front name rfl,
    Text.segments, hname.splitFirst_eq]

theorem getLast?_steps (hname : IsName name) {above : List Char} (habove : Above above)
    {path : Path} (hpath : path.text.toList = above ++ name) :
    path.steps.getLast? = some (String.ofList name) := by
  have hfilter : [name].filter (!·.isEmpty) = [name] := by simp [hname.ne_nil]
  rw [steps, hpath, Text.segments]
  obtain rfl | ⟨front, rfl⟩ := habove
  · rw [List.nil_append, hname.splitFirst_eq, hfilter]
    rfl
  · simp only [hname.splitFirst_append_eq]
    rw [← List.cons_append, List.filter_append, List.map_append, hfilter, List.map_singleton,
      List.getLast?_concat]

/-- The name comes last, behind components that do not depend on it. -/
theorem exists_components_concat {above : List Char} (habove : Above above) :
    ∃ front, ∀ {name : List Char} {path : Path}, IsName name → path.text.toList = above ++ name →
      path.components = front ++ [.name (String.ofList name)] := by
  obtain rfl | ⟨above, rfl⟩ := habove
  · refine ⟨[], ?_⟩
    intro name path hname hpath
    rw [List.nil_append] at hpath
    rw [components, hpath, hname.splitFirst_eq]
    simp [hname.firstComponentOf_eq]
  · obtain ⟨first, others, hsplit⟩ : ∃ first others,
        Text.splitFirst isSeparator above = (first, others) := ⟨_, _, rfl⟩
    refine ⟨(firstComponentOf first false).toList ++ others.filterMap componentOf, ?_⟩
    intro name path hname hpath
    have hfurther : (others ++ [name]).isEmpty = false :=
      List.isEmpty_eq_false_iff.mpr (List.concat_ne_nil name others)
    rw [components, hpath, hname.splitFirst_append_eq, hsplit]
    simp [hfurther, hname.componentOf_eq]

theorem fileName?_eq (hname : IsName name) {above : List Char} (habove : Above above)
    {path : Path} (hpath : path.text.toList = above ++ name) :
    path.fileName? = some (String.ofList name) := by
  obtain ⟨front, hcomponents⟩ := exists_components_concat habove
  rw [fileName?, hcomponents hname hpath, List.getLast?_concat]

theorem getLast?_ne_slash (hname : IsName name) {above : List Char} {path : Path}
    (hpath : path.text.toList = above ++ name) :
    path.text.toList.getLast? ≠ some '/' := by
  rw [hpath, List.getLast?_append_of_ne_nil _ hname.ne_nil]
  exact fun hlast => hname.slash (List.mem_of_getLast? hlast)

theorem parent?_of_slash (hname : IsName name) {front : List Char} {path : Path}
    (hpath : path.text.toList = front ++ ['/'] ++ name) :
    path.parent? = some (ofFirst (Text.splitFirst isSeparator front).1
      (dropIdle (Text.splitFirst isSeparator front).2)) := by
  obtain ⟨segment, segments, hcons⟩ := List.exists_cons_of_ne_nil
    (List.concat_ne_nil name (Text.splitFirst isSeparator front).2)
  have hdrop : dropIdle (segment :: segments) = segment :: segments := by
    rw [← hcons]
    exact List.rdropWhile_concat_neg isIdle _ name (by simp [hname.idle])
  have hdropLast : (segment :: segments).dropLast = (Text.splitFirst isSeparator front).2 := by
    rw [← hcons, List.dropLast_concat]
  rw [parent?, hpath, hname.splitFirst_append_eq]
  simp only [hcons, hdrop, hdropLast]

theorem parent?_eq (hname : IsName name) (hother : IsName other) {above : List Char}
    (habove : Above above) {path sibling : Path} (hpath : path.text.toList = above ++ name)
    (hsibling : sibling.text.toList = above ++ other) : path.parent? = sibling.parent? := by
  obtain rfl | ⟨front, rfl⟩ := habove
  · obtain ⟨char, chars, rfl⟩ := List.exists_cons_of_ne_nil hname.ne_nil
    obtain ⟨otherChar, otherChars, rfl⟩ := List.exists_cons_of_ne_nil hother.ne_nil
    rw [List.nil_append] at hpath hsibling
    rw [parent?, parent?, hpath, hsibling, hname.splitFirst_eq, hother.splitFirst_eq]
    rfl
  · rw [hname.parent?_of_slash hpath, hother.parent?_of_slash hsibling]

theorem of_length {segment : List Char} (hslash : '/' ∉ segment) (hlength : 3 ≤ segment.length) :
    IsName segment where
  slash := hslash
  idle := by
    match segment, hlength with
    | _ :: _ :: _ :: _, _ => simp [isIdle]
  parent := by
    rintro rfl
    exact absurd hlength (by decide)

end IsName

/-- Paths to files of one directory that differ only in what follows the first part of their names
differ only there, if it starts with a dot. -/
theorem exists_join_eq (path : Path) (name : String) :
    ∃ above base, Above above ∧ '/' ∉ base ∧ ∀ ending : String,
      ending.toList.head? = some '.' →
        (path.join ⟨name ++ ending⟩).text.toList = above ++ (base ++ ending.toList) := by
  have hjoin : ∃ stem : List Char, ∀ ending : String, ending.toList.head? = some '.' →
      (path.join ⟨name ++ ending⟩).text.toList = stem ++ ending.toList := by
    have habsolute (ending : String) (hdot : ending.toList.head? = some '.') :
        isAbsolute ⟨name ++ ending⟩ = isAbsolute ⟨name⟩ := by
      simp only [isAbsolute, String.toList_append]
      cases name.toList with
      | nil => simp [hdot]
      | cons char chars => rfl
    by_cases hname : isAbsolute ⟨name⟩ = true
    · refine ⟨name.toList, fun ending hdot => ?_⟩
      rw [join, if_pos ((habsolute ending hdot).trans hname), String.toList_append]
    · by_cases hpath : (path.text.isEmpty || path.text.toList.getLast? == some '/') = true
      · refine ⟨path.text.toList ++ name.toList, fun ending hdot => ?_⟩
        rw [join, habsolute ending hdot, if_neg hname, if_pos hpath]
        simp
      · refine ⟨path.text.toList ++ '/' :: name.toList, fun ending hdot => ?_⟩
        rw [join, habsolute ending hdot, if_neg hname, if_neg hpath]
        simp
  obtain ⟨stem, hstem⟩ := hjoin
  obtain ⟨above, base, habove, hbase, rfl⟩ := exists_above_append stem
  refine ⟨above, base, habove, hbase, fun ending hdot => ?_⟩
  rw [hstem ending hdot, List.append_assoc]

end Path

end StoryKnobs

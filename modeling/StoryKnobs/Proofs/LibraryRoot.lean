import Mathlib.Logic.Relation
import StoryKnobs.Proofs.Imports

/-!
# The way back to the root of a library

The path of a component counts for the import of a module only by the number of directories on it.
As many names below the root of the library, that import leads back to the root, and on to the
module.
-/

namespace StoryKnobs

namespace Text

theorem lastSegment_append {cut : Char → Bool} {front last : List Char} (hfront : Closed cut front)
    (hlast : ∀ char ∈ last, cut char = false) : lastSegment cut (front ++ last) = last := by
  have hsegments : segments cut last = [last] := by rw [segments, splitFirst_of_uncut hlast]
  obtain rfl | ⟨above, char, hcut, rfl⟩ := hfront
  · rw [List.nil_append, lastSegment, hsegments]
    rfl
  · rw [List.append_assoc, List.singleton_append, lastSegment,
      segments_append_cons above last hcut, hsegments, List.getLast?_concat, Option.getD_some]

theorem dropEnding_append (base ending : List Char) : dropEnding ending (base ++ ending) = base := by
  have hending : ending.isSuffixOf (base ++ ending) = true :=
    List.isSuffixOf_iff_suffix.mpr (List.suffix_append base ending)
  rw [dropEnding, if_pos hending, List.length_append, Nat.add_sub_cancel, List.take_left]

theorem dropEnding_of_not_suffix {ending chars : List Char} (hending : ¬ ending <:+ chars) :
    dropEnding ending chars = chars := by
  rw [dropEnding, if_neg (mt List.isSuffixOf_iff_suffix.mp hending)]

/-- Characters that are no cuts stay, and cuts become cuts. -/
theorem segments_map {cut : Char → Bool} {change : Char → Char}
    (hcut : ∀ char, cut (change char) = cut char)
    (hkeep : ∀ char, cut char = false → change char = char) (chars : List Char) :
    segments cut (chars.map change) = segments cut chars := by
  have hsplit : splitFirst cut (chars.map change) = splitFirst cut chars := by
    induction chars with
    | nil => rfl
    | cons char chars ih =>
        rw [List.map_cons, splitFirst, splitFirst, ih, hcut]
        by_cases hchar : cut char = true
        · simp only [hchar, if_true]
        · rw [hkeep char (Bool.eq_false_iff.mpr hchar)]
  rw [segments, segments, hsplit]

end Text

namespace Path

def below (root : Path) (names : List String) : Path :=
  names.foldl (fun path name => path.join ⟨name⟩) root

theorem resolve_below {names : List String} (hnames : ∀ name ∈ names, IsName name.toList)
    (root : Path) (start : Location) :
    (root.below names).resolve start = root.resolve start ++ names := by
  induction names generalizing root with
  | nil => exact (List.append_nil _).symm
  | cons name names ih =>
      obtain ⟨hname, hothers⟩ := List.forall_mem_cons.mp hnames
      have hbelow : root.below (name :: names) = (root.join ⟨name⟩).below names := rfl
      rw [hbelow, ih hothers, hname.resolve_join, List.append_assoc, List.singleton_append]

end Path

namespace Schema

open StoryKnobs.Path (IsName)

variable {path other : String} {separator : Char}

/-! ### The name of a module -/

/-- What is behind the last separator of a file's path, without one extension. -/
def IsModuleName (base fileName : String) : Prop :=
  ∃ front last : List Char, fileName.toList = front ++ last ∧ Text.Closed isSeparator front ∧
    (∀ char ∈ last, isSeparator char = false) ∧
    (last = base.toList ++ ".ts".toList ∨ last = base.toList ∧ ¬ ".ts".toList <:+ last)

theorem isModuleName_iff {base fileName : String} :
    IsModuleName base fileName ↔ base = moduleName fileName := by
  have hname {front last : List Char} (hfile : fileName.toList = front ++ last)
      (hfront : Text.Closed isSeparator front) (hlast : ∀ char ∈ last, isSeparator char = false) :
      moduleName fileName = String.ofList (Text.dropEnding ".ts".toList last) := by
    rw [moduleName, hfile, Text.lastSegment_append hfront hlast]
    rfl
  constructor
  · rintro ⟨front, last, hfile, hfront, hlast, rfl | ⟨rfl, hending⟩⟩
    · rw [hname hfile hfront hlast, Text.dropEnding_append, String.ofList_toList]
    · rw [hname hfile hfront hlast, Text.dropEnding_of_not_suffix hending, String.ofList_toList]
  · rintro rfl
    obtain ⟨front, last, hfile, hfront, hlast⟩ :=
      Text.exists_closed_append isSeparator fileName.toList
    refine ⟨front, last, hfile, hfront, hlast, ?_⟩
    rw [hname hfile hfront hlast, String.toList_ofList]
    by_cases hending : ".ts".toList <:+ last
    · obtain ⟨base, rfl⟩ := hending
      exact .inl (by rw [Text.dropEnding_append])
    · exact .inr ⟨(Text.dropEnding_of_not_suffix hending).symm, hending⟩

/-! ### Directories on a path -/

theorem depth_eq_countP (path : String) :
    depth path = (path.toList.splitOnP isSeparator).countP
      fun segment => segment ≠ [] ∧ segment ≠ ['.'] := by
  rw [depth, Text.segments_eq_splitOnP, List.countP_eq_length_filter]
  congr 2
  funext segment
  rw [Bool.eq_iff_iff]
  simp [isStep]

theorem depth_append (path other : String) (hseparator : isSeparator separator = true) :
    depth (path ++ String.singleton separator ++ other) = depth path + depth other := by
  have htext : (path ++ String.singleton separator ++ other).toList =
      path.toList ++ separator :: other.toList := by
    simp [String.toList_append]
  rw [depth, htext, Text.segments_append_cons _ _ hseparator, List.filter_append,
    List.length_append]
  rfl

theorem depth_append_separator (path : String) (hseparator : isSeparator separator = true) :
    depth (path ++ String.singleton separator) = depth path := by
  have hadd := depth_append path "" hseparator
  rwa [String.append_empty] at hadd

theorem depth_separator_append (path : String) (hseparator : isSeparator separator = true) :
    depth (String.singleton separator ++ path) = depth path := by
  have hadd := depth_append "" path hseparator
  rwa [String.empty_append, show depth "" = 0 from rfl, Nat.zero_add] at hadd

def exchange (char : Char) : Char :=
  if char = '/' then '\\' else if char = '\\' then '/' else char

theorem depth_map_exchange (path : String) : depth (path.map exchange) = depth path := by
  rw [depth, String.toList_map, Text.segments_map]
  · rfl
  · intro char
    by_cases hslash : char = '/'
    · subst hslash
      decide
    · by_cases hbackslash : char = '\\'
      · subst hbackslash
        decide
      · simp [exchange, hslash, hbackslash]
  · intro char hchar
    rw [isSeparator, Bool.or_eq_false_iff, beq_eq_false_iff_ne, beq_eq_false_iff_ne] at hchar
    rw [exchange, if_neg hchar.1, if_neg hchar.2]

/-- Changes to a path that add no directory and take none away. -/
inductive Respells : String → String → Prop where
  | exchanged (path : String) : Respells path (path.map exchange)
  | retyped (before after : String) {separator other : Char}
      (hseparator : isSeparator separator = true) (hother : isSeparator other = true) :
      Respells (before ++ String.singleton separator ++ after)
        (before ++ String.singleton other ++ after)
  | doubled (before after : String) {separator other : Char}
      (hseparator : isSeparator separator = true) (hother : isSeparator other = true) :
      Respells (before ++ String.singleton separator ++ after)
        (before ++ String.singleton separator ++ String.singleton other ++ after)
  | leading (path : String) {separator : Char} (hseparator : isSeparator separator = true) :
      Respells path (String.singleton separator ++ path)
  | trailing (path : String) {separator : Char} (hseparator : isSeparator separator = true) :
      Respells path (path ++ String.singleton separator)
  | dotted (before after : String) {separator other : Char}
      (hseparator : isSeparator separator = true) (hother : isSeparator other = true) :
      Respells (before ++ String.singleton separator ++ after)
        (before ++ String.singleton separator ++ "." ++ String.singleton other ++ after)
  | leadingDot (path : String) {separator : Char} (hseparator : isSeparator separator = true) :
      Respells path ("." ++ String.singleton separator ++ path)
  | trailingDot (path : String) {separator : Char} (hseparator : isSeparator separator = true) :
      Respells path (path ++ String.singleton separator ++ ".")

theorem Respells.depth_eq (hrespells : Respells path other) : depth path = depth other := by
  have hdot : depth "." = 0 := rfl
  induction hrespells with
  | exchanged path => exact (depth_map_exchange path).symm
  | retyped before after hseparator hother =>
      rw [depth_append _ _ hseparator, depth_append _ _ hother]
  | doubled before after hseparator hother =>
      rw [depth_append _ _ hseparator, depth_append _ _ hother, depth_append_separator _ hseparator]
  | leading path hseparator => rw [depth_separator_append _ hseparator]
  | trailing path hseparator => rw [depth_append_separator _ hseparator]
  | dotted before after hseparator hother =>
      rw [depth_append _ _ hother, depth_append _ _ hseparator, depth_append _ _ hseparator, hdot,
        Nat.add_zero]
  | leadingDot path hseparator => rw [depth_append _ _ hseparator, hdot, Nat.zero_add]
  | trailingDot path hseparator => rw [depth_append _ _ hseparator, hdot, Nat.add_zero]

theorem depth_eq_of_eqvGen (hrespells : Relation.EqvGen Respells path other) :
    depth path = depth other := by
  induction hrespells with
  | rel path other hrespells => exact hrespells.depth_eq
  | refl path => rfl
  | symm path other _ ih => exact ih.symm
  | trans path middle other _ _ hfirst hsecond => exact hfirst.trans hsecond

/-! ### The import of a module -/

theorem modulePathFrom_eq_iff {fileName : String} :
    modulePathFrom path fileName = modulePathFrom other fileName ↔ depth path = depth other := by
  constructor
  · intro heq
    rw [modulePathFrom_eq, modulePathFrom_eq, String.append_assoc, String.append_assoc] at heq
    have hupward : Path.upward (depth path) = Path.upward (depth other) :=
      congrArg Path.mk (String.append_left_inj _ |>.mp heq)
    have hnames := congrArg (fun way : Path => way.names.length) hupward
    simpa only [Path.names_upward, List.length_replicate] using hnames
  · intro hdepth
    rw [modulePathFrom_eq, modulePathFrom_eq, hdepth]

/-- An import that starts like this is never taken for the name of a package. -/
theorem exists_modulePathFrom_eq (path fileName : String) :
    ∃ rest, modulePathFrom path fileName = "./" ++ rest ∨
      modulePathFrom path fileName = "../" ++ rest := by
  rw [modulePathFrom_eq, String.append_assoc]
  match depth path with
  | 0 => exact ⟨moduleName fileName, .inl rfl⟩
  | 1 => exact ⟨moduleName fileName, .inr rfl⟩
  | count + 2 =>
      have hupward : (Path.upward (count + 2)).text = "../" ++ (Path.upward (count + 1)).text := by
        rw [← String.toList_inj, String.toList_append, Path.upward, Path.upward,
          Path.toList_ofSegments, Path.toList_ofSegments, List.replicate_succ, List.replicate_succ,
          List.intercalate_cons_cons, ← List.replicate_succ]
        rfl
      exact ⟨_, .inr (by rw [hupward, String.append_assoc])⟩

/-- **The import of a module leads back to the root of the library** from every directory that is as
many names below it as there are directories on the path of the component, and on to the module.
Nothing but that number counts, and it stays the same however the path is spelled. -/
theorem modulePathFrom_climbs (componentPath moduleFileName : String) :
    (∀ base, IsModuleName base moduleFileName ↔ base = moduleName moduleFileName) ∧
    depth componentPath = (componentPath.toList.splitOnP isSeparator).countP
      (fun segment => segment ≠ [] ∧ segment ≠ ['.']) ∧
    (∀ (root : Path) (names : List String) (start : Location),
      (∀ name ∈ names, IsName name.toList) → names.length = depth componentPath →
      (Path.mk (modulePathFrom componentPath moduleFileName)).resolve
          ((root.below names).resolve start) =
        (root.join ⟨moduleName moduleFileName⟩).resolve start) ∧
    (∀ other, modulePathFrom other moduleFileName = modulePathFrom componentPath moduleFileName ↔
      depth other = depth componentPath) ∧
    (∀ other, Relation.EqvGen Respells componentPath other →
      modulePathFrom other moduleFileName = modulePathFrom componentPath moduleFileName) ∧
    (∀ other separator, isSeparator separator = true →
      depth (componentPath ++ String.singleton separator ++ other) =
        depth componentPath + depth other) ∧
    ∃ rest, modulePathFrom componentPath moduleFileName = "./" ++ rest ∨
      modulePathFrom componentPath moduleFileName = "../" ++ rest := by
  refine ⟨fun base => isModuleName_iff, depth_eq_countP componentPath, ?_,
    fun other => modulePathFrom_eq_iff, ?_, ?_, exists_modulePathFrom_eq _ _⟩
  · intro root names start hnames hlength
    rw [resolve_modulePathFrom, Path.resolve_below hnames, ← hlength, List.rdrop_append_length,
      Path.resolve_join]
  · intro other hrespells
    exact modulePathFrom_eq_iff.mpr (depth_eq_of_eqvGen hrespells).symm
  · intro other separator hseparator
    exact depth_append componentPath other hseparator

example : modulePathFrom "./a\\b//" "src/ui.ts.ts" = "../../ui.ts" := by decide

end Schema

end StoryKnobs

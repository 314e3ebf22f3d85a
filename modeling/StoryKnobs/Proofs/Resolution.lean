import StoryKnobs.Proofs.DirectPaths

/-!
# Where paths lead

From a directory a path leads to a place without a look at any directory: a name leads down and `..`
leads up. A path behind another one goes on from the place to which that one leads, and `..` as often
as a path has gone down leads back.
-/

namespace StoryKnobs

namespace Text

theorem segments_append_cons {cut : Char → Bool} (before after : List Char) {char : Char}
    (hcut : cut char = true) :
    segments cut (before ++ char :: after) = segments cut before ++ segments cut after := by
  rw [segments, splitFirst_append_cons before after hcut]
  rfl

theorem segments_congr {cut other : Char → Bool} {chars : List Char}
    (hcut : ∀ char ∈ chars, cut char = other char) : segments cut chars = segments other chars := by
  have hsplit : splitFirst cut chars = splitFirst other chars := by
    induction chars with
    | nil => rfl
    | cons char chars ih =>
        obtain ⟨hchar, hchars⟩ := List.forall_mem_cons.mp hcut
        rw [splitFirst, splitFirst, ih hchars, hchar]
  rw [segments, segments, hsplit]

end Text

namespace Path

variable {path other : Path}

/-! ### Places -/

/-- The place one step away from a place. Above the root there is nothing but the root. -/
def walk (place : Location) (step : String) : Location :=
  if step = ".." then place.dropLast else place ++ [step]

def resolve (path : Path) (start : Location) : Location :=
  path.names.foldl walk (if path.isAbsolute then [] else start)

theorem resolve_congr (hnames : path.names = other.names)
    (habsolute : path.isAbsolute = other.isAbsolute) (start : Location) :
    path.resolve start = other.resolve start := by
  rw [resolve, resolve, hnames, habsolute]

theorem resolve_eq_foldl (hrelative : path.isAbsolute = false) (start : Location) :
    path.resolve start = path.names.foldl walk start := by
  rw [resolve, hrelative, if_neg Bool.false_ne_true]

theorem resolve_dot (start : Location) : resolve ⟨"."⟩ start = start := by
  have hnames : names ⟨"."⟩ = [] := by decide
  rw [resolve_eq_foldl (by decide), hnames, List.foldl_nil]

theorem foldl_walk_down {steps : List String} (hparent : ".." ∉ steps) (place : Location) :
    steps.foldl walk place = place ++ steps := by
  induction steps generalizing place with
  | nil => exact (List.append_nil place).symm
  | cons step steps ih =>
      obtain ⟨hstep, hsteps⟩ := not_or.mp fun hmem => hparent (List.mem_cons.mpr hmem)
      rw [List.foldl_cons, walk, if_neg (Ne.symm hstep), ih hsteps, List.append_assoc,
        List.singleton_append]

theorem foldl_walk_up (count : Nat) (place : Location) :
    (List.replicate count "..").foldl walk place = place.rdrop count := by
  induction count generalizing place with
  | zero => exact place.rdrop_zero.symm
  | succ count ih =>
      rw [List.replicate_succ, List.foldl_cons, walk, if_pos rfl, ih]
      obtain rfl | ⟨above, step, rfl⟩ := List.eq_nil_or_concat' place
      · rw [List.dropLast_nil, List.rdrop_nil, List.rdrop_nil]
      · rw [List.dropLast_concat, List.rdrop_concat_succ]

/-! ### Joined paths -/

theorem names_empty : names ⟨""⟩ = [] := rfl

theorem names_of_toList_eq {front back : List Char}
    (hpath : path.text.toList = front ++ '/' :: back) :
    path.names =
      namesOf (Text.segments isSeparator front) ++ namesOf (Text.segments isSeparator back) := by
  rw [names_eq_namesOf, hpath, Text.segments_append_cons front back rfl, namesOf_append]

theorem names_join (hrelative : other.isAbsolute = false) :
    (path.join other).names = path.names ++ other.names := by
  have hslash : namesOf (Text.segments isSeparator []) = [] := rfl
  rw [join, if_neg (by simp [hrelative])]
  split_ifs with hend
  · rcases Bool.or_eq_true_iff.mp hend with hempty | hlast
    · have htext : path.text = "" := String.isEmpty_iff.mp hempty
      obtain rfl : path = ⟨""⟩ := congrArg Path.mk htext
      rw [names_empty, List.nil_append, String.empty_append]
    · obtain ⟨front, hfront⟩ : ∃ front, path.text.toList = front ++ ['/'] :=
        List.getLast?_eq_some_iff.mp (beq_iff_eq.mp hlast)
      have hjoined : (path.text ++ other.text).toList = front ++ '/' :: other.text.toList := by
        rw [String.toList_append, hfront, List.append_assoc, List.singleton_append]
      rw [names_of_toList_eq hjoined, names_of_toList_eq hfront, hslash, List.append_nil,
        ← names_eq_namesOf]
  · have hjoined : (path.text ++ "/" ++ other.text).toList =
        path.text.toList ++ '/' :: other.text.toList := by
      rw [String.toList_append, String.toList_append, List.append_assoc]
      rfl
    rw [names_of_toList_eq hjoined, ← names_eq_namesOf, ← names_eq_namesOf]

theorem isAbsolute_append (tail : String) (hne : path.text ≠ "") :
    isAbsolute ⟨path.text ++ tail⟩ = path.isAbsolute := by
  obtain ⟨char, chars, hcons⟩ := List.exists_cons_of_ne_nil
    (show path.text.toList ≠ [] by simpa using hne)
  rw [isAbsolute, isAbsolute, String.toList_append, hcons]
  rfl

theorem isAbsolute_join (hrelative : other.isAbsolute = false) :
    (path.join other).isAbsolute = path.isAbsolute := by
  rw [join, if_neg (by simp [hrelative])]
  by_cases htext : path.text = ""
  · obtain rfl : path = ⟨""⟩ := congrArg Path.mk htext
    rw [if_pos (by rfl), String.empty_append]
    exact hrelative
  · split_ifs
    · exact isAbsolute_append other.text htext
    · rw [String.append_assoc]
      exact isAbsolute_append _ htext

/-- A path behind another one goes on from where that one leads. -/
theorem resolve_join (path other : Path) (start : Location) :
    (path.join other).resolve start = other.resolve (path.resolve start) := by
  by_cases habsolute : other.isAbsolute = true
  · rw [join, if_pos habsolute, resolve, resolve, if_pos habsolute, if_pos habsolute]
  · have hrelative : other.isAbsolute = false := Bool.eq_false_iff.mpr habsolute
    rw [resolve, names_join hrelative, isAbsolute_join hrelative, List.foldl_append]
    rw [resolve, resolve, hrelative, if_neg Bool.false_ne_true]

/-! ### Names -/

theorem isAbsolute_of_notMem {name : String} (hslash : '/' ∉ name.toList) :
    isAbsolute ⟨name⟩ = false := by
  rw [isAbsolute, beq_eq_false_iff_ne]
  exact fun hhead => hslash (List.mem_of_mem_head? hhead)

namespace IsName

theorem names_eq {name : String} (hname : IsName name.toList) : names ⟨name⟩ = [name] := by
  rw [names_eq_namesOf, segments_of_notMem hname.slash, namesOf_singleton hname.idle,
    String.ofList_toList]

theorem isAbsolute_eq {name : String} (hname : IsName name.toList) : isAbsolute ⟨name⟩ = false :=
  isAbsolute_of_notMem hname.slash

/-- A name behind a path leads one step further. -/
theorem resolve_join {name : String} (hname : IsName name.toList) (start : Location) :
    (path.join ⟨name⟩).resolve start = path.resolve start ++ [name] := by
  have hne : ".." ∉ [name] := by
    have hparent := hname.ofList_ne_parent
    rw [String.ofList_toList] at hparent
    simpa using hparent.symm
  rw [Path.resolve_join, resolve_eq_foldl hname.isAbsolute_eq, hname.names_eq,
    foldl_walk_down hne]

/-- A path that ends in a name has a path above it, which leads to all but that name. -/
theorem exists_parent? {name : List Char} (hname : IsName name) {above : List Char}
    (habove : Above above) (hpath : path.text.toList = above ++ name) :
    ∃ parent, path.parent? = some parent ∧ path.names = parent.names ++ [String.ofList name] ∧
      parent.isAbsolute = path.isAbsolute := by
  obtain rfl | ⟨front, rfl⟩ := habove
  · rw [List.nil_append] at hpath
    subst hpath
    refine ⟨⟨""⟩, ?_, ?_, hname.isAbsolute_eq.symm⟩
    · obtain ⟨char, chars, hcons⟩ := List.exists_cons_of_ne_nil hname.ne_nil
      rw [parent?, hname.splitFirst_eq, hcons]
      rfl
    · rw [String.ofList_toList]
      exact hname.names_eq
  · obtain ⟨parent, hparent, hnames, ⟨rfl, habsolute⟩ | ⟨first, others, hroot, rfl, hsubset⟩⟩ :=
      hname.exists_parent?_of_slash hpath
    · exact ⟨_, hparent, hnames, habsolute.symm⟩
    · refine ⟨_, hparent, hnames, isAbsolute_of_parent? hparent ?_⟩
      intro hempty
      have hsegments := segments_ofSegments (List.cons_ne_nil first (dropIdle others))
        fun segment hmem => slash_notMem_of_mem_segments (hsubset hmem)
      rw [hempty] at hsegments
      obtain ⟨hfirst, hothers⟩ := List.cons.inj hsegments
      exact hroot ⟨hfirst.symm, hothers.symm⟩

end IsName

end Path

end StoryKnobs

import StoryKnobs.Proofs.NormalPlaces

/-!
# Normal forms of joined paths

The normal form of a path is the stack that its components leave, and a path behind it goes on from
that stack. So it makes no difference whether a path is put behind another one or behind the normal
form of that one, and a name that the next component takes away again leaves no trace. In the text of
a normal form every separator stands between two names, apart from the one at the root.
-/

namespace StoryKnobs.Path

variable {path other detour : Path} {name : String} {front back : List Component}

/-! ### Joined paths -/

theorem anchor_join (hrelative : other.isAbsolute = false) :
    (path.join other).anchor = path.anchor := by
  rw [anchor, anchor, isAbsolute_join hrelative]

/-- A relative path goes on from the stack that the path before it leaves. -/
theorem normal_join (hrelative : other.isAbsolute = false) :
    (path.join other).normal = other.names.foldl (pile Component.name) path.normal := by
  rw [normal_eq_foldl, anchor_join hrelative, names_join hrelative, List.foldl_append,
    ← normal_eq_foldl]

theorem normalize_join (path other : Path) :
    (path.join other).normalize = (path.normalize.join other).normalize := by
  by_cases habsolute : other.isAbsolute = true
  · rw [join, join, if_pos habsolute, if_pos habsolute]
  · have hrelative : other.isAbsolute = false := Bool.eq_false_iff.mpr habsolute
    have hnormal : (path.join other).normal = (path.normalize.join other).normal := by
      rw [normal_join hrelative, normal_join hrelative, normal_normalize]
    exact congrArg ofComponents hnormal

/-! ### Separators of normal forms -/

namespace IsNormal

variable {components : List Component}

theorem exists_name_of_mem_tail {first component : Component}
    (hnormal : IsNormal (first :: components)) (hmem : component ∈ components) :
    ∃ name : String, IsName name.toList ∧ component = .name name := by
  obtain ⟨root, names, hroot, hnames, hcomponents⟩ := hnormal
  obtain ⟨kept, hkept, hsub⟩ : ∃ kept : List String, (∀ name ∈ kept, name ∈ names) ∧
      components = kept.map Component.name := by
    obtain rfl | rfl := hroot
    · cases names with
      | nil => cases hcomponents
      | cons name names =>
          exact ⟨names, fun _ hname => List.mem_cons_of_mem _ hname, (List.cons.inj hcomponents).2⟩
    · exact ⟨names, fun _ hname => hname, (List.cons.inj hcomponents).2⟩
  rw [hsub] at hmem
  obtain ⟨name, hname, rfl⟩ := List.mem_map.mp hmem
  exact ⟨name, hnames name (hkept name hname), rfl⟩

/-- Behind a separator of a normal form stands a name, unless the separator is the root. -/
theorem exists_cons_of_separator (hnormal : IsNormal components) (hroot : components ≠ [.root])
    {before after : List Char}
    (htext : (ofComponents components).text.toList = before ++ '/' :: after) :
    ∃ char rest, after = char :: rest ∧ char ≠ '/' := by
  cases components with
  | nil => simp [ofComponents] at htext
  | cons first components =>
      have hsegments := hnormal.segments_ofComponents (List.cons_ne_nil _ _) hroot
      rw [htext, Text.segments_append_cons before after rfl, List.map_cons, Text.segments,
        List.cons_append, List.cons.injEq] at hsegments
      have hname : ∀ segment ∈ Text.segments isSeparator after, segment ≠ [] := by
        intro segment hsegment
        have hmem := List.mem_append_right (Text.splitFirst isSeparator before).2 hsegment
        rw [hsegments.2] at hmem
        obtain ⟨component, hcomponent, rfl⟩ := List.mem_map.mp hmem
        obtain ⟨name, hname, rfl⟩ := hnormal.exists_name_of_mem_tail hcomponent
        exact hname.ne_nil
      cases after with
      | nil => exact absurd rfl (hname [] List.mem_cons_self)
      | cons char rest =>
          refine ⟨char, rest, rfl, ?_⟩
          rintro rfl
          exact absurd rfl (hname [] List.mem_cons_self)

end IsNormal

/-! ### Detours -/

/-- A name that the next component takes away leaves no trace. -/
theorem normalize_of_detour (hpath : path.components = front ++ back)
    (hdetour : detour.components = front ++ .name name :: .parent :: back) :
    detour.normalize = path.normalize := by
  have hnormal : detour.normal = path.normal := by
    simp only [normal, hpath, hdetour, List.foldl_append, List.foldl_cons, step,
      List.dropLast_concat]
  exact congrArg ofComponents hnormal

/-- A name behind a path, and the way back. -/
theorem normalize_join_join_parent (hname : IsName name.toList) (path : Path) :
    ((path.join ⟨name⟩).join ⟨".."⟩).normalize = path.normalize := by
  have hparent : names ⟨".."⟩ = [".."] := by decide
  have hne : name ≠ ".." := by
    rintro rfl
    exact hname.parent rfl
  have hnormal : ((path.join ⟨name⟩).join ⟨".."⟩).normal = path.normal := by
    rw [normal_join (by decide), normal_join hname.isAbsolute_eq, hname.names_eq, hparent]
    simp only [List.foldl_cons, List.foldl_nil, pile, if_neg hne, if_true, List.dropLast_concat]
  exact congrArg ofComponents hnormal

theorem exists_text_eq {left right : List (List Char)}
    (hsegments : Text.segments isSeparator path.text.toList = left ++ right) (hleft : left ≠ [])
    (hright : right ≠ []) :
    ∃ before after : String, path.text = before ++ "/" ++ after ∧
      Text.segments isSeparator before.toList = left ∧
      Text.segments isSeparator after.toList = right := by
  have hslash : ∀ segment ∈ left ++ right, '/' ∉ segment :=
    fun segment hmem => slash_notMem_of_mem_segments (hsegments ▸ hmem)
  refine ⟨(ofSegments left).text, (ofSegments right).text, ?_, ?_, ?_⟩
  · rw [← String.toList_inj, ← intercalate_segments path.text.toList, hsegments,
      intercalate_append hleft hright]
    simp [toList_ofSegments]
  · exact segments_ofSegments hleft fun segment hmem => hslash segment (List.mem_append_left _ hmem)
  · exact segments_ofSegments hright fun segment hmem => hslash segment (List.mem_append_right _ hmem)

theorem segments_detour (hname : IsName name.toList) (before after : String) :
    Text.segments isSeparator (before ++ "/" ++ name ++ "/../" ++ after).toList =
      Text.segments isSeparator before.toList ++
        name.toList :: ['.', '.'] :: Text.segments isSeparator after.toList := by
  have htext : (before ++ "/" ++ name ++ "/../" ++ after).toList =
      before.toList ++ '/' :: (name.toList ++ '/' :: (['.', '.'] ++ '/' :: after.toList)) := by
    simp
  rw [htext, Text.segments_append_cons _ _ rfl, Text.segments_append_cons _ _ rfl,
    Text.segments_append_cons _ _ rfl, segments_of_notMem hname.slash,
    segments_of_notMem (show '/' ∉ ['.', '.'] by decide)]
  rfl

/-- The first segment of a path has a meaning, unless it is empty and the only one. -/
theorem eq_true_of_firstComponentOf {segment : List Char} {alone : Bool}
    (hnone : firstComponentOf segment alone = none) : alone = true := by
  rw [firstComponentOf] at hnone
  split_ifs at hnone with hempty halone hdot
  · exact halone
  · rw [componentOf] at hnone
    split_ifs at hnone with hidle
    simp [isIdle, hempty, hdot] at hidle

/-- A name and `..` can be inserted at a separator between any two components of a path. -/
theorem exists_components_detour (hname : IsName name.toList)
    (hpath : path.components = front ++ back) (hfront : front ≠ []) (hback : back ≠ []) :
    ∃ before after : String, path.text = before ++ "/" ++ after ∧
      components ⟨before ++ "/" ++ name ++ "/../" ++ after⟩ =
        front ++ .name name :: .parent :: back := by
  obtain ⟨first, others, hsegments⟩ : ∃ first others,
      Text.segments isSeparator path.text.toList = first :: others := ⟨_, _, rfl⟩
  rw [components_of_segments hsegments] at hpath
  cases hfirst : firstComponentOf first others.isEmpty with
  | none =>
      obtain rfl : others = [] := by simpa using eq_true_of_firstComponentOf hfirst
      rw [hfirst] at hpath
      exact absurd (List.append_eq_nil_iff.mp hpath.symm).1 hfront
  | some start =>
      rw [hfirst, Option.toList_some, List.singleton_append] at hpath
      obtain ⟨hnil, -⟩ | ⟨inner, rfl, hothers⟩ := List.cons_eq_append_iff.mp hpath
      · exact absurd hnil hfront
      obtain ⟨left, right, rfl, rfl, rfl⟩ := List.filterMap_eq_append_iff.mp hothers
      have hright : right ≠ [] := by
        rintro rfl
        exact hback rfl
      obtain ⟨before, after, htext, hbefore, hafter⟩ :=
        exists_text_eq (hsegments.trans List.cons_append.symm) (List.cons_ne_nil _ _) hright
      have hdetour := segments_detour hname before after
      rw [hbefore, hafter, List.cons_append] at hdetour
      rw [List.isEmpty_eq_false_iff.mpr (List.append_ne_nil_of_right_ne_nil left hright)] at hfirst
      refine ⟨before, after, htext, ?_⟩
      rw [components_of_segments hdetour,
        List.isEmpty_eq_false_iff.mpr (List.append_ne_nil_of_right_ne_nil left (by simp)), hfirst,
        List.filterMap_append, List.filterMap_cons_some hname.componentOf_eq,
        String.ofList_toList]
      rfl

/-! ### Normal forms of paths put together -/

/-- The separators in the text of a normal form: none stands behind another one, and none trails
behind a name. The `/` of a bare root leads its text, and trails nothing. -/
theorem separators_of_normalize (path : Path) :
    (∀ before after, path.normalize.text.toList ≠ before ++ '/' :: '/' :: after) ∧
      ∀ before char, path.normalize.text.toList ≠ before ++ [char, '/'] := by
  by_cases hroot : path.normal = [.root]
  · have htext : path.normalize.text.toList = ['/'] := by
      rw [normalize, hroot]
      rfl
    have hlength : path.normalize.text.toList.length = 1 := by rw [htext]; rfl
    refine ⟨fun before after heq => ?_, fun before char heq => ?_⟩
    · rw [heq, List.length_append, List.length_cons, List.length_cons] at hlength
      omega
    · rw [heq, List.length_append, List.length_cons, List.length_cons] at hlength
      omega
  · have hnormal := isNormal_normal path
    refine ⟨fun before after heq => ?_, fun before char heq => ?_⟩
    · obtain ⟨char, rest, hrest, hchar⟩ := hnormal.exists_cons_of_separator hroot heq
      exact hchar (List.cons.inj hrest).1.symm
    · obtain ⟨other, rest, hrest, -⟩ := hnormal.exists_cons_of_separator hroot
        (heq.trans (List.append_cons before char ['/']))
      cases hrest

/-- **Normalization goes along with putting paths together.** It makes no difference whether a path
is put behind another one or behind the normal form of that one. Hence a normal form is its own
normal form; it has no component `.` or `..`, no separator behind another one and none that trails. A
name and `..` can be appended, or inserted between any two components, without changing it. -/
theorem normalize_composes (path : Path) :
    (∀ other : Path, (path.join other).normalize = (path.normalize.join other).normalize) ∧
    path.normalize.normalize = path.normalize ∧
    (∀ component ∈ path.normalize.components, component ≠ .current ∧ component ≠ .parent) ∧
    ((∀ before after, path.normalize.text.toList ≠ before ++ '/' :: '/' :: after) ∧
      ∀ before char, path.normalize.text.toList ≠ before ++ [char, '/']) ∧
    ∀ name : String, IsName name.toList →
      ((path.join ⟨name⟩).join ⟨".."⟩).normalize = path.normalize ∧
      ∀ front back, path.components = front ++ back →
        (∀ detour : Path, detour.components = front ++ .name name :: .parent :: back →
          detour.normalize = path.normalize) ∧
        (front ≠ [] → back ≠ [] → ∃ before after : String, path.text = before ++ "/" ++ after ∧
          components ⟨before ++ "/" ++ name ++ "/../" ++ after⟩ =
            front ++ .name name :: .parent :: back) := by
  refine ⟨normalize_join path, normalize_normalize path, ?_, separators_of_normalize path, ?_⟩
  · intro component hmem
    rw [components_normalize] at hmem
    exact (isNormal_normal path).ne_current_and_ne_parent hmem
  · intro name hname
    refine ⟨normalize_join_join_parent hname path, fun front back hpath => ⟨?_, ?_⟩⟩
    · exact fun detour hdetour => normalize_of_detour hpath hdetour
    · exact exists_components_detour hname hpath

/-- A way into `box` and out of it again, behind `lib` and behind the whole path. -/
theorem normalize_composes_shelf :
    let path : Path := ⟨"./lib//shelf/../card"⟩
    let detour : Path := ⟨"./lib/box/..//shelf/../card"⟩
    let front : List Component := [.current, .name "lib"]
    let back : List Component := [.name "shelf", .parent, .name "card"]
    IsName "box".toList ∧ path.components = front ++ back ∧
      detour.components = front ++ .name "box" :: .parent :: back ∧
      path.normalize = ⟨"lib/card"⟩ ∧ detour.normalize = path.normalize ∧
      ((path.join ⟨"box"⟩).join ⟨".."⟩).normalize = path.normalize ∧
      ∃ before after : String, path.text = before ++ "/" ++ after ∧
        components ⟨before ++ "/" ++ "box" ++ "/../" ++ after⟩ =
          front ++ .name "box" :: .parent :: back := by
  intro path detour front back
  have hname : IsName "box".toList := .of_length (by decide) (by decide)
  have hpath : path.components = front ++ back := by decide
  have hdetour : detour.components = front ++ .name "box" :: .parent :: back := by decide
  obtain ⟨-, -, -, -, hdetours⟩ := normalize_composes path
  obtain ⟨hleft, hinserted⟩ := hdetours "box" hname
  obtain ⟨hsame, hseparator⟩ := hinserted front back hpath
  exact ⟨hname, hpath, hdetour, by decide, hsame detour hdetour, hleft,
    hseparator (by simp [front]) (by simp [back])⟩

end StoryKnobs.Path

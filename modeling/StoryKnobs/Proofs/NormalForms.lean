import Mathlib.Data.List.Lex
import Mathlib.Data.String.Basic
import StoryKnobs.Path.Normal
import StoryKnobs.Proofs.Paths

/-!
# Normal forms of paths

A normal form consists of names, perhaps behind the root, and the path with these components has
them for its normal form again. The order of components is strict and total, and so is the order of
paths by their components.
-/

namespace StoryKnobs.Path

/-! ### Order -/

namespace Component

theorem before_name {text other : String} :
    (name text).before (name other) = true ↔ text < other :=
  decide_eq_true_iff

theorem before_irrefl (component : Component) : component.before component = false := by
  cases component with
  | name text => exact decide_eq_false (lt_irrefl text)
  | _ => rfl

theorem before_trans {first second third : Component} (hfirst : first.before second = true)
    (hsecond : second.before third = true) : first.before third = true := by
  cases first <;> cases second <;> cases third <;> try contradiction
  case name.name.name =>
    rw [before_name] at hfirst hsecond ⊢
    exact lt_trans hfirst hsecond
  all_goals rfl

theorem eq_of_not_before {component other : Component} (hleft : component.before other = false)
    (hright : other.before component = false) : component = other := by
  cases component <;> cases other <;> try contradiction
  case name.name text other =>
    have hle : text ≤ other := not_lt.mp (of_decide_eq_false hright)
    have hge : other ≤ text := not_lt.mp (of_decide_eq_false hleft)
    rw [le_antisymm hle hge]
  all_goals rfl

end Component

variable {components others : List Component}

/-- The order of paths is the order of lists that comes from the order of components. -/
theorem before_eq_true_iff : before components others = true ↔
    List.Lex (fun component other => component.before other = true) components others := by
  induction components generalizing others with
  | nil => cases others <;> simp [before]
  | cons component components ih =>
      cases others with
      | nil => simp [before]
      | cons other others =>
          rw [before, Bool.or_eq_true, Bool.and_eq_true, beq_iff_eq, ih]
          constructor
          · rintro (hbefore | ⟨rfl, hlex⟩)
            · exact .rel hbefore
            · exact .cons hlex
          · intro hlex
            cases hlex with
            | rel hbefore => exact .inl hbefore
            | cons hlex => exact .inr ⟨rfl, hlex⟩

theorem before_irrefl (components : List Component) : before components components = false := by
  induction components with
  | nil => rfl
  | cons component components ih => simp [before, component.before_irrefl, ih]

theorem before_trans {components others further : List Component}
    (hleft : before components others = true) (hright : before others further = true) :
    before components further = true := by
  rw [before_eq_true_iff] at hleft hright ⊢
  induction hleft generalizing further with
  | nil =>
      cases hright with
      | rel _ => exact .nil
      | cons _ => exact .nil
  | rel hbefore =>
      cases hright with
      | rel hother => exact .rel (Component.before_trans hbefore hother)
      | cons _ => exact .rel hbefore
  | cons _ ih =>
      cases hright with
      | rel hother => exact .rel hother
      | cons hlex => exact .cons (ih hlex)

theorem before_of_not_before (hne : components ≠ others)
    (hnot : before others components = false) : before components others = true := by
  induction components generalizing others with
  | nil =>
      cases others with
      | nil => exact absurd rfl hne
      | cons other others => rfl
  | cons component components ih =>
      cases others with
      | nil => cases hnot
      | cons other others =>
          rw [before, Bool.or_eq_false_iff, Bool.and_eq_false_iff, beq_eq_false_iff_ne] at hnot
          rw [before, Bool.or_eq_true, Bool.and_eq_true, beq_iff_eq]
          by_cases hbefore : component.before other = true
          · exact .inl hbefore
          · have heq : component = other :=
              Component.eq_of_not_before (by simpa using hbefore) hnot.1
            have hnotOthers : before others components = false :=
              hnot.2.resolve_left fun hother => hother heq.symm
            have hneOthers : components ≠ others := by
              rintro rfl
              exact hne (by rw [heq])
            exact .inr ⟨heq, ih hneOthers hnotOthers⟩

/-! ### Components -/

def IsPart (component : Component) : Prop :=
  component = .current ∨ component = .parent ∨
    ∃ name : String, IsName name.toList ∧ component = .name name

def IsNormal (components : List Component) : Prop :=
  ∃ (front : List Component) (names : List String), (front = [] ∨ front = [.root]) ∧
    (∀ name ∈ names, IsName name.toList) ∧ components = front ++ names.map Component.name

theorem isPart_of_componentOf {segment : List Char} {component : Component}
    (hslash : '/' ∉ segment) (hcomponent : componentOf segment = some component) :
    IsPart component := by
  rw [componentOf] at hcomponent
  split_ifs at hcomponent with hidle hparent
  · exact .inr (.inl (Option.some.inj hcomponent).symm)
  · have hname : IsName segment := ⟨hslash, by simpa using hidle, by simpa using hparent⟩
    exact .inr (.inr ⟨String.ofList segment, by rwa [String.toList_ofList],
      (Option.some.inj hcomponent).symm⟩)

theorem components_of_segments {path : Path} {first : List Char} {others : List (List Char)}
    (hsegments : Text.segments isSeparator path.text.toList = first :: others) :
    path.components =
      (firstComponentOf first others.isEmpty).toList ++ others.filterMap componentOf := by
  rw [Text.segments, List.cons.injEq] at hsegments
  rw [components, ← hsegments.1, ← hsegments.2]

def anchor (path : Path) : List Component := if path.isAbsolute then [.root] else []

/-- An absolute path has an empty segment in front of others. -/
theorem isAbsolute_iff {path : Path} {first : List Char} {others : List (List Char)}
    (hsegments : Text.segments isSeparator path.text.toList = first :: others) :
    path.isAbsolute = true ↔ first = [] ∧ others ≠ [] := by
  rw [isAbsolute, beq_iff_eq]
  cases hchars : path.text.toList with
  | nil =>
      rw [hchars] at hsegments
      cases hsegments
      simp
  | cons char chars =>
      rw [hchars, Text.segments, Text.splitFirst] at hsegments
      by_cases hcut : isSeparator char = true
      · have hslash : char = '/' := by simpa [isSeparator] using hcut
        simp only [hcut, if_true, List.cons.injEq] at hsegments
        simp [hslash, ← hsegments.1, ← hsegments.2]
      · have hslash : char ≠ '/' := by simpa [isSeparator] using hcut
        simp only [hcut, Bool.false_eq_true, if_false, List.cons.injEq] at hsegments
        simp [hslash, ← hsegments.1]

/-- Only the first component of a path can be the root. -/
theorem exists_components_eq (path : Path) :
    ∃ parts, path.components = path.anchor ++ parts ∧ ∀ part ∈ parts, IsPart part := by
  obtain ⟨first, others, hsegments⟩ : ∃ first others,
      Text.segments isSeparator path.text.toList = first :: others := ⟨_, _, rfl⟩
  have hslash : ∀ segment ∈ first :: others, '/' ∉ segment :=
    fun segment hmem => slash_notMem_of_mem_segments (hsegments ▸ hmem)
  have hothers : ∀ part ∈ others.filterMap componentOf, IsPart part := by
    intro part hpart
    obtain ⟨segment, hsegment, hcomponent⟩ := List.mem_filterMap.mp hpart
    exact isPart_of_componentOf (hslash _ (List.mem_cons_of_mem _ hsegment)) hcomponent
  rw [components_of_segments hsegments, anchor]
  by_cases habsolute : path.isAbsolute = true
  · obtain ⟨rfl, hne⟩ := (isAbsolute_iff hsegments).mp habsolute
    refine ⟨others.filterMap componentOf, ?_, hothers⟩
    rw [if_pos habsolute, List.isEmpty_eq_false_iff.mpr hne]
    rfl
  · refine ⟨_, by rw [if_neg habsolute, List.nil_append], ?_⟩
    intro part hpart
    rcases List.mem_append.mp hpart with hfirst | hpart
    · rw [Option.mem_toList, firstComponentOf] at hfirst
      split_ifs at hfirst with hempty halone hdot
      · refine absurd ((isAbsolute_iff hsegments).mpr ⟨by simpa using hempty, ?_⟩) habsolute
        rintro rfl
        exact halone rfl
      · exact .inl (Option.some.inj hfirst).symm
      · exact isPart_of_componentOf (hslash first List.mem_cons_self) hfirst
    · exact hothers part hpart

/-! ### Normal forms -/

theorem IsNormal.step {part : Component} (hnormal : IsNormal components) (hpart : IsPart part) :
    IsNormal (step components part) := by
  obtain ⟨front, names, hfront, hnames, rfl⟩ := hnormal
  obtain rfl | rfl | ⟨name, hname, rfl⟩ := hpart
  · exact ⟨front, names, hfront, hnames, rfl⟩
  · rcases List.eq_nil_or_concat names with rfl | ⟨before, last, rfl⟩
    · refine ⟨[], [], .inl rfl, by simp, ?_⟩
      obtain rfl | rfl := hfront <;> rfl
    · refine ⟨front, before, hfront, fun name hmem => hnames name (by simp [hmem]), ?_⟩
      simp only [Path.step, List.concat_eq_append, List.map_append, List.map_cons, List.map_nil,
        ← List.append_assoc, List.dropLast_concat]
  · refine ⟨front, names ++ [name], hfront, ?_, ?_⟩
    · intro other hmem
      rcases List.mem_append.mp hmem with hmem | hmem
      · exact hnames other hmem
      · exact List.mem_singleton.mp hmem ▸ hname
    · simp [Path.step]

theorem foldl_step_anchor (path : Path) : path.anchor.foldl step [] = path.anchor := by
  rw [anchor]
  split_ifs <;> rfl

theorem isNormal_normal (path : Path) : IsNormal path.normal := by
  obtain ⟨parts, hcomponents, hparts⟩ := exists_components_eq path
  have hanchor : path.anchor = [] ∨ path.anchor = [.root] := by
    rw [anchor]
    split_ifs
    · exact .inr rfl
    · exact .inl rfl
  have hall : ∀ stack, IsNormal stack → IsNormal (parts.foldl step stack) := by
    clear hcomponents
    induction parts with
    | nil => exact fun _ hstack => hstack
    | cons part parts ih =>
        intro stack hstack
        have hpart := hparts part List.mem_cons_self
        exact ih (fun other hmem => hparts other (List.mem_cons_of_mem _ hmem)) _
          (hstack.step hpart)
  rw [normal, hcomponents, List.foldl_append, foldl_step_anchor]
  exact hall path.anchor ⟨path.anchor, [], hanchor, by simp, by simp⟩

theorem foldl_step_names (stack : List Component) (names : List String) :
    (names.map Component.name).foldl step stack = stack ++ names.map Component.name := by
  induction names generalizing stack with
  | nil => simp
  | cons name names ih =>
      rw [List.map_cons, List.foldl_cons, ih]
      simp [step]

namespace IsNormal

theorem segments_ofComponents (hnormal : IsNormal components) (hne : components ≠ [])
    (hroot : components ≠ [.root]) :
    Text.segments isSeparator (ofComponents components).text.toList =
      components.map fun component => component.text.toList := by
  have hpath : ofComponents components =
      ofSegments (components.map fun component => component.text.toList) := by
    rw [ofComponents.eq_def]
    split
    · exact absurd rfl hroot
    · simp [ofSegments, Function.comp_def]
  rw [hpath, segments_ofSegments (by simpa using hne)]
  intro segment hsegment
  obtain ⟨component, hcomponent, rfl⟩ := List.mem_map.mp hsegment
  obtain ⟨front, names, hfront, hnames, rfl⟩ := hnormal
  rcases List.mem_append.mp hcomponent with hmem | hmem
  · obtain rfl | rfl := hfront
    · exact absurd hmem List.not_mem_nil
    · obtain rfl := List.mem_singleton.mp hmem
      exact List.not_mem_nil
  · obtain ⟨name, hname, rfl⟩ := List.mem_map.mp hmem
    exact (hnames name hname).slash

theorem filterMap_componentOf_names {names : List String}
    (hnames : ∀ name ∈ names, IsName name.toList) :
    ((names.map Component.name).map fun component => component.text.toList).filterMap componentOf =
      names.map Component.name := by
  rw [List.map_map, List.filterMap_map, ← List.filterMap_eq_map]
  refine List.filterMap_congr fun name hmem => ?_
  rw [Function.comp_apply, Function.comp_apply, Component.text, (hnames name hmem).componentOf_eq,
    String.ofList_toList, Function.comp_apply]

theorem components_ofComponents (hnormal : IsNormal components) :
    (ofComponents components).components = components := by
  have hsegments := hnormal.segments_ofComponents
  obtain ⟨front, names, hfront, hnames, rfl⟩ := hnormal
  cases names with
  | nil => obtain rfl | rfl := hfront <;> rfl
  | cons name names =>
      obtain ⟨hname, hothers⟩ := List.forall_mem_cons.mp hnames
      obtain rfl | rfl := hfront
      · rw [components_of_segments (hsegments (by simp) (by simp)),
          filterMap_componentOf_names hothers]
        simp [Component.text, hname.firstComponentOf_eq]
      · rw [components_of_segments (hsegments (by simp) (by simp))]
        exact congrArg (Component.root :: ·) (filterMap_componentOf_names hnames)

theorem normal_ofComponents (hnormal : IsNormal components) :
    (ofComponents components).normal = components := by
  rw [normal, hnormal.components_ofComponents]
  obtain ⟨front, names, hfront, -, rfl⟩ := hnormal
  have hstart : front.foldl Path.step [] = front := by
    obtain rfl | rfl := hfront <;> rfl
  rw [List.foldl_append, hstart, foldl_step_names]

/-- Neither `.` nor `..` is in a normal form. -/
theorem ne_current_and_ne_parent (hnormal : IsNormal components) {component : Component}
    (hmem : component ∈ components) : component ≠ .current ∧ component ≠ .parent := by
  obtain ⟨front, names, hfront, -, rfl⟩ := hnormal
  rcases List.mem_append.mp hmem with hmem | hmem
  · obtain rfl | rfl := hfront
    · exact absurd hmem List.not_mem_nil
    · obtain rfl := List.mem_singleton.mp hmem
      exact ⟨nofun, nofun⟩
  · obtain ⟨name, -, rfl⟩ := List.mem_map.mp hmem
    exact ⟨nofun, nofun⟩

end IsNormal

/-! ### Paths in normal form -/

theorem components_normalize (path : Path) : path.normalize.components = path.normal :=
  (isNormal_normal path).components_ofComponents

theorem normal_normalize (path : Path) : path.normalize.normal = path.normal :=
  (isNormal_normal path).normal_ofComponents

theorem normalize_normalize (path : Path) : path.normalize.normalize = path.normalize :=
  congrArg ofComponents (normal_normalize path)

end StoryKnobs.Path

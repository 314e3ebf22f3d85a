import Mathlib.Data.Set.Finite.Basic
import Mathlib.Data.List.Infix
import StoryKnobs.Proofs.Memory
import StoryKnobs.Proofs.Resolution

/-!
# Where normal forms lead

The normal form of a path comes from a stack of components, from which `..` takes away whatever is
on top. While that is a name, the stack stands for the place to which the path leads from any
directory. A `..` with no name before it to take away is lost, or it takes away the root.
-/

namespace StoryKnobs

theorem Memory.forall_get?_eq_iff {path other : Path} :
    (∀ memory : Memory, memory.get? path = memory.get? other) ↔ path.normal = other.normal := by
  constructor
  · intro hget
    by_contra hne
    have hfound := hget (Memory.empty.insert path "")
    rw [get?_insert, get?_insert, if_pos rfl, if_neg (Ne.symm hne)] at hfound
    cases hfound
  · intro hnormal memory
    rw [get?, get?, hnormal]

namespace Path

variable {path other : Path} {names : List String} {name : String} {Item : Type}

/-! ### Components and names -/

/-- A component as a step of the way to a place. The root and `.` are no steps. -/
def Component.step? : Component → Option String
  | .root => none
  | .current => none
  | .parent => some ".."
  | .name text => some text

theorem filterMap_step?_componentOf (segments : List (List Char)) :
    (segments.filterMap componentOf).filterMap Component.step? = namesOf segments := by
  induction segments with
  | nil => rfl
  | cons segment segments ih =>
      rw [← List.singleton_append, List.filterMap_append, List.filterMap_append, namesOf_append, ih]
      congr 1
      cases hidle : isIdle segment with
      | true => simp [namesOf, componentOf, hidle]
      | false =>
          by_cases hparent : segment = ['.', '.']
          · subst hparent
            rfl
          · simp [namesOf, componentOf, hidle, hparent, Component.step?]

theorem filterMap_step?_components (path : Path) :
    path.components.filterMap Component.step? = path.names := by
  obtain ⟨first, others, hsegments⟩ : ∃ first others,
      Text.segments isSeparator path.text.toList = first :: others := ⟨_, _, rfl⟩
  have hfirst : (firstComponentOf first others.isEmpty).toList.filterMap Component.step? =
      namesOf [first] := by
    rw [firstComponentOf]
    split_ifs with hempty halone hdot
    · simp [namesOf, isIdle, show first = [] by simpa using hempty]
    · simp [namesOf, isIdle, show first = [] by simpa using hempty, Component.step?]
    · simp [namesOf, isIdle, show first = ['.'] by simpa using hdot, Component.step?]
    · rw [← filterMap_step?_componentOf]
      cases hcomponent : componentOf first <;> simp [hcomponent]
  rw [components_of_segments hsegments, List.filterMap_append, hfirst, filterMap_step?_componentOf,
    ← namesOf_append, names_eq_namesOf, hsegments, List.singleton_append]

theorem isAbsolute_iff_root_mem : path.isAbsolute = true ↔ Component.root ∈ path.components := by
  obtain ⟨parts, hcomponents, hparts⟩ := exists_components_eq path
  have hroot : Component.root ∉ parts := by
    intro hmem
    obtain hpart | hpart | ⟨name, -, hpart⟩ := hparts _ hmem <;> cases hpart
  rw [hcomponents, List.mem_append, or_iff_left hroot, anchor]
  split_ifs with habsolute <;> simp [habsolute]

theorem filterMap_step?_anchor (path : Path) : path.anchor.filterMap Component.step? = [] := by
  rw [anchor]
  split_ifs <;> rfl

/-! ### Stacks -/

/-- Puts what a name stands for on top of a stack; `..` takes away what is there. -/
def pile (item : String → Item) (stack : List Item) (name : String) : List Item :=
  if name = ".." then stack.dropLast else stack ++ [item name]

theorem walk_eq_pile : walk = pile id := rfl

theorem foldl_step_eq_foldl_pile {parts : List Component} (hparts : ∀ part ∈ parts, IsPart part)
    (stack : List Component) :
    parts.foldl step stack =
      (parts.filterMap Component.step?).foldl (pile Component.name) stack := by
  induction parts generalizing stack with
  | nil => rfl
  | cons part parts ih =>
      obtain ⟨hpart, hothers⟩ := List.forall_mem_cons.mp hparts
      obtain rfl | rfl | ⟨name, hname, rfl⟩ := hpart
      · exact ih hothers stack
      · exact ih hothers stack.dropLast
      · have hne : name ≠ ".." := by
          rintro rfl
          exact hname.parent rfl
        have hstep : (Component.name name).step? = some name := rfl
        rw [List.foldl_cons, List.filterMap_cons_some hstep, List.foldl_cons, pile, if_neg hne]
        exact ih hothers (stack ++ [.name name])

/-- The normal form is what the names of a path leave on the stack. -/
theorem normal_eq_foldl (path : Path) :
    path.normal = path.names.foldl (pile Component.name) path.anchor := by
  obtain ⟨parts, hcomponents, hparts⟩ := exists_components_eq path
  rw [normal, ← filterMap_step?_components, hcomponents, List.foldl_append, foldl_step_anchor,
    foldl_step_eq_foldl_pile hparts, List.filterMap_append, filterMap_step?_anchor, List.nil_append]

theorem mem_foldl_pile {item : String → Item} {stack : List Item} {found : Item}
    (hfound : found ∈ names.foldl (pile item) stack) :
    found ∈ stack ∨ ∃ name ∈ names, name ≠ ".." ∧ found = item name := by
  induction names generalizing stack with
  | nil => exact .inl hfound
  | cons name names ih =>
      rcases ih hfound with hstack | ⟨other, hother, hne, rfl⟩
      · rw [pile] at hstack
        split_ifs at hstack with hparent
        · exact .inl (List.mem_of_mem_dropLast hstack)
        · rcases List.mem_append.mp hstack with hstack | hitem
          · exact .inl hstack
          · exact .inr ⟨name, List.mem_cons_self, hparent, List.mem_singleton.mp hitem⟩
      · exact .inr ⟨other, List.mem_cons_of_mem _ hother, hne, rfl⟩

/-! ### Names that are taken away -/

/-- Every `..` on the way has a name before it to take away. -/
def IsGrounded (names : List String) : Prop :=
  ∀ front ∈ names.inits, front.count ".." ≤ front.countP (· ≠ "..")

instance : DecidablePred IsGrounded := fun names =>
  inferInstanceAs (Decidable (∀ front ∈ names.inits, _))

theorem isGrounded_nil : IsGrounded [] := by decide

theorem count_concat (names : List String) (name : String) :
    (names ++ [name]).count ".." = names.count ".." + if name = ".." then 1 else 0 := by
  rw [List.count_append, List.count_singleton]
  simp only [beq_iff_eq]

theorem countP_concat (names : List String) (name : String) :
    (names ++ [name]).countP (· ≠ "..") =
      names.countP (· ≠ "..") + if name = ".." then 0 else 1 := by
  rw [List.countP_append, List.countP_singleton]
  by_cases hparent : name = ".." <;> simp [hparent]

theorem isGrounded_concat_iff : IsGrounded (names ++ [name]) ↔ IsGrounded names ∧
    (names ++ [name]).count ".." ≤ (names ++ [name]).countP (· ≠ "..") := by
  simp only [IsGrounded, List.mem_inits, List.prefix_concat_iff, forall_eq_or_imp]
  exact and_comm

namespace IsGrounded

/-- What is left of the names is as many as the names are more than the `..` among them. -/
theorem length_foldl_walk (hgrounded : IsGrounded names) :
    (names.foldl walk []).length + names.count ".." = names.countP (· ≠ "..") := by
  induction names using List.reverseRecOn with
  | nil => rfl
  | append_singleton names name ih =>
      obtain ⟨hnames, hcount⟩ := isGrounded_concat_iff.mp hgrounded
      have hlength := ih hnames
      rw [count_concat, countP_concat] at hcount ⊢
      rw [List.foldl_append, List.foldl_cons, List.foldl_nil, walk]
      by_cases hparent : name = ".."
      · simp only [if_pos hparent, List.length_dropLast] at hcount ⊢
        omega
      · simp only [if_neg hparent, List.length_append, List.length_singleton] at hcount ⊢
        omega

/-- The stack never gets lower than it was at the start. -/
theorem foldl_pile (hgrounded : IsGrounded names) (item : String → Item) (stack : List Item) :
    names.foldl (pile item) stack = stack ++ (names.foldl walk []).map item := by
  induction names using List.reverseRecOn with
  | nil => exact (List.append_nil stack).symm
  | append_singleton names name ih =>
      obtain ⟨hnames, hcount⟩ := isGrounded_concat_iff.mp hgrounded
      have hlength := hnames.length_foldl_walk
      rw [List.foldl_append, List.foldl_append, ih hnames]
      simp only [List.foldl_cons, List.foldl_nil, pile, walk]
      by_cases hparent : name = ".."
      · have hne : (names.foldl walk []).map item ≠ [] := by
          intro hnil
          rw [List.map_eq_nil_iff.mp hnil, List.length_nil] at hlength
          rw [count_concat, countP_concat, if_pos hparent, if_pos hparent] at hcount
          omega
        rw [if_pos hparent, if_pos hparent, List.dropLast_append_of_ne_nil hne, List.map_dropLast]
      · rw [if_neg hparent, if_neg hparent, List.map_append, List.append_assoc]
        rfl

end IsGrounded

/-- Names that are not grounded take away what was on the stack before them. -/
theorem exists_foldl_pile_eq (hgrounded : ¬ IsGrounded names) :
    ∃ rest, rest ⊆ names ∧ ∀ {Item : Type} (item : String → Item) (stack : List Item),
      names.foldl (pile item) stack = rest.foldl (pile item) stack.dropLast := by
  induction names using List.reverseRecOn with
  | nil => exact absurd isGrounded_nil hgrounded
  | append_singleton names name ih =>
      by_cases hnames : IsGrounded names
      · have hlength := hnames.length_foldl_walk
        have hcount : ¬ (names ++ [name]).count ".." ≤ (names ++ [name]).countP (· ≠ "..") :=
          fun hcount => hgrounded (isGrounded_concat_iff.mpr ⟨hnames, hcount⟩)
        rw [count_concat, countP_concat] at hcount
        by_cases hparent : name = ".."
        · have hnil : names.foldl walk [] = [] := by
            apply List.eq_nil_of_length_eq_zero
            rw [if_pos hparent, if_pos hparent] at hcount
            omega
          refine ⟨[], List.nil_subset _, fun item stack => ?_⟩
          rw [List.foldl_append, hnames.foldl_pile, hnil, List.map_nil, List.append_nil]
          simp [pile, hparent]
        · rw [if_neg hparent, if_neg hparent] at hcount
          omega
      · obtain ⟨rest, hrest, hfold⟩ := ih hnames
        refine ⟨rest ++ [name], ?_, fun item stack => ?_⟩
        · exact List.append_subset.mpr
            ⟨List.subset_append_of_subset_left _ hrest, List.subset_append_right _ _⟩
        · rw [List.foldl_append, hfold, List.foldl_append]

/-! ### The place of a normal form -/

theorem isAbsolute_normalize_iff :
    path.normalize.isAbsolute = true ↔ Component.root ∈ path.normal := by
  rw [isAbsolute_iff_root_mem, components_normalize]

theorem names_normalize (path : Path) :
    path.normalize.names = path.normal.filterMap Component.step? := by
  rw [← filterMap_step?_components, components_normalize]

/-- A normal form has no `..`, so it leads down from where it starts. -/
theorem resolve_normalize (path : Path) (start : Location) :
    path.normalize.resolve start =
      (if path.normalize.isAbsolute then [] else start) ++ path.normalize.names := by
  refine foldl_walk_down ?_ _
  intro hparent
  rw [names_normalize, List.mem_filterMap] at hparent
  obtain ⟨component, hmem, hstep⟩ := hparent
  obtain ⟨front, names, hfront, hnames, hnormal⟩ := isNormal_normal path
  rw [hnormal] at hmem
  rcases List.mem_append.mp hmem with hmem | hmem
  · obtain rfl | rfl := hfront
    · cases hmem
    · obtain rfl := List.mem_singleton.mp hmem
      cases hstep
  · obtain ⟨name, hname, rfl⟩ := List.mem_map.mp hmem
    exact (hnames name hname).parent (congrArg String.toList (Option.some.inj hstep))

namespace IsGrounded

theorem normal_eq (hgrounded : IsGrounded path.names) :
    path.normal = path.anchor ++ (path.names.foldl walk []).map Component.name := by
  rw [normal_eq_foldl, hgrounded.foldl_pile]

theorem resolve_eq (hgrounded : IsGrounded path.names) (start : Location) :
    path.resolve start = (if path.isAbsolute then [] else start) ++ path.names.foldl walk [] := by
  rw [resolve, walk_eq_pile, hgrounded.foldl_pile, List.map_id, walk_eq_pile]

theorem isAbsolute_normalize (hgrounded : IsGrounded path.names) :
    path.normalize.isAbsolute = path.isAbsolute := by
  have hnames : Component.root ∉ (path.names.foldl walk []).map Component.name := by
    intro hmem
    obtain ⟨name, -, hname⟩ := List.mem_map.mp hmem
    cases hname
  rw [Bool.eq_iff_iff, isAbsolute_normalize_iff, hgrounded.normal_eq, List.mem_append,
    or_iff_left hnames, anchor]
  split_ifs with habsolute <;> simp [habsolute]

theorem resolve_normalize (hgrounded : IsGrounded path.names) (start : Location) :
    path.normalize.resolve start = path.resolve start := by
  have hnames : path.normalize.names = path.names.foldl walk [] := by
    rw [names_normalize, hgrounded.normal_eq, List.filterMap_append, filterMap_step?_anchor,
      List.nil_append, List.filterMap_map]
    exact List.filterMap_some
  rw [Path.resolve_normalize, hgrounded.isAbsolute_normalize, hnames, hgrounded.resolve_eq]

end IsGrounded

theorem exists_fresh_name (names : List String) :
    ∃ fresh : String, IsName fresh.toList ∧ fresh ∉ names := by
  have hinjective :
      Function.Injective fun count => String.ofList (List.replicate (count + 3) 'a') := by
    intro count other heq
    have hlength := congrArg (fun name : String => name.toList.length) heq
    simpa using hlength
  obtain ⟨fresh, ⟨count, rfl⟩, hfresh⟩ :=
    (Set.infinite_range_of_injective hinjective).exists_notMem_finset names.toFinset
  refine ⟨_, ?_, fun hmem => hfresh (List.mem_toFinset.mpr hmem)⟩
  rw [String.toList_ofList]
  refine .of_length ?_ (by simp)
  intro hslash
  exact absurd (List.eq_of_mem_replicate hslash) (by decide)

def SamePlace (path other : Path) : Prop :=
  ∀ directory : Path, directory.isAbsolute = true →
    (directory.join path).resolve [] = (directory.join other).resolve []

theorem samePlace_of_resolve (hresolve : ∀ start, path.resolve start = other.resolve start) :
    path.SamePlace other := by
  intro directory _
  rw [resolve_join, resolve_join, hresolve]

/-- From the root, and from a directory just below it. -/
theorem SamePlace.resolve_eq (hsame : path.SamePlace other) :
    path.resolve [] = other.resolve [] ∧
      ∀ name : String, IsName name.toList → path.resolve [name] = other.resolve [name] := by
  have hroot : resolve ⟨"/"⟩ [] = [] := by decide
  constructor
  · have hplace := hsame ⟨"/"⟩ (by decide)
    rwa [resolve_join, resolve_join, hroot] at hplace
  · intro name hname
    have habsolute : ((Path.mk "/").join ⟨name⟩).isAbsolute = true :=
      isAbsolute_join hname.isAbsolute_eq
    have hbelow : ((Path.mk "/").join ⟨name⟩).resolve [] = [name] := by
      rw [hname.resolve_join, hroot, List.nil_append]
    have hplace := hsame _ habsolute
    rwa [resolve_join _ path, resolve_join _ other, hbelow] at hplace

/-- A path that is not grounded loses its root, or it leads somewhere else than its normal form. -/
theorem isGrounded_of_samePlace (habsolute : path.normalize.isAbsolute = path.isAbsolute)
    (hsame : path.normalize.SamePlace path) : IsGrounded path.names := by
  by_contra hgrounded
  obtain ⟨rest, hrest, hfold⟩ := exists_foldl_pile_eq hgrounded
  by_cases hroot : path.isAbsolute = true
  · have hanchor : path.anchor.dropLast = [] := by rw [anchor, if_pos hroot]; rfl
    have hmem := isAbsolute_normalize_iff.mp (habsolute.trans hroot)
    rw [normal_eq_foldl, hfold, hanchor] at hmem
    rcases mem_foldl_pile hmem with hnil | ⟨name, -, -, hname⟩
    · cases hnil
    · cases hname
  · obtain ⟨fresh, hname, hfresh⟩ := exists_fresh_name path.names
    have hplace := hsame.resolve_eq.2 fresh hname
    rw [resolve_normalize, habsolute, if_neg hroot, resolve, if_neg hroot, walk_eq_pile, hfold]
      at hplace
    have hmem : fresh ∈ rest.foldl (pile id) [fresh].dropLast := by
      rw [← hplace]
      exact List.mem_append_left _ (List.mem_singleton_self fresh)
    rcases mem_foldl_pile hmem with hnil | ⟨name, hname, -, rfl⟩
    · cases hnil
    · exact hfresh (hrest hname)

theorem IsGrounded.normal_eq_of_samePlace (hgrounded : IsGrounded path.names)
    (hother : IsGrounded other.names) (hsame : path.SamePlace other) :
    path.normal = other.normal := by
  obtain ⟨hroot, hbelow⟩ := hsame.resolve_eq
  have hplace := hbelow "aaa" (.of_length (by decide) (by decide))
  rw [hgrounded.resolve_eq, hother.resolve_eq] at hroot hplace
  have hnames : path.names.foldl walk [] = other.names.foldl walk [] := by simpa using hroot
  have habsolute : path.isAbsolute = other.isAbsolute := by
    rw [hnames, List.append_cancel_right_eq] at hplace
    cases hpath : path.isAbsolute <;> cases hsecond : other.isAbsolute <;>
      simp [hpath, hsecond] at hplace <;> rfl
  rw [hgrounded.normal_eq, hother.normal_eq, hnames, anchor, anchor, habsolute]

/-- **A normal form leads where its path leads** if and only if every `..` on the path has a name
before it to take away. Two paths of which this is true share an entry of a tree in memory if and
only if they lead to the same place from every directory. -/
theorem normalize_samePlace_iff (path : Path) :
    (path.normalize.isAbsolute = path.isAbsolute ∧ path.normalize.SamePlace path ↔
      IsGrounded path.names) ∧
    ∀ other : Path, IsGrounded path.names → IsGrounded other.names →
      ((∀ memory : Memory, memory.get? path = memory.get? other) ↔ path.SamePlace other) := by
  refine ⟨⟨fun ⟨habsolute, hsame⟩ => isGrounded_of_samePlace habsolute hsame, ?_⟩, ?_⟩
  · intro hgrounded
    exact ⟨hgrounded.isAbsolute_normalize, samePlace_of_resolve hgrounded.resolve_normalize⟩
  · intro other hgrounded hother
    rw [Memory.forall_get?_eq_iff]
    constructor
    · intro hnormal
      refine samePlace_of_resolve fun start => ?_
      calc
        path.resolve start = path.normalize.resolve start :=
          (hgrounded.resolve_normalize start).symm
        _ = other.normalize.resolve start := by rw [normalize, normalize, hnormal]
        _ = other.resolve start := hother.resolve_normalize start
    · exact hgrounded.normal_eq_of_samePlace hother

/-- A `..` at the root takes the root away, and one at the start of a path is lost. -/
theorem normalize_astray_of_parent :
    let top : Path := ⟨"/../a.ts"⟩
    let above : Path := ⟨"../a.ts"⟩
    let here : Path := ⟨"a.ts"⟩
    let directory : Path := ⟨"/lib"⟩
    top.isAbsolute = true ∧ top.normalize.isAbsolute = false ∧
      top.normalize = here ∧ above.normalize = here ∧ directory.isAbsolute = true ∧
      (directory.join top).resolve [] = ["a.ts"] ∧ (directory.join above).resolve [] = ["a.ts"] ∧
      (directory.join here).resolve [] = ["lib", "a.ts"] ∧
      ∀ memory : Memory, memory.get? top = memory.get? here ∧
        memory.get? above = memory.get? here := by
  intro top above here directory
  have htop : top.normal = here.normal := by decide
  have habove : above.normal = here.normal := by decide
  refine ⟨by decide, by decide, by decide, by decide, by decide, by decide, by decide, by decide,
    ?_⟩
  intro memory
  exact ⟨Memory.forall_get?_eq_iff.mpr htop memory, Memory.forall_get?_eq_iff.mpr habove memory⟩

end Path

end StoryKnobs

import Mathlib.Data.List.Nodup
import StoryKnobs.FileTree.Memory
import StoryKnobs.Proofs.NormalForms

/-!
# Keeping files in memory

A new text is found at every path with the same normal form, and at no other path anything changes.
The files stay in the order of their paths, which are in normal form.
-/

namespace StoryKnobs.Memory

open StoryKnobs.Path (Component)

variable {memory : Memory} {path other : Path} {key place : List Component} {text : String}
  {files : List (List Component × String)}

/-! ### Finding texts -/

theorem lookup_put_self (key : List Component) (text : String)
    (files : List (List Component × String)) : (put key text files).lookup key = some text := by
  induction files with
  | nil => simp [put]
  | cons file files ih =>
      rw [put]
      split_ifs with hbefore heq
      · simp
      · simp
      · rw [List.lookup_cons, beq_eq_false_iff_ne.mpr heq]
        exact ih

theorem lookup_put_of_ne (hne : place ≠ key) (text : String)
    (files : List (List Component × String)) :
    (put key text files).lookup place = files.lookup place := by
  have hplace : (place == key) = false := beq_eq_false_iff_ne.mpr hne
  induction files with
  | nil => simp [put, hne]
  | cons file files ih =>
      rw [put]
      split_ifs with hbefore heq
      · rw [List.lookup_cons, hplace]
      · rw [List.lookup_cons, List.lookup_cons, ← heq, hplace]
      · rw [List.lookup_cons, List.lookup_cons, ih]

theorem lookup_put (key place : List Component) (text : String)
    (files : List (List Component × String)) :
    (put key text files).lookup place = if place = key then some text else files.lookup place := by
  split_ifs with heq
  · rw [heq, lookup_put_self]
  · exact lookup_put_of_ne heq text files

theorem get?_insert (memory : Memory) (path : Path) (text : String) (other : Path) :
    (memory.insert path text).get? other =
      if other.normal = path.normal then some text else memory.get? other :=
  lookup_put path.normal other.normal text memory.files

theorem contains_eq_isSome (memory : Memory) (path : Path) :
    memory.contains path = (memory.get? path).isSome := rfl

theorem writeNew_of_get?_eq_none (hnone : memory.get? path = none) (text : String) :
    memory.writeNew path text = (.written, memory.insert path text) := by
  rw [writeNew, contains_eq_isSome, hnone]
  rfl

theorem writeNew_of_get?_eq_some {old : String} (hsome : memory.get? path = some old)
    (text : String) : memory.writeNew path text = (.alreadyExists, memory) := by
  rw [writeNew, contains_eq_isSome, hsome]
  rfl

theorem get?_writeNew (memory : Memory) (path : Path) (text : String) (other : Path) :
    (memory.writeNew path text).2.get? other =
      (memory.get? other).or (if path.normal = other.normal then some text else none) := by
  have hget (heq : path.normal = other.normal) : memory.get? path = memory.get? other := by
    rw [get?, get?, heq]
  cases hpath : memory.get? path with
  | none =>
      rw [writeNew_of_get?_eq_none hpath, get?_insert]
      by_cases heq : path.normal = other.normal
      · rw [if_pos heq.symm, if_pos heq, ← hget heq, hpath, Option.none_or]
      · rw [if_neg fun hother => heq hother.symm, if_neg heq, Option.or_none]
  | some old =>
      rw [writeNew_of_get?_eq_some hpath]
      by_cases heq : path.normal = other.normal
      · rw [← hget heq, hpath, Option.some_or]
      · rw [if_neg heq, Option.or_none]

theorem read_eq_ok_iff : memory.read path = .ok text ↔ memory.get? path = some text := by
  rw [read]
  cases memory.get? path with
  | none => exact iff_of_false nofun nofun
  | some found => rw [Except.ok.injEq, Option.some.injEq]

/-! ### The order of the files -/

/-- The files are in the order of their paths, which are in normal form. -/
structure Ordered (memory : Memory) : Prop where
  sorted : memory.files.Pairwise fun file other => Path.before file.1 other.1 = true
  normal : ∀ file ∈ memory.files, Path.IsNormal file.1

theorem mem_put {file : List Component × String} (hmem : file ∈ put key text files) :
    file = (key, text) ∨ file ∈ files := by
  induction files with
  | nil => exact .inl (List.mem_singleton.mp hmem)
  | cons first files ih =>
      rw [put] at hmem
      split_ifs at hmem with hbefore heq
      · exact List.mem_cons.mp hmem
      · exact (List.mem_cons.mp hmem).imp_right (List.mem_cons_of_mem first)
      · rcases List.mem_cons.mp hmem with rfl | hmem
        · exact .inr List.mem_cons_self
        · exact (ih hmem).imp_right (List.mem_cons_of_mem first)

theorem pairwise_put
    (hsorted : files.Pairwise fun file other => Path.before file.1 other.1 = true) :
    (put key text files).Pairwise fun file other => Path.before file.1 other.1 = true := by
  induction files with
  | nil => simp [put]
  | cons first files ih =>
      obtain ⟨hfirst, hfiles⟩ := List.pairwise_cons.mp hsorted
      rw [put]
      split_ifs with hbefore heq
      · refine List.pairwise_cons.mpr ⟨?_, hsorted⟩
        intro file hmem
        rcases List.mem_cons.mp hmem with rfl | hmem
        · exact hbefore
        · exact Path.before_trans hbefore (hfirst file hmem)
      · rw [heq]
        exact List.pairwise_cons.mpr ⟨hfirst, hfiles⟩
      · refine List.pairwise_cons.mpr ⟨?_, ih hfiles⟩
        intro file hmem
        rcases mem_put hmem with rfl | hmem
        · exact Path.before_of_not_before (Ne.symm heq) (by simpa using hbefore)
        · exact hfirst file hmem

theorem ordered_empty : Ordered empty := ⟨List.Pairwise.nil, by simp [empty]⟩

theorem Ordered.insert (hordered : memory.Ordered) (path : Path) (text : String) :
    (memory.insert path text).Ordered where
  sorted := pairwise_put hordered.sorted
  normal file hmem := by
    rcases mem_put hmem with rfl | hmem
    · exact Path.isNormal_normal path
    · exact hordered.normal file hmem

theorem Ordered.writeNew (hordered : memory.Ordered) (path : Path) (text : String) :
    (memory.writeNew path text).2.Ordered := by
  rw [Memory.writeNew]
  split_ifs
  · exact hordered
  · exact hordered.insert path text

theorem ordered_ofFiles (files : List (Path × String)) : (ofFiles files).Ordered := by
  have hall : ∀ memory : Memory, memory.Ordered →
      (files.foldl (fun memory file => memory.insert file.1 file.2) memory).Ordered := by
    induction files with
    | nil => exact fun _ hordered => hordered
    | cons file files ih => exact fun _ hordered => ih _ (hordered.insert file.1 file.2)
  exact hall empty ordered_empty

theorem put_perm (hnone : files.lookup key = none) :
    (put key text files).Perm ((key, text) :: files) := by
  induction files with
  | nil => exact .refl _
  | cons first files ih =>
      rw [List.lookup_cons] at hnone
      rw [put]
      split_ifs with hbefore heq
      · exact .refl _
      · rw [heq, beq_self_eq_true] at hnone
        cases hnone
      · rw [beq_eq_false_iff_ne.mpr heq] at hnone
        exact ((ih hnone).cons first).trans (.swap _ _ _)

theorem paths_insert_perm (hnone : memory.get? path = none) (text : String) :
    (memory.insert path text).paths.Perm (path.normalize :: memory.paths) :=
  (put_perm hnone).map fun file : List Component × String => Path.ofComponents file.1

namespace Ordered

theorem normalize_mem_paths_iff (hordered : memory.Ordered) :
    path.normalize ∈ memory.paths ↔ memory.get? path ≠ none := by
  rw [paths, List.mem_map, get?, Ne, List.lookup_eq_none_iff]
  constructor
  · rintro ⟨file, hmem, hfile⟩ hnone
    have hnormal := congrArg Path.normal hfile
    rw [(hordered.normal file hmem).normal_ofComponents, Path.normal_normalize] at hnormal
    simpa [hnormal] using hnone file hmem
  · intro hsome
    push Not at hsome
    obtain ⟨file, hmem, hfile⟩ := hsome
    refine ⟨file, hmem, ?_⟩
    rw [Path.normalize, show path.normal = file.1 by simpa using hfile]

theorem pairwise_paths (hordered : memory.Ordered) :
    memory.paths.Pairwise fun path other =>
      Path.before path.components other.components = true := by
  rw [paths, List.pairwise_map]
  refine hordered.sorted.imp_of_mem ?_
  intro file other hfile hother hbefore
  rwa [(hordered.normal file hfile).components_ofComponents,
    (hordered.normal other hother).components_ofComponents]

theorem nodup_paths (hordered : memory.Ordered) : memory.paths.Nodup := by
  refine hordered.pairwise_paths.imp ?_
  rintro path _ hbefore rfl
  rw [Path.before_irrefl] at hbefore
  cases hbefore

theorem normalize_eq (hordered : memory.Ordered) (hpath : path ∈ memory.paths) :
    path.normalize = path := by
  obtain ⟨file, hmem, rfl⟩ := List.mem_map.mp hpath
  rw [Path.normalize, (hordered.normal file hmem).normal_ofComponents]

theorem ne_current_and_ne_parent (hordered : memory.Ordered) (hpath : path ∈ memory.paths)
    {component : Component} (hcomponent : component ∈ path.components) :
    component ≠ .current ∧ component ≠ .parent := by
  obtain ⟨file, hmem, rfl⟩ := List.mem_map.mp hpath
  have hnormal := hordered.normal file hmem
  rw [hnormal.components_ofComponents] at hcomponent
  exact hnormal.ne_current_and_ne_parent hcomponent

end Ordered

end StoryKnobs.Memory

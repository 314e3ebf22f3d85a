import Mathlib.Data.List.Pairwise
import StoryKnobs.Proofs.Operations

/-!
# Stories in any order

Two schemas are independent if the story of neither is the story or the component of the other.
Making the story of one of them then leaves alone all that decides about the story of the other one.
So the stories of independent schemas can be made in any order: each time the same happens to each
of them, and the tree is the same at the end.
-/

namespace StoryKnobs

open StoryKnobs.Path (Component)

namespace Memory

variable {memory : Memory} {path other : Path} {key place : List Component}

theorem put_comm_of_before (hbefore : Path.before key place = true) (text more : String)
    (files : List (List Component × String)) :
    put key text (put place more files) = put place more (put key text files) := by
  have hnot : Path.before place key = false := by
    by_contra hplace
    have hself := Path.before_trans hbefore (by simpa using hplace)
    rw [Path.before_irrefl] at hself
    cases hself
  have hne : place ≠ key := by
    rintro rfl
    rw [hbefore] at hnot
    cases hnot
  have hkey (rest : List (List Component × String)) :
      put place more ((key, text) :: rest) = (key, text) :: put place more rest := by
    rw [put, if_neg (by simp [hnot]), if_neg hne]
  have hplace (old : String) (rest : List (List Component × String)) :
      put key text ((place, old) :: rest) = (key, text) :: (place, old) :: rest := by
    rw [put, if_pos hbefore]
  induction files with
  | nil => rw [put, put, hplace, hkey, put]
  | cons file files ih =>
      obtain ⟨first, old⟩ := file
      by_cases hfirst : Path.before place first = true
      · have hkeyFirst : Path.before key first = true := Path.before_trans hbefore hfirst
        rw [put, if_pos hfirst, hplace, put, if_pos hkeyFirst, hkey, put, if_pos hfirst]
      · by_cases heq : place = first
        · subst heq
          rw [put, if_neg hfirst, if_pos rfl, hplace, hplace, hkey, put, if_neg hfirst, if_pos rfl]
        · have hput (rest : List (List Component × String)) :
              put place more ((first, old) :: rest) = (first, old) :: put place more rest := by
            rw [put, if_neg hfirst, if_neg heq]
          rw [hput, put]
          split_ifs with hkeyFirst hkeyEq
          · rw [put, if_pos hkeyFirst, hkey, hput]
          · rw [put, if_neg hkeyFirst, if_pos hkeyEq, hkey]
          · rw [put, if_neg hkeyFirst, if_neg hkeyEq, hput, ih]

/-- Texts for different places can be put in one after another in any order. -/
theorem put_comm (hne : key ≠ place) (text more : String)
    (files : List (List Component × String)) :
    put key text (put place more files) = put place more (put key text files) := by
  by_cases hbefore : Path.before key place = true
  · exact put_comm_of_before hbefore text more files
  · have hafter : Path.before place key = true :=
      Path.before_of_not_before hne.symm (by simpa using hbefore)
    exact (put_comm_of_before hafter more text files).symm

theorem insert_comm (hne : path.normal ≠ other.normal) (text more : String) (memory : Memory) :
    (memory.insert path text).insert other more = (memory.insert other more).insert path text := by
  rw [insert, insert, insert, insert, put_comm hne.symm]

theorem get?_writeNew_of_ne (hne : path.normal ≠ other.normal) (text : String) (memory : Memory) :
    (memory.writeNew path text).2.get? other = memory.get? other := by
  rw [get?_writeNew, if_neg hne, Option.or_none]

theorem writeNew_comm (hne : path.normal ≠ other.normal) (text more : String) (memory : Memory) :
    ((memory.writeNew path text).2.writeNew other more).2 =
      ((memory.writeNew other more).2.writeNew path text).2 := by
  have hother : (memory.writeNew path text).2.get? other = memory.get? other :=
    get?_writeNew_of_ne hne text memory
  have hpath : (memory.writeNew other more).2.get? path = memory.get? path :=
    get?_writeNew_of_ne hne.symm more memory
  cases hgetPath : memory.get? path with
  | some old =>
      rw [writeNew_of_get?_eq_some (hpath.trans hgetPath), writeNew_of_get?_eq_some hgetPath]
  | none =>
      cases hgetOther : memory.get? other with
      | some old =>
          rw [writeNew_of_get?_eq_some (hother.trans hgetOther),
            writeNew_of_get?_eq_some hgetOther]
      | none =>
          rw [writeNew_of_get?_eq_none (hother.trans hgetOther),
            writeNew_of_get?_eq_none (hpath.trans hgetPath), writeNew_of_get?_eq_none hgetPath,
            writeNew_of_get?_eq_none hgetOther]
          exact insert_comm hne text more memory

end Memory

namespace Schema

/-- Neither of two stories is the other one, or the component of the other one. -/
structure Independent (schema other : Schema) : Prop where
  story : schema.storyPath.normal ≠ other.storyPath.normal
  source : schema.storyPath.normal ≠ other.sourcePath.normal
  source' : other.storyPath.normal ≠ schema.sourcePath.normal

instance (schema other : Schema) : Decidable (Independent schema other) :=
  decidable_of_iff (schema.storyPath.normal ≠ other.storyPath.normal ∧
      schema.storyPath.normal ≠ other.sourcePath.normal ∧
      other.storyPath.normal ≠ schema.sourcePath.normal)
    ⟨fun ⟨hstory, hsource, hsource'⟩ => ⟨hstory, hsource, hsource'⟩,
    fun ⟨hstory, hsource, hsource'⟩ => ⟨hstory, hsource, hsource'⟩⟩

instance : Std.Symm Independent :=
  ⟨fun _ _ hindependent =>
    ⟨hindependent.story.symm, hindependent.source', hindependent.source⟩⟩

end Schema

namespace Operation

open Schema (Independent)

variable {memory made : Memory} {schema other : Schema} {schemas others : List Schema}

/-- What happens to a story is decided by the texts of its component and at its path. -/
theorem generate_run_fst_congr (hsource : made.get? schema.sourcePath = memory.get? schema.sourcePath)
    (hstory : made.get? schema.storyPath = memory.get? schema.storyPath) :
    ((generate schema).run made).1 = ((generate schema).run memory).1 := by
  cases htext : memory.get? schema.sourcePath with
  | none => rw [generate_run_of_none htext, generate_run_of_none (hsource.trans htext)]
  | some text =>
      rw [generate_run_of_some htext, generate_run_of_some (hsource.trans htext)]
      cases hold : memory.get? schema.storyPath with
      | none =>
          rw [Memory.writeNew_of_get?_eq_none hold,
            Memory.writeNew_of_get?_eq_none (hstory.trans hold)]
      | some old =>
          rw [Memory.writeNew_of_get?_eq_some hold,
            Memory.writeNew_of_get?_eq_some (hstory.trans hold)]

theorem get?_generate_run {path : Path} (hne : schema.storyPath.normal ≠ path.normal)
    (memory : Memory) : ((generate schema).run memory).2.get? path = memory.get? path := by
  cases hsource : memory.get? schema.sourcePath with
  | none => rw [generate_run_of_none hsource]
  | some text =>
      rw [generate_run_of_some hsource]
      exact Memory.get?_writeNew_of_ne hne _ memory

theorem generate_run_fst_of_independent (hindependent : Independent other schema)
    (memory : Memory) :
    ((generate schema).run ((generate other).run memory).2).1 =
      ((generate schema).run memory).1 :=
  generate_run_fst_congr (get?_generate_run hindependent.source memory)
    (get?_generate_run hindependent.story memory)

theorem generate_run_comm (hindependent : Independent schema other) (memory : Memory) :
    ((generate other).run ((generate schema).run memory).2).2 =
      ((generate schema).run ((generate other).run memory).2).2 := by
  have hother := get?_generate_run hindependent.source memory
  have hschema := get?_generate_run hindependent.source' memory
  cases hsource : memory.get? schema.sourcePath with
  | none => rw [generate_run_of_none (hschema.trans hsource), generate_run_of_none hsource]
  | some text =>
      cases hsource' : memory.get? other.sourcePath with
      | none => rw [generate_run_of_none (hother.trans hsource'), generate_run_of_none hsource']
      | some text' =>
          rw [generate_run_of_some (hother.trans hsource'),
            generate_run_of_some (hschema.trans hsource), generate_run_of_some hsource,
            generate_run_of_some hsource']
          exact Memory.writeNew_comm hindependent.story _ _ memory

/-- Of independent schemas, each one fares as if it were the only one. -/
theorem map_fst_trace_generate (hindependent : schemas.Pairwise Independent) (memory : Memory) :
    (trace (schemas.map generate) memory).map Prod.fst =
      schemas.map fun schema => ((generate schema).run memory).1 := by
  induction schemas generalizing memory with
  | nil => rfl
  | cons schema schemas ih =>
      obtain ⟨hschema, hschemas⟩ := List.pairwise_cons.mp hindependent
      rw [List.map_cons, trace, List.map_cons, ih hschemas, List.map_cons, List.cons.injEq]
      refine ⟨rfl, List.map_congr_left fun other hother => ?_⟩
      exact generate_run_fst_of_independent (hschema other hother) memory

theorem after_generate_perm (hindependent : schemas.Pairwise Independent)
    (hperm : others.Perm schemas) (memory : Memory) :
    after (others.map generate) memory = after (schemas.map generate) memory := by
  rw [after, after, List.foldl_map, List.foldl_map]
  refine (hperm.symm.foldl_eq' ?_ memory).symm
  intro schema hschema other hother memory
  by_cases heq : schema = other
  · rw [heq]
  · exact generate_run_comm
      (hindependent.forall hschema hother heq) memory

end Operation

namespace Schema

/-- **Stories can be made in any order.** If no story is another one or the component of another
one, then in each order of the schemas the same happens to each of them, namely what would happen if
it were the only one, and at the end the tree is the same. -/
theorem generate_in_any_order {schemas others : List Schema}
    (hindependent : schemas.Pairwise Independent) (hperm : others.Perm schemas) (memory : Memory) :
    (Operation.trace (others.map .generate) memory).map Prod.fst =
        others.map (fun schema => ((Operation.generate schema).run memory).1) ∧
      Operation.after (others.map .generate) memory =
        Operation.after (schemas.map .generate) memory := by
  have hothers : others.Pairwise Independent :=
    hindependent.perm hperm.symm fun hschema => symm hschema
  exact ⟨Operation.map_fst_trace_generate hothers memory,
    Operation.after_generate_perm hindependent hperm memory⟩

theorem generate_in_any_order_shelf :
    let badge : Schema := ⟨"lib", "ui.module.ts", "UiModule", "Badge", "badge", "badge.component"⟩
    let card : Schema := ⟨"lib/card/..", "ui.module.ts", "UiModule", "Card", "./card", "card"⟩
    let chip : Schema := ⟨"/lib", "ui.module.ts", "UiModule", "Chip", "chip", "chip.component"⟩
    let memory := Memory.ofFiles [(⟨"lib/badge/badge.component.ts"⟩, ""),
      (⟨"lib/card/card.ts"⟩, ""), (⟨"lib/card/card.stories.ts"⟩, "mine")]
    [badge, card, chip].Pairwise Independent ∧
      [chip, card, badge].Perm [badge, card, chip] ∧
      (Operation.trace [.generate chip, .generate card, .generate badge] memory).map Prod.fst =
        [((Operation.generate chip).run memory).1, ((Operation.generate card).run memory).1,
          ((Operation.generate badge).run memory).1] ∧
      Operation.after [.generate chip, .generate card, .generate badge] memory =
        Operation.after [.generate badge, .generate card, .generate chip] memory := by
  intro badge card chip memory
  have hindependent : [badge, card, chip].Pairwise Independent := by decide +kernel
  have hperm : [chip, card, badge].Perm [badge, card, chip] := by decide +kernel
  exact ⟨hindependent, hperm, generate_in_any_order hindependent hperm memory⟩

end Schema

end StoryKnobs

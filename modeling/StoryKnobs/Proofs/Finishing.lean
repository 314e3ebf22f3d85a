import Mathlib.Algebra.Order.BigOperators.Group.Finset
import Mathlib.Data.List.Infix
import Mathlib.Data.Set.Finite.Lattice
import StoryKnobs.Proofs.Race

/-!
# Writers finish

A writer makes six calls at most, and no writer waits for another one: as long as it has not
finished, it can make its next call, whatever the others have done. So any number of writers can go
on until all have finished.
-/

namespace StoryKnobs.Disk

open Relation (ReflTransGen)

variable {ι : Type} {writer : Writer} {writers : ι → Writer} {disk other : Disk}
  {phase next : Phase} {reserved : Location → Prop}

/-! ### One writer -/

def Phase.callsLeft : Phase → Nat
  | .looking => 6
  | .making => 5
  | .staging => 4
  | .filling _ => 3
  | .publishing _ => 2
  | .discarding _ _ => 1
  | .finished _ => 0

theorem Writer.Step.callsLeft_lt (hstep : writer.Step reserved (disk, phase) (other, next)) :
    next.callsLeft < phase.callsLeft := by
  cases hstep <;> simp [Phase.callsLeft]

theorem Writer.exists_step_of_staging (writer : Writer) (disk : Disk)
    (hfree : ∀ above, ∃ name,
      disk.entry? (above ++ [name]) = none ∧ ¬ reserved (above ++ [name])) :
    ∃ after, writer.Step reserved (disk, .staging) after := by
  cases hfind : disk.find (stagingDirectory writer.path) with
  | error error =>
      have hstage : disk.stageAs (stagingDirectory writer.path) "" = .error error := by
        rw [stageAs, hfind]
        rfl
      refine ⟨_, .unstaged hstage ?_⟩
      rintro rfl
      exact find_ne_alreadyExists hfind
  | ok found =>
      obtain ⟨above, entry⟩ := found
      cases entry with
      | file bytes =>
          have hstage : disk.stageAs (stagingDirectory writer.path) "" = .error .notADirectory := by
            rw [stageAs, hfind]
            rfl
          exact ⟨_, .unstaged hstage (by simp)⟩
      | directory =>
          obtain ⟨name, hnone, hreserved⟩ := hfree above
          have hstage := stageAs_eq hfind name
          rw [if_pos hnone] at hstage
          exact ⟨_, .staged hstage hreserved⟩

/-- A writer has a next call until it has finished, as long as there is a name for its text. -/
theorem Writer.exists_step (writer : Writer) (disk : Disk)
    (hunfinished : ∀ result, phase ≠ .finished result)
    (hfree : ∀ above, ∃ name,
      disk.entry? (above ++ [name]) = none ∧ ¬ reserved (above ++ [name])) :
    ∃ after, writer.Step reserved (disk, phase) after := by
  cases phase with
  | looking =>
      cases hlook : disk.contains writer.path with
      | true => exact ⟨_, .found hlook⟩
      | false => exact ⟨_, .missed hlook⟩
  | making =>
      obtain ⟨result, made, hmake⟩ : ∃ result made, disk.makeParent writer.path = (result, made) :=
        ⟨_, _, rfl⟩
      cases result with
      | ok value => exact ⟨_, .made hmake⟩
      | error error => exact ⟨_, .unmade hmake⟩
  | staging => exact writer.exists_step_of_staging disk hfree
  | filling staged => exact ⟨_, .filled⟩
  | publishing staged =>
      cases hpublish : disk.publish staged writer.path with
      | ok published => exact ⟨_, .published hpublish⟩
      | error error => exact ⟨_, .refused hpublish⟩
  | discarding staged result => exact ⟨_, .discarded⟩
  | finished result => exact absurd rfl (hunfinished result)

namespace Race

variable {race later : Race ι}

/-! ### Any number of writers -/

/-- There are more names for a text than are taken or lead to the place of a writer. -/
theorem exists_unclaimed_name [Finite ι] (race : Race ι) (writers : ι → Writer)
    (above : Location) :
    ∃ name, race.disk.entry? (above ++ [name]) = none ∧
      ¬ race.IsClaimed writers (above ++ [name]) := by
  let claimed : Set Location :=
    ⋃ index, {place | place ∈ (race.disk.placeOf (writers index).path).inits}
  let taken : Set Location := {place | place ∈ race.disk.entries.map Prod.fst}
  have hinjective : Function.Injective fun number => above ++ [stagedName number] :=
    fun number other heq => stagedName_injective (by simpa using heq)
  -- Each path leads through finitely many places, and there are finitely many writers.
  have hfinite : (claimed ∪ taken).Finite :=
    (Set.finite_iUnion fun index => List.finite_toSet _).union (List.finite_toSet _)
  obtain ⟨place, ⟨number, rfl⟩, hfree⟩ :=
    (Set.infinite_range_of_injective hinjective).exists_notMem_finite hfinite
  rw [Set.mem_union, not_or] at hfree
  refine ⟨stagedName number, ?_, ?_⟩
  · by_contra hentry
    obtain ⟨found, hfound⟩ := Option.ne_none_iff_exists'.mp hentry
    exact hfree.2 (List.mem_map.mpr ⟨_, mem_entries (by simp) hfound, rfl⟩)
  · rintro ⟨index, hbegins⟩
    exact hfree.1 (Set.mem_iUnion.mpr ⟨index, (List.mem_inits _ _).mpr hbegins⟩)

variable [DecidableEq ι]

theorem Step.sum_callsLeft_lt [Fintype ι] (hstep : Step writers race later) :
    ∑ index, (later.phase index).callsLeft < ∑ index, (race.phase index).callsLeft := by
  cases hstep with
  | call index hcall =>
      refine Finset.sum_lt_sum (fun other _ => ?_) ⟨index, Finset.mem_univ index, ?_⟩
      · rw [phase_advance]
        split_ifs with heq
        · exact heq ▸ hcall.callsLeft_lt.le
        · exact le_rfl
      · rw [phase_advance, if_pos rfl]
        exact hcall.callsLeft_lt

/-- **Writers finish.** However far the writers have come and whatever the disk holds, they can go
on until all have finished. -/
theorem exists_finished [Finite ι] (writers : ι → Writer) (race : Race ι) :
    ∃ later, ReflTransGen (Step writers) race later ∧ ∀ index, later.HasFinished index := by
  have := Fintype.ofFinite ι
  -- By induction on the calls that are left to all writers together.
  induction hcalls : ∑ index, (race.phase index).callsLeft using Nat.strong_induction_on
    generalizing race with
  | _ calls ih =>
      by_cases hfinished : ∀ index, race.HasFinished index
      · exact ⟨race, .refl, hfinished⟩
      · obtain ⟨index, hunfinished⟩ := not_forall.mp hfinished
        obtain ⟨⟨after, next⟩, hcall⟩ := (writers index).exists_step race.disk
          (fun result hphase => hunfinished ⟨result, hphase⟩) (race.exists_unclaimed_name writers)
        have hstep : Step writers race (race.advance index after next) := .call index hcall
        obtain ⟨later, hrun, hlater⟩ := ih _ (hcalls ▸ hstep.sum_callsLeft_lt) _ rfl
        exact ⟨later, .head hstep hrun, hlater⟩

end Race

end StoryKnobs.Disk
